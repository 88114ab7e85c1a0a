import Pascal.Proofs.Session.Visibility

/-!
# Predefined names

A new session has no names but those of the System unit, and finds each declaration under its name
in the scope that it is made in. A unit that declares nothing of the name finds what the System unit
declares.
-/

namespace Pascal

open Environment

namespace Environment

/-- The declarations made for a folded name in a scope, in order. -/
def declaredIn (env : Environment) (s : ScopeId) (n : FoldedName) : List DeclId :=
  ((List.range env.symbols.size).map DeclId.mk).filter fun d =>
    (env.declaration d).scope = s ∧ Name.fold (env.declaration d).name = n

/-- Every declaration is found in its scope. -/
def Listed (env : Environment) : Prop :=
  ∀ s n, env.symbols.findFolded s n = env.declaredIn s n

variable {env env' : Environment} {file : ScopeId} {known : ScopeId → Prop}

theorem declaredIn_add (env : Environment) (scope : ScopeId) (spec : DeclarationSpec) (s : ScopeId)
    (n : FoldedName) :
    (env.add scope spec).2.declaredIn s n = env.declaredIn s n ++
      if s = scope ∧ n = Name.fold spec.name then [⟨env.symbols.size⟩] else [] := by
  have size : (env.add scope spec).2.symbols.size = env.symbols.size + 1 := SymbolTable.size_add
  have old : ∀ d ∈ (List.range env.symbols.size).map DeclId.mk,
      (env.add scope spec).2.declaration d = env.declaration d := by
    simp only [List.forall_mem_map, List.mem_range]
    exact fun i hi => (extends_add env scope spec).decl ⟨i⟩ hi
  obtain ⟨place, spelled⟩ := @declaration_add_new env scope spec
  have name := congrArg DeclarationSpec.name spelled
  rw [declaredIn, size, List.range_succ, List.map_append, List.filter_append, declaredIn]
  congr 1
  · exact List.filter_congr fun d hd => by rw [old d hd]
  · simp only [List.map_singleton, List.filter_singleton, place, name,
      Bool.cond_decide, eq_comm]

theorem Listed.add (h : env.Listed) (scope : ScopeId) (spec : DeclarationSpec) :
    (env.add scope spec).2.Listed := by
  intro s n
  rw [declaredIn_add, ← h s n]
  exact SymbolTable.findFolded_add n

theorem Step.listed (step : env.Step file known env') (h : env.Listed) : env'.Listed := by
  cases step with
  | declare scope spec => exact h.add scope spec
  | types | create | adapt | use => exact h

theorem Steps.listed (steps : env.Steps file known env') (h : env.Listed) : env'.Listed :=
  steps.keeps (fun step h => step.listed h) h

end Environment

namespace SystemUnit

theorem listed_blank (settings : Settings) : (blank settings).Listed := by
  intro s n
  rw [findFolded_blank]
  simp [blank, declaredIn, SymbolTable.size]

end SystemUnit

namespace Session

variable {session : Session}

theorem listed_start (settings : Settings) : (start settings).env.Listed := by
  obtain ⟨env, steps, built⟩ := SystemUnit.steps_build settings ⟨0⟩ fun _ => False
  change (SystemUnit.build settings).2.Listed
  rw [built]
  exact steps.listed (SystemUnit.listed_blank settings)

/-- A unit that declares nothing but itself finds what the System unit declares. -/
theorem Valid.find_openUnit (h : session.Valid) {unit name : String}
    (other : Name.fold name ≠ Name.fold unit)
    (declared : session.env.symbols.findFolded ⟨0⟩ (Name.fold name) ≠ []) :
    (session.env.openUnit session.system.scope unit).find session.nextFile name =
      session.env.symbols.findFolded ⟨0⟩ (Name.fold name) := by
  let opened := session.env.openUnit session.system.scope unit
  have has : session.env.Has (.scope session.system.scope) := h.founded.scope ▸ h.founded.has
  have lt : (⟨0⟩ : ScopeId).index < session.nextFile.index := h.founded.has
  have file : opened.scopes.get session.nextFile = _ := get_openUnit has unit
  have names : ∀ s n, opened.symbols.findFolded s n = _ :=
    findFolded_openUnit session.env session.system.scope unit
  have chain : opened.scopes.chain session.nextFile = [session.nextFile, ⟨0⟩] := by
    have top : (opened.scopes.get ⟨0⟩).parent = none := by
      rw [get_openUnit_of_has h.founded.has]
      exact h.founded.parent
    rw [ScopeTree.chain, file]
    simp only [h.founded.scope, if_pos lt]
    rw [ScopeTree.chain, top]
  have own : opened.findAtLevel session.nextFile (Name.fold name) = [] := by
    have blank : session.env.symbols.findFolded session.nextFile (Name.fold name) = [] := by
      simp [SymbolTable.findFolded, h.founded.wellFormed.coherent.blank session.nextFile le_rfl,
        ScopeNames.find]
    simp [findAtLevel, file, names, blank, other, imported]
  have system : opened.symbols.findFolded ⟨0⟩ (Name.fold name) =
      session.env.symbols.findFolded ⟨0⟩ (Name.fold name) := by
    have old : (⟨0⟩ : ScopeId) ≠ session.nextFile := fun hnew => Nat.lt_irrefl _ (hnew ▸ lt)
    rw [names, if_neg fun both => old both.1, List.append_nil]
  have level := findAtLevel_of_own (system ▸ declared)
  rw [system] at level
  rw [find, chain, findAlong_cons_of_eq_nil own, findAlong_cons_of_ne_nil (level ▸ declared), level]

end Session

end Pascal
