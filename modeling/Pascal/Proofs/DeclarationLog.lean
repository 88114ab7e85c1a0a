import Mathlib.Data.List.DropRight
import Pascal.Proofs.Tables

/-!
# The log of declarations

The symbol table keeps the declarations of a scope twice, in order and by name. Both are read off
the log of what the calls came to: a scope has the declarations that were made in it since its names
were last forgotten, and a name has those of them that were made for it. A frozen scope refuses
every declaration, and the refusal leaves no trace in the tables.

## Main results

- `Environment.indexes_agree`: what the symbol table answers after any sequence of calls.
-/

namespace Pascal

open SymbolTable

/-- A call that changes the scope tree or the symbol table. -/
inductive TableCall where
  | create (kind : ScopeKind) (parent : Option ScopeId) (name : String)
  | freeze (scope : ScopeId)
  | declare (scope : ScopeId) (spec : DeclarationSpec)
  | unregister (scope : ScopeId)

/-- What a call comes to. -/
inductive TableEvent where
  | created (scope : ScopeId)
  | froze (scope : ScopeId)
  | declared (id : DeclId) (scope : ScopeId) (spec : DeclarationSpec)
  | refused (cause : AnalysisError)
  | forgot (scope : ScopeId)

namespace TableEvent

/-- Whether the names of a scope are forgotten. -/
def forgets (s : ScopeId) : TableEvent → Bool
  | forgot scope => scope = s
  | _ => false

/-- The declaration made in a scope. -/
def made? (s : ScopeId) : TableEvent → Option (DeclId × DeclarationSpec)
  | declared id scope spec => if scope = s then some (id, spec) else none
  | _ => none

/-- The declarations made in a scope since its names were last forgotten, in order. -/
def standing (s : ScopeId) (log : List TableEvent) : List (DeclId × DeclarationSpec) :=
  (log.rtakeWhile (!·.forgets s)).filterMap (·.made? s)

variable {s : ScopeId} {log : List TableEvent} {event : TableEvent}

theorem standing_concat_of_forgets (h : event.forgets s = true) :
    standing s (log ++ [event]) = [] := by
  rw [standing, List.rtakeWhile_concat_neg _ _ _ (by simp [h]), List.filterMap_nil]

theorem standing_concat (h : event.forgets s = false) :
    standing s (log ++ [event]) = standing s log ++ (event.made? s).toList := by
  rw [standing, List.rtakeWhile_concat_pos _ _ _ (by simp [h]), List.filterMap_append]
  cases hm : event.made? s <;> simp [standing, hm]

end TableEvent

namespace Environment

open TableEvent

/-- Makes a call. A refused declaration leaves everything as it is. -/
def perform (env : Environment) : TableCall → TableEvent × Environment
  | .create kind parent name =>
    let (id, scopes) := env.scopes.create kind parent name
    (.created id, { env with scopes })
  | .freeze scope => (.froze scope, { env with scopes := env.scopes.freeze scope })
  | .declare scope spec =>
    match env.declare scope spec with
    | .ok (id, next) => (.declared id scope spec, next)
    | .error cause => (.refused cause, env)
  | .unregister scope => (.forgot scope, { env with symbols := env.symbols.unregister scope })

/-- Makes several calls, one after the other, and tells what each of them came to. -/
def performAll (env : Environment) : List TableCall → List TableEvent × Environment
  | [] => ([], env)
  | call :: rest =>
    let (event, next) := env.perform call
    let (events, last) := next.performAll rest
    (event :: events, last)

variable {env : Environment} {log : List TableEvent} {s : ScopeId} {spec : DeclarationSpec}

theorem perform_declare_of_frozen (h : (env.scopes.get s).frozen = true) :
    env.perform (.declare s spec) = (.refused (.frozenScope (env.scopes.get s).name), env) := by
  simp only [perform, declare, SymbolTable.declare, h, if_true]

theorem perform_declare_of_open (h : (env.scopes.get s).frozen = false) :
    env.perform (.declare s spec) =
      (.declared ⟨env.symbols.size⟩ s spec, (env.add s spec).2) := by
  simp only [perform, declare, SymbolTable.declare, h, Bool.false_eq_true, if_false]
  rfl

theorem performAll_append (calls rest : List TableCall) :
    env.performAll (calls ++ rest) =
      ((env.performAll calls).1 ++ ((env.performAll calls).2.performAll rest).1,
        ((env.performAll calls).2.performAll rest).2) := by
  induction calls generalizing env with
  | nil => rfl
  | cons first others ih => simp only [List.cons_append, performAll, ih]

/-! ## Frozen scopes -/

/-- There is such a scope, and it takes no declarations. -/
def Shut (env : Environment) (s : ScopeId) : Prop :=
  s.index < env.scopes.size ∧ (env.scopes.get s).frozen = true

theorem shut_freeze (h : s.index < env.scopes.size) : (env.perform (.freeze s)).2.Shut s := by
  refine ⟨Nat.lt_of_lt_of_eq h (ScopeTree.size_freeze s).symm, ?_⟩
  simp only [perform, ScopeTree.get_freeze s h, List.contains_iff_mem.2 ScopeTree.mem_subtree_self,
    Bool.or_true]

/-- No call opens a frozen scope. -/
theorem Shut.perform (h : env.Shut s) (call : TableCall) : (env.perform call).2.Shut s := by
  obtain ⟨lt, frozen⟩ := h
  cases call with
  | create kind parent name =>
    refine ⟨Nat.lt_of_lt_of_eq (Nat.lt_succ_of_lt lt) (ScopeTree.size_create ..).symm, ?_⟩
    simp only [Environment.perform, ScopeTree.get_create kind parent name lt, frozen]
  | freeze scope =>
    refine ⟨Nat.lt_of_lt_of_eq lt (ScopeTree.size_freeze scope).symm, ?_⟩
    simp only [Environment.perform, ScopeTree.get_freeze scope lt, frozen, Bool.true_or]
  | declare scope spec =>
    cases hf : (env.scopes.get scope).frozen with
    | true => simpa only [perform_declare_of_frozen hf] using ⟨lt, frozen⟩
    | false => simpa only [perform_declare_of_open hf] using ⟨lt, frozen⟩
  | unregister scope => exact ⟨lt, frozen⟩

theorem Shut.performAll (h : env.Shut s) (calls : List TableCall) :
    (env.performAll calls).2.Shut s := by
  induction calls generalizing env with
  | nil => exact h
  | cons call rest ih => exact ih (h.perform call)

/-! ## The table and the log -/

/-- The symbol table agrees with a log: it lists the declarations that stand, in order and by name,
and each is the one that was made. -/
structure Recorded (env : Environment) (log : List TableEvent) : Prop where
  listed : ∀ s, env.symbols.declarationsIn s = (standing s log).map Prod.fst
  found : ∀ s name, env.symbols.findFolded s name =
    ((standing s log).filter (Name.fold ·.2.name = name)).map Prod.fst
  made : ∀ s, ∀ entry ∈ standing s log, entry.1.index < env.symbols.size ∧
    (env.declaration entry.1).toDeclarationSpec = entry.2 ∧ (env.declaration entry.1).scope = s
  ordered : ∀ s, ((standing s log).map Prod.fst).Pairwise (·.index < ·.index)

theorem recorded_empty : ({} : Environment).Recorded [] where
  listed s := by simp [declarationsIn, namesOf, standing]
  found s name := by simp [findFolded, namesOf, standing]
  made s := by simp [standing]
  ordered s := by simp [standing]

namespace Recorded

/-- A call that makes no declaration and forgets none. -/
theorem idle (h : env.Recorded log) {event : TableEvent} {scopes : ScopeTree}
    (keeps : ∀ s, event.forgets s = false) (none : ∀ s, event.made? s = none) :
    { env with scopes : Environment }.Recorded (log ++ [event]) := by
  have same : ∀ s, standing s (log ++ [event]) = standing s log := by
    intro s
    rw [standing_concat (keeps s), none s, Option.toList_none, List.append_nil]
  constructor <;> simp only [same]
  · exact h.listed
  · exact h.found
  · exact h.made
  · exact h.ordered

/-- A declaration made stands behind the others of its scope. -/
theorem declared (h : env.Recorded log) (scope : ScopeId) (spec : DeclarationSpec) :
    (env.add scope spec).2.Recorded (log ++ [.declared ⟨env.symbols.size⟩ scope spec]) := by
  have grown : ∀ s, standing s (log ++ [.declared ⟨env.symbols.size⟩ scope spec]) =
      standing s log ++ if s = scope then [(⟨env.symbols.size⟩, spec)] else [] := by
    intro s
    rw [standing_concat rfl, made?]
    obtain rfl | hne := eq_or_ne s scope
    · simp
    · simp [hne, hne.symm]
  refine ⟨fun s => ?_, fun s name => ?_, fun s entry hentry => ?_, fun s => ?_⟩
  · refine declarationsIn_add.trans ?_
    rw [h.listed, grown, List.map_append]
    split_ifs <;> rfl
  · refine (findFolded_add name).trans ?_
    rw [h.found, grown, List.filter_append, List.map_append]
    by_cases hs : s = scope
    · by_cases hn : name = Name.fold spec.name
      · simp [hs, hn]
      · simp [hs, hn, Ne.symm hn]
    · simp [hs]
  · rw [grown, List.mem_append] at hentry
    obtain hold | hnew := hentry
    · obtain ⟨hlt, hspec, hscope⟩ := h.made s entry hold
      have same : (env.add scope spec).2.declaration entry.1 = env.declaration entry.1 :=
        get_add_of_lt hlt
      rw [same]
      exact ⟨Nat.lt_of_lt_of_eq (Nat.lt_succ_of_lt hlt) size_add.symm, hspec, hscope⟩
    · split_ifs at hnew with hs
      · cases List.mem_singleton.1 hnew
        have new : (env.add scope spec).2.declaration ⟨env.symbols.size⟩ = _ :=
          get_add_new
        rw [new]
        exact ⟨Nat.lt_of_lt_of_eq (Nat.lt_succ_self _) size_add.symm, rfl, hs.symm⟩
      · exact absurd hnew List.not_mem_nil
  · rw [grown, List.map_append, List.pairwise_append]
    refine ⟨h.ordered s, by split_ifs <;> simp, fun d hd e he => ?_⟩
    obtain ⟨entry, hentry, rfl⟩ := List.mem_map.1 hd
    split_ifs at he
    · cases List.mem_singleton.1 he
      exact (h.made s entry hentry).1
    · exact absurd he List.not_mem_nil

/-- A scope whose names are forgotten starts anew; all others stay as they are. -/
theorem forgot (h : env.Recorded log) (scope : ScopeId) :
    { env with symbols := env.symbols.unregister scope : Environment }.Recorded
      (log ++ [.forgot scope]) := by
  have left : ∀ s, standing s (log ++ [.forgot scope]) =
      if s = scope then [] else standing s log := by
    intro s
    split_ifs with hs
    · exact standing_concat_of_forgets (by simp [forgets, hs])
    · rw [standing_concat (by simp [forgets, Ne.symm hs])]
      exact List.append_nil _
  refine ⟨fun s => ?_, fun s name => ?_, fun s entry hentry => ?_, fun s => ?_⟩
  · rw [left, declarationsIn, namesOf_unregister]
    split_ifs
    · rfl
    · exact h.listed s
  · rw [left, findFolded, namesOf_unregister]
    split_ifs
    · simp
    · exact h.found s name
  · rw [left] at hentry
    split_ifs at hentry
    · exact absurd hentry List.not_mem_nil
    · exact h.made s entry hentry
  · rw [left]
    split_ifs
    · exact .nil
    · exact h.ordered s

theorem perform (h : env.Recorded log) (call : TableCall) :
    (env.perform call).2.Recorded (log ++ [(env.perform call).1]) := by
  cases call with
  | create kind parent name => exact h.idle (fun _ => rfl) fun _ => rfl
  | freeze scope => exact h.idle (fun _ => rfl) fun _ => rfl
  | declare scope spec =>
    cases hf : (env.scopes.get scope).frozen with
    | true =>
      rw [perform_declare_of_frozen hf]
      exact h.idle (fun _ => rfl) fun _ => rfl
    | false =>
      rw [perform_declare_of_open hf]
      exact h.declared scope spec
  | unregister scope => exact h.forgot scope

theorem performAll (h : env.Recorded log) (calls : List TableCall) :
    (env.performAll calls).2.Recorded (log ++ (env.performAll calls).1) := by
  induction calls generalizing env log with
  | nil => simpa [Environment.performAll] using h
  | cons call rest ih => simpa [Environment.performAll] using ih (h.perform call)

/-- A name has the listed declarations that were made for it. -/
theorem shallowFind (h : env.Recorded log) (s : ScopeId) (name : String) :
    env.symbols.shallowFind s name = (env.symbols.declarationsIn s).filter
      fun d => Name.fold (env.declaration d).name = Name.fold name := by
  rw [SymbolTable.shallowFind, h.found, h.listed, List.filter_map]
  refine congrArg (List.map Prod.fst) (List.filter_congr fun entry hentry => ?_)
  rw [Function.comp_apply, (h.made s entry hentry).2.1]

end Recorded

/-- What the symbol table answers after any sequence of calls. A scope lists the declarations that
were made in it since its names were last forgotten, in order, with increasing identities, and each
as it was made. A name has those of them that were made for it under any spelling. A frozen scope
refuses a declaration and everything stays as it is, every other scope takes it under a new
identity. A scope that was frozen once is frozen ever after. -/
theorem indexes_agree (calls : List TableCall) (s : ScopeId) :
    let log := (({} : Environment).performAll calls).1
    let env := (({} : Environment).performAll calls).2
    env.symbols.declarationsIn s = (standing s log).map Prod.fst ∧
    (env.symbols.declarationsIn s).Pairwise (·.index < ·.index) ∧
    (∀ entry ∈ standing s log, (env.declaration entry.1).toDeclarationSpec = entry.2 ∧
      (env.declaration entry.1).scope = s) ∧
    (∀ name, env.symbols.shallowFind s name = (env.symbols.declarationsIn s).filter
      fun d => Name.fold (env.declaration d).name = Name.fold name) ∧
    (∀ spec, ({} : Environment).performAll (calls ++ [.declare s spec]) =
      if (env.scopes.get s).frozen then
        (log ++ [.refused (.frozenScope (env.scopes.get s).name)], env)
      else (log ++ [.declared ⟨env.symbols.size⟩ s spec], (env.add s spec).2)) ∧
    ∀ before after, calls = before ++ .freeze s :: after →
      s.index < (({} : Environment).performAll before).2.scopes.size →
        (env.scopes.get s).frozen = true := by
  intro log env
  have recorded : env.Recorded log := by simpa using recorded_empty.performAll calls
  refine ⟨recorded.listed s, recorded.listed s ▸ recorded.ordered s,
    fun entry hentry => (recorded.made s entry hentry).2, recorded.shallowFind s, fun spec => ?_,
    fun before after hcalls lt => ?_⟩
  · rw [performAll_append]
    split_ifs with hf
    · simp only [performAll, perform_declare_of_frozen hf, log, env]
    · simp only [performAll, perform_declare_of_open (Bool.not_eq_true _ ▸ hf), log, env]
  · simp only [env, hcalls, performAll_append]
    exact ((shut_freeze lt).performAll after).2

/-- A declaration of a variable. -/
def ofVariable (name : String) : DeclarationSpec := { name, kind := .var, ty := .int }

/-- Calls that make two declarations in a unit, forget them, make another and freeze the unit. -/
def redeclaring : List TableCall :=
  [.create .system none "System", .create .file (some ⟨0⟩) "Sample",
    .declare ⟨1⟩ (ofVariable "First"), .declare ⟨1⟩ (ofVariable "second"), .unregister ⟨1⟩,
    .declare ⟨1⟩ (ofVariable "Second"), .freeze ⟨1⟩]

/-- The unit has the last declaration only, which is found under any spelling, and it takes no
more. -/
theorem redeclaring_indexes :
    let env := (({} : Environment).performAll redeclaring).2
    env.symbols.declarationsIn ⟨1⟩ = [⟨2⟩] ∧ env.symbols.shallowFind ⟨1⟩ "SECOND" = [⟨2⟩] ∧
      env.symbols.shallowFind ⟨1⟩ "First" = [] ∧
      (({} : Environment).performAll (redeclaring ++ [.declare ⟨1⟩ (ofVariable "Late")])).2 =
        env := by
  intro env
  obtain ⟨listed, -, -, found, later, frozen⟩ := indexes_agree redeclaring ⟨1⟩
  have shut : (env.scopes.get ⟨1⟩).frozen = true :=
    frozen (redeclaring.take 6) [] rfl (by decide +kernel)
  have one : env.symbols.declarationsIn ⟨1⟩ = [⟨2⟩] := listed.trans rfl
  have named : (env.declaration ⟨2⟩).name = "Second" := rfl
  refine ⟨one, ?_, ?_, ?_⟩
  · rw [found, one, List.filter_singleton, named]
    decide +kernel
  · rw [found, one, List.filter_singleton, named]
    decide +kernel
  · rw [later, if_pos shut]

end Environment

end Pascal
