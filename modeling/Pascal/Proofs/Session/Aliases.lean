import Pascal.Proofs.Session.Predefined

/-!
# Further names for intrinsic types

The System unit declares the intrinsic types under their own names, and after them the further names
of the settings, in order. Nothing keeps a further name from being one that is declared already, up
to case. Since the first type of a name is the one that is found, such an entry is accepted but says
nothing: the name goes on to stand for what it stood for.

## Main results

- `Session.typeNamed?_alias`: what an accepted further name stands for.
-/

namespace Pascal

/-! ## The first type of a name -/

namespace Environment

variable {env env' : Environment} {file s : ScopeId} {known : ScopeId → Prop} {n : FoldedName}

theorem Listed.has (h : env.Listed) {d : DeclId} (hd : d ∈ env.symbols.findFolded s n) :
    env.Has (.decl d) := by
  rw [h s n, declaredIn, List.mem_filter, List.mem_map] at hd
  obtain ⟨⟨i, hi, rfl⟩, -⟩ := hd
  exact List.mem_range.1 hi

/-- A further declaration is the first type of its name only if the name had no type. -/
theorem Listed.typeNamed?_add (h : env.Listed) (scope : ScopeId) (spec : DeclarationSpec) :
    (env.add scope spec).2.typeNamed? ((env.add scope spec).2.symbols.findFolded s n) =
      (env.typeNamed? (env.symbols.findFolded s n)).or
        (if s = scope ∧ n = Name.fold spec.name ∧ spec.isType then some spec.ty else none) := by
  have old : ∀ d ∈ env.symbols.findFolded s n,
      (env.add scope spec).2.declaration d = env.declaration d :=
    fun d hd => (extends_add env scope spec).decl d (h.has hd)
  have new := (@declaration_add_new env scope spec).2
  have names : (env.add scope spec).2.symbols.findFolded s n = _ := SymbolTable.findFolded_add n
  rw [names, typeNamed?, List.findSome?_append]
  congr 1
  · exact findSome?_congr fun d hd => by rw [old d hd]
  · by_cases named : s = scope ∧ n = Name.fold spec.name
    · simp [named, new]
    · rw [if_neg named, if_neg fun all => named ⟨all.1, all.2.1⟩]
      rfl

theorem Listed.addAll (h : env.Listed) (scope : ScopeId) (specs : List DeclarationSpec) :
    (SystemUnit.addAll env scope specs).Listed := by
  induction specs generalizing env with
  | nil => exact h
  | cons spec rest ih => exact ih (h.add scope spec)

theorem Listed.typeNamed?_addAll (h : env.Listed) (specs : List DeclarationSpec) :
    (SystemUnit.addAll env s specs).typeNamed?
        ((SystemUnit.addAll env s specs).symbols.findFolded s n) =
      (env.typeNamed? (env.symbols.findFolded s n)).or (specs.findSome? fun spec =>
        if n = Name.fold spec.name ∧ spec.isType then some spec.ty else none) := by
  induction specs generalizing env with
  | nil => simp [SystemUnit.addAll]
  | cons spec rest ih =>
    have rounds := ih (h.add s spec)
    rw [h.typeNamed?_add, Option.or_assoc] at rounds
    simp only [true_and] at rounds
    rw [List.findSome?_cons]
    refine rounds.trans ?_
    congr 1
    split_ifs <;> rfl

theorem Step.typeNamed?_eq (step : env.Step file known env') (h : env.Listed) {ty : Ty}
    (found : env.typeNamed? (env.symbols.findFolded s n) = some ty) :
    env'.typeNamed? (env'.symbols.findFolded s n) = some ty := by
  cases step with
  | declare scope spec => rw [h.typeNamed?_add, found, Option.some_or]
  | types | create | adapt | use => exact found

/-- A name that has a type keeps it. -/
theorem Steps.typeNamed?_eq (steps : env.Steps file known env') (h : env.Listed) {ty : Ty}
    (found : env.typeNamed? (env.symbols.findFolded s n) = some ty) :
    env'.typeNamed? (env'.symbols.findFolded s n) = some ty := by
  induction steps with
  | refl => exact found
  | tail before step ih => exact step.typeNamed?_eq (Steps.listed before h) ih

/-- The type that a name has in a scope itself is what is found from there. -/
theorem typeNamed?_find_of_own {name : String} {ty : Ty}
    (own : env.typeNamed? (env.symbols.findFolded s (Name.fold name)) = some ty) :
    env.typeNamed? (env.find s name) = some ty := by
  have declared : env.symbols.findFolded s (Name.fold name) ≠ [] := by
    intro nothing
    simp [nothing, typeNamed?] at own
  rw [find_of_own declared, own]

end Environment

/-! ## Intrinsic types and further names -/

namespace Settings

/-- What the first of several further names that is the name makes of it, without regard to case. -/
def aliased? (aliases : List (String × String)) (name : String) : Option Intrinsic :=
  aliases.findSome? fun entry =>
    if Name.fold entry.1 = Name.fold name then Intrinsic.ofName? entry.2 else none

variable {settings : Settings}

/-- Accepted settings give further names to intrinsic types only. -/
theorem isSome_ofName?_of_validate (accepted : settings.validate = .ok ()) {entry : String × String}
    (h : entry ∈ settings.typeAliases) : (Intrinsic.ofName? entry.2).isSome := by
  have none : settings.badAlias? = none := by
    unfold validate at accepted
    grind
  simpa [Option.isSome_iff_ne_none] using List.find?_eq_none.1 none entry h

theorem aliased?_eq_none_iff {aliases : List (String × String)}
    (h : ∀ entry ∈ aliases, (Intrinsic.ofName? entry.2).isSome) {name : String} :
    aliased? aliases name = none ↔ ∀ entry ∈ aliases, Name.fold entry.1 ≠ Name.fold name := by
  rw [aliased?, List.findSome?_eq_none_iff]
  refine forall₂_congr fun entry hentry => ?_
  have := h entry hentry
  grind

theorem findSome?_intrinsicAliases (settings : Settings) (name : String) :
    (settings.intrinsicAliases.findSome? fun entry =>
      if Name.fold name = Name.fold entry.1 then some (entry.2.ty settings.target) else none) =
      (aliased? settings.typeAliases name).map (·.ty settings.target) := by
  rw [intrinsicAliases, ← List.head?_filterMap, List.filterMap_filterMap, List.head?_filterMap,
    aliased?, List.map_findSome?]
  refine findSome?_congr fun entry _ => ?_
  by_cases same : Name.fold entry.1 = Name.fold name
  · cases meant : Intrinsic.ofName? entry.2 <;> simp [same, meant]
  · cases meant : Intrinsic.ofName? entry.2 <;> simp [same, Ne.symm same, meant]

end Settings

theorem Intrinsic.findSome?_all (target : Target) (name : String) :
    (all.findSome? fun intrinsic =>
      if Name.fold name = Name.fold intrinsic.image then some (intrinsic.ty target) else none) =
      (ofName? name).map (·.ty target) := by
  rw [ofName?, List.find?_eq_findSome?_guard, List.map_findSome?]
  refine findSome?_congr fun intrinsic _ => ?_
  by_cases same : Name.fold intrinsic.image = Name.fold name
  · simp [Option.guard, same]
  · simp [Option.guard, same, Ne.symm same]

namespace SystemUnit

theorem findSome?_leadingSpecs (settings : Settings) (scope : ScopeId) (name : String) :
    ((leadingSpecs settings scope).findSome? fun spec =>
      if Name.fold name = Name.fold spec.name ∧ spec.isType then some spec.ty else none) =
      ((Intrinsic.ofName? name).or (Settings.aliased? settings.typeAliases name)).map
        (·.ty settings.target) := by
  have intrinsics := Intrinsic.findSome?_all settings.target name
  have aliases := settings.findSome?_intrinsicAliases name
  simp only [leadingSpecs, List.cons_append, List.findSome?_cons, List.findSome?_append,
    List.findSome?_map, Function.comp_def, typeSpec, DeclarationSpec.isType, reduceCtorEq,
    decide_true, decide_false, Bool.false_eq_true, and_true, and_false, if_false, List.map_cons,
    List.map_nil, List.findSome?_nil, Option.or_none, intrinsics, aliases, Option.map_or]

/-- In the System unit, a name is first sought among the intrinsic types, then among the further
names. -/
theorem typeNamed?_build (settings : Settings) {name : String} {intrinsic : Intrinsic}
    (h : (Intrinsic.ofName? name).or (Settings.aliased? settings.typeAliases name) =
      some intrinsic) :
    (build settings).2.typeNamed? ((build settings).2.find ⟨0⟩ name) =
      some (intrinsic.ty settings.target) := by
  obtain ⟨env, steps, built⟩ := steps_build_of_leading settings ⟨0⟩ fun _ => False
  have empty := listed_blank settings
  let leading := addAll (blank settings) ⟨0⟩ (leadingSpecs settings ⟨0⟩)
  have found : leading.typeNamed? (leading.symbols.findFolded ⟨0⟩ (Name.fold name)) =
      some (intrinsic.ty settings.target) := by
    rw [empty.typeNamed?_addAll, findFolded_blank, findSome?_leadingSpecs, h]
    rfl
  rw [built]
  exact Environment.typeNamed?_find_of_own (steps.typeNamed?_eq (empty.addAll _ _) found)

end SystemUnit

/-! ## What a further name stands for -/

namespace Session

/-- A further name that is accepted stands for the intrinsic type it is given, as long as neither an
intrinsic type nor a further name in front of it has the same name up to case; otherwise it stands
for that one. -/
theorem typeNamed?_alias {settings : Settings} (accepted : settings.validate = .ok ())
    {before after : List (String × String)} {name target : String}
    (entries : settings.typeAliases = before ++ (name, target) :: after) :
    let session := start settings
    let taken := (Intrinsic.ofName? name).or (Settings.aliased? before name)
    ∃ meant, Intrinsic.ofName? target = some meant ∧
      session.env.typeNamed? (session.env.find session.system.scope name) =
        some ((taken.getD meant).ty settings.target) ∧
      (taken = none ↔ Intrinsic.ofName? name = none ∧
        ∀ entry ∈ before, Name.fold entry.1 ≠ Name.fold name) := by
  intro session taken
  have intrinsic : ∀ entry ∈ settings.typeAliases, (Intrinsic.ofName? entry.2).isSome :=
    fun entry => Settings.isSome_ofName?_of_validate accepted
  rw [entries, List.forall_mem_append, List.forall_mem_cons] at intrinsic
  obtain ⟨meant, hmeant⟩ := Option.isSome_iff_exists.1 intrinsic.2.1
  have given : (Intrinsic.ofName? name).or (Settings.aliased? settings.typeAliases name) =
      some (taken.getD meant) := by
    have split : Settings.aliased? settings.typeAliases name =
        (Settings.aliased? before name).or (some meant) := by
      rw [Settings.aliased?, entries, List.findSome?_append, List.findSome?_cons, if_pos rfl,
        hmeant]
      rfl
    rw [split, ← Option.or_assoc]
    exact Option.or_some
  refine ⟨meant, hmeant, ?_, ?_⟩
  · have founded : session.system.scope = ⟨0⟩ := (SystemUnit.founded_build settings).scope
    rw [founded]
    exact SystemUnit.typeNamed?_build settings given
  · rw [Option.or_eq_none_iff, Settings.aliased?_eq_none_iff intrinsic.1]

/-- Of three further names, the first is a new one, the second is that of an intrinsic type, and the
third is the first in another case. -/
def repeatedAliases : Settings where
  typeAliases := [("FLOAT", "Double"), ("Integer", "Double"), ("float", "Single")]

/-- Only the first of the names stands for the type that it is given. -/
theorem repeatedAliases_types :
    let env := (start repeatedAliases).env
    let system := (start repeatedAliases).system.scope
    repeatedAliases.validate = .ok () ∧
      env.typeNamed? (env.find system "FLOAT") = some (.decimal .double 8) ∧
      env.typeNamed? (env.find system "Integer") = some .int ∧
      env.typeNamed? (env.find system "float") = some (.decimal .double 8) := by
  have accepted : repeatedAliases.validate = .ok () := by decide +kernel
  have free : (Intrinsic.ofName? "FLOAT").or (Settings.aliased? [] "FLOAT") = none := by
    decide +kernel
  have integer : (Intrinsic.ofName? "Integer").or
      (Settings.aliased? [("FLOAT", "Double")] "Integer") = some .integer := by decide +kernel
  have float : (Intrinsic.ofName? "float").or
      (Settings.aliased? [("FLOAT", "Double"), ("Integer", "Double")] "float") =
        some .double := by decide +kernel
  have double : Intrinsic.ofName? "Double" = some .double := by decide +kernel
  obtain ⟨meant, given, first, -⟩ := typeNamed?_alias accepted
    (show repeatedAliases.typeAliases = [] ++ ("FLOAT", "Double") :: _ from rfl)
  obtain ⟨_, -, second, -⟩ := typeNamed?_alias accepted
    (show repeatedAliases.typeAliases = [("FLOAT", "Double")] ++ ("Integer", "Double") :: _ from rfl)
  obtain ⟨_, -, third, -⟩ := typeNamed?_alias accepted (show repeatedAliases.typeAliases =
    [("FLOAT", "Double"), ("Integer", "Double")] ++ ("float", "Single") :: _ from rfl)
  obtain rfl := Option.some.inj (double.symm.trans given)
  rw [free] at first
  rw [integer] at second
  rw [float] at third
  exact ⟨accepted, first, second, third⟩

end Session

end Pascal
