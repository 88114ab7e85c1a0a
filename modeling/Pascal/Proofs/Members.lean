import Pascal.Lookup.Names
import Pascal.Proofs.Heritage

/-!
# Inherited members

A member that a structured type does not declare itself is sought among its ancestors, and the
nearest ones that declare it settle what it stands for. Ancestors come nearest first, so the search
may stop at the first one that is further away than one with a match: several parents, diamonds and
circles make no difference.

## Main results

- `Environment.findInStruct_nearest`: members come from the nearest level that declares the name.
-/

namespace Pascal.Environment

variable {env : Environment} {name : FoldedName} {s t : StructId} {d depth : Nat}
  {entries : List (StructId × Nat)}

/-- The declarations that a structured type itself makes for a folded name. -/
def ownMembers (env : Environment) (name : FoldedName) (id : StructId) : List DeclId :=
  env.symbols.findFolded (env.membersOf id) name

/-! ## The search among ancestors -/

section Search

variable {matched : Option Nat} {rest : List (StructId × Nat)}

theorem inheritedFrom_cons_of_eq_nil (near : matched.any (· < depth) = false)
    (h : env.ownMembers name t = []) :
    env.inheritedFrom name matched ((t, depth) :: rest) = env.inheritedFrom name matched rest := by
  rw [ownMembers] at h
  rw [inheritedFrom, near, if_neg Bool.false_ne_true, h]

theorem inheritedFrom_cons_of_ne_nil (near : matched.any (· < depth) = false)
    (h : env.ownMembers name t ≠ []) :
    env.inheritedFrom name matched ((t, depth) :: rest) =
      env.ownMembers name t ++ env.inheritedFrom name (some depth) rest := by
  rw [ownMembers] at h
  rw [inheritedFrom, near, if_neg Bool.false_ne_true, ownMembers]
  split
  next none => exact absurd none h
  next => rfl

/-- After a match, the search goes on to the end of the level of the match. -/
theorem inheritedFrom_some (sorted : entries.Pairwise fun e f => e.2 ≤ f.2)
    (further : ∀ entry ∈ entries, depth ≤ entry.2) :
    env.inheritedFrom name (some depth) entries =
      (entries.filter (·.2 = depth)).flatMap (env.ownMembers name ·.1) := by
  induction entries with
  | nil => rfl
  | cons entry rest ih =>
    obtain ⟨t, reached⟩ := entry
    rw [List.pairwise_cons] at sorted
    rw [List.forall_mem_cons] at further
    obtain rfl | beyond := Nat.eq_or_lt_of_le further.1
    · rw [List.filter_cons_of_pos (by simp), List.flatMap_cons, ← ih sorted.2 further.2]
      by_cases own : env.ownMembers name t = []
      · rw [inheritedFrom_cons_of_eq_nil (by simp) own, own, List.nil_append]
      · rw [inheritedFrom_cons_of_ne_nil (by simp) own]
    · -- The level is left, and no later ancestor belongs to it.
      have none : ((t, reached) :: rest).filter (·.2 = depth) = [] := by
        refine List.filter_eq_nil_iff.2 fun entry hentry => ?_
        obtain rfl | hrest := List.mem_cons.1 hentry
        · simpa using beyond.ne'
        · have later := sorted.1 entry hrest
          simpa using (Nat.lt_of_lt_of_le beyond later).ne'
      rw [none, List.flatMap_nil, inheritedFrom, if_pos (by simpa using beyond)]

/-- Before any match, the search goes on to the nearest level with one. -/
theorem inheritedFrom_none (sorted : entries.Pairwise fun e f => e.2 ≤ f.2)
    (h : IsLeast { d | ∃ entry ∈ entries, entry.2 = d ∧ env.ownMembers name entry.1 ≠ [] } d) :
    env.inheritedFrom name none entries =
      (entries.filter (·.2 = d)).flatMap (env.ownMembers name ·.1) := by
  induction entries with
  | nil =>
    obtain ⟨_, hentry, -⟩ := h.1
    exact absurd hentry List.not_mem_nil
  | cons entry rest ih =>
    obtain ⟨t, reached⟩ := entry
    rw [List.pairwise_cons] at sorted
    by_cases own : env.ownMembers name t = []
    · have least : IsLeast
          { d | ∃ entry ∈ rest, entry.2 = d ∧ env.ownMembers name entry.1 ≠ [] } d := by
        simpa [own] using h
      rw [inheritedFrom_cons_of_eq_nil rfl own, ih sorted.2 least, List.filter_cons]
      split
      · rw [List.flatMap_cons, own, List.nil_append]
      · rfl
    · obtain rfl : d = reached := by
        refine Nat.le_antisymm (h.2 ⟨_, List.mem_cons_self, rfl, own⟩) ?_
        obtain ⟨entry, hentry, rfl, -⟩ := h.1
        obtain rfl | hrest := List.mem_cons.1 hentry
        · exact Nat.le_refl _
        · exact sorted.1 entry hrest
      rw [inheritedFrom_cons_of_ne_nil rfl own, inheritedFrom_some sorted.2 sorted.1,
        List.filter_cons_of_pos (by simp), List.flatMap_cons]

theorem inheritedFrom_none_eq_nil_iff : env.inheritedFrom name none entries = [] ↔
    ∀ entry ∈ entries, env.ownMembers name entry.1 = [] := by
  induction entries with
  | nil => simp [inheritedFrom]
  | cons entry rest ih =>
    obtain ⟨t, reached⟩ := entry
    rw [List.forall_mem_cons]
    by_cases own : env.ownMembers name t = []
    · rw [inheritedFrom_cons_of_eq_nil rfl own, ih, and_iff_right own]
    · rw [inheritedFrom_cons_of_ne_nil rfl own, List.append_eq_nil_iff]
      exact ⟨fun none => absurd none.1 own, fun none => absurd none.1 own⟩

end Search

/-! ## Members of a structured type -/

theorem findMembers_of_ne_nil (h : env.ownMembers name s ≠ []) :
    env.findMembers s name = env.ownMembers name s := by
  rw [ownMembers] at h
  rw [findMembers, ownMembers]
  split
  next none => exact absurd none h
  next => rfl

theorem findMembers_of_eq_nil (h : env.ownMembers name s = []) :
    env.findMembers s name = env.inheritedFrom name none (env.types.ancestors s) := by
  rw [ownMembers] at h
  rw [findMembers, h]

theorem findMembers_eq_nil_iff : env.findMembers s name = [] ↔
    ∀ t d, env.types.inheritanceDistance s t = some d → env.ownMembers name t = [] := by
  simp only [TypeTable.inheritanceDistance_eq_some_iff]
  by_cases own : env.ownMembers name s = []
  · rw [findMembers_of_eq_nil own, inheritedFrom_none_eq_nil_iff]
    constructor
    · intro none t d ht
      obtain rfl | hne := eq_or_ne t s
      · exact own
      · exact none (t, d) (TypeTable.mem_ancestors_iff.2 ⟨hne, ht⟩)
    · rintro none ⟨t, d⟩ ht
      exact none t d (TypeTable.mem_ancestors_iff.1 ht).2
  · rw [findMembers_of_ne_nil own]
    exact ⟨fun none => absurd none own, fun none => none s 0 (TypeTable.atDistance_zero_iff.2 rfl)⟩

/-- Members come from the nearest level that declares the name. A name that a structured type
declares itself stands for these declarations. Otherwise it stands for those of all ancestors at the
smallest distance at which one declares it, in the order of the ancestors, and for no others. It
stands for nothing exactly if neither the type nor an ancestor declares it. -/
theorem findInStruct_nearest (env : Environment) (s : StructId) (name : String) :
    (env.symbols.shallowFind (env.membersOf s) name ≠ [] →
      env.findInStruct s name = env.symbols.shallowFind (env.membersOf s) name) ∧
    (env.symbols.shallowFind (env.membersOf s) name = [] → ∀ d,
      IsLeast { d | ∃ t ≠ s, env.types.inheritanceDistance s t = some d ∧
        env.symbols.shallowFind (env.membersOf t) name ≠ [] } d →
      env.findInStruct s name =
        (((env.types.ancestors s).map Prod.fst).filter
          (env.types.inheritanceDistance s · = some d)).flatMap
            fun t => env.symbols.shallowFind (env.membersOf t) name) ∧
    (env.findInStruct s name = [] ↔
      env.symbols.shallowFind (env.membersOf s) name = [] ∧
        ∀ t d, t ≠ s → env.types.inheritanceDistance s t = some d →
          env.symbols.shallowFind (env.membersOf t) name = []) := by
  refine ⟨findMembers_of_ne_nil, fun own d least => ?_, ?_⟩
  · have distances : ∀ entry ∈ env.types.ancestors s, ∀ d,
        env.types.inheritanceDistance s entry.1 = some d ↔ entry.2 = d := by
      rintro ⟨t, n⟩ ht d
      have hn := (TypeTable.mem_ancestors_iff.1 ht).2
      rw [TypeTable.inheritanceDistance_eq_some_iff]
      exact ⟨hn.unique, fun h => h ▸ hn⟩
    have level : (env.types.ancestors s).filter
        (fun entry => env.types.inheritanceDistance s entry.1 = some d) =
          (env.types.ancestors s).filter (·.2 = d) :=
      List.filter_congr fun entry hentry => decide_eq_decide.2 (distances entry hentry d)
    have nearest : IsLeast { d | ∃ entry ∈ env.types.ancestors s,
        entry.2 = d ∧ env.ownMembers (Name.fold name) entry.1 ≠ [] } d := by
      convert least using 3 with d
      constructor
      · rintro ⟨⟨t, _⟩, ht, rfl, declares⟩
        obtain ⟨hne, hd⟩ := TypeTable.mem_ancestors_iff.1 ht
        exact ⟨t, hne, TypeTable.inheritanceDistance_eq_some_iff.2 hd, declares⟩
      · rintro ⟨t, hne, hd, declares⟩
        rw [TypeTable.inheritanceDistance_eq_some_iff] at hd
        exact ⟨(t, d), TypeTable.mem_ancestors_iff.2 ⟨hne, hd⟩, rfl, declares⟩
    rw [List.filter_map, List.flatMap_map]
    refine (findMembers_of_eq_nil own).trans ?_
    rw [inheritedFrom_none (env.types.pairwise_ancestors s) nearest, ← level]
    rfl
  · refine findMembers_eq_nil_iff.trans ⟨fun none => ⟨?_, fun t d _ => none t d⟩, ?_⟩
    · exact none s 0 (TypeTable.inheritanceDistance_eq_some_iff.2
        (TypeTable.atDistance_zero_iff.2 rfl))
    · rintro ⟨own, none⟩ t d ht
      obtain rfl | hne := eq_or_ne t s
      · exact own
      · exact none t d hne ht

/-- The classes around a diamond, all but the one at the bottom with a method of one name. -/
def diamondMethods : Environment :=
  let method : DeclarationSpec := { name := "Run", kind := .routine, ty := .void }
  [0, 1, 2].foldl (fun env i => (env.add ⟨i⟩ method).2) { types := .diamond }

/-- The class at the bottom has the methods of both sides, in the order of the ancestors, and not
the one of the root. -/
theorem diamondMethods_nearest :
    diamondMethods.symbols.shallowFind (diamondMethods.membersOf ⟨3⟩) "Run" = [] ∧
      diamondMethods.findInStruct ⟨3⟩ "Run" = [⟨2⟩, ⟨1⟩] ∧
      diamondMethods.findInStruct ⟨0⟩ "Run" = [⟨0⟩] := by
  have found (s : ScopeId) : diamondMethods.symbols.shallowFind s "Run" =
      (if s = ⟨0⟩ then [⟨0⟩] else []) ++ (if s = ⟨1⟩ then [⟨1⟩] else []) ++
        if s = ⟨2⟩ then [⟨2⟩] else [] := by
    simp only [diamondMethods, List.foldl_cons, List.foldl_nil, add, SymbolTable.shallowFind,
      SymbolTable.findFolded_add]
    simp [SymbolTable.findFolded, SymbolTable.namesOf, SymbolTable.size, SymbolTable.add]
  obtain ⟨own, -, -⟩ := findInStruct_nearest diamondMethods ⟨0⟩ "Run"
  obtain ⟨-, inherited, -⟩ := findInStruct_nearest diamondMethods ⟨3⟩ "Run"
  simp only [found] at own inherited ⊢
  refine ⟨by decide, ?_, own (by decide)⟩
  refine (inherited (by decide) 1 ⟨⟨⟨2⟩, by decide, by decide, by decide⟩, ?_⟩).trans (by decide)
  rintro d ⟨t, hne, hd, -⟩
  exact (TypeTable.inheritanceDistance_eq_some_iff.1 hd).pos_iff.2 hne

end Pascal.Environment
