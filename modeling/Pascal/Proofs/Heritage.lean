import Mathlib.Data.Fintype.Card
import Mathlib.Data.List.Nodup
import Mathlib.Order.Bounds.Basic
import Mathlib.Order.Nat
import Pascal.Proofs.Tables

/-!
# The search for ancestors

Ancestors are sought generation by generation, in as many rounds as there are structured types. The
search brings the types that can be arrived at by going from types to their parents, each with the
smallest number of steps that lead there. No type is met twice on a shortest way, so the bound on
the rounds cuts off nothing, and types declared later do not show in the heritage of those there
were.

## Main results

- `TypeTable.ancestors_exact`: the search for ancestors is exact.
-/

namespace Pascal.TypeTable

/-- One of the types that `sub` is written to be derived from is `sup`, distinct types aside. -/
def HasParent (types : TypeTable) (sub sup : StructId) : Prop :=
  ∃ ty ∈ (types.structInfo sub).parents, ty.unaliased = .struct sup

/-- A structured type is arrived at from another in a number of steps from a type to a parent. -/
inductive Ascent (types : TypeTable) : Nat → StructId → StructId → Prop
  | refl (id : StructId) : Ascent types 0 id id
  | tail {n : Nat} {a b c : StructId} :
    Ascent types n a b → types.HasParent b c → Ascent types (n + 1) a c

/-- The smallest number of steps in which `sup` is arrived at from `sub`. -/
def AtDistance (types : TypeTable) (sub sup : StructId) (d : Nat) : Prop :=
  IsLeast { n | types.Ascent n sub sup } d

variable {types types' : TypeTable} {a b c s t id : StructId} {d m n : Nat} {P : StructId → Prop}
  {current seen : List StructId}

/-! ## Types not met before -/

theorem mem_unseen {candidates : List StructId} :
    id ∈ unseen seen candidates ↔ id ∈ candidates ∧ id ∉ seen := by
  fun_induction unseen seen candidates with
  | case1 => simp
  | case2 seen head rest h ih =>
    rw [ih, List.mem_cons]
    constructor
    · exact fun ⟨hr, hs⟩ => ⟨.inr hr, hs⟩
    · rintro ⟨rfl | hr, hs⟩
      · exact absurd h hs
      · exact ⟨hr, hs⟩
  | case3 seen head rest h ih =>
    simp only [List.mem_cons, ih, not_or]
    constructor
    · rintro (rfl | ⟨hr, -, hs⟩)
      · exact ⟨.inl rfl, h⟩
      · exact ⟨.inr hr, hs⟩
    · rintro ⟨rfl | hr, hs⟩
      · exact .inl rfl
      · exact or_iff_not_imp_left.2 fun hne => ⟨hr, hne, hs⟩

theorem nodup_unseen (candidates : List StructId) : (unseen seen candidates).Nodup := by
  fun_induction unseen seen candidates with
  | case1 => exact List.nodup_nil
  | case2 seen head rest h ih => exact ih
  | case3 seen head rest h ih =>
    refine List.nodup_cons.2 ⟨fun hm => ?_, ih⟩
    exact (mem_unseen.1 hm).2 (List.mem_cons_self ..)

/-! ## Steps from a type to its parents -/

theorem mem_parentStructs_iff : b ∈ types.parentStructs a ↔ types.HasParent a b := by
  simp only [parentStructs, List.mem_filterMap, Ty.struct?_eq_some_iff, HasParent]

theorem ascent_zero_iff : types.Ascent 0 a b ↔ a = b := by
  constructor
  · rintro ⟨⟩
    rfl
  · rintro rfl
    exact .refl a

theorem Ascent.trans (h : types.Ascent m a b) (g : types.Ascent n b c) :
    types.Ascent (m + n) a c := by
  induction g with
  | refl => exact h
  | tail _ hp ih => exact (ih h).tail hp

/-- A structured type that is not in the table has no parents. -/
theorem lt_size_of_mem_parentStructs (h : b ∈ types.parentStructs a) :
    a.index < types.structs.size := by
  by_contra ha
  have info : types.structInfo a = default := by simp [structInfo, Array.getD, ha]
  rw [parentStructs, info] at h
  cases h

/-! ## Smallest numbers of steps -/

theorem Ascent.exists_atDistance (h : types.Ascent n a b) : ∃ d ≤ n, types.AtDistance a b d := by
  classical
  have arrives : ∃ n, types.Ascent n a b := ⟨n, h⟩
  exact ⟨Nat.find arrives, Nat.find_min' arrives h, Nat.isLeast_find arrives⟩

theorem AtDistance.unique (h : types.AtDistance a b m) (g : types.AtDistance a b n) : m = n :=
  IsLeast.unique h g

theorem atDistance_zero_iff : types.AtDistance a b 0 ↔ a = b :=
  ⟨fun h => ascent_zero_iff.1 h.1, fun h => ⟨ascent_zero_iff.2 h, fun _ _ => Nat.zero_le _⟩⟩

theorem AtDistance.pos_iff (h : types.AtDistance a b d) : 0 < d ↔ b ≠ a := by
  constructor
  · rintro hd rfl
    exact hd.ne (atDistance_zero_iff.2 rfl |>.unique h)
  · intro hne
    refine Nat.pos_of_ne_zero ?_
    rintro rfl
    exact hne (atDistance_zero_iff.1 h).symm

/-- On a shortest way, the type before the last one is one step nearer. -/
theorem AtDistance.exists_parent (h : types.AtDistance a c (n + 1)) :
    ∃ b, types.AtDistance a b n ∧ types.HasParent b c := by
  obtain ⟨arrives, least⟩ := h
  obtain _ | ⟨hb, hp⟩ := arrives
  refine ⟨_, ⟨hb, fun m hm => ?_⟩, hp⟩
  exact Nat.le_of_succ_le_succ (least (hm.tail hp))

/-- Before the last type of a shortest way there is one of the table at every smaller distance. -/
theorem AtDistance.exists_lt_size (h : types.AtDistance a c d) (hn : n < d) :
    ∃ b, types.AtDistance a b n ∧ b.index < types.structs.size := by
  induction d generalizing c with
  | zero => exact absurd hn (Nat.not_lt_zero n)
  | succ d ih =>
    obtain ⟨b, hb, hp⟩ := h.exists_parent
    obtain rfl | hlt := Nat.eq_or_lt_of_le (Nat.le_of_lt_succ hn)
    · exact ⟨b, hb, lt_size_of_mem_parentStructs (mem_parentStructs_iff.2 hp)⟩
    · exact ih hb hlt

/-- The types on a shortest way are different ones, so there are no more steps than types. -/
theorem AtDistance.le_size (h : types.AtDistance a b d) : d ≤ types.structs.size := by
  choose way at_way lt_size using fun n : Fin d => h.exists_lt_size n.isLt
  have different : Function.Injective fun n : Fin d => (⟨(way n).index, lt_size n⟩ : Fin _) := by
    intro m n heq
    have same : way m = way n := StructId.index_inj.1 (Fin.mk.inj heq)
    exact Fin.ext ((at_way m).unique (same ▸ at_way n))
  simpa using Fintype.card_le_of_injective _ different

/-! ## Rounds of the search -/

/-- The search has come to a distance: the current generation are the types at the distance, and
those it has met are the types up to there. -/
structure Level (types : TypeTable) (s : StructId) (depth : Nat) (current seen : List StructId) :
    Prop where
  mem_current : ∀ t, t ∈ current ↔ types.AtDistance s t depth
  mem_seen : ∀ t, t ∈ seen ↔ ∃ n ≤ depth, types.AtDistance s t n

variable {depth rounds more : Nat}

theorem Level.start (s : StructId) : types.Level s 0 [s] [s] where
  mem_current t := by rw [List.mem_singleton, atDistance_zero_iff, eq_comm]
  mem_seen t := by simp [atDistance_zero_iff, eq_comm]

/-- The types that a round meets for the first time are those one step further away. -/
theorem Level.mem_next (h : types.Level s depth current seen) :
    t ∈ unseen seen (current.flatMap types.parentStructs) ↔ types.AtDistance s t (depth + 1) := by
  simp only [mem_unseen, List.mem_flatMap, h.mem_current, h.mem_seen, mem_parentStructs_iff]
  constructor
  · rintro ⟨⟨b, hb, hp⟩, fresh⟩
    refine ⟨hb.1.tail hp, fun n hn => ?_⟩
    obtain ⟨d, hd, least⟩ := Ascent.exists_atDistance hn
    by_contra hlt
    exact fresh ⟨d, by omega, least⟩
  · intro ht
    refine ⟨ht.exists_parent, ?_⟩
    rintro ⟨n, hn, hat⟩
    have same := hat.unique ht
    omega

theorem Level.next (h : types.Level s depth current seen) :
    types.Level s (depth + 1) (unseen seen (current.flatMap types.parentStructs))
      (unseen seen (current.flatMap types.parentStructs) ++ seen) where
  mem_current _ := h.mem_next
  mem_seen t := by
    rw [List.mem_append, h.mem_next, h.mem_seen]
    constructor
    · rintro (ht | ⟨n, hn, ht⟩)
      · exact ⟨depth + 1, Nat.le_refl _, ht⟩
      · exact ⟨n, by omega, ht⟩
    · rintro ⟨n, hn, ht⟩
      obtain rfl | hlt := Nat.eq_or_lt_of_le hn
      · exact .inl ht
      · exact .inr ⟨n, Nat.le_of_lt_succ hlt, ht⟩

theorem generations_nil : types.generations rounds depth [] seen = [] := by
  cases rounds with
  | zero => rfl
  | succ rounds => simp [generations, unseen]

/-- A round brings the types that it meets for the first time, and the rounds after it the rest. -/
theorem generations_succ : types.generations (rounds + 1) depth current seen =
    (unseen seen (current.flatMap types.parentStructs)).map (·, depth + 1) ++
      types.generations rounds (depth + 1) (unseen seen (current.flatMap types.parentStructs))
        (unseen seen (current.flatMap types.parentStructs) ++ seen) := by
  rw [generations]
  generalize unseen seen (current.flatMap types.parentStructs) = next
  cases next with
  | nil => simp [generations_nil]
  | cons first rest => rfl

/-- A number of rounds brings the types that are at most so many steps further away. -/
theorem mem_generations_iff (h : types.Level s depth current seen) :
    (t, d) ∈ types.generations rounds depth current seen ↔
      depth < d ∧ d ≤ depth + rounds ∧ types.AtDistance s t d := by
  induction rounds generalizing depth current seen with
  | zero =>
    simp only [generations, List.not_mem_nil, false_iff]
    omega
  | succ rounds ih =>
    rw [generations_succ, List.mem_append, ih h.next, List.mem_map]
    constructor
    · rintro (⟨_, ht, ⟨⟩⟩ | ⟨hlt, hle, ht⟩)
      · exact ⟨by omega, by omega, h.mem_next.1 ht⟩
      · exact ⟨by omega, by omega, ht⟩
    · rintro ⟨hlt, hle, ht⟩
      obtain rfl | hlt := Nat.eq_or_lt_of_le hlt
      · exact .inl ⟨t, h.mem_next.2 ht, rfl⟩
      · exact .inr ⟨hlt, by omega, ht⟩

theorem pairwise_generations (h : types.Level s depth current seen) :
    (types.generations rounds depth current seen).Pairwise fun e f => e.2 ≤ f.2 := by
  induction rounds generalizing depth current seen with
  | zero => exact .nil
  | succ rounds ih =>
    rw [generations_succ, List.pairwise_append]
    refine ⟨List.pairwise_map.2 (List.pairwise_of_forall fun _ _ => Nat.le_refl _), ih h.next, ?_⟩
    rintro e he ⟨t, d⟩ hf
    obtain ⟨_, -, rfl⟩ := List.mem_map.1 he
    exact ((mem_generations_iff h.next).1 hf).1.le

theorem nodup_generations (h : types.Level s depth current seen) :
    ((types.generations rounds depth current seen).map Prod.fst).Nodup := by
  induction rounds generalizing depth current seen with
  | zero => exact .nil
  | succ rounds ih =>
    rw [generations_succ, List.map_append, List.map_map]
    refine List.Nodup.append ?_ (ih h.next) ?_
    · simpa [Function.comp_def] using nodup_unseen (current.flatMap types.parentStructs)
    · -- A type has one distance only, and later rounds bring larger ones.
      intro t ht ht'
      obtain ⟨_, hnext, rfl⟩ := List.mem_map.1 ht
      obtain ⟨⟨t, d⟩, hlater, rfl⟩ := List.mem_map.1 ht'
      obtain ⟨hlt, -, hd⟩ := (mem_generations_iff h.next).1 hlater
      exact absurd (hd.unique (h.mem_next.1 hnext)) hlt.ne'

/-- Once nothing is further away, further rounds bring nothing. -/
theorem generations_eq_of_le (h : types.Level s depth current seen) (hle : rounds ≤ more)
    (none : ∀ t d, types.AtDistance s t d → d ≤ depth + rounds) :
    types.generations more depth current seen = types.generations rounds depth current seen := by
  induction rounds generalizing more depth current seen with
  | zero =>
    refine List.eq_nil_iff_forall_not_mem.2 fun ⟨t, d⟩ hmem => ?_
    obtain ⟨hlt, -, ht⟩ := (mem_generations_iff h).1 hmem
    have hd := none t d ht
    omega
  | succ rounds ih =>
    obtain ⟨more, rfl⟩ := Nat.exists_eq_succ_of_ne_zero (Nat.ne_of_gt (Nat.lt_of_lt_of_le
      (Nat.succ_pos rounds) hle))
    rw [Nat.succ_eq_add_one, generations_succ, generations_succ,
      ih h.next (Nat.le_of_succ_le_succ hle) fun t d ht => by have := none t d ht; omega]

/-! ## Ancestors -/

/-- The ancestors of a type are the others that are arrived at from it, with their distances. -/
theorem mem_ancestors_iff : (t, d) ∈ types.ancestors s ↔ t ≠ s ∧ types.AtDistance s t d := by
  rw [ancestors, mem_generations_iff (Level.start s)]
  constructor
  · rintro ⟨hpos, -, ht⟩
    exact ⟨ht.pos_iff.1 hpos, ht⟩
  · rintro ⟨hne, ht⟩
    exact ⟨ht.pos_iff.2 hne, by simpa using ht.le_size, ht⟩

theorem inheritanceDistance_eq_some_iff :
    types.inheritanceDistance a b = some d ↔ types.AtDistance a b d := by
  have sound : ∀ n, types.inheritanceDistance a b = some n → types.AtDistance a b n := by
    intro n h
    unfold inheritanceDistance at h
    split_ifs at h with heq
    · cases h
      exact atDistance_zero_iff.2 heq
    · obtain ⟨⟨t, m⟩, hmem, ht⟩ := List.exists_of_findSome?_eq_some h
      simp only [Option.ite_none_right_eq_some, Option.some_inj] at ht
      obtain ⟨rfl, rfl⟩ := ht
      exact (mem_ancestors_iff.1 hmem).2
  refine ⟨sound d, fun h => ?_⟩
  -- Some distance is found, and it can be no other one.
  have found : (types.inheritanceDistance a b).isSome := by
    unfold inheritanceDistance
    split_ifs with heq
    · rfl
    · exact List.findSome?_isSome_iff.2 ⟨(b, d), mem_ancestors_iff.2 ⟨Ne.symm heq, h⟩, by simp⟩
  obtain ⟨n, hn⟩ := Option.isSome_iff_exists.1 found
  rw [hn, (sound n hn).unique h]

section Closed

variable (closed : ∀ s, P s → ∀ p ∈ types.parentStructs s, P p)

include closed

/-- A family closed under parents holds every ancestor. -/
theorem forall_mem_ancestors (h : P id) : ∀ entry ∈ types.ancestors id, P entry.1 := by
  rintro ⟨t, d⟩ hmem
  replace hmem : types.Ascent d id t := (mem_ancestors_iff.1 hmem).2.1
  induction hmem with
  | refl => exact h
  | tail _ hp ih => exact closed _ (ih h) _ (mem_parentStructs_iff.2 hp)

theorem generations_congr {rounds depth : Nat}
    (same : ∀ s, P s → types'.parentStructs s = types.parentStructs s) (hc : ∀ s ∈ current, P s) :
    types'.generations rounds depth current seen = types.generations rounds depth current seen := by
  induction rounds generalizing depth current seen with
  | zero => rfl
  | succ rounds ih =>
    have hflat : current.flatMap types'.parentStructs = current.flatMap types.parentStructs :=
      List.flatMap_congr fun s hs => same s (hc s hs)
    simp only [generations, hflat]
    split
    · rfl
    · refine congrArg (_ ++ ·) (ih fun s hs => ?_)
      obtain ⟨c, hmem, hp⟩ := List.mem_flatMap.1 (mem_unseen.1 hs).1
      exact closed c (hc c hmem) s hp

/-- The ancestors depend on nothing but the parents within a family. -/
theorem ancestors_congr (same : ∀ s, P s → types'.parentStructs s = types.parentStructs s)
    (hsize : types.structs.size ≤ types'.structs.size) (h : P id) :
    types'.ancestors id = types.ancestors id := by
  rw [ancestors, generations_congr closed same (by simpa using h)]
  exact generations_eq_of_le (Level.start id) hsize fun t d ht => by simpa using ht.le_size

end Closed

theorem pairwise_ancestors (types : TypeTable) (s : StructId) :
    (types.ancestors s).Pairwise fun e f => e.2 ≤ f.2 :=
  pairwise_generations (Level.start s)

/-- The search for ancestors is exact, whatever the structured types are derived from. It ends by
itself, and no bound on its rounds that is large enough shows in what it brings. It brings the types
other than the first that are arrived at in one or more steps, each once, with the smallest number
of steps, nearer ones before those further away. So the distance between two types is the smallest
number of steps from the one to the other, if there is any, and a detour is never shorter. -/
theorem ancestors_exact (types : TypeTable) :
    (∀ s, (∀ rounds ≥ types.structs.size,
        types.generations rounds 0 [s] [s] = types.ancestors s) ∧
      (∀ t, t ∈ (types.ancestors s).map Prod.fst ↔ t ≠ s ∧ ∃ n ≥ 1, types.Ascent n s t) ∧
      ((types.ancestors s).map Prod.fst).Nodup ∧
      (∀ t d, (t, d) ∈ types.ancestors s → IsLeast { n | types.Ascent n s t } d) ∧
      (types.ancestors s).Pairwise fun e f => e.2 ≤ f.2) ∧
    (∀ a b d, types.inheritanceDistance a b = some d ↔ IsLeast { n | types.Ascent n a b } d) ∧
    ∀ a b c m n, types.inheritanceDistance a b = some m → types.inheritanceDistance b c = some n →
      ∃ d ≤ m + n, types.inheritanceDistance a c = some d := by
  simp only [inheritanceDistance_eq_some_iff]
  refine ⟨fun s => ⟨fun rounds hle => ?_, fun t => ⟨fun ht => ?_, fun ht => ?_⟩,
    nodup_generations (Level.start s), fun t d ht => (mem_ancestors_iff.1 ht).2,
    pairwise_ancestors types s⟩, fun _ _ _ => Iff.rfl, fun a b c m n hab hbc => ?_⟩
  · exact generations_eq_of_le (Level.start s) hle fun t d ht => by simpa using ht.le_size
  · obtain ⟨⟨t, d⟩, hmem, rfl⟩ := List.mem_map.1 ht
    obtain ⟨hne, hd⟩ := mem_ancestors_iff.1 hmem
    exact ⟨hne, d, hd.pos_iff.2 hne, hd.1⟩
  · obtain ⟨hne, n, -, ht⟩ := ht
    obtain ⟨d, -, hd⟩ := ht.exists_atDistance
    exact List.mem_map.2 ⟨(t, d), mem_ancestors_iff.2 ⟨hne, hd⟩, rfl⟩
  · exact (hab.1.trans hbc.1).exists_atDistance

/-- Four classes around a diamond whose right side has a way to the left one, with a circle through
the root. Parents are listed twice, wrapped, not known or no structured types. -/
def diamond : TypeTable :=
  let declared := ["TRoot", "TLeft", "TRight", "TBottom"].zipIdx.foldl
    (fun types (name, i) => (declareStruct types name .classType ⟨i⟩ false).2) {}
  declared.completeStruct ⟨0⟩ [.struct ⟨3⟩] none
    |>.completeStruct ⟨1⟩ [.int, .struct ⟨0⟩] none
    |>.completeStruct ⟨2⟩ [.unknown, .struct ⟨1⟩, .distinct "TAlias" (.struct ⟨0⟩)] none
    |>.completeStruct ⟨3⟩ [.struct ⟨2⟩, .struct ⟨1⟩, .struct ⟨2⟩] none

/-- From the bottom the root is two steps away on the shortest ways, and the detour from the right
side over the left one is no shorter than the direct way. -/
theorem diamond_distances :
    diamond.ancestors ⟨3⟩ = [(⟨2⟩, 1), (⟨1⟩, 1), (⟨0⟩, 2)] ∧
      IsLeast { n | diamond.Ascent n ⟨3⟩ ⟨0⟩ } 2 ∧
      diamond.generations 9 0 [⟨3⟩] [⟨3⟩] = diamond.ancestors ⟨3⟩ ∧
      ∃ d ≤ 1 + 1, diamond.inheritanceDistance ⟨2⟩ ⟨0⟩ = some d := by
  obtain ⟨search, -, triangle⟩ := ancestors_exact diamond
  obtain ⟨ends, -, -, shortest, -⟩ := search ⟨3⟩
  exact ⟨by decide, shortest ⟨0⟩ 2 (by decide), ends 9 (by decide),
    triangle ⟨2⟩ ⟨1⟩ ⟨0⟩ 1 1 (by decide) (by decide)⟩

end Pascal.TypeTable
