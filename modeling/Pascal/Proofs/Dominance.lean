import Mathlib.Algebra.Order.BigOperators.Group.List
import Mathlib.Algebra.Order.Ring.Nat
import Pascal.Proofs.Ranks

/-!
# Dominated candidates

A candidate dominates another if it asks for no worse a conversion of any argument and for a better
one of some. That alone does not keep the other one from being chosen: the tiers of all conversions
are summed up in the worst one, and the distances of conversions of different tiers are added. What
decides between the two is the worst tier, then the sum of the distances, then the number of signed
parameters.

## Main results

- `TypeTable.not_mem_winners_of_dominates`: when a dominated candidate is not among the best.
-/

namespace Pascal

namespace Conversion

/-- One conversion is at least as good as another. -/
def AtLeast (left right : Conversion) : Prop :=
  left.tier < right.tier ∨ left.tier = right.tier ∧ left.distance ≤ right.distance

/-- One conversion is better than another. -/
def Better (left right : Conversion) : Prop :=
  left.tier < right.tier ∨ left.tier = right.tier ∧ left.distance < right.distance

instance (left right : Conversion) : Decidable (left.AtLeast right) := instDecidableOr

instance (left right : Conversion) : Decidable (left.Better right) := instDecidableOr

theorem AtLeast.tier_le {left right : Conversion} (h : left.AtLeast right) :
    left.tier ≤ right.tier := by
  obtain lt | ⟨same, -⟩ := h
  · exact lt.le
  · exact same.le

end Conversion

/-- Small numbers are added up without rounding. -/
theorem Number.foldl_addDouble {l : List Nat} {a : Nat}
    (h : a + l.sum < Nat.pow 2 doubleDigits) : l.foldl addDouble a = a + l.sum := by
  induction l generalizing a with
  | nil => simp
  | cons b rest ih =>
    rw [List.sum_cons] at h ⊢
    have small : addDouble a b = a + b := nearestDouble_of_lt (by omega)
    rw [List.foldl_cons, small, ih (by omega)]
    omega

namespace TypeTable

variable {types : TypeTable} {arguments : List Ty} {candidates : List Invocable} {a b : Invocable}
  {rank rival : Rank}

/-- The conversions of each argument that two candidates ask for. -/
def conversionPairs (types : TypeTable) (arguments : List Ty) (a b : Invocable) :
    List (Conversion × Conversion) :=
  (types.conversions arguments a).zip (types.conversions arguments b)

/-- A candidate takes every argument at least as well as another, and some argument better. -/
def Dominates (types : TypeTable) (arguments : List Ty) (a b : Invocable) : Prop :=
  (∀ pair ∈ types.conversionPairs arguments a b, pair.1.AtLeast pair.2) ∧
    ∃ pair ∈ types.conversionPairs arguments a b, pair.1.Better pair.2

instance : Decidable (types.Dominates arguments a b) := instDecidableAnd

/-- The sum of the distances, without rounding. -/
def total (types : TypeTable) (arguments : List Ty) (candidate : Invocable) : Nat :=
  ((types.conversions arguments candidate).map (·.distance)).sum

theorem distance_eq_total (h : types.rank? arguments a = some rank)
    (small : types.total arguments a < Nat.pow 2 Number.doubleDigits) :
    rank.distance = types.total arguments a := by
  rw [distance_eq h, Number.foldl_addDouble (by simpa [total] using small), Nat.zero_add, total]

section Pairs

variable (takes : types.Applies arguments a) (takes' : types.Applies arguments b)
include takes takes'

theorem map_fst_conversionPairs :
    (types.conversionPairs arguments a b).map (·.1) = types.conversions arguments a :=
  List.map_fst_zip (by rw [takes.length_conversions, takes'.length_conversions])

theorem map_snd_conversionPairs :
    (types.conversionPairs arguments a b).map (·.2) = types.conversions arguments b :=
  List.map_snd_zip (by rw [takes.length_conversions, takes'.length_conversions])

/-- Where the tiers are the same, the distances of the dominating candidate are shorter in total. -/
theorem Dominates.total_lt (dominates : types.Dominates arguments a b)
    (tiers : ∀ pair ∈ types.conversionPairs arguments a b, pair.1.tier = pair.2.tier) :
    types.total arguments a < types.total arguments b := by
  rw [total, total, ← map_fst_conversionPairs takes takes', ← map_snd_conversionPairs takes takes',
    List.map_map, List.map_map]
  refine List.sum_lt_sum _ _ (fun pair hp => ?_) ?_
  · obtain lt | ⟨-, le⟩ := dominates.1 pair hp
    · exact absurd (tiers pair hp) lt.ne
    · exact le
  · obtain ⟨pair, hp, lt | ⟨-, lt⟩⟩ := dominates.2
    · exact absurd (tiers pair hp) lt.ne
    · exact ⟨pair, hp, lt⟩

end Pairs

section Ranks

variable (hrank : types.rank? arguments a = some rank)
  (hrival : types.rank? arguments b = some rival)
include hrank hrival

/-- Whether all arguments are taken unchanged shows in the worst tier already. -/
theorem standing_lt_iff : rank.standing < rival.standing ↔ rank.worst < rival.worst ∨
    rank.worst = rival.worst ∧ (rank.distance < rival.distance ∨
      rank.distance = rival.distance ∧ rival.signed < rank.signed) := by
  have exact := exact_iff hrank
  have exact' := exact_iff hrival
  rw [Rank.standing_lt_iff]
  cases hr : rank.exact <;> cases hs : rival.exact <;> grind

/-- The worst conversion of a dominating candidate is no worse. -/
theorem Dominates.worst_le (dominates : types.Dominates arguments a b) :
    rank.worst ≤ rival.worst := by
  have takes := applies_of_rank? hrank
  have takes' := applies_of_rank? hrival
  rw [worst_le_iff hrank, ← map_fst_conversionPairs takes takes', List.forall_mem_map]
  have bound := (worst_le_iff hrival).1 (Nat.le_refl rival.worst)
  rw [← map_snd_conversionPairs takes takes', List.forall_mem_map] at bound
  exact fun pair hp => (dominates.1 pair hp).tier_le.trans (bound pair hp)

/-- The tier of a single argument is the worst one. -/
theorem Dominates.worst_lt (dominates : types.Dominates arguments a b)
    (one : arguments.length = 1)
    (tiers : ¬∀ pair ∈ types.conversionPairs arguments a b, pair.1.tier = pair.2.tier) :
    rank.worst < rival.worst := by
  have takes := applies_of_rank? hrank
  have takes' := applies_of_rank? hrival
  have only : (types.conversionPairs arguments a b).length = 1 := by
    rw [← one, ← takes.length_conversions, ← map_fst_conversionPairs takes takes', List.length_map]
  obtain ⟨pair, hpair⟩ := List.length_eq_one_iff.1 only
  have mine := map_fst_conversionPairs takes takes'
  have theirs := map_snd_conversionPairs takes takes'
  rw [hpair, List.map_singleton] at mine theirs
  have le : rank.worst ≤ pair.1.tier := (worst_le_iff hrank).2 (by simp [← mine])
  have ge := (worst_le_iff hrival).1 (Nat.le_refl rival.worst) pair.2 (by simp [← theirs])
  have better := dominates.1 pair (by simp [hpair])
  have differ : pair.1.tier ≠ pair.2.tier := by simpa [hpair] using tiers
  have := better.tier_le
  omega

end Ranks

/-- One of two candidates that have no callable parameters is outdone by the other if its rank stands
behind. -/
theorem compare_eq_lt_iff_of_plain (hrank : types.rank? arguments a = some rank)
    (plain : ∀ parameter ∈ a.params, parameter.procedural? = none) :
    rank.compare rival = .lt ↔ rank.standing < rival.standing := by
  rw [Rank.compare_eq_lt_iff]
  refine or_iff_left fun ⟨_, forms⟩ => ?_
  obtain ⟨i, mine, -, hm, -⟩ := Rank.exists_of_compareForms forms
  obtain ⟨-, form⟩ := (getElem?_forms_iff hrank).1 hm
  obtain ⟨parameter, hp, kind⟩ := Option.bind_eq_some_iff.1 form
  rw [plain parameter (List.mem_of_getElem? hp)] at kind
  cases kind

/-- Of two candidates without callable parameters, the second is among the best unless the rank of
the first stands before its own. -/
theorem mem_winners_pair_iff (hrank : types.rank? arguments a = some rank)
    (hrival : types.rank? arguments b = some rival)
    (plain : ∀ parameter ∈ a.params, parameter.procedural? = none) :
    b ∈ (types.choose [a, b] arguments).winners ↔ ¬rank.standing < rival.standing := by
  rw [mem_winners_iff, wins_iff, ← compare_eq_lt_iff_of_plain hrank plain]
  constructor
  · rintro ⟨-, rank', hrank', best⟩
    cases hrival.symm.trans hrank'
    exact best a List.mem_cons_self rank hrank
  · intro unbeaten
    refine ⟨by simp, rival, hrival, ?_⟩
    rintro other ho rank' hrank'
    rw [List.mem_pair] at ho
    obtain rfl | rfl := ho
    · cases hrank.symm.trans hrank'
      exact unbeaten
    · cases hrival.symm.trans hrank'
      exact rival.compare_self_ne_lt

/-- A candidate that is dominated by another one has no better worst tier. It is not among the best
if that one has a better worst tier, or a smaller sum of distances, or the same sum and more signed
parameters; if not, it is the best of the two or tied. Where the sums are not rounded, it is never
among the best of a call with one argument, or if the tiers are the same for every argument. -/
theorem not_mem_winners_of_dominates (types : TypeTable) (candidates : List Invocable)
    (arguments : List Ty)
    (plain : ∀ c ∈ candidates, ∀ parameter ∈ c.params, parameter.procedural? = none)
    (a b : Invocable) (ha : a ∈ candidates) (takes : types.Applies arguments a)
    (takes' : types.Applies arguments b) (dominates : types.Dominates arguments a b) :
    ∃ rank rival, types.rank? arguments a = some rank ∧ types.rank? arguments b = some rival ∧
      rank.worst ≤ rival.worst ∧
      let ahead := rank.worst < rival.worst ∨ rank.distance < rival.distance ∨
        rank.distance = rival.distance ∧ rival.signed < rank.signed
      (ahead → b ∉ (types.choose candidates arguments).winners) ∧
      (b ∈ (types.choose [a, b] arguments).winners ↔ ¬ahead) ∧
      (rank.distance = types.total arguments a → rival.distance = types.total arguments b →
        (arguments.length = 1 ∨
          ∀ pair ∈ types.conversionPairs arguments a b, pair.1.tier = pair.2.tier) → ahead) := by
  obtain ⟨rank, hrank⟩ := takes.exists_rank
  obtain ⟨rival, hrival⟩ := takes'.exists_rank
  have worst := dominates.worst_le hrank hrival
  refine ⟨rank, rival, hrank, hrival, worst, ?_⟩
  intro ahead
  have first : ahead ↔ rank.standing < rival.standing := by
    rw [standing_lt_iff hrank hrival]
    omega
  refine ⟨fun h best => ?_, ?_, fun sum sum' alike => ?_⟩
  · obtain ⟨-, rank', hrank', best⟩ := (mem_winners_iff.trans (and_congr_right' wins_iff)).1 best
    cases hrival.symm.trans hrank'
    exact best a ha rank hrank (Rank.compare_eq_lt_iff.2 (.inl (first.1 h)))
  · rw [first]
    exact mem_winners_pair_iff hrank hrival (plain a ha)
  · by_cases tiers : ∀ pair ∈ types.conversionPairs arguments a b, pair.1.tier = pair.2.tier
    · refine .inr (.inl ?_)
      rw [sum, sum']
      exact dominates.total_lt takes takes' tiers
    · exact .inl (dominates.worst_lt hrank hrival (alike.resolve_right tiers) tiers)

/-- Routines that take a byte twice, the first of them with less of a widening. -/
def wideners : List Invocable :=
  [.builtin "F" [.integer .word, .integer .integer] .void,
    .builtin "F" [.integer .integer, .integer .integer] .void]

/-- The second routine is dominated and not among the best. -/
theorem wideners_dominated :
    let types : TypeTable := {}
    let bytes : List Ty := [.integer .byte, .integer .byte]
    types.Dominates bytes wideners[0] wideners[1] ∧
      wideners[1] ∉ (types.choose wideners bytes).winners := by
  intro types bytes
  have dominates : types.Dominates bytes wideners[0] wideners[1] := by decide +kernel
  obtain ⟨rank, rival, hrank, hrival, -, excluded, -, alike⟩ :=
    not_mem_winners_of_dominates types wideners bytes (by decide) wideners[0] wideners[1]
      List.mem_cons_self (by decide +kernel) (by decide +kernel) dominates
  refine ⟨dominates, excluded (alike ?_ ?_ (.inr (by decide +kernel)))⟩
  · exact distance_eq_total hrank (by decide +kernel)
  · exact distance_eq_total hrival (by decide +kernel)

/-- Routines that take a byte and a narrow string; the first widens the byte, the second makes a real
number of it. -/
def converters : List Invocable :=
  [.builtin "F" [.integer .integer, .text .unicodeString] .void,
    .builtin "F" [.decimal .double 8, .text .unicodeString] .void]

/-- The second routine is dominated, but it is chosen: the string makes the worst tiers equal, and
the widening of the byte has a distance. -/
theorem converters_dominated_chosen :
    let types : TypeTable := {}
    let mixed : List Ty := [.integer .byte, .text .ansiString]
    (∀ c ∈ converters, ∀ parameter ∈ c.params, parameter.procedural? = none) ∧
      (∀ c ∈ converters, types.Applies mixed c) ∧
      types.Dominates mixed converters[0] converters[1] ∧
      types.choose converters mixed = .resolved converters[1] := by
  decide +kernel

end TypeTable

end Pascal
