import Mathlib.Data.List.Lex
import Pascal.Proofs.Choice

/-!
# Ranks of candidates

The rank of a candidate is made up from the conversions of the arguments. Two ranks are compared by
four numbers first, of which the first that differ decide, and by the callable forms of the
parameters when all of them are equal.
-/

namespace Pascal

namespace Rank

variable {left right rank : Rank}

/-- What ranks are compared by before callable forms are looked at; of the first numbers that differ
the lower one is better. -/
def standing (rank : Rank) : List Int :=
  [if rank.exact then 0 else 1, rank.worst, rank.distance, -rank.signed]

theorem standing_lt_iff : left.standing < right.standing ↔
    left.exact = true ∧ right.exact = false ∨ left.exact = right.exact ∧
      (left.worst < right.worst ∨ left.worst = right.worst ∧
        (left.distance < right.distance ∨ left.distance = right.distance ∧
          right.signed < left.signed)) := by
  have done : ¬([] : List Int) < [] := lt_irrefl _
  cases hl : left.exact <;> cases hr : right.exact <;>
    simp only [standing, hl, hr, Bool.false_eq_true, if_true, if_false, List.cons_lt_cons_iff, done]
      <;> grind

theorem standing_eq_iff : left.standing = right.standing ↔
    left.exact = right.exact ∧ left.worst = right.worst ∧ left.distance = right.distance ∧
      left.signed = right.signed := by
  cases hl : left.exact <;> cases hr : right.exact <;> grind [standing]

/-- If forms make the difference, they do so at the first position at which both are callable and
differ. -/
theorem exists_of_compareForms {left right : List (Option ProceduralKind)}
    (h : compareForms left right = .lt) : ∃ (i : Nat) (mine theirs : ProceduralKind),
      left[i]? = some (some mine) ∧ right[i]? = some (some theirs) ∧
      theirs.preference < mine.preference ∧
      ∀ j < i, ∀ m t, left[j]? = some (some m) → right[j]? = some (some t) → m = t := by
  fun_induction compareForms left right with
  | case1 mine rest rest' ih =>
    obtain ⟨i, m, t, hm, ht, preferred, before⟩ := ih h
    refine ⟨i + 1, m, t, hm, ht, preferred, ?_⟩
    rintro (_ | j) hj m t hm ht
    · cases hm
      cases ht
      rfl
    · exact before j (by omega) m t hm ht
  | case2 mine rest theirs rest' differ =>
    exact ⟨0, mine, theirs, rfl, rfl, Nat.compare_eq_lt.1 h, by simp⟩
  | case3 mine rest theirs rest' skipped ih =>
    obtain ⟨i, m, t, hm, ht, preferred, before⟩ := ih h
    refine ⟨i + 1, m, t, hm, ht, preferred, ?_⟩
    rintro (_ | j) hj m t hm ht
    · cases hm
      cases ht
      exact (skipped _ _ rfl rfl).elim
    · exact before j (by omega) m t hm ht
  | case4 => cases h

/-- A rank is better than another if it stands before it, or beside it with a preferred form. -/
theorem compare_eq_lt_iff : left.compare right = .lt ↔ left.standing < right.standing ∨
    left.standing = right.standing ∧ compareForms left.forms right.forms = .lt := by
  have better : Ord.compare right.exact left.exact = .lt ↔
      left.exact = true ∧ right.exact = false := by
    cases left.exact <;> cases right.exact <;> decide
  have alike : Ord.compare right.exact left.exact = .eq ↔ left.exact = right.exact := by
    cases left.exact <;> cases right.exact <;> decide
  rw [standing_lt_iff, standing_eq_iff]
  simp only [compare, Ordering.then_eq_lt, better, alike, Nat.compare_eq_lt, Nat.compare_eq_eq]
  grind

/-- No rank is better than itself. -/
theorem compare_self_ne_lt (rank : Rank) : rank.compare rank ≠ .lt := by
  intro h
  obtain before | ⟨-, forms⟩ := compare_eq_lt_iff.1 h
  · exact lt_irrefl _ before
  · obtain ⟨i, mine, theirs, hm, ht, preferred, -⟩ := exists_of_compareForms forms
    cases hm.symm.trans ht
    exact lt_irrefl _ preferred

end Rank

/-! ## The rank of a candidate -/

/-- The callable form of a parameter. -/
def Invocable.form? (candidate : Invocable) (i : Nat) : Option ProceduralKind :=
  candidate.params[i]?.bind fun parameter => parameter.procedural?.map (·.1)

namespace TypeTable

variable {types : TypeTable} {arguments : List Ty} {candidates : List Invocable}
  {candidate : Invocable} {rank : Rank} {pairs : List (Ty × Ty)}

/-- The conversions of the arguments that a candidate asks for. -/
def conversions (types : TypeTable) (arguments : List Ty) (candidate : Invocable) :
    List Conversion :=
  List.zipWith types.conversion arguments candidate.params

/-- A candidate takes the arguments: their number, and each of them. -/
def Applies (types : TypeTable) (arguments : List Ty) (candidate : Invocable) : Prop :=
  candidate.acceptsArity arguments.length = true ∧
    ∀ conversion ∈ types.conversions arguments candidate, conversion ≠ .incompatible

instance : Decidable (types.Applies arguments candidate) := instDecidableAnd

/-- A rank with more arguments and their parameters taken into account. -/
def tally (types : TypeTable) (rank : Rank) (pairs : List (Ty × Ty)) : Rank :=
  pairs.foldl (fun rank pair => rank.add (types.conversion pair.1 pair.2) pair.2) rank

theorem conversions_eq_map (types : TypeTable) (arguments : List Ty) (candidate : Invocable) :
    types.conversions arguments candidate =
      (arguments.zip candidate.params).map fun pair => types.conversion pair.1 pair.2 := by
  rw [conversions, List.zip, List.map_zipWith]

/-- Every argument is converted. -/
theorem Applies.length_conversions (h : types.Applies arguments candidate) :
    (types.conversions arguments candidate).length = arguments.length := by
  have arity := h.1
  simp only [Invocable.acceptsArity, Bool.and_eq_true, decide_eq_true_eq] at arity
  rw [conversions, List.length_zipWith]
  omega

theorem rankFrom_eq_some_iff {params : List Ty} {rank' : Rank} :
    types.rankFrom rank arguments params = some rank' ↔
      (∀ pair ∈ arguments.zip params, types.conversion pair.1 pair.2 ≠ .incompatible) ∧
        types.tally rank (arguments.zip params) = rank' := by
  induction arguments generalizing rank params with
  | nil => simp [rankFrom, tally]
  | cons argument arguments ih =>
    cases params with
    | nil => simp [rankFrom, tally]
    | cons parameter params =>
      rw [rankFrom]
      cases hc : types.conversion argument parameter with
      | incompatible => simp [hc]
      | _ => simp [hc, ih, tally]

/-- A candidate that takes the arguments has a rank, and no other has one. -/
theorem rank?_eq_some_iff : types.rank? arguments candidate = some rank ↔
    types.Applies arguments candidate ∧
      types.tally {} (arguments.zip candidate.params) = rank := by
  rw [rank?, Applies, conversions_eq_map, List.forall_mem_map]
  split_ifs with arity
  · rw [rankFrom_eq_some_iff, and_iff_right arity]
  · simp [arity]

theorem Applies.exists_rank (h : types.Applies arguments candidate) :
    ∃ rank, types.rank? arguments candidate = some rank := ⟨_, rank?_eq_some_iff.2 ⟨h, rfl⟩⟩

theorem applies_of_rank? (h : types.rank? arguments candidate = some rank) :
    types.Applies arguments candidate := (rank?_eq_some_iff.1 h).1

theorem tally_cons (types : TypeTable) (rank : Rank) (pair : Ty × Ty) (rest : List (Ty × Ty)) :
    types.tally rank (pair :: rest) =
      types.tally (rank.add (types.conversion pair.1 pair.2) pair.2) rest := rfl

/-- The forms of a rank are those of the parameters. -/
theorem forms_tally : (types.tally rank pairs).forms =
    rank.forms ++ pairs.map fun pair => pair.2.procedural?.map (·.1) := by
  induction pairs generalizing rank with
  | nil => simp [tally]
  | cons pair rest ih =>
    rw [tally_cons, ih]
    simp [Rank.add]

/-- The worst tier is the least one that no conversion exceeds. -/
theorem worst_tally_le_iff {bound : Nat} : (types.tally rank pairs).worst ≤ bound ↔
    rank.worst ≤ bound ∧ ∀ pair ∈ pairs, (types.conversion pair.1 pair.2).tier ≤ bound := by
  induction pairs generalizing rank with
  | nil => simp [tally]
  | cons pair rest ih =>
    rw [tally_cons, ih, List.forall_mem_cons, ← and_assoc]
    simp only [Rank.add, Nat.max_le]

/-- Arguments are all taken unchanged if the worst tier says so. -/
theorem exact_tally_iff (h : rank.exact = true ↔ rank.worst = 0) :
    (types.tally rank pairs).exact = true ↔ (types.tally rank pairs).worst = 0 := by
  induction pairs generalizing rank with
  | nil => exact h
  | cons pair rest ih =>
    rw [tally_cons]
    refine ih ?_
    have unchanged : types.conversion pair.1 pair.2 = .exact ↔
        (types.conversion pair.1 pair.2).tier = 0 := by
      cases types.conversion pair.1 pair.2 <;> simp [Conversion.tier]
    simp only [Rank.add, Bool.and_eq_true, decide_eq_true_eq, unchanged, h]
    omega

/-- The distances are added up one after the other. -/
theorem distance_tally : (types.tally rank pairs).distance =
    (pairs.map fun pair => (types.conversion pair.1 pair.2).distance).foldl Number.addDouble
      rank.distance := by
  induction pairs generalizing rank with
  | nil => rfl
  | cons pair rest ih =>
    rw [tally_cons, ih]
    rfl

section Rank

variable (h : types.rank? arguments candidate = some rank)
include h

/-- The forms of a rank are those of the parameters that arguments are given for. -/
theorem getElem?_forms_iff {i : Nat} {kind : ProceduralKind} :
    rank.forms[i]? = some (some kind) ↔ i < arguments.length ∧ candidate.form? i = some kind := by
  obtain ⟨-, rfl⟩ := rank?_eq_some_iff.1 h
  rw [forms_tally, List.nil_append, List.getElem?_map, Option.map_eq_some_iff]
  simp only [Prod.exists, List.getElem?_zip_eq_some, Invocable.form?, Option.bind_eq_some_iff]
  constructor
  · rintro ⟨argument, parameter, ⟨ha, hp⟩, form⟩
    exact ⟨(List.getElem?_eq_some_iff.1 ha).1, parameter, hp, form⟩
  · rintro ⟨hi, parameter, hp, form⟩
    exact ⟨arguments[i], parameter, ⟨List.getElem?_eq_getElem hi, hp⟩, form⟩

theorem worst_le_iff {bound : Nat} : rank.worst ≤ bound ↔
    ∀ conversion ∈ types.conversions arguments candidate, conversion.tier ≤ bound := by
  obtain ⟨-, rfl⟩ := rank?_eq_some_iff.1 h
  rw [worst_tally_le_iff, conversions_eq_map, List.forall_mem_map]
  simp

theorem exact_iff : rank.exact = true ↔ rank.worst = 0 := by
  obtain ⟨-, rfl⟩ := rank?_eq_some_iff.1 h
  exact exact_tally_iff (by simp)

theorem distance_eq : rank.distance =
    ((types.conversions arguments candidate).map (·.distance)).foldl Number.addDouble 0 := by
  obtain ⟨-, rfl⟩ := rank?_eq_some_iff.1 h
  rw [distance_tally, conversions_eq_map, List.map_map]
  rfl

end Rank

/-! ## Winners -/

theorem wins_iff : types.wins candidates arguments candidate = true ↔
    ∃ rank, types.rank? arguments candidate = some rank ∧ ∀ other ∈ candidates, ∀ rival,
      types.rank? arguments other = some rival → rival.compare rank ≠ .lt := by
  simp only [wins, Option.any_eq_true, List.all_eq_true, Option.all_eq_true, decide_eq_true_eq]

/-- The best candidates are those that take the arguments and than which none is better. -/
theorem mem_winners_iff : candidate ∈ (types.choose candidates arguments).winners ↔
    candidate ∈ candidates ∧ types.wins candidates arguments candidate = true := by
  rw [choose_eq_ofWinners, Resolution.winners_ofWinners, List.mem_mergeSort, List.mem_filter]

theorem choose_eq_noApplicable_iff : types.choose candidates arguments = .noApplicable ↔
    ∀ candidate, candidate ∉ (types.choose candidates arguments).winners := by
  rw [← List.eq_nil_iff_forall_not_mem]
  cases types.choose candidates arguments <;> simp [Resolution.winners]

end TypeTable

end Pascal
