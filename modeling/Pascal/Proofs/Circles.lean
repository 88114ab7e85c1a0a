import Mathlib.Data.Finite.Prod
import Mathlib.Order.WellFounded
import Pascal.Proofs.Ranks

/-!
# Candidates that outdo each other

Callable forms are compared at the first position at which both candidates have one and the forms
differ. Which position that is depends on both, so candidates can be better than each other in a
circle. No candidate in the circle is best then, and a call can be left without any although there
are candidates that take its arguments.

## Main results

- `TypeTable.choose_eq_noApplicable_iff_outdone`: which calls are left without a candidate.
-/

namespace Pascal.TypeTable

variable {types : TypeTable} {arguments : List Ty} {candidates : List Invocable} {c d e : Invocable}

/-- One candidate is better than another, and both take the arguments. -/
def Outdoes (types : TypeTable) (arguments : List Ty) (c d : Invocable) : Prop :=
  ∃ rank rival, types.rank? arguments c = some rank ∧ types.rank? arguments d = some rival ∧
    rank.compare rival = .lt

/-- One candidate is as good as another, but for its forms, which are preferred. -/
def Prefers (types : TypeTable) (arguments : List Ty) (c d : Invocable) : Prop :=
  ∃ rank rival, types.rank? arguments c = some rank ∧ types.rank? arguments d = some rival ∧
    rank.standing = rival.standing ∧ Rank.compareForms rank.forms rival.forms = .lt

/-- A relation to one of the candidates. -/
def Among (candidates : List Invocable) (r : Invocable → Invocable → Prop) (c d : Invocable) :
    Prop := d ∈ candidates ∧ r c d

/-- Candidates of the same standing, each with a form that is preferred to the next one's, the last
to the first one's. -/
def Circle (types : TypeTable) (candidates : List Invocable) (arguments : List Ty) : Prop :=
  ∃ c ∈ candidates, Relation.TransGen (Among candidates (types.Prefers arguments)) c c

/-- No candidate is best if every one that takes the arguments is outdone. -/
theorem forall_not_mem_winners_iff :
    (∀ c, c ∉ (types.choose candidates arguments).winners) ↔ ∀ d ∈ candidates,
      types.Applies arguments d → ∃ c ∈ candidates, types.Outdoes arguments c d := by
  simp only [mem_winners_iff, wins_iff, not_and, not_exists]
  refine forall₂_congr fun d _ => ⟨fun none applies => ?_, fun outdone rank ranked best => ?_⟩
  · obtain ⟨rank, ranked⟩ := applies.exists_rank
    have beaten := none rank ranked
    push Not at beaten
    obtain ⟨c, hc, rival, hrival, better⟩ := beaten
    exact ⟨c, hc, rival, rank, hrival, ranked, better⟩
  · obtain ⟨c, hc, rival, _, hrival, ranked', better⟩ := outdone (applies_of_rank? ranked)
    cases ranked.symm.trans ranked'
    exact best c hc rival hrival better

/-- Along candidates each of which outdoes the next the standing does not get better, and if it stays
the same, the forms have made all the difference. -/
theorem standing_le_of_transGen
    (h : Relation.TransGen (Among candidates (types.Outdoes arguments)) c d) :
    ∃ rank rival, types.rank? arguments c = some rank ∧ types.rank? arguments d = some rival ∧
      rank.standing ≤ rival.standing ∧ (rank.standing = rival.standing →
        Relation.TransGen (Among candidates (types.Prefers arguments)) c d) := by
  induction h with
  | single step =>
    obtain ⟨hd, rank, rival, hrank, hrival, better⟩ := step
    refine ⟨rank, rival, hrank, hrival, ?_⟩
    obtain before | ⟨same, forms⟩ := Rank.compare_eq_lt_iff.1 better
    · exact ⟨before.le, fun same => absurd same before.ne⟩
    · exact ⟨same.le, fun _ => .single ⟨hd, rank, rival, hrank, hrival, same, forms⟩⟩
  | @tail d e path step ih =>
    obtain ⟨rank, middle, hrank, hmiddle, le, path⟩ := ih
    obtain ⟨he, middle', rival, hmiddle', hrival, better⟩ := step
    cases hmiddle.symm.trans hmiddle'
    refine ⟨rank, rival, hrank, hrival, ?_⟩
    obtain before | ⟨same, forms⟩ := Rank.compare_eq_lt_iff.1 better
    · exact ⟨(le.trans_lt before).le, fun same => absurd same (le.trans_lt before).ne⟩
    · refine ⟨le.trans same.le, fun all => ?_⟩
      exact (path (all.trans same.symm)).tail ⟨he, middle, rival, hmiddle, hrival, same, forms⟩

/-- If every candidate that takes the arguments is outdone, and there is one, some of them outdo each
other in a circle. -/
theorem exists_circle
    (outdone : ∀ d ∈ candidates, types.Applies arguments d →
      ∃ c ∈ candidates, types.Outdoes arguments c d)
    (some : ∃ c ∈ candidates, types.Applies arguments c) : types.Circle candidates arguments := by
  by_contra none
  let better (c d : { c // c ∈ candidates }) : Prop :=
    Relation.TransGen (Among candidates (types.Outdoes arguments)) c.1 d.1
  have : IsTrans _ better := ⟨fun _ _ _ => Relation.TransGen.trans⟩
  have : Std.Irrefl better := by
    refine ⟨fun c path => none ⟨c.1, c.2, ?_⟩⟩
    obtain ⟨rank, rival, hrank, hrival, -, circle⟩ := standing_le_of_transGen path
    cases hrank.symm.trans hrival
    exact circle rfl
  have : Finite { c // c ∈ candidates } := candidates.finite_toSet
  have wellFounded : WellFounded better := Finite.wellFounded_of_trans_of_irrefl better
  obtain ⟨c, hc, applies⟩ := some
  obtain ⟨⟨d, hd⟩, applies, least⟩ :=
    wellFounded.has_min { c | types.Applies arguments c.1 } ⟨⟨c, hc⟩, applies⟩
  obtain ⟨c, hc, outdoes⟩ := outdone d hd applies
  have ⟨_, _, ranked, _⟩ := outdoes
  exact least ⟨c, hc⟩ (applies_of_rank? ranked) (.single ⟨hd, outdoes⟩)

/-! ## Orderly candidates -/

/-- Two candidates that take the arguments have different forms at a position. -/
def Disagree (types : TypeTable) (candidates : List Invocable) (arguments : List Ty) (i : Nat) :
    Prop :=
  ∃ c ∈ candidates, ∃ d ∈ candidates, types.Applies arguments c ∧ types.Applies arguments d ∧
    ∃ mine theirs, c.form? i = some mine ∧ d.form? i = some theirs ∧ mine ≠ theirs

/-- Wherever two of the candidates that take the arguments have different forms, all of them have a
form, unless it is the last such position. -/
def Orderly (types : TypeTable) (candidates : List Invocable) (arguments : List Ty) : Prop :=
  ∀ i j, i < j → j < arguments.length → types.Disagree candidates arguments i →
    types.Disagree candidates arguments j →
      ∀ c ∈ candidates, types.Applies arguments c → (c.form? i).isSome

/-- At the first position at which two candidates have different forms, among those at which any two
of the candidates have, the form of the first is preferred. -/
def Ahead (types : TypeTable) (candidates : List Invocable) (arguments : List Ty)
    (c d : Invocable) : Prop :=
  ∃ i mine theirs, types.Disagree candidates arguments i ∧ c.form? i = some mine ∧
    d.form? i = some theirs ∧ theirs.preference < mine.preference ∧
    ∀ j < i, types.Disagree candidates arguments j → c.form? j = d.form? j

theorem not_ahead_self : ¬types.Ahead candidates arguments c c := by
  rintro ⟨i, mine, theirs, -, hm, ht, preferred, -⟩
  cases hm.symm.trans ht
  exact lt_irrefl _ preferred

/-- The first of the two positions decides. -/
theorem Ahead.trans (first : types.Ahead candidates arguments c d)
    (second : types.Ahead candidates arguments d e) : types.Ahead candidates arguments c e := by
  obtain ⟨i, mine, theirs, differ, hc, hd, preferred, same⟩ := first
  obtain ⟨i', mine', theirs', differ', hd', he, preferred', same'⟩ := second
  obtain lt | rfl | gt := Nat.lt_trichotomy i i'
  · refine ⟨i, mine, theirs, differ, hc, (same' i lt differ).symm.trans hd, preferred, ?_⟩
    exact fun j hj hdiffer => (same j hj hdiffer).trans (same' j (hj.trans lt) hdiffer)
  · cases hd.symm.trans hd'
    refine ⟨i, mine, theirs', differ, hc, he, preferred'.trans preferred, ?_⟩
    exact fun j hj hdiffer => (same j hj hdiffer).trans (same' j hj hdiffer)
  · refine ⟨i', mine', theirs', differ', (same i' gt differ').trans hd', he, preferred', ?_⟩
    exact fun j hj hdiffer => (same j (hj.trans gt) hdiffer).trans (same' j hj hdiffer)

/-- Among orderly candidates a preferred form is preferred at the first position that matters. -/
theorem Orderly.ahead (orderly : types.Orderly candidates arguments) (hc : c ∈ candidates)
    (hd : d ∈ candidates) (prefers : types.Prefers arguments c d) :
    types.Ahead candidates arguments c d := by
  obtain ⟨rank, rival, hrank, hrival, -, forms⟩ := prefers
  obtain ⟨i, mine, theirs, hm, ht, preferred, before⟩ := Rank.exists_of_compareForms forms
  obtain ⟨hi, hm⟩ := (getElem?_forms_iff hrank).1 hm
  obtain ⟨-, ht⟩ := (getElem?_forms_iff hrival).1 ht
  have takes := applies_of_rank? hrank
  have takes' := applies_of_rank? hrival
  have differ : types.Disagree candidates arguments i := by
    refine ⟨c, hc, d, hd, takes, takes', mine, theirs, hm, ht, ?_⟩
    rintro rfl
    exact lt_irrefl _ preferred
  refine ⟨i, mine, theirs, differ, hm, ht, preferred, fun j hj hdiffer => ?_⟩
  have callable := orderly j i hj hi hdiffer differ
  obtain ⟨m, hm⟩ := Option.isSome_iff_exists.1 (callable c hc takes)
  obtain ⟨t, ht⟩ := Option.isSome_iff_exists.1 (callable d hd takes')
  have same := before j hj m t ((getElem?_forms_iff hrank).2 ⟨hj.trans hi, hm⟩)
    ((getElem?_forms_iff hrival).2 ⟨hj.trans hi, ht⟩)
  rw [hm, ht, same]

theorem Orderly.not_circle (orderly : types.Orderly candidates arguments) :
    ¬types.Circle candidates arguments := by
  rintro ⟨c, hc, path⟩
  have ahead : ∀ d, Relation.TransGen (Among candidates (types.Prefers arguments)) c d →
      d ∈ candidates ∧ types.Ahead candidates arguments c d := by
    intro d path
    induction path with
    | single step => exact ⟨step.1, orderly.ahead hc step.1 step.2⟩
    | tail _ step ih => exact ⟨step.1, ih.2.trans (orderly.ahead ih.1 step.1 step.2)⟩
  exact not_ahead_self (ahead c path).2

/-- A call is left without a candidate exactly if every candidate that takes its arguments is outdone
by another one. If there is one at all, some of them are in a circle. So among orderly candidates, a
call is left without one exactly if none takes its arguments. -/
theorem choose_eq_noApplicable_iff_outdone (types : TypeTable) (candidates : List Invocable)
    (arguments : List Ty) :
    (types.choose candidates arguments = .noApplicable ↔ ∀ d ∈ candidates,
      types.Applies arguments d → ∃ c ∈ candidates, types.Outdoes arguments c d) ∧
    (types.choose candidates arguments = .noApplicable →
      (∃ c ∈ candidates, types.Applies arguments c) → types.Circle candidates arguments) ∧
    (types.Orderly candidates arguments → (types.choose candidates arguments = .noApplicable ↔
      ∀ c ∈ candidates, ¬types.Applies arguments c)) := by
  have outdone : types.choose candidates arguments = .noApplicable ↔ ∀ d ∈ candidates,
      types.Applies arguments d → ∃ c ∈ candidates, types.Outdoes arguments c d :=
    choose_eq_noApplicable_iff.trans forall_not_mem_winners_iff
  refine ⟨outdone, fun none => exists_circle (outdone.1 none), fun orderly => ?_⟩
  refine ⟨fun none c hc applies => ?_, fun none => outdone.2 fun d hd applies => ?_⟩
  · exact orderly.not_circle (exists_circle (outdone.1 none) ⟨c, hc, applies⟩)
  · exact absurd applies (none d hd)

/-! ## A circle -/

/-- A callable type without parameters and result. -/
def callable (kind : ProceduralKind) : Ty := .procedural kind [] .void

/-- Three routines with two parameters each, of which the last takes any pointer first. -/
def nilTakers : List Invocable :=
  [.builtin "F" [callable .method, callable .procedure] .void,
    .builtin "F" [callable .procedure, callable .reference] .void,
    .builtin "F" [.pointer .untyped false false, callable .procedureOfObject] .void]

/-- The routines all take `nil` twice, but each of them is outdone by another. Without the last one
the call has a candidate. -/
theorem nilTakers_outdone :
    let types : TypeTable := {}
    let nils : List Ty := [.pointer .untyped true false, .pointer .untyped true false]
    (∀ c ∈ nilTakers, types.Applies nils c) ∧ types.choose nilTakers nils = .noApplicable ∧
      types.Circle nilTakers nils ∧ types.choose (nilTakers.take 2) nils ≠ .noApplicable := by
  intro types nils
  have takes : ∀ c ∈ nilTakers, types.Applies nils c := by decide +kernel
  have none : types.choose nilTakers nils = .noApplicable := by decide +kernel
  have orderly : types.Orderly (nilTakers.take 2) nils := by
    intro i j hi hj _ _ c hc _
    obtain rfl : i = 0 := by simp only [nils, List.length_cons, List.length_nil] at hj; omega
    have callable : ∀ c ∈ nilTakers.take 2, (c.form? 0).isSome = true := by decide
    exact callable c hc
  obtain ⟨-, circle, -⟩ := choose_eq_noApplicable_iff_outdone types nilTakers nils
  obtain ⟨-, -, complete⟩ := choose_eq_noApplicable_iff_outdone types (nilTakers.take 2) nils
  refine ⟨takes, none, circle none ⟨_, List.mem_cons_self, takes _ List.mem_cons_self⟩, ?_⟩
  intro lost
  exact (complete orderly).1 lost _ List.mem_cons_self (takes _ List.mem_cons_self)

end Pascal.TypeTable
