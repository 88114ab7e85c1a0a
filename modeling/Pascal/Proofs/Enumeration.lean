import Pascal.Proofs.Families
import Pascal.Session.Basic

/-!
# Enumerations of candidates

The candidates of an operator are a set, and any list of its members is as good as any other. The
same candidates win in whatever order they are enumerated. The outcome lists them in the order of
their declarations, so it is the same for all enumerations unless this order leaves two winners
together. Declared routines are never left together. Built-in meanings are when they are shown
alike, which happens to sets and to `nil`: the names in two texts may be the same and the types
different.

## Main results

- `Environment.resolveOperator_enumeration`: the outcome of an operator depends on the enumeration
  exactly where there are lookalikes.
-/

namespace Pascal

open TypeTable Operator

/-! ## The order of candidates -/

/-- Two members of a list without repetition stand in one order only. -/
theorem not_sublist_swap {α : Type*} {l : List α} {a b : α} (nodup : l.Nodup)
    (h : [a, b].Sublist l) : ¬[b, a].Sublist l := by
  induction l with
  | nil => simp
  | cons x rest ih =>
    rw [List.cons_sublist_cons'] at h ⊢
    grind [List.nodup_cons, List.Sublist.mem]

theorem nodup_eraseDups {α : Type*} [BEq α] [LawfulBEq α] : ∀ l : List α, l.eraseDups.Nodup
  | [] => List.nodup_nil
  | a :: rest => by
    rw [List.eraseDups_cons, List.nodup_cons]
    refine ⟨by simp, nodup_eraseDups _⟩
termination_by l => l.length
decreasing_by exact Nat.lt_succ_of_le (List.length_filter_le _ _)

namespace TypeTable

variable {types : TypeTable} {arguments : List Ty} {xs ys : List Invocable} {c d : Invocable}

theorem wins_eq_of_perm (perm : xs.Perm ys) :
    types.wins xs arguments = types.wins ys arguments := by
  funext c
  rw [Bool.eq_iff_iff, wins_iff, wins_iff]
  simp only [perm.mem_iff]

/-- In whatever order the candidates stand, the same ones win. -/
theorem winners_perm (perm : xs.Perm ys) :
    (types.choose xs arguments).winners.Perm (types.choose ys arguments).winners := by
  refine (perm_winners ..).trans (.trans ?_ (perm_winners ..).symm)
  rw [wins_eq_of_perm perm]
  exact perm.filter _

/-- Two winners are not told apart. -/
def Undecided (types : TypeTable) (outcome : Resolution) : Prop :=
  ∃ c ∈ outcome.winners, ∃ d ∈ outcome.winners, c ≠ d ∧ types.declarationOrder c d = .eq

theorem declarationOrder_eq_eq_iff :
    types.declarationOrder c d = .eq ↔ types.precedes c d ∧ types.precedes d c := by
  rw [precedes, precedes, types.declarationOrder_swap c d]
  cases types.declarationOrder c d <;> decide

/-- Winners that are told apart are listed in one order only. -/
theorem choose_eq_of_perm (perm : xs.Perm ys)
    (decided : ¬types.Undecided (types.choose xs arguments)) :
    types.choose xs arguments = types.choose ys arguments := by
  have same : (types.choose xs arguments).winners.Perm (types.choose ys arguments).winners :=
    winners_perm perm
  have antisymm : ∀ c d, c ∈ (types.choose xs arguments).winners →
      d ∈ (types.choose ys arguments).winners → types.precedes c d → types.precedes d c →
        c = d := by
    intro c d hc hd before after
    by_contra differ
    exact decided ⟨c, hc, d, same.mem_iff.2 hd, differ,
      declarationOrder_eq_eq_iff.2 ⟨before, after⟩⟩
  have winners := List.Perm.eq_of_pairwise antisymm (pairwise_winners ..) (pairwise_winners ..) same
  rw [choose_eq_ofWinners_winners types xs, winners, ← choose_eq_ofWinners_winners]

/-- Of winners that are not told apart, the one that stands first is listed first. -/
theorem sublist_winners (hc : types.wins (c :: d :: xs) arguments c = true)
    (hd : types.wins (c :: d :: xs) arguments d = true) (order : types.declarationOrder c d = .eq) :
    [c, d].Sublist (types.choose (c :: d :: xs) arguments).winners := by
  rw [choose_eq_ofWinners, Resolution.winners_ofWinners]
  refine List.sublist_mergeSort (fun a b c => by simpa using precedes_trans)
    (fun a b => by simpa using precedes_total types a b) (by simp [order]) ?_
  rw [List.filter_cons_of_pos hc, List.filter_cons_of_pos hd]
  exact .cons_cons _ (.cons_cons _ (List.nil_sublist _))

theorem exists_perm_choose_ne (nodup : xs.Nodup)
    (undecided : types.Undecided (types.choose xs arguments)) :
    ∃ ys : List Invocable, ys.Perm xs ∧ types.choose ys arguments ≠ types.choose xs arguments := by
  obtain ⟨c, hc, d, hd, differ, order⟩ := undecided
  obtain ⟨memc, winsc⟩ := mem_winners_iff.1 hc
  obtain ⟨memd, winsd⟩ := mem_winners_iff.1 hd
  obtain ⟨rest, perm⟩ : ∃ rest, xs.Perm (c :: d :: rest) := by
    refine ⟨(xs.erase c).erase d, (List.perm_cons_erase memc).trans (.cons _ ?_)⟩
    exact List.perm_cons_erase ((List.mem_erase_of_ne differ.symm).2 memd)
  have swapped : xs.Perm (d :: c :: rest) := perm.trans (.swap ..)
  -- If all enumerations had one outcome, it would list the two in either order.
  by_contra! same
  have front : [c, d].Sublist (types.choose xs arguments).winners := by
    rw [← same _ perm.symm]
    exact sublist_winners (wins_eq_of_perm perm ▸ winsc) (wins_eq_of_perm perm ▸ winsd) order
  have back : [d, c].Sublist (types.choose xs arguments).winners := by
    rw [← same _ swapped.symm]
    exact sublist_winners (wins_eq_of_perm swapped ▸ winsd) (wins_eq_of_perm swapped ▸ winsc)
      (Std.OrientedCmp.eq_symm order)
  exact not_sublist_swap ((perm_winners ..).nodup_iff.2 (nodup.filter _)) front back

/-- Exactly where two winners are not told apart, the outcome depends on the enumeration. -/
theorem forall_perm_choose_eq_iff (nodup : xs.Nodup) :
    (∀ ys : List Invocable, ys.Perm xs → types.choose ys arguments = types.choose xs arguments) ↔
      ¬types.Undecided (types.choose xs arguments) := by
  refine ⟨fun same undecided => ?_, fun decided ys perm => ?_⟩
  · obtain ⟨ys, perm, ne⟩ := exists_perm_choose_ne nodup undecided
    exact ne (same ys perm)
  · exact (choose_eq_of_perm perm.symm decided).symm

end TypeTable

/-! ## Lookalikes -/

/-- Whether two operands are, or may become, sets of different types that are shown alike, and both
reach either of them. -/
def TypeTable.alikeSets (types : TypeTable) (left right : Ty) : Bool :=
  match types.setOperand? left.unaliased, types.setOperand? right.unaliased with
  | some s, some t =>
    s ≠ t && types.image s = types.image t && [left, right].all fun operand =>
      [s, t].all fun set => types.conversion operand set ≠ .incompatible
  | _, _ => false

/-- Whether two operands are `nil` as pointers of different types that can be reckoned with. -/
def Ty.alikeNils (left right : Ty) : Bool :=
  match left.unaliased, right.unaliased with
  | .pointer x true true, .pointer y true true => x ≠ y
  | _, _ => false

/-- Whether the operands bring different built-in meanings that take them and are shown alike. -/
def TypeTable.hasLookalikes (types : TypeTable) : Operator → List Ty → Bool
  | .binary operator, [left, right] =>
    operator ∈ [.add, .subtract, .multiply] && types.alikeSets left right ||
      operator ∈ [.add, .subtract] && left.alikeNils right
  | _, _ => false

section Lookalikes

variable {types : TypeTable} {operator : BinaryOperator} {left right p q r s t : Ty}
  {c d : Invocable}

theorem TypeTable.alikeSets_iff : types.alikeSets left right = true ↔ ∃ s t,
    types.setOperand? left.unaliased = some s ∧ types.setOperand? right.unaliased = some t ∧
      s ≠ t ∧ types.image s = types.image t ∧ ∀ operand ∈ [left, right], ∀ set ∈ [s, t],
        types.conversion operand set ≠ .incompatible := by
  unfold alikeSets
  split
  next s t hs ht => simp [hs, ht, and_assoc]
  next none =>
    simp only [Bool.false_eq_true, false_iff]
    rintro ⟨s, t, hs, ht, -⟩
    exact none s t hs ht

theorem Ty.alikeNils_iff : left.alikeNils right = true ↔ ∃ x y,
    left.unaliased = .pointer x true true ∧ right.unaliased = .pointer y true true ∧ x ≠ y := by
  unfold alikeNils
  split
  next x y hx hy => simp [hx, hy]
  next none =>
    simp only [Bool.false_eq_true, false_iff]
    rintro ⟨x, y, hx, hy, -⟩
    exact none x y hx hy

namespace Operator

/-- Different things are brought by different operands. -/
theorem brought_apart {f : Ty → Option Ty} {x y : Ty} {ty ty' : Ty} (mem : ty ∈ [left, right])
    (hx : f ty.unaliased = some x) (mem' : ty' ∈ [left, right]) (hy : f ty'.unaliased = some y)
    (differ : x ≠ y) : f left.unaliased = some x ∧ f right.unaliased = some y ∨
      f left.unaliased = some y ∧ f right.unaliased = some x := by
  rw [List.mem_pair] at mem mem'
  grind

section Pair

variable {ty ty' operand : Ty} (mem : ty ∈ [left, right]) (mem' : ty' ∈ [left, right])
include mem mem'

/-- Next to a number there is only one pointer. -/
theorem eq_of_conversion_int (hp : ty.unaliased.mathPointer? = some p)
    (hq : ty'.unaliased.mathPointer? = some q) (among : operand ∈ [left, right])
    (reached : types.conversion operand .int ≠ .incompatible) : p = q := by
  by_contra differ
  refine reached ?_
  rcases brought_apart mem hp mem' hq differ with ⟨hl, hr⟩ | ⟨hl, hr⟩ <;>
    rcases List.mem_pair.1 among with rfl | rfl
  all_goals exact types.conversion_int_of_mathPointer? ‹_›

/-- Two pointers that are shown alike are both `nil`. -/
theorem alikeNils_of_image_eq (hp : ty.unaliased.mathPointer? = some p)
    (hq : ty'.unaliased.mathPointer? = some q) (differ : p ≠ q)
    (alike : types.image p = types.image q) (reached : types.conversion left p ≠ .incompatible)
    (reached' : types.conversion left q ≠ .incompatible) : left.alikeNils right = true := by
  have nils {p q : Ty} (hl : left.unaliased.mathPointer? = some p)
      (hr : right.unaliased.mathPointer? = some q) (differ : p ≠ q)
      (alike : types.image p = types.image q) (reached : types.conversion left q ≠ .incompatible) :
      left.alikeNils right = true := by
    obtain ⟨x, y, rfl, rfl⟩ := exists_nil_of_image_eq hl hr differ alike reached
    refine Ty.alikeNils_iff.2 ⟨x, y, (Ty.eq_of_mathPointer? hl).1, (Ty.eq_of_mathPointer? hr).1, ?_⟩
    rintro rfl
    exact differ rfl
  rcases brought_apart mem hp mem' hq differ with ⟨hl, hr⟩ | ⟨hl, hr⟩
  · exact nils hl hr differ alike reached'
  · exact nils hl hr differ.symm alike.symm reached

theorem alikeSets_of_image_eq (hs : types.setOperand? ty.unaliased = some s)
    (ht : types.setOperand? ty'.unaliased = some t) (differ : s ≠ t)
    (alike : types.image s = types.image t)
    (reached : ∀ operand ∈ [left, right], ∀ set ∈ [s, t],
      types.conversion operand set ≠ .incompatible) : types.alikeSets left right = true := by
  rw [alikeSets_iff]
  rcases brought_apart mem hs mem' ht differ with ⟨hl, hr⟩ | ⟨hl, hr⟩
  · exact ⟨s, t, hl, hr, differ, alike, reached⟩
  · refine ⟨t, s, hl, hr, differ.symm, alike.symm, fun operand mem set hset => ?_⟩
    exact reached operand mem set (by simpa [or_comm] using hset)

/-- Different built-in meanings that take both operands and are shown alike are lookalikes. -/
theorem hasLookalikes_of_spelling_eq (hc : c ∈ builtins types (.binary operator) ty.unaliased)
    (hd : d ∈ builtins types (.binary operator) ty'.unaliased)
    (appliesc : types.Applies [left, right] c) (appliesd : types.Applies [left, right] d)
    (text : types.spelling c = types.spelling d) (differ : c ≠ d) :
    types.hasLookalikes (.binary operator) [left, right] = true := by
  obtain ⟨k, madec⟩ := exists_madeFrom hc
  obtain ⟨k', maded⟩ := exists_madeFrom hd
  -- One text gives one cue, so the two are of one family.
  obtain rfl : k = k' := by rw [← madec.cue_eq, text, maded.cue_eq]
  cases madec with
  | fixed found =>
    cases maded with
    | fixed found' =>
      have apart := nodup_spellings_fixed types operator
      exact absurd (List.inj_on_of_nodup_map apart found found' text) differ
  | step hp =>
    have reached := (applies_between_iff.1 appliesc).2
    cases maded with
    | step hq =>
      cases eq_of_conversion_int mem mem' hp hq (List.mem_pair.2 (.inr rfl)) reached
      exact absurd rfl differ
    | gap hq =>
      cases eq_of_conversion_int mem mem' hp hq (List.mem_pair.2 (.inr rfl)) reached
      exact absurd text spelling_step_ne_gap
  | @gap p hp kind =>
    cases maded with
    | step hq =>
      have reached := (applies_between_iff.1 appliesd).2
      cases eq_of_conversion_int mem mem' hp hq (List.mem_pair.2 (.inr rfl)) reached
      exact absurd text.symm spelling_step_ne_gap
    | @gap q hq =>
      have others : p ≠ q := by
        rintro rfl
        exact differ rfl
      have alike := image_eq_of_spelling_eq_gap (Ty.isNeutral_of_mathPointer? hp)
        (Ty.isNeutral_of_mathPointer? hq) text
      have nils := alikeNils_of_image_eq mem mem' hp hq others alike
        (applies_between_iff.1 appliesc).1 (applies_between_iff.1 appliesd).1
      rw [hasLookalikes, nils, decide_eq_true kind, Bool.and_true, Bool.or_true]
  | offset hp =>
    cases maded with
    | offset hq =>
      have reached := (applies_between_iff.1 appliesd).1
      cases eq_of_conversion_int mem mem' hp hq (List.mem_pair.2 (.inl rfl)) reached
      exact absurd rfl differ
  | @set s hs kind =>
    cases maded with
    | @set t ht =>
      have others : s ≠ t := by
        rintro rfl
        exact differ rfl
      have alike := image_eq_of_spelling_eq_self (isNeutral_of_setOperand? hs)
        (isNeutral_of_setOperand? ht) text
      have sets := alikeSets_of_image_eq mem mem' hs ht others alike (by
        rw [applies_between_iff] at appliesc appliesd
        simp [appliesc, appliesd])
      rw [hasLookalikes, sets, decide_eq_true kind, Bool.and_true, Bool.true_or]
  | @array a ha =>
    cases maded with
    | @array b hb =>
      have others : a ≠ b := by
        rintro rfl
        exact differ rfl
      rcases brought_apart mem ha mem' hb others with ⟨hl, hr⟩ | ⟨hl, hr⟩
      · have none := types.conversion_of_dynamicArray? hl hr others
        exact absurd none (applies_between_iff.1 appliesd).1
      · have none := types.conversion_of_dynamicArray? hl hr others.symm
        exact absurd none (applies_between_iff.1 appliesc).1

end Pair

end Operator

end Lookalikes

namespace Environment

variable {env : Environment} {operator : Operator} {operands : List Ty} {c d : Invocable}

/-- A method is determined by its declaration. -/
theorem eq_of_declaration_eq {id id' : StructId} (hc : c ∈ env.operatorMethods id operator)
    (hd : d ∈ env.operatorMethods id' operator) (h : byOrigin c d = .eq) : c = d := by
  obtain ⟨method, -, madec⟩ := mem_operatorMethods_iff.1 hc
  obtain ⟨method', -, maded⟩ := mem_operatorMethods_iff.1 hd
  rw [byOrigin, declaration_of_ofDeclaration? madec, declaration_of_ofDeclaration? maded] at h
  obtain ⟨index⟩ := method
  obtain ⟨index'⟩ := method'
  obtain rfl := Nat.compare_eq_eq.1 h
  exact Option.some.inj (madec.symm.trans maded)

/-- Candidates that are not told apart are built-in meanings that are shown alike. -/
theorem brought_of_declarationOrder_eq (hc : c ∈ env.operatorCandidates operator operands)
    (hd : d ∈ env.operatorCandidates operator operands)
    (order : env.types.declarationOrder c d = .eq) (differ : c ≠ d) :
    (∃ ty ∈ operands, c ∈ builtins env.types operator ty.unaliased) ∧
      (∃ ty ∈ operands, d ∈ builtins env.types operator ty.unaliased) ∧
        env.types.spelling c = env.types.spelling d := by
  rw [declarationOrder_eq, compareLex_eq_eq] at order
  obtain ⟨origin, text⟩ := order
  obtain ⟨ty, hty, ⟨id, -, hc⟩ | hc⟩ := mem_operatorCandidates_iff.1 hc <;>
    obtain ⟨ty', hty', ⟨id', -, hd⟩ | hd⟩ := mem_operatorCandidates_iff.1 hd
  · exact absurd (eq_of_declaration_eq hc hd origin) differ
  · obtain ⟨method, -, made⟩ := mem_operatorMethods_iff.1 hc
    rw [byOrigin, declaration_of_ofDeclaration? made,
      (isBuiltin_iff.1 (isBuiltin_of_mem hd)).1] at origin
    cases origin
  · obtain ⟨method, -, made⟩ := mem_operatorMethods_iff.1 hd
    rw [byOrigin, declaration_of_ofDeclaration? made,
      (isBuiltin_iff.1 (isBuiltin_of_mem hc)).1] at origin
    cases origin
  · refine ⟨⟨ty, hty, hc⟩, ⟨ty', hty', hd⟩, signature_eq_iff.1 ?_⟩
    exact Std.LawfulEqCmp.eq_of_compare text

/-- Winners that are not told apart are lookalikes. -/
theorem hasLookalikes_of_undecided
    (undecided : env.types.Undecided (env.resolveOperator operator operands)) :
    env.types.hasLookalikes operator operands = true := by
  obtain ⟨c, hc, d, hd, differ, order⟩ := undecided
  obtain ⟨memc, appliesc⟩ := applies_of_mem_winners hc
  obtain ⟨memd, appliesd⟩ := applies_of_mem_winners hd
  obtain ⟨⟨ty, hty, foundc⟩, ⟨ty', hty', foundd⟩, text⟩ :=
    brought_of_declarationOrder_eq memc memd order differ
  have count := length_of_applies (isBuiltin_of_mem foundc) appliesc
  cases operator with
  | unary operator =>
    obtain ⟨operand, rfl⟩ := List.length_eq_one_iff.1 count
    obtain rfl := List.mem_singleton.1 hty
    obtain rfl := List.mem_singleton.1 hty'
    have apart := nodup_spellings_unary env.types operator ty'.unaliased
    exact absurd (List.inj_on_of_nodup_map apart foundc foundd text) differ
  | binary operator =>
    obtain ⟨left, right, rfl⟩ := List.length_eq_two.1 count
    exact hasLookalikes_of_spelling_eq hty hty' foundc foundd appliesc appliesd text differ

end Environment

/-! ## Ties between lookalikes -/

/-- The rank of a meaning that one of two operands is converted for, at no distance. -/
def Rank.near : Rank := { exact := false, worst := 2, forms := [none, none] }

namespace TypeTable

variable {types : TypeTable} {arguments : List Ty} {candidates : List Invocable} {c d : Invocable}
  {left right p q r s t : Ty} {rank : Rank} {operator : BinaryOperator}

/-- Where all ranks are equal, every candidate wins that takes the arguments. -/
theorem mem_winners_of_rank_eq (hc : c ∈ candidates) (applies : types.Applies arguments c)
    (same : ∀ other ∈ candidates, ∀ rival, types.rank? arguments other = some rival →
      rival = rank) : c ∈ (types.choose candidates arguments).winners := by
  obtain ⟨own, ranked⟩ := applies.exists_rank
  obtain rfl := same c hc own ranked
  refine mem_winners_iff.2 ⟨hc, wins_iff.2 ⟨own, ranked, fun other mem rival hrival => ?_⟩⟩
  rw [same other mem rival hrival]
  exact Rank.compare_self_ne_lt _

/-- Built-in meanings that are shown alike are not told apart. -/
theorem declarationOrder_eq_eq_of_spelling_eq (hc : c.declaration = none)
    (hd : d.declaration = none) (text : types.spelling c = types.spelling d) :
    types.declarationOrder c d = .eq := by
  rw [declarationOrder_eq, compareLex_eq_eq]
  refine ⟨by rw [byOrigin, hc, hd], ?_⟩
  rw [compareOn, signature_eq_iff.2 text]
  exact Std.ReflCmp.compare_self

theorem rank_eq_of_near {name : String} (hp : p.isNeutral = true)
    (hq : q.integer? = none ∧ q.procedural? = none)
    (hl : types.conversion left p ∈ Conversion.near)
    (hr : types.conversion right q ∈ Conversion.near)
    (converted : types.conversion left p = .convertible 0 ∨
      types.conversion right q = .convertible 0)
    (h : types.rank? [left, right] (between name p q r) = some rank) :
    rank = .near := by
  obtain ⟨-, rfl⟩ := rank?_eq_some_iff.1 h
  change (({} : Rank).add (types.conversion left p) p).add (types.conversion right q) q = _
  simp only [Rank.add, Ty.isNeutral_iff.1 hp, hq]
  simp only [Conversion.near, List.mem_cons, List.not_mem_nil, or_false] at hl hr
  rcases converted with converted | converted
  · rw [converted]
    rcases hr with hr | hr | hr <;> rw [hr] <;> rfl
  · rw [converted]
    rcases hl with hl | hl | hl <;> rw [hl] <;> rfl

end TypeTable

namespace Operator

variable {types : TypeTable} {operator : BinaryOperator} {left right ty p q s : Ty} {c : Invocable}

theorem builtins_of_setOperand? (kind : operator ∈ [.add, .subtract, .multiply])
    (h : types.setOperand? ty = some s) :
    builtins types (.binary operator) ty = [between operator.intrinsicName s s s] := by
  simp only [List.mem_cons, List.not_mem_nil, or_false] at kind
  rcases kind with rfl | rfl | rfl <;> cases ty <;> cases h <;> rfl

theorem gap_mem_builtins (kind : operator ∈ [.add, .subtract])
    (h : ty.mathPointer? = some p) : gap operator p ∈ builtins types (.binary operator) ty := by
  obtain ⟨rfl, target, isNil, rfl⟩ := Ty.eq_of_mathPointer? h
  rcases List.mem_pair.1 kind with rfl | rfl
  · exact .tail _ (.tail _ (.head _))
  · exact .tail _ (.head _)

/-- Between two pointers, no other meaning takes them. -/
theorem eq_gap_of_applies (kind : operator ∈ [.add, .subtract]) (h : ty.mathPointer? = some p)
    (hl : left.unaliased.mathPointer? = some s) (hr : right.unaliased.mathPointer? = some q)
    (mem : c ∈ builtins types (.binary operator) ty) (applies : types.Applies [left, right] c) :
    c = gap operator p := by
  obtain ⟨rfl, target, isNil, rfl⟩ := Ty.eq_of_mathPointer? h
  have first := types.conversion_int_of_mathPointer? hl
  have second := types.conversion_int_of_mathPointer? hr
  rcases List.mem_pair.1 kind with rfl | rfl
  · change c ∈ [_, _, _] at mem
    simp only [List.mem_cons, List.not_mem_nil, or_false] at mem
    rcases mem with rfl | rfl | rfl
    · exact absurd second (applies_between_iff.1 applies).2
    · exact absurd first (applies_between_iff.1 applies).1
    · rfl
  · change c ∈ [_, _] at mem
    rcases List.mem_pair.1 mem with rfl | rfl
    · exact absurd second (applies_between_iff.1 applies).2
    · rfl

end Operator

namespace Environment

variable {env : Environment} {left right : Ty}

/-- Different built-in meanings of one rank that are shown alike are tied and not told apart. -/
theorem undecided_of_rank_eq {operator : Operator} {operands : List Ty} {c d : Invocable}
    (hc : c ∈ env.operatorCandidates operator operands)
    (hd : d ∈ env.operatorCandidates operator operands) (appliesc : env.types.Applies operands c)
    (appliesd : env.types.Applies operands d) (builtinc : c.declaration = none)
    (builtind : d.declaration = none) (differ : c ≠ d)
    (text : env.types.spelling c = env.types.spelling d)
    (ranks : ∀ other ∈ env.operatorCandidates operator operands, ∀ rival,
      env.types.rank? operands other = some rival → rival = .near) :
    env.types.Undecided (env.resolveOperator operator operands) :=
  ⟨c, mem_winners_of_rank_eq hc appliesc ranks, d, mem_winners_of_rank_eq hd appliesd ranks, differ,
    declarationOrder_eq_eq_of_spelling_eq builtinc builtind text⟩

variable {operator : BinaryOperator}

theorem undecided_of_alikeSets (kind : operator ∈ [.add, .subtract, .multiply])
    (h : env.types.alikeSets left right = true) :
    env.types.Undecided (env.resolveOperator (.binary operator) [left, right]) := by
  obtain ⟨s, t, hs, ht, differ, alike, reached⟩ := alikeSets_iff.1 h
  simp only [List.mem_cons, List.not_mem_nil, or_false, forall_eq_or_imp, forall_eq] at reached
  obtain ⟨⟨leftS, leftT⟩, rightS, rightT⟩ := reached
  have neutralS := isNeutral_of_setOperand? hs
  have neutralT := isNeutral_of_setOperand? ht
  -- Sets bring one meaning each, and either set is converted for the meaning of the other.
  have candidates : ∀ c, c ∈ env.operatorCandidates (.binary operator) [left, right] ↔
      c = between operator.intrinsicName s s s ∨ c = between operator.intrinsicName t t t := by
    intro c
    rw [mem_operatorCandidates_iff_of_not_isStruct]
    · simp [builtins_of_setOperand? kind hs, builtins_of_setOperand? kind ht]
    · simp [isStruct_of_setOperand? hs, isStruct_of_setOperand? ht]
  refine undecided_of_rank_eq ((candidates _).2 (.inl rfl)) ((candidates _).2 (.inr rfl))
    (applies_between_iff.2 ⟨leftS, rightS⟩)
    (applies_between_iff.2 ⟨leftT, rightT⟩) rfl rfl ?_
    (spelling_self_eq _ neutralS neutralT alike) fun c hc rank ranked => ?_
  · intro same
    cases same
    exact differ rfl
  · rcases (candidates c).1 hc with rfl | rfl
    · have converted := conversion_of_setOperand?_ne ht hs rightS differ.symm
      exact rank_eq_of_near neutralS (Ty.isNeutral_iff.1 neutralS).2.2
        (near_of_setOperand? hs hs leftS) (near_of_setOperand? ht hs rightS)
        (.inr converted) ranked
    · have converted := conversion_of_setOperand?_ne hs ht leftT differ
      exact rank_eq_of_near neutralT (Ty.isNeutral_iff.1 neutralT).2.2
        (near_of_setOperand? hs ht leftT) (near_of_setOperand? ht ht rightT)
        (.inl converted) ranked

theorem undecided_of_alikeNils (kind : operator ∈ [.add, .subtract])
    (h : left.alikeNils right = true) :
    env.types.Undecided (env.resolveOperator (.binary operator) [left, right]) := by
  obtain ⟨x, y, hx, hy, differ⟩ := Ty.alikeNils_iff.1 h
  have hl : left.unaliased.mathPointer? = some (.pointer x true true) := by rw [hx]; rfl
  have hr : right.unaliased.mathPointer? = some (.pointer y true true) := by rw [hy]; rfl
  have near (z : Ty) : env.types.conversion left (.pointer z true true) ∈ Conversion.near :=
    near_of_nil hx z
  have converted := env.types.conversion_matcher_of_mathPointer? hr
  have candidates : ∀ c, c ∈ env.operatorCandidates (.binary operator) [left, right] ↔
      c ∈ builtins env.types (.binary operator) left.unaliased ∨
        c ∈ builtins env.types (.binary operator) right.unaliased := by
    intro c
    rw [mem_operatorCandidates_iff_of_not_isStruct]
    · simp
    · simp [Ty.isStruct_of_mathPointer? hl, Ty.isStruct_of_mathPointer? hr]
  have applies (z : Ty) :
      env.types.Applies [left, right] (gap operator (.pointer z true true)) := by
    refine applies_between_iff.2 ⟨fun none => ?_, ?_⟩
    · exact absurd (none ▸ near z) (by decide)
    · rw [converted]
      decide
  have alike : env.types.image (.pointer x true true) = env.types.image (.pointer y true true) := by
    simp only [image]
  refine undecided_of_rank_eq
    ((candidates _).2 (.inl (gap_mem_builtins kind hl)))
    ((candidates _).2 (.inr (gap_mem_builtins kind hr)))
    (applies x) (applies y) rfl rfl ?_ (spelling_gap_eq rfl rfl alike)
    fun c hc rank ranked => ?_
  · intro same
    cases same
    exact differ rfl
  -- Pointers bring meanings with numbers, too, but there is no number among the operands.
  · obtain ⟨z, rfl⟩ : ∃ z, c = gap operator (.pointer z true true) := by
      have takes := applies_of_rank? ranked
      obtain found | found := (candidates c).1 hc
      · exact ⟨x, eq_gap_of_applies kind hl hl hr found takes⟩
      · exact ⟨y, eq_gap_of_applies kind hr hl hr found takes⟩
    exact rank_eq_of_near rfl ⟨rfl, rfl⟩ (near z) (converted ▸ by decide) (.inr converted) ranked

/-- Winners are not told apart exactly where there are lookalikes. -/
theorem undecided_iff_hasLookalikes {operator : Operator} {operands : List Ty} :
    env.types.Undecided (env.resolveOperator operator operands) ↔
      env.types.hasLookalikes operator operands = true := by
  refine ⟨hasLookalikes_of_undecided, fun found => ?_⟩
  unfold hasLookalikes at found
  split at found
  · simp only [Bool.or_eq_true, Bool.and_eq_true, decide_eq_true_eq] at found
    obtain ⟨kind, sets⟩ | ⟨kind, nils⟩ := found
    · exact undecided_of_alikeSets kind sets
    · exact undecided_of_alikeNils kind nils
  · cases found

/-- In whatever order the candidates of an operator are enumerated, the same ones win. The outcome
does not depend on the order either, unless the operands bring lookalikes; then it does. -/
theorem resolveOperator_enumeration (env : Environment) (operator : Operator)
    (operands : List Ty) :
    (∀ enumeration : List Invocable,
        enumeration.Perm (env.operatorCandidates operator operands) →
          (env.types.choose enumeration operands).winners.Perm
            (env.resolveOperator operator operands).winners) ∧
      ((∀ enumeration : List Invocable,
          enumeration.Perm (env.operatorCandidates operator operands) →
            env.types.choose enumeration operands = env.resolveOperator operator operands) ↔
        env.types.hasLookalikes operator operands = false) := by
  refine ⟨fun enumeration perm => TypeTable.winners_perm perm, ?_⟩
  rw [← Bool.not_eq_true, ← undecided_iff_hasLookalikes]
  exact TypeTable.forall_perm_choose_eq_iff (nodup_eraseDups _)

/-- Sets of keys from two places, whose types have one name. -/
def keySets : List Ty := [.set (.distinct "TKey" .byte), .set (.distinct "TKey" .word)]

theorem keySets_enumeration : ∃ enumeration : List Invocable,
    enumeration.Perm ((Session.start {}).env.operatorCandidates (.binary .add) keySets) ∧
      (Session.start {}).env.types.choose enumeration keySets ≠
        (Session.start {}).env.resolveOperator (.binary .add) keySets := by
  have found : (Session.start {}).env.types.hasLookalikes (.binary .add) keySets = true := rfl
  by_contra! same
  have none := (resolveOperator_enumeration (Session.start {}).env (.binary .add) keySets).2.1 same
  rw [found] at none
  cases none

end Environment

end Pascal
