import Mathlib.Data.List.Basic
import Mathlib.Data.List.Induction
import Mathlib.Order.Bounds.Basic
import Mathlib.Tactic.Common
import Pascal.Model.Annotations

/-!
# Issues across a reset

Collection seals the issues that it finds, and a reset of the resolution goes back to them. The seal
is a position in the list of issues, which is moved back only as far as the list has become shorter.
So a reset is exact if none of the sealed issues has been dropped. If some were dropped while later
issues remained, it keeps later issues in their place.

## Main results

- `Annotations.reset_exact_iff`: what a reset leaves, and when these are the sealed issues.
-/

namespace Pascal

/-- A call that changes the list of issues. -/
inductive IssueCall where
  | push (issue : Issue)
  | retain (keep : Issue → Bool)
  | sealIssues
  | reset

namespace IssueCall

/-- Whether an issue stays, as far as retaining is concerned. -/
def keeps (issue : Issue) : IssueCall → Bool
  | retain keep => keep issue
  | _ => true

/-- Whether no call drops an issue by retaining others. -/
def keptBy (calls : List IssueCall) (issue : Issue) : Bool := calls.all (·.keeps issue)

/-- The issue that a call pushes. -/
def pushes : IssueCall → List Issue
  | push issue => [issue]
  | _ => []

/-- The issues that are pushed and that no later call drops by retaining others, in order. -/
def pushed : List IssueCall → List Issue
  | [] => []
  | call :: rest => call.pushes.filter (keptBy rest) ++ pushed rest

/-- The last call has retained some issues, or there was none. -/
def JustSifted (calls : List IssueCall) : Prop :=
  calls = [] ∨ ∃ earlier keep, calls = earlier ++ [retain keep]

variable {calls : List IssueCall} {call : IssueCall}

@[simp] theorem filter_keeps_retain (keep : Issue → Bool) (issues : List Issue) :
    issues.filter (keeps · (retain keep)) = issues.filter keep := rfl

@[simp] theorem filter_keeps_push (issue : Issue) (issues : List Issue) :
    issues.filter (keeps · (push issue)) = issues := List.filter_true issues

@[simp] theorem filter_keeps_sealIssues (issues : List Issue) :
    issues.filter (keeps · sealIssues) = issues := List.filter_true issues

@[simp] theorem filter_keeps_reset (issues : List Issue) :
    issues.filter (keeps · reset) = issues := List.filter_true issues

theorem filter_keptBy_concat (issues : List Issue) :
    issues.filter (keptBy (calls ++ [call])) =
      (issues.filter (keptBy calls)).filter (call.keeps ·) := by
  rw [List.filter_filter]
  refine List.filter_congr fun issue _ => ?_
  simp [keptBy, Bool.and_comm]

theorem pushed_concat :
    pushed (calls ++ [call]) = (pushed calls).filter (call.keeps ·) ++ call.pushes := by
  induction calls with
  | nil => simp [pushed, keptBy]
  | cons first rest ih =>
    rw [List.cons_append, pushed, pushed, ih, filter_keptBy_concat, List.filter_append,
      List.append_assoc]

theorem filter_keptBy_sublist {early : List IssueCall} (h : early <+: calls) (issues : List Issue) :
    (issues.filter (keptBy calls)).Sublist (issues.filter (keptBy early)) := by
  obtain ⟨later, rfl⟩ := h
  refine List.monotone_filter_right issues fun issue hkept => ?_
  simp only [keptBy, List.all_append, Bool.and_eq_true] at hkept
  exact hkept.1

theorem justSifted_concat_iff : JustSifted (calls ++ [call]) ↔ ∃ keep, call = retain keep := by
  constructor
  · rintro (hnil | ⟨earlier, keep, heq⟩)
    · exact absurd hnil (List.concat_ne_nil call calls)
    · exact ⟨keep, List.singleton_inj.1 (List.append_inj' heq rfl).2⟩
  · rintro ⟨keep, rfl⟩
    exact .inr ⟨calls, keep, rfl⟩

end IssueCall

namespace Annotations

open IssueCall

/-- Makes a call. -/
def perform (tree : SyntaxTree) (a : Annotations) : IssueCall → Annotations
  | .push issue => a.pushIssue issue
  | .retain keep => a.retainIssues keep
  | .sealIssues => a.sealIssues
  | .reset => a.resetResolution tree

/-- The issues after several calls on annotations that had none. -/
def issuesAfter (tree : SyntaxTree) (calls : List IssueCall) : List Issue :=
  (calls.foldl (perform tree) {}).issues.toList

variable {tree : SyntaxTree} {a : Annotations} {call : IssueCall} {calls after : List IssueCall}
  {declared found : List Issue}

/-- A call other than a reset sifts the issues there are and adds its own. -/
theorem issues_perform (h : call ≠ .reset) : (a.perform tree call).issues.toList =
    a.issues.toList.filter (call.keeps ·) ++ call.pushes := by
  cases call with
  | push issue => simp [perform, pushIssue, pushes]
  | retain keep => simp [perform, retainIssues, pushes]
  | sealIssues => simp [perform, sealIssues, pushes]
  | reset => exact absurd rfl h

theorem issues_perform_sublist (call : IssueCall) : (a.perform tree call).issues.toList.Sublist
    (a.issues.toList.filter (call.keeps ·) ++ call.pushes) := by
  by_cases h : call = .reset
  · subst h
    simpa [perform, toList_issues_resetResolution, pushes] using List.take_sublist _ _
  · rw [issues_perform h]

theorem issuesAfter_concat : issuesAfter tree (calls ++ [call]) =
    ((calls.foldl (perform tree) {}).perform tree call).issues.toList := by
  rw [issuesAfter, List.foldl_append]
  rfl

/-- Every issue has been pushed and was dropped by no call that retained others. -/
theorem issuesAfter_sublist : (issuesAfter tree calls).Sublist (pushed calls) := by
  induction calls using List.reverseRecOn with
  | nil => simp [issuesAfter, pushed]
  | append_singleton calls call ih =>
    rw [issuesAfter_concat, pushed_concat]
    exact (issues_perform_sublist call).trans ((ih.filter _).append_right _)

/-- Without a reset, no other issue goes. -/
theorem issuesAfter_append (earlier : List IssueCall) (h : .reset ∉ calls) :
    issuesAfter tree (earlier ++ calls) =
      (issuesAfter tree earlier).filter (keptBy calls) ++ pushed calls := by
  induction calls using List.reverseRecOn with
  | nil =>
    have all : (issuesAfter tree earlier).filter (keptBy []) = issuesAfter tree earlier :=
      List.filter_true _
    rw [all, pushed, List.append_nil, List.append_nil]
  | append_singleton calls call ih =>
    rw [List.mem_append, List.mem_singleton, not_or] at h
    rw [← List.append_assoc, issuesAfter_concat, issues_perform (Ne.symm h.2), ← issuesAfter,
      ih h.1, filter_keptBy_concat, pushed_concat, List.filter_append, List.append_assoc]

/-! ## The position of the seal -/

/-- The issues are sealed ones followed by others, and the seal stands at the end of the sealed ones
or among the others. -/
structure Divided (a : Annotations) (declared found : List Issue) : Prop where
  issues : a.issues.toList = declared ++ found
  le_sealed : declared.length ≤ a.sealed
  sealed_le : a.sealed ≤ declared.length + found.length

theorem divided_sealIssues (a : Annotations) : a.sealIssues.Divided a.issues.toList [] where
  issues := by simp [sealIssues]
  le_sealed := by simp [sealIssues]
  sealed_le := by simp [sealIssues]

theorem Divided.issues_resetResolution (h : a.Divided declared found) :
    (a.resetResolution tree).issues.toList =
      declared ++ found.take (a.sealed - declared.length) := by
  rw [toList_issues_resetResolution, h.issues, List.take_append, List.take_of_length_le h.le_sealed]

/-- Annotations that were never sealed have the seal at the start of the list. -/
theorem sealed_eq_zero (unsealed : .sealIssues ∉ calls) :
    (calls.foldl (perform tree) {}).sealed = 0 := by
  induction calls using List.reverseRecOn with
  | nil => rfl
  | append_singleton calls call ih =>
    rw [List.mem_append, List.mem_singleton, not_or] at unsealed
    have start := ih unsealed.1
    rw [List.foldl_append]
    cases call with
    | push issue | reset => exact start
    | sealIssues => exact absurd rfl unsealed.2
    | retain keep => exact Nat.min_eq_zero_iff.2 (.inl start)

/-- A reset is exact if the seal stands at the end of the sealed issues. -/
theorem Divided.issues_resetResolution_eq_iff (h : a.Divided declared found) :
    (a.resetResolution tree).issues.toList = declared ↔ a.sealed = declared.length := by
  rw [h.issues_resetResolution, List.append_right_eq_self, List.take_eq_nil_iff]
  have hdeclared := h.le_sealed
  have hsealed := h.sealed_le
  constructor
  · rintro (hnone | rfl)
    · omega
    · exact Nat.le_antisymm hsealed hdeclared
  · exact fun heq => .inl (by omega)

/-- A call other than sealing drops the sealed issues that are not retained and no others. -/
theorem Divided.perform (h : a.Divided declared found) (tree : SyntaxTree)
    (unsealed : call ≠ .sealIssues) :
    ∃ found', (a.perform tree call).Divided (declared.filter (call.keeps ·)) found' ∧
      found'.Sublist (found.filter (call.keeps ·) ++ call.pushes) := by
  have hdeclared := h.le_sealed
  have hsealed := h.sealed_le
  cases call with
  | push issue =>
    refine ⟨found ++ [issue], ⟨?_, ?_, ?_⟩, by simp [pushes]⟩
    · simp [Annotations.perform, pushIssue, h.issues]
    · simpa [Annotations.perform, pushIssue] using hdeclared
    · rw [filter_keeps_push, List.length_append, ← Nat.add_assoc]
      exact Nat.le_succ_of_le hsealed
  | retain keep =>
    have hsize : (a.issues.filter keep).size =
        (declared.filter keep).length + (found.filter keep).length := by
      rw [← Array.length_toList, Array.toList_filter, h.issues, List.filter_append,
        List.length_append]
    have hfilter : (declared.filter keep).length ≤ declared.length := List.length_filter_le _ _
    refine ⟨found.filter keep, ⟨?_, ?_, ?_⟩, by simp [pushes]⟩
    · simp [Annotations.perform, retainIssues, h.issues]
    · simp only [Annotations.perform, retainIssues, filter_keeps_retain, hsize]
      omega
    · simp only [Annotations.perform, retainIssues, filter_keeps_retain, hsize]
      omega
  | sealIssues => exact absurd rfl unsealed
  | reset =>
    refine ⟨found.take (a.sealed - declared.length), ⟨?_, ?_, ?_⟩, ?_⟩
    · rw [filter_keeps_reset]
      exact h.issues_resetResolution
    · rw [filter_keeps_reset]
      exact hdeclared
    · simp only [filter_keeps_reset, List.length_take, Annotations.perform, resetResolution]
      omega
    · simpa [pushes] using List.take_sublist _ _

/-- After any calls since the seal, the issues are those sealed ones that were not dropped, and
behind them some that were pushed since. -/
theorem exists_divided (tree : SyntaxTree) (a : Annotations) (unsealed : .sealIssues ∉ after) :
    ∃ found, (after.foldl (perform tree) a.sealIssues).Divided
      (a.issues.toList.filter (keptBy after)) found ∧ found.Sublist (pushed after) := by
  induction after using List.reverseRecOn with
  | nil =>
    have all : a.issues.toList.filter (keptBy []) = a.issues.toList := List.filter_true _
    exact ⟨[], all.symm ▸ divided_sealIssues a, List.Sublist.refl _⟩
  | append_singleton after call ih =>
    rw [List.mem_append, List.mem_singleton, not_or] at unsealed
    obtain ⟨found, divided, hfound⟩ := ih unsealed.1
    obtain ⟨found', divided', hfound'⟩ := divided.perform tree (Ne.symm unsealed.2)
    rw [List.foldl_append, filter_keptBy_concat, pushed_concat]
    exact ⟨found', divided', hfound'.trans ((hfound.filter _).append_right _)⟩

/-- The lengths that the list of issues had when it was sealed and when it was sifted since. -/
def siftedLengths (tree : SyntaxTree) (a : Annotations) (after : List IssueCall) : Set Nat :=
  { n | ∃ early, early <+: after ∧ JustSifted early ∧
    (early.foldl (perform tree) a.sealIssues).issues.toList.length = n }

theorem siftedLengths_concat (h : ∀ keep, call ≠ .retain keep) :
    siftedLengths tree a (after ++ [call]) = siftedLengths tree a after := by
  ext n
  constructor
  · rintro ⟨early, hearly, sifted, hn⟩
    obtain rfl | hearly := List.prefix_concat_iff.1 hearly
    · obtain ⟨keep, rfl⟩ := justSifted_concat_iff.1 sifted
      exact absurd rfl (h keep)
    · exact ⟨early, hearly, sifted, hn⟩
  · rintro ⟨early, hearly, sifted, hn⟩
    exact ⟨early, List.prefix_concat_iff.2 (.inr hearly), sifted, hn⟩

theorem siftedLengths_concat_retain (keep : Issue → Bool) :
    siftedLengths tree a (after ++ [.retain keep]) =
      insert ((after.foldl (perform tree) a.sealIssues).issues.toList.filter keep).length
        (siftedLengths tree a after) := by
  have last : ((after ++ [retain keep]).foldl (perform tree) a.sealIssues).issues.toList =
      (after.foldl (perform tree) a.sealIssues).issues.toList.filter keep := by
    simp [List.foldl_append, perform, retainIssues]
  ext n
  constructor
  · rintro ⟨early, hearly, sifted, hn⟩
    obtain rfl | hearly := List.prefix_concat_iff.1 hearly
    · exact .inl (hn ▸ congrArg List.length last)
    · exact .inr ⟨early, hearly, sifted, hn⟩
  · rintro (rfl | ⟨early, hearly, sifted, hn⟩)
    · exact ⟨_, List.prefix_refl _, justSifted_concat_iff.2 ⟨keep, rfl⟩, congrArg List.length last⟩
    · exact ⟨early, List.prefix_concat_iff.2 (.inr hearly), sifted, hn⟩

/-- The seal stands at the smallest of these lengths. -/
theorem isLeast_sealed (a : Annotations) (unsealed : .sealIssues ∉ after) :
    IsLeast (siftedLengths tree a after) (after.foldl (perform tree) a.sealIssues).sealed := by
  induction after using List.reverseRecOn with
  | nil =>
    refine ⟨⟨[], List.prefix_refl _, .inl rfl, rfl⟩, ?_⟩
    rintro n ⟨early, hearly, -, rfl⟩
    rw [List.prefix_nil.1 hearly]
    exact Nat.le_refl _
  | append_singleton after call ih =>
    rw [List.mem_append, List.mem_singleton, not_or] at unsealed
    have least := ih unsealed.1
    rw [List.foldl_append]
    cases call with
    | push issue | reset =>
      rw [siftedLengths_concat fun _ => by simp]
      exact least
    | sealIssues => exact absurd rfl unsealed.2
    | retain keep =>
      rw [siftedLengths_concat_retain]
      have moved := least.insert
        ((after.foldl (perform tree) a.sealIssues).issues.toList.filter keep).length
      rw [min_comm, ← Array.toList_filter, Array.length_toList] at moved
      rwa [← Array.toList_filter, Array.length_toList]

/-- What a reset leaves of the issues. Without a seal it leaves none. Those that were there at the
last seal and were not dropped since by retaining others are all left, in their order; they were
pushed before the seal, and only an earlier reset can have taken others. Behind them stand issues
pushed since the seal. A reset cuts the list to the smallest length that it had at the seal and
whenever issues were retained since. So it leaves the sealed issues alone exactly if the list
consisted of just these at one of these moments, as it did at the seal itself unless one of them was
dropped afterwards. -/
theorem reset_exact_iff (tree : SyntaxTree) (before after : List IssueCall)
    (unsealed : .sealIssues ∉ after) :
    let kept := (issuesAfter tree before).filter (keptBy after)
    issuesAfter tree (after ++ [.reset]) = [] ∧
    (issuesAfter tree before).Sublist (pushed before) ∧
    (∀ earlier recent, before = earlier ++ recent → .reset ∉ recent →
      issuesAfter tree before =
        (issuesAfter tree earlier).filter (keptBy recent) ++ pushed recent) ∧
    (∃ found, found.Sublist (pushed after) ∧
      issuesAfter tree (before ++ .sealIssues :: after) = kept ++ found) ∧
    (∃ m, IsLeast { n | ∃ early, early <+: after ∧ JustSifted early ∧
        (issuesAfter tree (before ++ .sealIssues :: early)).length = n } m ∧
      issuesAfter tree (before ++ .sealIssues :: after ++ [.reset]) =
        (issuesAfter tree (before ++ .sealIssues :: after)).take m) ∧
    (issuesAfter tree (before ++ .sealIssues :: after ++ [.reset]) = kept ↔
      ∃ early, early <+: after ∧ JustSifted early ∧
        issuesAfter tree (before ++ .sealIssues :: early) = kept) := by
  intro kept
  let a := before.foldl (perform tree) {}
  have since (calls : List IssueCall) : issuesAfter tree (before ++ .sealIssues :: calls) =
      (calls.foldl (perform tree) a.sealIssues).issues.toList := by
    rw [issuesAfter, List.foldl_append]
    rfl
  have afterReset : issuesAfter tree (before ++ .sealIssues :: after ++ [.reset]) =
      ((after.foldl (perform tree) a.sealIssues).resetResolution tree).issues.toList := by
    rw [List.append_assoc, List.cons_append, since, List.foldl_append]
    rfl
  have least : IsLeast (siftedLengths tree a after) _ := isLeast_sealed a unsealed
  obtain ⟨found, divided, hfound⟩ : ∃ found, (after.foldl (perform tree) a.sealIssues).Divided
      kept found ∧ found.Sublist (pushed after) := exists_divided tree a unsealed
  rw [afterReset, divided.issues_resetResolution_eq_iff]
  simp only [since]
  refine ⟨?_, issuesAfter_sublist, fun earlier recent split none => ?_,
    ⟨found, hfound, divided.issues⟩, ⟨_, least, toList_issues_resetResolution _ tree⟩,
    fun hexact => ?_, ?_⟩
  · rw [issuesAfter_concat, perform, toList_issues_resetResolution, sealed_eq_zero unsealed,
      List.take_zero]
  · rw [split, issuesAfter_append earlier none]
  · obtain ⟨early, hearly, sifted, hlength⟩ := least.1
    obtain ⟨found', divided', -⟩ := exists_divided tree a
      fun mem => unsealed (hearly.subset mem)
    -- What is to be kept now was there at that moment, so it was all there was.
    have still : kept.Sublist (early.foldl (perform tree) a.sealIssues).issues.toList := by
      rw [divided'.issues]
      exact (filter_keptBy_sublist hearly _).trans (List.sublist_append_left _ _)
    exact ⟨early, hearly, sifted, (still.eq_of_length (hexact ▸ hlength.symm)).symm⟩
  · rintro ⟨early, hearly, sifted, heq⟩
    have hle := least.2 ⟨early, hearly, sifted, rfl⟩
    rw [heq] at hle
    exact Nat.le_antisymm hle divided.le_sealed

/-- A unit with one name in it. -/
def nameUnit : SyntaxTree where
  nodes := #[{ kind := .nameReference "X" }, { kind := .unit "Sample", children := [⟨0⟩] }]
  root := ⟨1⟩
  ordered := by decide

/-- A complaint about a node of the unit. -/
def complaint (node : Nat) : Issue := ⟨⟨node⟩, {}, .unresolvedReference "X"⟩

/-- An issue is sealed, another one is pushed, and the sealed one is dropped. None of the sealed
issues is left to be kept, but the reset leaves the other one. Had the sealed issue been dropped
before the other one was pushed, the reset would leave none. -/
theorem complaints_reset :
    let first : List IssueCall := [.push (complaint 1)]
    let drop : IssueCall := .retain (·.node ≠ ⟨1⟩)
    (issuesAfter nameUnit first).filter (keptBy [.push (complaint 0), drop]) = [] ∧
    issuesAfter nameUnit (first ++ .sealIssues :: [.push (complaint 0), drop] ++ [.reset]) =
      [complaint 0] ∧
    issuesAfter nameUnit (first ++ .sealIssues :: [drop, .push (complaint 0)] ++ [.reset]) =
      [] := by
  intro first drop
  refine ⟨rfl, rfl, ?_⟩
  obtain ⟨-, -, -, -, -, exactIff⟩ :=
    reset_exact_iff nameUnit first [drop, .push (complaint 0)] (by simp [drop])
  exact exactIff.2 ⟨[drop], ⟨[.push (complaint 0)], rfl⟩, .inr ⟨[], _, rfl⟩, rfl⟩

end Annotations

end Pascal
