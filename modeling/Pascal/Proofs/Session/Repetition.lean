import Pascal.Proofs.Session.Immunity
import Pascal.Proofs.Steps

/-!
# Repeating the resolution of a unit

Questions about a unit leave traces in its annotations: types, occurrences, invocations and issues.
A pass forgets them first, apart from the type `unknown` of nodes that are no expressions, which
makes no difference to anyone. So a pass finds out the same after any questions as before them.

## Main results

- `Session.resolve_after_queries`: a pass finds out the same after any questions.
-/

namespace Pascal

/-- A question about a unit. -/
inductive Query where
  /-- The type of a node. -/
  | typeOf (n : NodeId)
  /-- Everything that a pass finds out. -/
  | resolve

namespace Session

/-- Asks a question and keeps what was found out, whether it could be answered or not. -/
def ask (session : Session) (model : Model) : Query → Model
  | .typeOf n => (session.typeOf model n).2
  | .resolve => (session.resolve model).2

/-- Asks questions one after the other. -/
def askAll (session : Session) (model : Model) (queries : List Query) : Model :=
  queries.foldl session.ask model

end Session

/-! ## What questions leave -/

namespace Typing

variable {ctx : TypingContext} {scope : ScopeId} {n : NodeId} {s s' : TypingState}
  {allowed : ScopeId → NodeId → Prop} {start : Annotations}

theorem Step.resolves (step : Step ctx allowed s s') (h : start.Resolves ctx.tree s.annotations) :
    start.Resolves ctx.tree s'.annotations := by
  cases step with
  | @type scope n sights permitted fresh ready seen =>
    have sound := ctx.sound_conclude scope n sights
    refine ⟨by simp [h.scopes], by simp [h.sealed], ?_, fun m hm => ?_⟩
    · rw [Finding.issues_enter]
      apply h.issues.trans
      cases (ctx.conclude scope n sights).issue <;> simp
    · by_cases hn : n = m
      · subst hn
        rw [TypingContext.conclude_of_not_isExpression hm, Finding.type?_enter, if_pos rfl]
        obtain heq | ⟨heq, -⟩ := h.types n hm
        · exact .inr ⟨heq.symm.trans fresh, rfl⟩
        · exact .inr ⟨heq, rfl⟩
      · have uncalled : ¬ctx.tree.Calls n m := by
          intro hc
          simp [hc.isExpression_callee] at hm
        rw [type?_enter_of_ne sound hn uncalled]
        exact h.types m hm

theorem Steps.resolves (steps : Steps ctx allowed s s')
    (h : start.Resolves ctx.tree s.annotations) : start.Resolves ctx.tree s'.annotations :=
  steps.keeps h fun _ _ h step => step.resolves h

end Typing

namespace Annotations

variable {tree : SyntaxTree} {a now : Annotations}

/-- Collection leaves what a pass starts with, and more. -/
theorem resolves_of_collected (tree : SyntaxTree) (a : Annotations) :
    (a.resetResolution tree).Resolves tree a where
  scopes := rfl
  sealed := rfl
  issues := by
    rw [toList_issues_resetResolution]
    exact List.take_prefix _ _
  types n hn := .inl (by simp [hn])

theorem Resolves.resetResolution (h : (a.resetResolution tree).Resolves tree now)
    (sealed : a.sealed ≤ a.issues.size) :
    (a.resetResolution tree).Resolves tree (now.resetResolution tree) where
  scopes := h.scopes
  sealed := h.sealed
  issues := by
    rewrite [h.issues_resetResolution sealed]
    exact List.prefix_refl _
  types n hn := by
    rw [type?_resetResolution, hn]
    exact h.types n hn

end Annotations

namespace Session

variable {model : Model}

theorem tree_ask (session : Session) (model : Model) (query : Query) :
    (session.ask model query).tree = model.tree ∧ (session.ask model query).scope = model.scope := by
  cases query with
  | typeOf n =>
    simp only [ask, typeOf, Environment.typeOf]
    split <;> exact ⟨rfl, rfl⟩
  | resolve => exact ⟨rfl, rfl⟩

/-- What a question leaves in the annotations. -/
theorem resolves_ask (session : Session) {start : Annotations}
    (sealed : start.sealed ≤ start.issues.size)
    (h : (start.resetResolution model.tree).Resolves model.tree model.annotations) (query : Query) :
    (start.resetResolution model.tree).Resolves model.tree
      (session.ask model query).annotations := by
  cases query with
  | typeOf n =>
    simp only [ask, typeOf, Environment.typeOf]
    split
    · exact h
    · exact Typing.Steps.resolves (Typing.steps_typeOf ⟨session.env, model.tree⟩ _ n _) h
  | resolve =>
    exact Typing.Steps.resolves (Typing.steps_resolveNode ⟨session.env, model.tree⟩ _ _ _)
      (h.resetResolution sealed)

theorem resolves_askAll (session : Session) {start : Annotations}
    (sealed : start.sealed ≤ start.issues.size)
    (h : (start.resetResolution model.tree).Resolves model.tree model.annotations)
    (queries : List Query) :
    let after := session.askAll model queries
    after.tree = model.tree ∧ after.scope = model.scope ∧
      (start.resetResolution model.tree).Resolves model.tree after.annotations := by
  induction queries generalizing model with
  | nil => exact ⟨rfl, rfl, h⟩
  | cons query rest ih =>
    obtain ⟨htree, hscope⟩ := tree_ask session model query
    have first := resolves_ask session sealed h query
    rw [← htree] at first
    obtain ⟨htree', hscope', later⟩ := ih first
    rw [htree] at later htree'
    exact ⟨htree', hscope'.trans hscope, later⟩

end Session

/-! ## States that no question tells apart -/

namespace Typing

/-- Two states of typing that no question tells apart: they differ at most in nodes that are no
expressions and whose type is unknown in one and not known to be so in the other. -/
structure InStep (tree : SyntaxTree) (s s' : TypingState) : Prop where
  types : ∀ n, (tree.kind n).isExpression = true → s'.annotations.type? n = s.annotations.type? n
  others : ∀ n, (s'.annotations.type? n).getD .unknown = (s.annotations.type? n).getD .unknown
  scopes : ∀ n, s'.annotations.scope? n = s.annotations.scope? n
  occurrences : ∀ n, s'.annotations.occurrence? n = s.annotations.occurrence? n
  invocations : ∀ n, s'.annotations.invocation? n = s.annotations.invocation? n
  issues : s'.annotations.issues = s.annotations.issues
  deferred : s'.deferred = s.deferred
  violation : s'.violation = s.violation

variable {ctx : TypingContext} {scope : ScopeId} {n : NodeId} {s s' : TypingState}

theorem InStep.enter (h : InStep ctx.tree s s') (finding : Finding) :
    InStep ctx.tree (finding.enter ctx.tree n s) (finding.enter ctx.tree n s') where
  types m hm := by simp only [Finding.type?_enter, h.types m hm]
  others m := by
    simp only [Finding.type?_enter]
    split_ifs
    · rfl
    · cases finding.callee with
      | none => exact h.others m
      | some callee =>
        simp only [Option.elim_some]
        split_ifs
        · rfl
        · exact h.others m
  scopes m := by simpa only [Annotations.scope?, Finding.scopes_enter] using h.scopes m
  occurrences m := by simp only [Finding.occurrence?_enter, h.occurrences m]
  invocations m := by simp only [Finding.invocation?_enter, h.invocations m]
  issues := by simp only [Finding.issues_enter, h.issues]
  deferred := by simp only [Finding.deferred_enter, h.deferred]
  violation := by simp only [Finding.violation_enter, h.violation]

/-- Typing a node that is no expression gives what is known about it and is not noticed. -/
theorem run_typeOf_of_not_isExpression (scope : ScopeId) (s : TypingState)
    (hn : (ctx.tree.kind n).isExpression = false) :
    ((typeOf ctx scope n).run s).1 = (s.annotations.type? n).getD .unknown ∧
      InStep ctx.tree s ((typeOf ctx scope n).run s).2 := by
  have same : InStep ctx.tree s s := by constructor <;> intros <;> rfl
  cases ht : s.annotations.type? n with
  | some ty =>
    rw [run_typeOf_of_some ht]
    exact ⟨rfl, same⟩
  | none =>
    rw [typeOf, run_get_bind, ht, compute_of_not_isExpression hn]
    refine ⟨rfl, { same with types := fun m hm => ?_, others := fun m => ?_ }⟩
    · refine (Annotations.type?_setType ..).trans (if_neg ?_)
      rintro rfl
      simp [hn] at hm
    · refine (congrArg (·.getD Ty.unknown) (Annotations.type?_setType ..)).trans ?_
      split_ifs with heq
      · subst heq
        rw [ht]
        rfl
      · rfl

theorem InStep.symm (h : InStep ctx.tree s s') : InStep ctx.tree s' s where
  types n hn := (h.types n hn).symm
  others n := (h.others n).symm
  scopes n := (h.scopes n).symm
  occurrences n := (h.occurrences n).symm
  invocations n := (h.invocations n).symm
  issues := h.issues.symm
  deferred := h.deferred.symm
  violation := h.violation.symm

theorem InStep.trans {s'' : TypingState} (h : InStep ctx.tree s s') (g : InStep ctx.tree s' s'') :
    InStep ctx.tree s s'' where
  types n hn := (g.types n hn).trans (h.types n hn)
  others n := (g.others n).trans (h.others n)
  scopes n := (g.scopes n).trans (h.scopes n)
  occurrences n := (g.occurrences n).trans (h.occurrences n)
  invocations n := (g.invocations n).trans (h.invocations n)
  issues := g.issues.trans h.issues
  deferred := g.deferred.trans h.deferred
  violation := g.violation.trans h.violation

/-- Typing a node from states in step gives the same type and leads to states in step. -/
theorem inStep_typeOf (ctx : TypingContext) (scope : ScopeId) (n : NodeId) :
    Sim (InStep ctx.tree) (fun _ => True) (typeOf ctx scope n) (typeOf ctx scope n) := by
  induction hi : n.index using Nat.strong_induction_on generalizing n with
  | _ index ih =>
    intro s s' h
    cases hn : (ctx.tree.kind n).isExpression with
    | false =>
      obtain ⟨value, left⟩ := run_typeOf_of_not_isExpression scope s hn
      obtain ⟨value', right⟩ := run_typeOf_of_not_isExpression scope s' hn
      exact ⟨value'.trans ((h.others n).trans value.symm), trivial, (left.symm.trans h).trans right⟩
    | true =>
      have hty := h.types n hn
      cases ht : s.annotations.type? n with
      | some ty =>
        rw [run_typeOf_of_some ht, run_typeOf_of_some (hty.trans ht)]
        exact ⟨rfl, trivial, h⟩
      | none =>
        rw [run_typeOf_of_none ht, run_typeOf_of_none (hty.trans ht)]
        have observed : ∀ b ∈ ctx.tree.operands n, Sim (InStep ctx.tree) (fun _ => True)
            (observe (fun b => typeOf ctx scope b.1) b)
            (observe (fun b => typeOf ctx scope b.1) b) := by
          intro b _ s s' h
          obtain ⟨value, -, after⟩ := ih b.1.index (hi ▸ b.2) b.1 rfl s s' h
          refine ⟨?_, trivial, after⟩
          simp only [run_observe, value, after.occurrences, after.deferred]
        obtain ⟨sights, -, after⟩ := Sim.mapM observed s s' h
        simp only [survey, sights]
        exact ⟨trivial, trivial, after.enter _⟩

/-- Passes over a subtree from states in step lead to states in step. -/
theorem inStep_resolveNode (ctx : TypingContext) (scope : ScopeId) (n : NodeId) :
    Sim (InStep ctx.tree) (fun _ => True) (resolveNode ctx scope n) (resolveNode ctx scope n) :=
  Sim.resolveNode (P := fun _ => True) (fun _ _ h => h.scopes) (fun _ _ _ _ _ _ => trivial)
    (fun scope n _ => inStep_typeOf ctx scope n) trivial n

/-- After a reset, annotations that questions have left are in step with those of collection. -/
theorem inStep_resetResolution {tree : SyntaxTree} {a now : Annotations}
    (h : (a.resetResolution tree).Resolves tree now) (sealed : a.sealed ≤ a.issues.size) :
    InStep tree { annotations := a.resetResolution tree }
      { annotations := now.resetResolution tree } where
  types n hn := by simp [hn]
  others n := by
    simp only [Annotations.type?_resetResolution]
    cases hn : (tree.kind n).isExpression with
    | true => rfl
    | false =>
      have types := h.types n hn
      simp only [Annotations.type?_resetResolution, hn, Bool.false_eq_true, if_false] at types ⊢
      obtain heq | ⟨hnone, hunknown⟩ := types
      · rw [heq]
      · rw [hnone, hunknown]
        rfl
  scopes n := by
    rw [Annotations.scope?_resetResolution, Annotations.scope?, h.scopes]
    rfl
  occurrences n := by simp
  invocations n := by simp
  issues := h.issues_resetResolution sealed
  deferred := rfl
  violation := rfl

end Typing

namespace Session

/-- After any questions about a collected unit, answered or not, a pass has the outcome and finds out
the types, the occurrences, the invocations and the issues, in the same order, that it has and finds
out right after the collection. -/
theorem resolve_after_queries (session host : Session) (tree : SyntaxTree) (model : Model)
    (collected : (session.collect tree).1 = .ok model) (queries : List Query) :
    let first := host.resolve model
    let again := host.resolve (host.askAll model queries)
    again.1 = first.1 ∧ (∀ n, again.2.typeOf n = first.2.typeOf n) ∧
      (∀ n, again.2.annotations.occurrence? n = first.2.annotations.occurrence? n) ∧
      (∀ n, again.2.annotations.invocation? n = first.2.annotations.invocation? n) ∧
      again.2.annotations.issues = first.2.annotations.issues := by
  intro first again
  have sealed := (sealed_of_collect collected).le
  obtain ⟨htree, hscope, left⟩ := resolves_askAll host sealed
    (Annotations.resolves_of_collected model.tree model.annotations) queries
  have inStep : Typing.InStep model.tree (host.env.resolved model)
      (host.env.resolved (host.askAll model queries)) := by
    unfold Environment.resolved
    rw [htree, hscope]
    exact (Typing.inStep_resolveNode ⟨host.env, model.tree⟩ model.scope model.tree.root _ _
      (Typing.inStep_resetResolution left sealed)).2.2
  simp only [first, again, resolve, Environment.resolve_eq, inStep.violation]
  exact ⟨trivial, inStep.others, inStep.occurrences, inStep.invocations, inStep.issues⟩

/-- A pass over a unit with a name in it, after the types of its two nodes have been asked for and
another pass has been made. -/
theorem namedUnit_resolved_again :
    let unit := expressionUnit "Sample" (.nameReference "Missing")
    let host := ((start {}).collect unit).2
    ∃ model, ((start {}).collect unit).1 = .ok model ∧
      let first := host.resolve model
      let again := host.resolve (host.askAll model [.typeOf ⟨0⟩, .resolve, .typeOf ⟨1⟩])
      again.1 = first.1 ∧ (∀ n, again.2.typeOf n = first.2.typeOf n) ∧
        (∀ n, again.2.annotations.occurrence? n = first.2.annotations.occurrence? n) ∧
        (∀ n, again.2.annotations.invocation? n = first.2.annotations.invocation? n) ∧
        again.2.annotations.issues = first.2.annotations.issues := by
  intro unit host
  have free : (start {}).isTaken "Sample" = false := isTaken_start {} (by decide)
  have collected : ((start {}).collect unit).1 = .ok _ :=
    congrArg Prod.fst (collect_expressionUnit free rfl)
  exact ⟨_, collected, resolve_after_queries (start {}) host unit _ collected
    [.typeOf ⟨0⟩, .resolve, .typeOf ⟨1⟩]⟩

end Session

end Pascal
