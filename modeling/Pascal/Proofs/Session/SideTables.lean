import Pascal.Proofs.Session.Collected
import Pascal.Proofs.Session.Repetition

/-!
# Agreement of the side tables

Types, occurrences, invocations and issues are recorded in tables of their own, and what is called
is recorded by the call around it. After a pass the tables say the same about every call and every
choice among signatures, because a node is recorded once: nothing is recorded about a node before it
is typed, and the only node that is recorded a second time is a name or member that is called, which
takes part in no choice of its own.

## Main results

- `Session.side_tables_agree`: the tables agree after a pass over a collected unit.
-/

namespace Pascal

namespace TypingContext

variable {ctx : TypingContext} {n : NodeId}

/-- What the tables say about a signature that is called at a node: it gives the type of the node,
and the name or member that mentions or calls it refers to its declaration. -/
structure CallAgrees (ctx : TypingContext) (a : Annotations) (n : NodeId) (inv : Invocable) :
    Prop where
  result : a.type? n = some inv.result
  mention : (ctx.tree.kind n).isReference = true → ctx.isCallee n = false ∧
    ∃ occurrence, a.occurrence? n = some occurrence ∧ occurrence.declaration = inv.declaration
  call : ctx.tree.kind n = .invocation → ∃ c occurrence, ctx.tree.Calls n c ∧
    (a.type? c).isSome ∧ a.occurrence? c = some occurrence ∧
      occurrence.declaration = inv.declaration

/-- What the tables say about a complaint that a choice among signatures failed or was ambiguous. -/
structure ChoiceAgrees (ctx : TypingContext) (a : Annotations) (issue : Issue) : Prop where
  chooser : issue.kind.isOverload = true →
    (ctx.tree.kind issue.node).isReference = false ∧ (a.type? issue.node).isSome
  refused : ∀ name arguments, issue.kind = .noApplicableOverload name arguments →
    a.invocation? issue.node = none ∧ a.type? issue.node = some .unknown
  ambiguous : ∀ name chosen candidates, issue.kind = .ambiguousOverload name chosen candidates →
    candidates.head? = some chosen ∧
      ∃ inv, a.invocation? issue.node = some inv ∧ ctx.env.types.signature inv = chosen

/-- Other complaints have nothing to agree with. -/
theorem ChoiceAgrees.of_not_isOverload {a : Annotations} {issue : Issue}
    (h : issue.kind.isOverload = false) : ctx.ChoiceAgrees a issue where
  chooser ho := by simp [h] at ho
  refused _ _ hk := by simp [hk, IssueKind.isOverload] at h
  ambiguous _ _ _ hk := by simp [hk, IssueKind.isOverload] at h

end TypingContext

namespace Typing

variable {ctx : TypingContext} {scope : ScopeId} {n m : NodeId} {s s' : TypingState}
  {allowed : ScopeId → NodeId → Prop} {finding : Finding}

/-- The tables agree about every call and every choice. -/
structure Agrees (ctx : TypingContext) (a : Annotations) : Prop where
  calls : ∀ n inv, a.invocation? n = some inv → ctx.CallAgrees a n inv
  choices : ∀ issue ∈ a.issues, ctx.ChoiceAgrees a issue

theorem invocation?_enter_of_ne (hn : n ≠ m) :
    (finding.enter ctx.tree n s).annotations.invocation? m = s.annotations.invocation? m := by
  rw [Finding.invocation?_enter]
  cases finding.invocation with
  | none => rfl
  | some inv => exact if_neg hn

/-- Nothing is recorded about a node before it is typed. -/
theorem Agrees.invocation?_eq_none (h : Agrees ctx s.annotations)
    (fresh : s.annotations.type? n = none) : s.annotations.invocation? n = none := by
  cases hinv : s.annotations.invocation? n with
  | none => rfl
  | some inv =>
    have typed := (h.calls n inv hinv).result
    rw [fresh] at typed
    cases typed

theorem ne_of_isSome_type? (fresh : s.annotations.type? n = none)
    (h : (s.annotations.type? m).isSome) : n ≠ m := by
  rintro rfl
  rw [fresh] at h
  cases h

section Recording

variable (sound : finding.Sound ctx n) (fresh : s.annotations.type? n = none)
include sound fresh

/-- Findings about a node leave the calls at other nodes as they are. -/
theorem callAgrees_enter_of_ne (single : ctx.tree.OneParent) {inv : Invocable}
    (h : ctx.CallAgrees s.annotations m inv) :
    ctx.CallAgrees (finding.enter ctx.tree n s).annotations m inv := by
  have hn : n ≠ m := ne_of_isSome_type? fresh (by rw [h.result]; rfl)
  have uncalled : ¬ctx.tree.Calls n m := by
    intro hc
    obtain ⟨alone, -⟩ := h.mention hc.isReference
    simp [TypingContext.isCallee_of_calls single hc] at alone
  constructor
  case result => rw [type?_enter_of_ne sound hn uncalled, h.result]
  case mention => simpa only [occurrence?_enter_of_ne sound hn uncalled] using h.mention
  case call =>
    intro hk
    obtain ⟨c, occurrence, hc, typed, ho, hd⟩ := h.call hk
    have hnc : n ≠ c := ne_of_isSome_type? fresh typed
    -- Another caller of `c` would be another parent of it.
    have uncalled' : ¬ctx.tree.Calls n c := fun hc' => hn (single.eq hc.mem hc'.mem)
    refine ⟨c, occurrence, hc, ?_, ?_, hd⟩
    · rwa [type?_enter_of_ne sound hnc uncalled']
    · rwa [occurrence?_enter_of_ne sound hnc uncalled']

/-- Findings about a node leave the choices at other nodes as they are. -/
theorem choiceAgrees_enter_of_ne {issue : Issue} (h : ctx.ChoiceAgrees s.annotations issue) :
    ctx.ChoiceAgrees (finding.enter ctx.tree n s).annotations issue := by
  cases ho : issue.kind.isOverload with
  | false => exact .of_not_isOverload ho
  | true =>
    obtain ⟨hk, typed⟩ := h.chooser ho
    have hn : n ≠ issue.node := ne_of_isSome_type? fresh typed
    have uncalled : ¬ctx.tree.Calls n issue.node := fun hc => by
      simp [hc.isReference] at hk
    have hty := type?_enter_of_ne (s := s) sound hn uncalled
    have hinv : (finding.enter ctx.tree n s).annotations.invocation? issue.node =
        s.annotations.invocation? issue.node := invocation?_enter_of_ne hn
    exact
      { chooser := fun _ => ⟨hk, hty ▸ typed⟩
        refused := by simpa only [hty, hinv] using h.refused
        ambiguous := by simpa only [hinv] using h.ambiguous }

end Recording

/-- The signature that is called at a node agrees with what else is found out about it. -/
theorem callAgrees_enter (sound : finding.Sound ctx n) {inv : Invocable} (h : finding.invocation = some inv) :
    ctx.CallAgrees (finding.enter ctx.tree n s).annotations n inv := by
  obtain ⟨result, mention, call⟩ := sound.invoked inv h
  constructor
  case result => rw [Finding.type?_enter, if_pos rfl, result]
  case mention =>
    intro hk
    obtain ⟨alone, occurrence, ho, hd⟩ := mention hk
    exact ⟨alone, occurrence, by simp [Finding.occurrence?_enter, ho], hd⟩
  case call =>
    intro hk
    obtain ⟨c, occurrence, hc, ho, hd⟩ := call hk
    obtain ⟨⟨ty, hty⟩, -⟩ := sound.called c hc
    refine ⟨c, occurrence, hc, ?_, by simp [Finding.occurrence?_enter, ho], hd⟩
    rw [Finding.type?_enter, hty]
    split_ifs
    · rfl
    · simp

/-- A complaint about a choice at a node agrees with what else is found out about it. -/
theorem choiceAgrees_enter (sound : finding.Sound ctx n)
    (blank : s.annotations.invocation? n = none) {place : NodeId} {kind : IssueKind}
    (h : finding.issue = some (place, kind)) (position : Position) :
    ctx.ChoiceAgrees (finding.enter ctx.tree n s).annotations
      { node := place, position, kind } := by
  have typed : (finding.enter ctx.tree n s).annotations.type? n = some finding.ty := by
    rw [Finding.type?_enter, if_pos rfl]
  have called : (finding.enter ctx.tree n s).annotations.invocation? n = finding.invocation := by
    rw [Finding.invocation?_enter, blank]
    cases finding.invocation <;> simp
  constructor
  case chooser =>
    intro ho
    cases kind with
    | noApplicableOverload name arguments =>
      obtain ⟨rfl, hk, -⟩ := sound.refused _ _ _ h
      exact ⟨hk, by simp only [typed, Option.isSome_some]⟩
    | ambiguousOverload name chosen candidates =>
      obtain ⟨rfl, hk, -⟩ := sound.ambiguous _ _ _ _ h
      exact ⟨hk, by simp only [typed, Option.isSome_some]⟩
    | _ => cases ho
  case refused =>
    rintro name arguments rfl
    obtain ⟨rfl, -, hinv, hty⟩ := sound.refused _ _ _ h
    exact ⟨called.trans hinv, typed.trans (congrArg some hty)⟩
  case ambiguous =>
    rintro name chosen candidates rfl
    obtain ⟨rfl, -, first, inv, hinv, hsig⟩ := sound.ambiguous _ _ _ _ h
    exact ⟨first, inv, called.trans hinv, hsig⟩

/-- A step of typing keeps the agreement of the tables. -/
theorem Step.agrees (single : ctx.tree.OneParent) (step : Step ctx allowed s s')
    (h : Agrees ctx s.annotations) : Agrees ctx s'.annotations := by
  cases step with
  | @type scope n sights permitted fresh ready seen =>
    have sound := ctx.sound_conclude scope n sights
    have blank := h.invocation?_eq_none fresh
    generalize ctx.conclude scope n sights = finding at sound
    constructor
    case calls =>
      intro m inv hinv
      by_cases hn : n = m
      · subst hn
        rw [Finding.invocation?_enter, blank] at hinv
        cases hf : finding.invocation with
        | none => simp [hf] at hinv
        | some found =>
          obtain rfl : found = inv := by simpa [hf] using hinv
          exact callAgrees_enter sound hf
      · rw [invocation?_enter_of_ne hn] at hinv
        exact callAgrees_enter_of_ne sound fresh single (h.calls m inv hinv)
    case choices =>
      intro issue hissue
      rw [Finding.issues_enter] at hissue
      cases hf : finding.issue with
      | none =>
        rw [hf] at hissue
        exact choiceAgrees_enter_of_ne sound fresh (h.choices issue hissue)
      | some found =>
        rw [hf] at hissue
        obtain hissue | rfl := Array.mem_push.1 hissue
        · exact choiceAgrees_enter_of_ne sound fresh (h.choices issue hissue)
        · exact choiceAgrees_enter sound blank hf _

theorem Steps.agrees (single : ctx.tree.OneParent) (steps : Steps ctx allowed s s')
    (h : Agrees ctx s.annotations) : Agrees ctx s'.annotations :=
  steps.keeps h fun _ _ h step => step.agrees single h

end Typing

namespace Session

/-- After any questions about a collected unit, answered or not, a pass leaves tables that agree. A
signature that is called gives the type of its node, and the name or member that mentions it, or that
the invocation calls, refers to its declaration. Where no signature takes the arguments none is
called and the type is unknown; where several are best, the first of them is called. -/
theorem side_tables_agree (session host : Session) (tree : SyntaxTree) (model : Model)
    (collected : (session.collect tree).1 = .ok model) (single : tree.OneParent)
    (queries : List Query) :
    let a := (host.resolve (host.askAll model queries)).2.annotations
    (∀ n inv, a.invocation? n = some inv → a.type? n = some inv.result ∧
      ((tree.kind n).isReference = true → ∃ occurrence, a.occurrence? n = some occurrence ∧
        occurrence.declaration = inv.declaration) ∧
      (tree.kind n = .invocation → ∃ c occurrence, (tree.childIds n).head? = some c ∧
        a.occurrence? c = some occurrence ∧ occurrence.declaration = inv.declaration)) ∧
    ∀ issue ∈ a.issues,
      (∀ name arguments, issue.kind = .noApplicableOverload name arguments →
        a.invocation? issue.node = none ∧ a.type? issue.node = some .unknown) ∧
      ∀ name chosen candidates, issue.kind = .ambiguousOverload name chosen candidates →
        candidates.head? = some chosen ∧ ∃ inv, a.invocation? issue.node = some inv ∧
          host.env.types.signature inv = chosen := by
  intro a
  obtain ⟨rfl, declarative⟩ := declarative_of_collect collected
  have sealed := (sealed_of_collect collected).le
  obtain ⟨htree, -, left⟩ := resolves_askAll host sealed
    (Annotations.resolves_of_collected model.tree model.annotations) queries
  have fresh : Typing.Agrees ⟨host.env, model.tree⟩
      ((host.askAll model queries).annotations.resetResolution model.tree) := by
    constructor
    case calls => simp
    case choices =>
      intro issue hissue
      rw [left.issues_resetResolution sealed] at hissue
      have kept := (Annotations.resolves_of_collected model.tree model.annotations).issues.subset
        (Array.mem_toList_iff.2 hissue)
      exact .of_not_isOverload (declarative.issues issue (Array.mem_toList_iff.1 kept))
  have agrees : Typing.Agrees ⟨host.env, model.tree⟩ a := by
    have steps := Typing.steps_resolveNode ⟨host.env, model.tree⟩
      (host.askAll model queries).scope model.tree.root
      { annotations := (host.askAll model queries).annotations.resetResolution model.tree }
    have after := steps.agrees single fresh
    simp only [a, resolve, Environment.resolve_eq, Environment.resolved, htree]
    exact after
  refine ⟨fun n inv hinv => ?_, fun issue hissue => ?_⟩
  · obtain ⟨result, mention, call⟩ := agrees.calls n inv hinv
    refine ⟨result, fun hk => (mention hk).2, fun hk => ?_⟩
    obtain ⟨c, occurrence, hc, -, ho, hd⟩ := call hk
    exact ⟨c, occurrence, (SyntaxTree.calls_iff.1 hc).2.1, ho, hd⟩
  · obtain ⟨-, refused, ambiguous⟩ := agrees.choices issue hissue
    exact ⟨refused, ambiguous⟩

/-- A unit whose only expression is `nil = nil`. -/
def equalityUnit : SyntaxTree where
  nodes := #[{ kind := .nilLiteral }, { kind := .nilLiteral },
    { kind := .binaryExpression .equal, children := [⟨0⟩, ⟨1⟩] },
    { kind := .unit "Sample", children := [⟨2⟩] }]
  root := ⟨3⟩
  ordered := by decide

/-- The comparison calls a signature. -/
theorem invocation?_equalityUnit (env : Environment) (file : ScopeId) :
    (env.resolved (bareModel "Sample" equalityUnit file)).annotations.invocation? ⟨2⟩ =
      some (.builtin "Equal" [.untyped, .untyped] .bool) := by
  let ctx : TypingContext := ⟨env, equalityUnit⟩
  let start := (bareModel "Sample" equalityUnit file).annotations.resetResolution equalityUnit
  have fresh : ∀ n, (equalityUnit.kind n).isExpression = true → start.type? n = none := by
    intro n hn
    simp [start, hn]
  have literal : ∀ n s, equalityUnit.kind n = .nilLiteral → s.annotations.type? n = none →
      let after := ((Typing.typeOf ctx file n).run s).2
      (after.sight n).ty = .nil ∧
        ∀ m, n ≠ m → after.annotations.type? m = s.annotations.type? m := by
    intro n s hk ht
    have conclusion : ∀ sights, ctx.conclude file n sights = { ty := .nil } := fun _ =>
      TypingContext.conclude_nilLiteral hk
    have childless : equalityUnit.operands n = [] := by simp only [SyntaxTree.operands, hk]
    rw [Typing.run_typeOf_of_none ht]
    simp only [conclusion, Typing.survey, ctx, childless, Typing.run_mapM_nil]
    refine ⟨by simp [TypingState.sight, Finding.type?_enter], fun m hm => ?_⟩
    simp [Finding.type?_enter, hm]
  have comparison : ∀ left right : Sight, left.ty = .nil → right.ty = .nil →
      (ctx.conclude file ⟨2⟩ [left, right]).invocation =
        some (.builtin "Equal" [.untyped, .untyped] .bool) := by
    intro left right hl hr
    have choice : env.resolveOperator (.binary .equal) [.nil, .nil] =
        .resolved (.builtin "Equal" [.untyped, .untyped] .bool) := by cbv
    change (ctx.applied ⟨2⟩ (.binary .equal) [left.ty, right.ty]).invocation = _
    rw [hl, hr]
    change (ctx.settled ⟨2⟩ _ (env.resolveOperator (.binary .equal) [.nil, .nil]) _).invocation = _
    rw [choice]
    rfl
  have operands : equalityUnit.operands ⟨2⟩ = [⟨⟨0⟩, by decide⟩, ⟨⟨1⟩, by decide⟩] := by decide
  obtain ⟨left, kept⟩ := literal ⟨0⟩ { annotations := start } rfl (fresh ⟨0⟩ rfl)
  obtain ⟨right, -⟩ := literal ⟨1⟩ _ rfl ((kept ⟨1⟩ (by decide)).trans (fresh ⟨1⟩ rfl))
  rw [resolved_bare env rfl rfl rfl, Typing.run_typeOf_of_none (fresh ⟨2⟩ rfl)]
  simp only [Typing.survey, operands, Typing.run_mapM_cons, Typing.run_mapM_nil,
    Typing.run_observe_typeOf, Finding.invocation?_enter]
  rw [comparison _ _ left right]
  rfl

/-- In the unit, the comparison has the type that the signature it calls gives. -/
theorem equalityUnit_tables_agree :
    let host := ((start {}).collect equalityUnit).2
    ∃ model, ((start {}).collect equalityUnit).1 = .ok model ∧ equalityUnit.OneParent ∧
      let a := (host.resolve (host.askAll model [])).2.annotations
      (∃ inv, a.invocation? ⟨2⟩ = some inv ∧ a.type? ⟨2⟩ = some inv.result) ∧
        ∀ issue ∈ a.issues, ∀ name arguments,
          issue.kind = .noApplicableOverload name arguments → a.invocation? issue.node = none := by
  intro host
  have free : (start {}).isTaken "Sample" = false := isTaken_start {} (by decide)
  have collected : ((start {}).collect equalityUnit).1 =
      .ok (bareModel "Sample" equalityUnit (start {}).nextFile) :=
    congrArg Prod.fst (collect_bare free rfl (by decide))
  have single : equalityUnit.OneParent := by decide
  obtain ⟨calls, choices⟩ := side_tables_agree (start {}) host equalityUnit _ collected single []
  have called := invocation?_equalityUnit host.env (start {}).nextFile
  refine ⟨_, collected, single, ⟨_, called, (calls ⟨2⟩ _ called).1⟩, ?_⟩
  exact fun issue hissue name arguments hk => ((choices issue hissue).1 name arguments hk).1

end Session

end Pascal
