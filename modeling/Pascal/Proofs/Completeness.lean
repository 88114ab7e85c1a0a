import Pascal.Proofs.Session.Registry
import Pascal.Proofs.Steps

/-!
# Completeness of resolution

The pass over a unit meets every expression in it that is not shut away in a declared type, in
assembly or in a routine without a body. It fails exactly if one of these expressions lacks a child
that it cannot do without. Otherwise each of them is typed, and each name and member in them is known
to refer to something or to nothing.

## Main results

- `Session.resolution_complete`: when a pass fails, and what is known when it does not.
-/

namespace Pascal

open NodeKind SyntaxTree

namespace NodeKind

/-- The number of children that an expression cannot do without. -/
def required : NodeKind → Nat
  | binaryExpression _ => 2
  | memberAccess _ | invocation | unaryExpression _ | parenthesized | dereference | addressOf => 1
  | _ => 0

/-- The number of children that an expression has at most, if there is a limit. -/
def limit? : NodeKind → Option Nat
  | invocation | arrayConstructor => none
  | kind => some kind.required

theorem isExpression_of_lt_required {kind : NodeKind} {index : Nat} (h : index < kind.required) :
    kind.isExpression = true := by
  cases kind <;> simp [required] at h <;> rfl

end NodeKind

namespace SyntaxTree

variable {tree : SyntaxTree} {n c : NodeId}

/-- An expression lacks the child at a position. -/
def Lacks (tree : SyntaxTree) (n : NodeId) (index : Nat) : Prop :=
  index < (tree.kind n).required ∧ (tree.childIds n).length ≤ index

/-- Expressions have no more children than their layout says, and these are expressions. -/
def WellLaid (tree : SyntaxTree) : Prop :=
  ∀ n, (tree.kind n).isExpression = true →
    (∀ limit ∈ (tree.kind n).limit?, (tree.childIds n).length ≤ limit) ∧
      ∀ child ∈ tree.childIds n, (tree.kind child).isExpression = true

theorem child?_eq_none_iff {index : Nat} :
    tree.child? n index = none ↔ (tree.childIds n).length ≤ index := by
  rw [← List.getElem?_eq_none_iff, ← val_child?, Option.map_eq_none_iff]

theorem lack?_eq_none_iff {index : Nat} :
    tree.lack? n index = none ↔ index < (tree.childIds n).length := by
  rw [← not_le, ← child?_eq_none_iff, lack?, child]
  cases tree.child? n index <;> simp

theorem lack?_eq_some {index : Nat} {cause : TreeError} (h : tree.lack? n index = some cause) :
    (tree.childIds n).length ≤ index ∧
      cause = .missingChild (tree.kind n).name (tree.position n) index := by
  rw [lack?, child] at h
  cases hc : tree.child? n index with
  | some b => simp [hc] at h
  | none =>
    simp only [hc, Option.some.injEq] at h
    exact ⟨child?_eq_none_iff.1 hc, h.symm⟩

/-- What is missing is a child of the node, or of the member that it calls. -/
theorem missing?_eq_some {cause : TreeError} (h : tree.missing? n = some cause) :
    ∃ m index, (m = n ∨ tree.Calls n m) ∧ tree.Lacks m index ∧
      cause = .missingChild (tree.kind m).name (tree.position m) index := by
  have lacks : ∀ {m : NodeId} {index : Nat}, index < (tree.kind m).required →
      tree.lack? m index = some cause → tree.Lacks m index ∧
        cause = .missingChild (tree.kind m).name (tree.position m) index := fun hr hl =>
    ⟨⟨hr, (lack?_eq_some hl).1⟩, (lack?_eq_some hl).2⟩
  unfold missing? at h
  cases hk : tree.kind n with
  | memberAccess | unaryExpression | parenthesized | dereference | addressOf =>
    simp only [hk] at h
    exact ⟨n, 0, .inl rfl, lacks (by simp [hk, required]) h⟩
  | binaryExpression operator =>
    simp only [hk] at h
    cases hl : tree.lack? n 0 with
    | some first =>
      rw [hl] at h
      cases h
      exact ⟨n, 0, .inl rfl, lacks (by simp [hk, required]) hl⟩
    | none =>
      rw [hl] at h
      exact ⟨n, 1, .inl rfl, lacks (by simp [hk, required]) h⟩
  | invocation =>
    simp only [hk] at h
    cases hc : tree.child? n 0 with
    | none =>
      simp only [hc] at h
      exact ⟨n, 0, .inl rfl, lacks (by simp [hk, required]) h⟩
    | some callee =>
      simp only [hc] at h
      cases hk' : tree.kind callee.1 with
      | memberAccess name =>
        simp only [hk'] at h
        refine ⟨callee.1, 0, .inr ?_, lacks (by simp [hk', required]) h⟩
        simp [Calls, callee?, hk, hc, hk', NodeKind.isReference]
      | _ => simp [hk'] at h
  | _ => simp [hk] at h

/-- A node of which nothing is missing has the children that it needs. -/
theorem not_lacks_of_missing? (h : tree.missing? n = none) (index : Nat) : ¬tree.Lacks n index := by
  rintro ⟨hr, hl⟩
  unfold missing? at h
  cases hk : tree.kind n with
  | memberAccess | unaryExpression | parenthesized | dereference | addressOf =>
    simp only [hk, required, lack?_eq_none_iff] at h hr
    omega
  | binaryExpression operator =>
    simp only [hk, required] at h hr
    cases hf : tree.lack? n 0 with
    | some first => simp [hf] at h
    | none =>
      rw [hf] at h
      have second := lack?_eq_none_iff.1 h
      omega
  | invocation =>
    simp only [hk, required] at h hr
    cases hc : tree.child? n 0 with
    | none =>
      simp only [hc, lack?_eq_none_iff] at h
      omega
    | some callee =>
      have hlen : ¬(tree.childIds n).length ≤ 0 := by
        rw [← child?_eq_none_iff, hc]
        simp
      omega
  | _ => simp [hk, required] at hr

theorem exists_callee (h : tree.Calls n c) :
    ∃ callee : Below n, tree.kind n = .invocation ∧ tree.child? n 0 = some callee ∧ callee.1 = c ∧
      (tree.kind c).isReference = true := by
  obtain ⟨hn, hhead, hr⟩ := calls_iff.1 h
  rw [List.head?_eq_getElem?, ← val_child?] at hhead
  obtain ⟨callee, hc, rfl⟩ := Option.map_eq_some_iff.1 hhead
  exact ⟨callee, hn, hc, rfl, hr⟩

/-- Of a called name or member nothing is missing if nothing is missing of the call. -/
theorem Calls.missing? (h : tree.Calls n c) (hm : tree.missing? n = none) :
    tree.missing? c = none := by
  obtain ⟨callee, hn, hc, rfl, hr⟩ := exists_callee h
  cases hk : tree.kind callee.1 with
  | nameReference name => simp [missing?, hk]
  | memberAccess name =>
    simp only [missing?, hn, hc, hk] at hm ⊢
    exact hm
  | _ => simp [hk, NodeKind.isReference] at hr

/-- The receiver of a called member is an operand of the call. -/
theorem Calls.operands (h : tree.Calls n c) {b : Below c} (hb : b ∈ tree.operands c) :
    ∃ b' ∈ tree.operands n, b'.1 = b.1 := by
  obtain ⟨callee, hn, hc, rfl, hr⟩ := exists_callee h
  cases hk : tree.kind callee.1 with
  | nameReference name => simp [operands, hk] at hb
  | memberAccess name =>
    refine ⟨callee.lift b, ?_, rfl⟩
    simp only [operands, hk] at hb
    simp only [operands, hn, hc, hk]
    exact List.mem_append_right _ (List.mem_map_of_mem hb)
  | _ => simp [hk, NodeKind.isReference] at hr

theorem exists_child? (tree : SyntaxTree) (n : NodeId) (index : Nat)
    (h : index < (tree.childIds n).length) : ∃ b, tree.child? n index = some b := by
  refine Option.ne_none_iff_exists'.1 ?_
  rw [Ne, child?_eq_none_iff]
  omega

theorem mem_operands_of_binaryExpression {operator : BinaryOperator} {index : Nat} {b : Below n}
    (hk : tree.kind n = .binaryExpression operator) (two : (tree.childIds n).length = 2)
    (hlt : index < 2) (hb : tree.child? n index = some b) : b ∈ tree.operands n := by
  obtain ⟨left, hl⟩ := tree.exists_child? n 0 (by omega)
  obtain ⟨right, hr⟩ := tree.exists_child? n 1 (by omega)
  simp only [operands, hk, hl, hr, List.mem_cons, List.not_mem_nil, or_false]
  obtain rfl | rfl : index = 0 ∨ index = 1 := by omega
  · exact .inl (Option.some.inj (hb.symm.trans hl))
  · exact .inr (Option.some.inj (hb.symm.trans hr))

/-- A child of an invocation is an operand, unless it is a name or member that is called. -/
theorem operand_or_calls_of_invocation {index : Nat} {b : Below n}
    (hk : tree.kind n = .invocation) (hb : tree.child? n index = some b) :
    b ∈ tree.operands n ∨ tree.Calls n b.1 := by
  cases index with
  | zero =>
    cases hr : (tree.kind b.1).isReference with
    | true =>
      refine .inr (calls_iff.2 ⟨hk, ?_, hr⟩)
      rw [List.head?_eq_getElem?, ← val_child?, hb]
      rfl
    | false =>
      refine .inl ?_
      simp only [operands, hk, hb]
      apply List.mem_append_right
      split
      · simp_all [NodeKind.isReference]
      · simp_all [NodeKind.isReference]
      · exact List.mem_singleton_self b
  | succ index =>
    have hlt : index + 1 < (tree.childIds n).length := by
      by_contra hge
      rw [child?_eq_none_iff.2 (by omega)] at hb
      cases hb
    obtain ⟨callee, hcallee⟩ := tree.exists_child? n 0 (by omega)
    refine .inl ?_
    simp only [operands, hk, hcallee]
    apply List.mem_append_left
    refine List.mem_of_getElem? (i := index) ?_
    rw [List.getElem?_tail]
    exact hb

/-- Where nothing is missing and no child is one too many, every child is an operand or is called. -/
theorem WellLaid.operand_or_calls (laid : tree.WellLaid) (hn : (tree.kind n).isExpression = true)
    (hm : tree.missing? n = none) (hc : c ∈ tree.childIds n) :
    (∃ b ∈ tree.operands n, b.1 = c) ∨ tree.Calls n c := by
  obtain ⟨index, hi⟩ := List.getElem?_of_mem hc
  have hlt := (List.getElem?_eq_some_iff.1 hi).1
  rw [← val_child?] at hi
  obtain ⟨b, hb, rfl⟩ := Option.map_eq_some_iff.1 hi
  have short := (laid n hn).1
  have enough := not_lacks_of_missing? hm
  unfold Lacks at enough
  cases hk : tree.kind n with
  | memberAccess | unaryExpression | parenthesized | dereference | addressOf =>
    simp only [hk, limit?, required, Option.mem_some_iff, forall_eq'] at short
    obtain rfl : index = 0 := by omega
    exact .inl ⟨b, by simp [operands, hk, hb], rfl⟩
  | binaryExpression operator =>
    simp only [hk, limit?, required, Option.mem_some_iff, forall_eq'] at short enough
    have two : (tree.childIds n).length = 2 := by
      have := enough 1
      omega
    exact .inl ⟨b, mem_operands_of_binaryExpression hk two (two ▸ hlt) hb, rfl⟩
  | arrayConstructor =>
    refine .inl ⟨b, ?_, rfl⟩
    simp only [operands, hk]
    exact List.mem_of_getElem? hb
  | invocation =>
    obtain operand | calls := operand_or_calls_of_invocation hk hb
    · exact .inl ⟨b, operand, rfl⟩
    · exact .inr calls
  | _ =>
    simp only [hk, limit?, required, Option.mem_some_iff, forall_eq'] at short
    omega

end SyntaxTree

namespace Typing

variable {ctx : TypingContext} {n m : NodeId} {s s' : TypingState}
  {allowed : ScopeId → NodeId → Prop}

/-- Everything that belongs to a node is known: nothing of it is missing, what it is typed from and
what it calls is typed, and a name refers to something or to nothing. -/
structure Covered (tree : SyntaxTree) (a : Annotations) (n : NodeId) : Prop where
  missing : tree.missing? n = none
  operands : ∀ b ∈ tree.operands n, (a.type? b.1).isSome
  callee : ∀ c, tree.Calls n c → (a.type? c).isSome
  occurrence : (tree.kind n).isReference = true → (a.occurrence? n).isSome

/-- As long as the layout is not broken, everything that belongs to a typed expression is known. -/
def AllCovered (tree : SyntaxTree) (s : TypingState) : Prop :=
  s.violation = none → ∀ n, (tree.kind n).isExpression = true → (s.annotations.type? n).isSome →
    Covered tree s.annotations n

theorem Covered.mono {tree : SyntaxTree} {a a' : Annotations} (h : Covered tree a n)
    (types : ∀ m, (a.type? m).isSome → (a'.type? m).isSome)
    (occurrences : ∀ m, (a.occurrence? m).isSome → (a'.occurrence? m).isSome) :
    Covered tree a' n where
  missing := h.missing
  operands b hb := types _ (h.operands b hb)
  callee c hc := types _ (h.callee c hc)
  occurrence hr := occurrences _ (h.occurrence hr)

theorem isSome_occurrence?_enter (finding : Finding) (tree : SyntaxTree)
    (h : (s.annotations.occurrence? m).isSome) :
    ((finding.enter tree n s).annotations.occurrence? m).isSome := by
  rw [Finding.occurrence?_enter]
  cases finding.occurrence with
  | none => exact h
  | some occurrence =>
    simp only [Option.elim_some]
    split_ifs
    · rfl
    · exact h

theorem isSome_occurrence?_of_eq {finding : Finding} {tree : SyntaxTree} {occurrence : Occurrence}
    (h : finding.occurrence = some (m, occurrence)) :
    ((finding.enter tree n s).annotations.occurrence? m).isSome := by
  simp [Finding.occurrence?_enter, h]

/-- A step covers the node that it takes, and what that node calls. -/
theorem Step.allCovered (step : Step ctx allowed s s') (h : AllCovered ctx.tree s) :
    AllCovered ctx.tree s' := by
  have types : ∀ m, (s.annotations.type? m).isSome → (s'.annotations.type? m).isSome :=
    fun _ => step.isSome_type?
  cases step with
  | @type scope n sights permitted fresh ready seen =>
    have sound := ctx.sound_conclude scope n sights
    generalize ctx.conclude scope n sights = finding at sound types
    intro fine m hm typed
    rw [Finding.violation_enter] at fine
    have before : s.violation = none := by
      cases hv : s.violation with
      | none => rfl
      | some cause => simp [hv] at fine
    have missing : ctx.tree.missing? n = none := by
      rw [before] at fine
      exact fine
    have callee : ∀ c, ctx.tree.Calls n c →
        ((finding.enter ctx.tree n s).annotations.type? c).isSome := by
      intro c hc
      obtain ⟨⟨ty, hty⟩, -⟩ := sound.called c hc
      rw [Finding.type?_enter, hty]
      split_ifs
      · rfl
      · simp
    by_cases hn : n = m
    · subst hn
      refine ⟨missing, fun b hb => types _ (ready b hb), callee, fun hr => ?_⟩
      obtain ⟨occurrence, ho⟩ := sound.named hr
      exact isSome_occurrence?_of_eq ho
    by_cases hc : ctx.tree.Calls n m
    · obtain ⟨-, occurrence, ho⟩ := sound.called m hc
      refine ⟨hc.missing? missing, fun b hb => ?_, fun c hc' => ?_, fun _ =>
        isSome_occurrence?_of_eq ho⟩
      · obtain ⟨b', hb', heq⟩ := hc.operands hb
        exact heq ▸ types _ (ready b' hb')
      · exact absurd hc' hc.not_calls
    · rw [type?_enter_of_ne sound hn hc] at typed
      exact (h before m hm typed).mono types fun _ => isSome_occurrence?_enter finding ctx.tree

end Typing

/-! ## Visited nodes -/

namespace Model

variable {model : Model} {n child : NodeId}

/-- A pass does not enter a node: it is a declared type, assembly, or a routine without a scope. -/
def Shut (model : Model) (n : NodeId) : Prop :=
  match model.tree.kind n with
  | .typeDeclaration _ | .asmBlock _ => True
  | .routineDeclaration _ _ | .routineImplementation _ _ => model.annotations.scope? n = none
  | _ => False

/-- A pass leads from the root to a node, through nodes that are not shut. -/
inductive Visited (model : Model) : NodeId → Prop
  | root : Visited model model.tree.root
  | child {n child : NodeId} (visited : Visited model n) (enters : ¬model.Shut n)
    (listed : child ∈ model.tree.childIds n) : Visited model child

theorem not_shut_of_isExpression (h : (model.tree.kind n).isExpression = true) : ¬model.Shut n := by
  unfold Shut
  generalize model.tree.kind n = kind at h
  cases kind <;> first | exact id | cases h

theorem exists_descend_iff (scope : ScopeId) (h : (model.tree.kind n).isExpression = false) :
    (∃ inner, Typing.duty (model.tree.kind n) (model.annotations.scope? n) scope = .descend inner) ↔
      ¬model.Shut n := by
  unfold Shut Typing.duty
  rw [h]
  cases model.tree.kind n <;> cases model.annotations.scope? n <;> simp

/-- A pass leads to visited nodes. -/
theorem Visited.of_passes {scope scope' : ScopeId} {m : NodeId}
    (h : Typing.Passes model.tree model.annotations.scope? scope n scope' m)
    (visited : model.Visited n) : model.Visited m := by
  induction h with
  | here => exact visited
  | @descend scope inner scope' n child m opens listed later ih =>
    refine ih (.child visited ?_ listed)
    cases hk : (model.tree.kind n).isExpression with
    | true => exact not_shut_of_isExpression hk
    | false => exact (exists_descend_iff scope hk).1 ⟨inner, opens⟩

/-- Operands of a visited node are visited. -/
theorem Visited.operand {b : Below n} (h : model.Visited n) (hb : b ∈ model.tree.operands n) :
    model.Visited b.1 := by
  have hn := isExpression_of_mem_operands hb
  obtain hchild | ⟨c, hc, hchild⟩ := mem_operands hb
  · exact h.child (not_shut_of_isExpression hn) hchild
  · have callee := h.child (not_shut_of_isExpression hn) hc.mem
    exact callee.child (not_shut_of_isExpression hc.isExpression_callee) hchild

end Model

namespace Environment

variable {env : Environment} {model : Model} {n : NodeId}

/-- A pass over a unit is a sequence of steps at visited nodes, and it leads to expressions that are
typed then. -/
theorem reaches_resolved (env : Environment) (model : Model) :
    Typing.Steps ⟨env, model.tree⟩ (fun _ n => model.Visited n)
        { annotations := model.annotations.resetResolution model.tree } (env.resolved model) ∧
      ∀ scope n, Typing.Passes model.tree model.annotations.scope? model.scope model.tree.root
        scope n → (model.tree.kind n).isExpression = true →
        ((env.resolved model).annotations.type? n).isSome := by
  apply Typing.reaches_resolveNode
  · exact fun _ _ visited _ => visited.operand
  · exact fun _ => rfl
  · exact fun _ _ passes _ => .of_passes passes .root

/-- A pass complains only about visited expressions that lack a child. -/
theorem lacks_of_violation {cause : TreeError} (h : (env.resolved model).violation = some cause) :
    ∃ n index, model.Visited n ∧ (model.tree.kind n).isExpression = true ∧
      model.tree.Lacks n index ∧
      cause = .missingChild (model.tree.kind n).name (model.tree.position n) index := by
  have kept := Typing.Steps.keeps (reaches_resolved env model).1
    (P := fun s => ∀ cause, s.violation = some cause → ∃ n index, model.Visited n ∧
      (model.tree.kind n).isExpression = true ∧ model.tree.Lacks n index ∧
      cause = .missingChild (model.tree.kind n).name (model.tree.position n) index)
    (by simp) ?_
  · exact kept cause h
  rintro s _ ih ⟨visited, fresh, ready, seen⟩ cause hv
  rw [Finding.violation_enter] at hv
  cases hbefore : s.violation with
  | some first =>
    rw [hbefore] at hv
    cases hv
    exact ih _ hbefore
  | none =>
    rw [hbefore] at hv
    obtain ⟨m, index, hm, lacks, rfl⟩ := missing?_eq_some hv
    refine ⟨m, index, ?_, isExpression_of_lt_required lacks.1, lacks, rfl⟩
    obtain rfl | hc := hm
    · exact visited
    · exact visited.child (Model.not_shut_of_isExpression hc.isExpression) hc.mem

/-- A pass over a tree in which nothing is missing does not complain. -/
theorem violation_of_complete (complete : ∀ n, model.tree.missing? n = none) :
    (env.resolved model).violation = none := by
  cases h : (env.resolved model).violation with
  | none => rfl
  | some cause =>
    obtain ⟨n, index, -, -, lacks, -⟩ := lacks_of_violation h
    exact absurd lacks (not_lacks_of_missing? (complete n) index)

theorem allCovered_resolved (env : Environment) (model : Model) :
    Typing.AllCovered model.tree (env.resolved model) := by
  refine Typing.Steps.keeps (P := Typing.AllCovered model.tree) (reaches_resolved env model).1 ?_
    fun _ _ h step => step.allCovered h
  intro _ n hn typed
  simp [hn] at typed

/-- If nothing is broken, every visited expression is typed. -/
theorem isSome_type?_of_visited (laid : model.tree.WellLaid)
    (fine : (env.resolved model).violation = none) (visited : model.Visited n)
    (hn : (model.tree.kind n).isExpression = true) :
    ((env.resolved model).annotations.type? n).isSome := by
  obtain ⟨-, passed⟩ := reaches_resolved env model
  have covered := allCovered_resolved env model fine
  -- A visited node is one that the pass leads to, or it stands inside a typed expression.
  have met : (∃ scope, Typing.Passes model.tree model.annotations.scope? model.scope
        model.tree.root scope n) ∨
      (model.tree.kind n).isExpression = true ∧
        ((env.resolved model).annotations.type? n).isSome := by
    clear hn
    induction visited with
    | root => exact .inl ⟨_, .here _ _⟩
    | @child n child visited enters listed ih =>
      cases hk : (model.tree.kind n).isExpression with
      | false =>
        obtain ⟨scope, passes⟩ | ⟨h, -⟩ := ih
        · obtain ⟨inner, opens⟩ := (Model.exists_descend_iff scope hk).2 enters
          exact .inl ⟨inner, passes.tail opens listed⟩
        · simp [hk] at h
      | true =>
        have typed : ((env.resolved model).annotations.type? n).isSome := by
          obtain ⟨scope, passes⟩ | ⟨-, h⟩ := ih
          · exact passed scope n passes hk
          · exact h
        have known := covered n hk typed
        refine .inr ⟨(laid n hk).2 child listed, ?_⟩
        obtain ⟨b, hb, rfl⟩ | hc := laid.operand_or_calls hk known.missing listed
        · exact known.operands b hb
        · exact known.callee child hc
  obtain ⟨scope, passes⟩ | ⟨-, h⟩ := met
  · exact passed scope n passes hn
  · exact h

end Environment

namespace Session

/-- A pass over a unit whose expressions have no children too many fails exactly if an expression
that it visits lacks a child, and the error names that child. Otherwise every visited expression is
typed, and every visited name and member refers to something or is known to refer to nothing. -/
theorem resolution_complete (session : Session) (model : Model) (laid : model.tree.WellLaid) :
    let ran := session.resolve model
    (∀ cause, ran.1 = .error cause → ∃ n index, model.Visited n ∧
      (model.tree.kind n).isExpression = true ∧ model.tree.Lacks n index ∧
      cause = .malformedTree
        (.missingChild (model.tree.kind n).name (model.tree.position n) index)) ∧
    ((∃ cause, ran.1 = .error cause) ↔ ∃ n index, model.Visited n ∧
      (model.tree.kind n).isExpression = true ∧ model.tree.Lacks n index) ∧
    (ran.1 = .ok () → ∀ n, model.Visited n → (model.tree.kind n).isExpression = true →
      (ran.2.annotations.type? n).isSome ∧
        ((model.tree.kind n).isReference = true → (ran.2.annotations.occurrence? n).isSome)) := by
  have visited := @Environment.isSome_type?_of_visited session.env model
  have covered := Environment.allCovered_resolved session.env model
  have lacks := @Environment.lacks_of_violation session.env model
  rw [resolve, Environment.resolve_eq]
  cases hv : (session.env.resolved model).violation with
  | some cause =>
    obtain ⟨n, index, hn, hk, hl, rfl⟩ := lacks hv
    refine ⟨?_, ?_, by simp⟩
    · rintro _ ⟨⟩
      exact ⟨n, index, hn, hk, hl, rfl⟩
    · exact ⟨fun _ => ⟨n, index, hn, hk, hl⟩, fun _ => ⟨_, rfl⟩⟩
  | none =>
    have known : ∀ n, model.Visited n → (model.tree.kind n).isExpression = true →
        Typing.Covered model.tree (session.env.resolved model).annotations n :=
      fun n hn hk => covered hv n hk (visited laid hv hn hk)
    refine ⟨by simp, ⟨by simp, ?_⟩, ?_⟩
    · rintro ⟨n, index, hn, hk, hl⟩
      exact absurd hl (SyntaxTree.not_lacks_of_missing? (known n hn hk).missing index)
    · intro _ n hn hk
      exact ⟨visited laid hv hn hk, (known n hn hk).occurrence⟩

/-- A tree in which nothing is missing is resolved. -/
theorem resolve_of_complete (session : Session) {model : Model}
    (complete : ∀ n, model.tree.missing? n = none) :
    session.resolve model =
      (.ok (), { model with annotations := (session.env.resolved model).annotations }) := by
  rw [resolve, Environment.resolve_eq, Environment.violation_of_complete complete]

/-- A unit in which nothing is missing is analyzed once it is collected. -/
theorem analyze_of_complete {session after : Session} {tree : SyntaxTree} {model : Model}
    (hran : session.collect tree = (.ok model, after)) (complete : ∀ n, tree.missing? n = none) :
    session.analyze tree =
      (.ok { model with annotations := (after.env.resolved model).annotations },
        after.freeze model) := by
  have htree := tree_of_collect (congrArg Prod.fst hran)
  simp only [analyze, hran, resolve_of_complete after (htree ▸ complete)]
  rfl

/-! ## Units with a single expression -/

section Single

variable {name : String} {kind : NodeKind} {file : ScopeId} {n : NodeId}

theorem childIds_expressionUnit (name : String) (kind : NodeKind) (n : NodeId) :
    (expressionUnit name kind).childIds n = if n = ⟨1⟩ then [⟨0⟩] else [] := by
  match n with
  | ⟨0⟩ | ⟨1⟩ | ⟨_ + 2⟩ => rfl

theorem wellLaid_expressionUnit (name : String) (kind : NodeKind) :
    (expressionUnit name kind).WellLaid := by
  intro n hn
  have childless : (expressionUnit name kind).childIds n = [] := by
    rw [childIds_expressionUnit]
    refine if_neg ?_
    rintro rfl
    cases hn
  simp [childless]

theorem visited_expressionUnit :
    (bareModel name (expressionUnit name kind) file).Visited ⟨0⟩ :=
  .child .root id List.mem_cons_self

end Single

/-- A unit with a name in it is resolved, and a unit with parentheses around nothing is not. -/
theorem expressionUnits_resolved :
    let named := (start {}).collect (expressionUnit "Named" (.nameReference "Missing"))
    let broken := (start {}).collect brokenUnit
    (∃ model found, named.1 = .ok model ∧ named.2.resolve model = (.ok (), found) ∧
      (found.annotations.type? ⟨0⟩).isSome ∧ (found.annotations.occurrence? ⟨0⟩).isSome) ∧
    ∃ model cause, broken.1 = .ok model ∧ (broken.2.resolve model).1 = .error cause := by
  intro named broken
  have hnamed : named = _ := collect_expressionUnit (isTaken_start {} (by decide)) rfl
  have hbroken : broken = _ := collect_expressionUnit (isTaken_start {} (by decide)) rfl
  constructor
  · let model := bareModel "Named" (expressionUnit "Named" (.nameReference "Missing"))
      (start {}).nextFile
    obtain ⟨-, -, complete⟩ := resolution_complete named.2 model (wellLaid_expressionUnit _ _)
    have fine : (named.2.resolve model).1 = .ok () := by
      rw [resolve_of_complete]
      rintro ⟨_ | _ | _⟩ <;> rfl
    refine ⟨model, (named.2.resolve model).2, by rw [hnamed], Prod.ext fine rfl, ?_⟩
    obtain ⟨typed, referred⟩ := complete fine ⟨0⟩ visited_expressionUnit rfl
    exact ⟨typed, referred rfl⟩
  · let model := bareModel "Broken" brokenUnit (start {}).nextFile
    obtain ⟨-, fails, -⟩ := resolution_complete broken.2 model (wellLaid_expressionUnit _ _)
    obtain ⟨cause, hran⟩ := fails.2 ⟨⟨0⟩, 0, visited_expressionUnit, rfl, by decide, by decide⟩
    exact ⟨model, cause, congrArg Prod.fst hbroken, hran⟩

end Session

end Pascal
