import Pascal.Proofs.Foresight

/-!
# What a pass settles

In a tree in which every node is listed once, an operand looks the same from the moment it is typed.
So once a pass is over, everything that it recorded about a node follows from what is seen of the
operands of that node, or, for a name or member that is called, of the operands of the invocation.
-/

namespace Pascal

open SyntaxTree

namespace SyntaxTree

variable {tree : SyntaxTree} {n m : NodeId}

/-- Every node is listed once, and the root is not listed. -/
structure Proper (tree : SyntaxTree) : Prop where
  single : tree.OneParent
  once : ∀ n, (tree.childIds n).Nodup
  top : tree.parent? tree.root = none

instance (tree : SyntaxTree) : Decidable tree.Proper :=
  decidable_of_iff (tree.OneParent ∧ (∀ i < tree.size, (tree.childIds ⟨i⟩).Nodup) ∧
      tree.parent? tree.root = none) <| by
    rw [← forall_nodup_childIds_iff]
    exact ⟨fun h => ⟨h.1, h.2.1, h.2.2⟩, fun h => ⟨h.single, h.once, h.top⟩⟩

/-- The name or member that an invocation calls is no operand of it. -/
theorem Proper.not_mem_operands_of_calls (proper : tree.Proper) {b : Below n}
    (h : tree.Calls n b.1) : b ∉ tree.operands n := by
  intro hb
  obtain ⟨callee, hn, hc, heq, hr⟩ := exists_callee h
  simp only [operands, hn, hc, List.mem_append] at hb
  have once := proper.once n
  obtain ⟨rest, hrest⟩ : ∃ rest, tree.children n = callee :: rest := by
    rw [child?] at hc
    cases hl : tree.children n with
    | nil => simp [hl] at hc
    | cons first rest => exact ⟨rest, by simpa [hl] using hc⟩
  rw [← map_val_children, hrest, List.map_cons, List.nodup_cons] at once
  obtain hb | hb := hb
  · rw [hrest] at hb
    exact once.1 (heq ▸ List.mem_map_of_mem hb)
  · cases hk : tree.kind callee.1 with
    | nameReference => simp [hk] at hb
    | memberAccess =>
      simp only [hk, List.mem_map] at hb
      obtain ⟨receiver, -, rfl⟩ := hb
      exact Nat.ne_of_gt receiver.2 (congrArg NodeId.index heq)
    | _ => simp [heq ▸ hk, NodeKind.isReference] at hr

/-- An operand is not called by any node. -/
theorem Proper.not_calls_operand (proper : tree.Proper) {b : Below n} (hb : b ∈ tree.operands n) :
    ¬tree.Calls m b.1 := by
  intro h
  obtain hchild | ⟨c, hc, hchild⟩ := mem_operands hb
  · obtain rfl := proper.single.eq hchild h.mem
    exact proper.not_mem_operands_of_calls h hb
  · obtain rfl := proper.single.eq hchild h.mem
    exact hc.not_calls h

theorem exists_operands_eq_singleton (h : tree.operands n = (tree.child? n 0).toList)
    (hc : (tree.childIds n).head? = some m) : ∃ b : Below n, b.1 = m ∧ tree.operands n = [b] := by
  rw [List.head?_eq_getElem?, ← val_child?] at hc
  obtain ⟨b, hb, rfl⟩ := Option.map_eq_some_iff.1 hc
  exact ⟨b, rfl, by rw [h, hb, Option.toList_some]⟩

theorem exists_operands_eq_pair {operator : BinaryOperator} {left right : NodeId}
    {rest : List NodeId} (hk : tree.kind n = .binaryExpression operator)
    (hc : tree.childIds n = left :: right :: rest) :
    ∃ l r : Below n, l.1 = left ∧ r.1 = right ∧ tree.operands n = [l, r] := by
  have hl := tree.val_child? n 0
  have hr := tree.val_child? n 1
  rw [hc] at hl hr
  obtain ⟨l, first, rfl⟩ := Option.map_eq_some_iff.1 hl
  obtain ⟨r, second, rfl⟩ := Option.map_eq_some_iff.1 hr
  exact ⟨l, r, rfl, rfl, by simp only [operands, hk, first, second]⟩

end SyntaxTree

/-! ## From what is seen -/

/-- The name by which a node refers to declarations. -/
def NodeKind.referenceName? : NodeKind → Option String
  | nameReference name | memberAccess name => some name
  | _ => none

theorem NodeKind.isSome_referenceName? {kind : NodeKind} :
    kind.referenceName?.isSome = kind.isReference := by
  cases kind <;> rfl

theorem SyntaxTree.Calls.exists_name {tree : SyntaxTree} {n c : NodeId} (h : tree.Calls n c) :
    ∃ name, (tree.kind c).referenceName? = some name :=
  Option.isSome_iff_exists.1 (NodeKind.isSome_referenceName?.trans h.isReference)

namespace TypingContext

/-- What a name or member refers to, from what is seen of the receiver of the member. -/
def referral (ctx : TypingContext) (scope : ScopeId) (look : NodeId → Sight) (c : NodeId) :
    Referral :=
  match ctx.tree.kind c with
  | .nameReference name => ctx.named scope c name
  | .memberAccess name => ctx.member scope c name ((ctx.tree.childIds c).head?.map look)
  | _ => .nothing none

variable {ctx : TypingContext} {scope : ScopeId} {look : NodeId → Sight} {n c : NodeId}

theorem proper_referral (ctx : TypingContext) (scope : ScopeId) (look : NodeId → Sight)
    (c : NodeId) : (ctx.referral scope look c).Proper ctx c := by
  unfold referral
  split
  · exact proper_named _
  · exact proper_member _ _
  · rintro _ ⟨⟩

/-- What is seen of the first child, if it is the only operand. -/
theorem head?_looking (h : ctx.tree.operands n = (ctx.tree.child? n 0).toList) :
    ((ctx.tree.operands n).map fun b => look b.1).head? = (ctx.tree.childIds n).head?.map look := by
  rw [h, ← val_child?_zero]
  cases ctx.tree.child? n 0 <;> rfl

theorem conclude_looking_reference {name : String}
    (h : (ctx.tree.kind n).referenceName? = some name) :
    ctx.conclude scope n ((ctx.tree.operands n).map fun b => look b.1) =
      ctx.reference n name (ctx.referral scope look n) := by
  cases hk : ctx.tree.kind n with
  | nameReference =>
    rw [hk] at h
    cases h
    rw [conclude_nameReference hk, referral, hk]
  | memberAccess =>
    rw [hk] at h
    cases h
    rw [conclude_looking_memberAccess hk, referral, hk]
  | _ => simp [hk, NodeKind.referenceName?] at h

theorem conclude_looking_unaryExpression {operator : UnaryOperator}
    (hk : ctx.tree.kind n = .unaryExpression operator) :
    ctx.conclude scope n ((ctx.tree.operands n).map fun b => look b.1) =
      (ctx.tree.childIds n).head?.elim {} fun c =>
        ctx.applied n (.unary operator) [(look c).ty] := by
  have head := @head?_looking ctx look n (by simp only [operands, hk])
  simp only [conclude, hk, head, Option.elim_map, Function.comp_def]

theorem conclude_looking_parenthesized (hk : ctx.tree.kind n = .parenthesized) :
    ctx.conclude scope n ((ctx.tree.operands n).map fun b => look b.1) =
      (ctx.tree.childIds n).head?.elim {} fun c => { ty := (look c).ty } := by
  have head := @head?_looking ctx look n (by simp only [operands, hk])
  simp only [conclude, hk, head, Option.elim_map, Function.comp_def]

theorem conclude_looking_dereference (hk : ctx.tree.kind n = .dereference) :
    ctx.conclude scope n ((ctx.tree.operands n).map fun b => look b.1) =
      (ctx.tree.childIds n).head?.elim {} fun c => ctx.dereferenced n (look c).ty := by
  have head := @head?_looking ctx look n (by simp only [operands, hk])
  simp only [conclude, hk, head, Option.elim_map, Function.comp_def]

theorem conclude_looking_addressOf (hk : ctx.tree.kind n = .addressOf) :
    ctx.conclude scope n ((ctx.tree.operands n).map fun b => look b.1) =
      (ctx.tree.childIds n).head?.elim {} fun c => { ty := ctx.addressType (look c) } := by
  have head := @head?_looking ctx look n (by simp only [operands, hk])
  simp only [conclude, hk, head, Option.elim_map, Function.comp_def]

theorem conclude_looking_binaryExpression {operator : BinaryOperator} {left right : NodeId}
    {rest : List NodeId} (hk : ctx.tree.kind n = .binaryExpression operator)
    (hc : ctx.tree.childIds n = left :: right :: rest) :
    ctx.conclude scope n ((ctx.tree.operands n).map fun b => look b.1) =
      ctx.combined n operator (look left).ty (look right).ty := by
  obtain ⟨l, r, rfl, rfl, operands⟩ := exists_operands_eq_pair hk hc
  simp only [conclude, hk, operands, List.map_cons, List.map_nil]

theorem conclude_looking_of_length_lt {operator : BinaryOperator}
    (hk : ctx.tree.kind n = .binaryExpression operator) (hc : (ctx.tree.childIds n).length < 2) :
    ctx.conclude scope n ((ctx.tree.operands n).map fun b => look b.1) = {} := by
  have second : ctx.tree.child? n 1 = none := by
    rw [← Option.map_eq_none_iff, val_child?, List.getElem?_eq_none_iff]
    omega
  simp only [conclude, hk, operands, second]
  cases ctx.tree.child? n 0 <;> rfl

/-- An invocation of a name or member, from what is seen of its arguments and of the receiver. -/
theorem conclude_looking_calls {name : String} (hc : ctx.tree.Calls n c)
    (hname : (ctx.tree.kind c).referenceName? = some name) :
    ctx.conclude scope n ((ctx.tree.operands n).map fun b => look b.1) =
      ctx.called n c name ((ctx.tree.childIds n).tail.map fun b => (look b).ty)
        (ctx.referral scope look c) := by
  have arguments : (ctx.tree.childIds n).tail.map (fun b => (look b).ty) =
      (ctx.tree.children n).tail.map fun b => (look b.1).ty := by
    rw [← map_val_children, ← List.map_tail, List.map_map]
    rfl
  rw [arguments]
  cases hk : ctx.tree.kind c with
  | memberAccess =>
    rw [hk] at hname
    cases hname
    rw [conclude_of_calls_memberAccess hc hk, referral, hk]
  | nameReference =>
    rw [hk] at hname
    cases hname
    obtain ⟨callee, hn, hcallee, rfl, -⟩ := exists_callee hc
    have operands : ctx.tree.operands n = (ctx.tree.children n).tail := by
      simp only [operands, hn, hcallee, hk, List.append_nil]
    rw [conclude_invocation hn, operands, referral, hk]
    simp only [invoked, hcallee, hk]
    rw [List.take_of_length_le (by simp), List.map_map]
    rfl
  | _ => simp [hk, NodeKind.referenceName?] at hname

/-- An invocation of another expression, from what is seen of it. -/
theorem conclude_looking_invocation (hn : ctx.tree.kind n = .invocation)
    (hc : ∀ c, ¬ctx.tree.Calls n c) :
    ctx.conclude scope n ((ctx.tree.operands n).map fun b => look b.1) =
      (ctx.tree.childIds n).head?.elim {} fun c =>
        { ty := (look c).ty.callResult?.getD .unknown } := by
  rw [conclude_invocation hn, ← val_child?_zero]
  cases hcallee : ctx.tree.child? n 0 with
  | none => simp only [invoked, hcallee, Option.map_none, Option.elim_none]
  | some callee =>
    cases hk : ctx.tree.kind callee.1 with
    | nameReference | memberAccess =>
      refine absurd (calls_iff.2 ⟨hn, ?_, ?_⟩) (hc callee.1)
      · rw [← val_child?_zero, hcallee, Option.map_some]
      · rw [hk]
        rfl
    | _ =>
      have operands : ctx.tree.operands n = (ctx.tree.children n).tail ++ [callee] := by
        simp only [operands, hn, hcallee, hk]
      simp [invoked, hcallee, hk, operands]

end TypingContext

/-! ## Settled tables -/

/-- What follows about a node from what is seen of its operands. -/
def TypingContext.drawn (ctx : TypingContext) (scope : ScopeId) (s : TypingState) (n : NodeId) :
    Finding :=
  ctx.conclude scope n ((ctx.tree.operands n).map (s.sight ·.1))

/-- Complaints about a choice among signatures stand at the node that makes the choice. -/
theorem Finding.Sound.eq_of_isOverload {ctx : TypingContext} {n m : NodeId} {finding : Finding}
    {kind : IssueKind} (sound : finding.Sound ctx n) (h : finding.issue = some (m, kind))
    (ho : kind.isOverload = true) : m = n ∧ (ctx.tree.kind n).isReference = false := by
  cases kind with
  | noApplicableOverload => exact ⟨(sound.refused _ _ _ h).1, (sound.refused _ _ _ h).2.1⟩
  | ambiguousOverload => exact ⟨(sound.ambiguous _ _ _ _ h).1, (sound.ambiguous _ _ _ _ h).2.1⟩
  | _ => cases ho

namespace Typing

variable {ctx : TypingContext} {allowed : ScopeId → NodeId → Prop} {scope : ScopeId}
  {n k : NodeId} {s s' : TypingState} {finding : Finding}

/-- The operands of a node are typed, and what follows from them about the node and about what it
calls has been recorded. -/
structure Recorded (ctx : TypingContext) (scope : ScopeId) (s : TypingState) (n : NodeId) : Prop
    where
  ready : ∀ b ∈ ctx.tree.operands n, (s.annotations.type? b.1).isSome
  type : s.annotations.type? n = some (ctx.drawn scope s n).ty
  callee : ∀ c ty, (ctx.drawn scope s n).callee = some (c, ty) → s.annotations.type? c = some ty
  occurrence : ∀ m occurrence, (ctx.drawn scope s n).occurrence = some (m, occurrence) →
    s.annotations.occurrence? m = some occurrence
  issue : ∀ m kind, (ctx.drawn scope s n).issue = some (m, kind) →
    ∃ issue ∈ s.annotations.issues, issue.node = m ∧ issue.kind = kind

/-- The tables say about every typed expression what follows about it, or about the invocation that
calls it. What is left open has no type, only names and members refer to anything, and complaints
about a choice among signatures follow from what is seen of the operands. -/
structure Settled (ctx : TypingContext) (allowed : ScopeId → NodeId → Prop) (s : TypingState) : Prop
    where
  traced : ∀ n, (ctx.tree.kind n).isExpression = true → (s.annotations.type? n).isSome →
    ∃ k scope, (k = n ∨ ctx.tree.Calls k n) ∧ allowed scope k ∧ Recorded ctx scope s k
  left : ∀ n ∈ s.deferred, ctx.isQualifier n = true ∧ s.annotations.type? n = some .unknown
  named : ∀ n, (s.annotations.occurrence? n).isSome → (ctx.tree.kind n).isReference = true
  choices : ∀ issue ∈ s.annotations.issues, issue.kind.isOverload = true → ∃ scope,
    allowed scope issue.node ∧ Recorded ctx scope s issue.node ∧
      (ctx.drawn scope s issue.node).issue = some (issue.node, issue.kind)

/-- Complaints are kept, and a new one is added. -/
theorem mem_issues_enter {issue : Issue} : issue ∈ (finding.enter ctx.tree k s).annotations.issues ↔
    issue ∈ s.annotations.issues ∨
      ∃ m kind, finding.issue = some (m, kind) ∧
        issue = { node := m, position := ctx.tree.position m, kind } := by
  rw [Finding.issues_enter]
  cases finding.issue with
  | none => simp
  | some found =>
    obtain ⟨m, kind⟩ := found
    simp [Array.mem_push]

/-- Nothing calls the receiver of a member. -/
theorem not_calls_of_isQualifier (single : ctx.tree.OneParent) (hn : ctx.isQualifier n = true) :
    ¬ctx.tree.Calls k n := by
  intro h
  simp [TypingContext.isQualifier, TypingContext.isFirstChild, single k n h.mem, h.kind_eq] at hn

section Recording

variable (proper : ctx.tree.Proper) (sound : finding.Sound ctx k)
  (fresh : s.annotations.type? k = none)
include proper sound fresh

/-- What follows about a node whose operands are typed stays the same. -/
theorem drawn_enter (ready : ∀ b ∈ ctx.tree.operands n, (s.annotations.type? b.1).isSome) :
    ctx.drawn scope (finding.enter ctx.tree k s) n = ctx.drawn scope s n := by
  unfold TypingContext.drawn
  congr 1
  refine List.map_congr_left fun b hb => ?_
  refine sight_enter_of_ne sound ?_ (proper.not_calls_operand hb)
  rintro rfl
  simpa [fresh] using ready b hb

/-- What has been recorded about a node stays, unless the node is called now. -/
theorem Recorded.enter (h : Recorded ctx scope s n) (hc : ¬ctx.tree.Calls k n) :
    Recorded ctx scope (finding.enter ctx.tree k s) n := by
  have same := @drawn_enter ctx scope n k s finding proper sound fresh h.ready
  have hn : k ≠ n := by
    rintro rfl
    cases fresh.symm.trans h.type
  -- What the node calls has a type already, and nothing else calls it.
  have called : ∀ c, ctx.tree.Calls n c → k ≠ c ∧ ¬ctx.tree.Calls k c := by
    intro c hcalls
    constructor
    · rintro rfl
      obtain ⟨⟨ty, hty⟩, -⟩ := (ctx.sound_conclude scope n _).called k hcalls
      cases fresh.symm.trans (h.callee k ty hty)
    · exact fun hk => hn (proper.single.eq hcalls.mem hk.mem)
  refine ⟨fun b hb => isSome_type?_enter _ _ (h.ready b hb), ?_, ?_, ?_, ?_⟩
  · rw [same, type?_enter_of_ne sound hn hc, h.type]
  · intro c ty hcallee
    rw [same] at hcallee
    obtain ⟨hk, hkc⟩ := called c ((ctx.sound_conclude scope n _).callee c ty hcallee)
    rw [type?_enter_of_ne sound hk hkc, h.callee c ty hcallee]
  · intro m occurrence ho
    rw [same] at ho
    obtain ⟨rfl, -⟩ | hcalls := (ctx.sound_conclude scope n _).occurrence m occurrence ho
    · rw [occurrence?_enter_of_ne sound hn hc, h.occurrence m occurrence ho]
    · obtain ⟨hk, hkm⟩ := called m hcalls
      rw [occurrence?_enter_of_ne sound hk hkm, h.occurrence m occurrence ho]
  · intro m kind hi
    rw [same] at hi
    obtain ⟨issue, hissue, hm, hkind⟩ := h.issue m kind hi
    exact ⟨issue, mem_issues_enter.2 (.inl hissue), hm, hkind⟩

end Recording

/-- A step records what follows about the node that it takes. -/
theorem recorded_enter (proper : ctx.tree.Proper) (fresh : s.annotations.type? k = none)
    (ready : ∀ b ∈ ctx.tree.operands k, (s.annotations.type? b.1).isSome) :
    Recorded ctx scope ((ctx.drawn scope s k).enter ctx.tree k s) k := by
  have sound : (ctx.drawn scope s k).Sound ctx k := ctx.sound_conclude scope k _
  have same := @drawn_enter ctx scope k k s _ proper sound fresh ready
  refine ⟨fun b hb => isSome_type?_enter _ _ (ready b hb), ?_, ?_, ?_, ?_⟩ <;> rw [same]
  · rw [Finding.type?_enter, if_pos rfl]
  · intro c ty hcallee
    have hk : k ≠ c := (sound.callee c ty hcallee).ne.symm
    simp [Finding.type?_enter, hk, hcallee]
  · intro m occurrence ho
    simp [Finding.occurrence?_enter, ho]
  · exact fun m kind hi => ⟨_, mem_issues_enter.2 (.inr ⟨m, kind, hi, rfl⟩), rfl, rfl⟩

/-- A step of typing keeps the tables settled. -/
theorem Step.settled (proper : ctx.tree.Proper) (step : Step ctx allowed s s')
    (h : Settled ctx allowed s) : Settled ctx allowed s' := by
  cases step with
  | @type scope k sights permitted fresh ready seen =>
    have sound := ctx.sound_conclude scope k sights
    have drawn : ctx.conclude scope k sights = ctx.drawn scope s k := by
      rw [seen proper.single, TypingContext.drawn]
    rw [drawn] at sound ⊢
    have recorded := @recorded_enter ctx scope k s proper fresh ready
    constructor
    case traced =>
      intro n hn typed
      by_cases hk : k = n
      · exact ⟨k, scope, .inl hk, permitted, recorded⟩
      by_cases hc : ctx.tree.Calls k n
      · exact ⟨k, scope, .inr hc, permitted, recorded⟩
      rw [type?_enter_of_ne sound hk hc] at typed
      obtain ⟨m, place, hm, allowed, old⟩ := h.traced n hn typed
      refine ⟨m, place, hm, allowed, old.enter proper sound fresh ?_⟩
      obtain rfl | hm := hm
      · exact hc
      · exact fun hcalls => hcalls.kind_ne hm.kind_eq
    case left =>
      intro n hleft
      rw [Finding.deferred_enter, List.mem_append, Option.mem_toList] at hleft
      obtain hpending | hleft := hleft
      · obtain ⟨qualifier, rfl | hcalls⟩ := sound.pending n hpending
        · exact ⟨qualifier, by rw [Finding.type?_enter, if_pos rfl, (sound.left hpending).1]⟩
        · exact absurd hcalls (not_calls_of_isQualifier proper.single qualifier)
      · obtain ⟨qualifier, type⟩ := h.left n hleft
        have hk : k ≠ n := by
          rintro rfl
          cases fresh.symm.trans type
        have hc : ¬ctx.tree.Calls k n := not_calls_of_isQualifier proper.single qualifier
        exact ⟨qualifier, by rw [type?_enter_of_ne sound hk hc, type]⟩
    case named =>
      intro n hsome
      rw [Finding.occurrence?_enter] at hsome
      cases ho : (ctx.drawn scope s k).occurrence with
      | none =>
        rw [ho] at hsome
        exact h.named n hsome
      | some found =>
        rw [ho, Option.elim_some] at hsome
        split_ifs at hsome with hm
        · obtain ⟨rfl, named⟩ | hc := sound.occurrence _ _ ho
          · exact hm ▸ named
          · exact hm ▸ hc.isReference
        · exact h.named n hsome
    case choices =>
      intro issue hissue ho
      obtain hissue | ⟨m, kind, hi, rfl⟩ := mem_issues_enter.1 hissue
      · obtain ⟨place, allowed, old, hi⟩ := h.choices issue hissue ho
        have unnamed := ((ctx.sound_conclude place issue.node _).eq_of_isOverload hi ho).2
        refine ⟨place, allowed, old.enter proper sound fresh ?_, ?_⟩
        · exact fun hc => absurd hc.isReference (by rw [unnamed]; decide)
        · rw [drawn_enter proper sound fresh old.ready, hi]
      · obtain rfl := (sound.eq_of_isOverload hi ho).1
        refine ⟨scope, permitted, recorded, ?_⟩
        rw [@drawn_enter ctx scope m m s _ proper sound fresh ready, hi]

/-- A pass meets a node in the innermost scope that is opened around it. -/
theorem Passes.eq_findSome? {tree : SyntaxTree} {scopes : NodeId → Option ScopeId}
    {top inner : ScopeId} {m : NodeId} (single : tree.OneParent)
    (h : Passes tree scopes scope n inner m)
    (hn : scope = ((tree.ancestors n).findSome? scopes).getD top) :
    inner = ((tree.ancestors m).findSome? scopes).getD top := by
  induction h with
  | here => exact hn
  | @descend scope inner scope' n child m opens listed later ih =>
    refine ih ?_
    have entered : inner = (scopes n).getD scope := by
      unfold duty at opens
      split_ifs at opens
      cases hs : scopes n <;> rw [hs] at opens <;> split at opens <;> cases opens <;> rfl
    rw [entered, single.ancestors listed, List.findSome?_cons]
    cases scopes n with
    | none => exact hn
    | some place => rfl

end Typing

namespace Environment

variable {model : Model}

/-- A pass types expressions that it visits, each in the innermost scope around it. -/
theorem steps_resolved (env : Environment) (proper : model.tree.Proper)
    (declarative : (model.annotations.resetResolution model.tree).Declarative model.tree) :
    Typing.Steps ⟨env, model.tree⟩ (fun scope n => Typing.Placed model scope n ∧ model.Visited n)
      { annotations := model.annotations.resetResolution model.tree } (env.resolved model) := by
  let fresh : Model := { model with annotations := model.annotations.resetResolution model.tree }
  have scopes : ∀ m, fresh.annotations.scope? m = model.annotations.scope? m := fun _ => rfl
  have root : model.scope = ((model.tree.ancestors model.tree.root).findSome?
      model.annotations.scope?).getD model.scope := by
    rw [ancestors, proper.top]
    rfl
  refine (Typing.reaches_resolveNode ?_ scopes ?_).1
  · rintro scope n ⟨placed, visited⟩ b hb
    exact ⟨@Typing.Placed.operand fresh n proper.single declarative scope placed b hb,
      visited.operand hb⟩
  · intro scope n passes hn
    refine ⟨fun _ => ?_, .of_passes passes .root⟩
    have unopened : model.annotations.scope? n = none := declarative.scopes n hn
    rw [passes.eq_findSome? proper.single root, Model.scopeOf, List.findSome?_cons, unopened]

/-- The tables are settled after a pass. -/
theorem settled_resolved (env : Environment) (proper : model.tree.Proper)
    (declarative : (model.annotations.resetResolution model.tree).Declarative model.tree) :
    Typing.Settled ⟨env, model.tree⟩
      (fun scope n => Typing.Placed model scope n ∧ model.Visited n) (env.resolved model) := by
  refine (steps_resolved env proper declarative).keeps ?_ fun _ _ h step => step.settled proper h
  constructor
  case traced =>
    intro n hn typed
    rw [declarative.types n hn] at typed
    cases typed
  case left => simp
  case named =>
    intro n hsome
    rw [declarative.occurrences n] at hsome
    cases hsome
  case choices =>
    intro issue hissue ho
    rw [declarative.issues issue hissue] at ho
    cases ho

end Environment

end Pascal
