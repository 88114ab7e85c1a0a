import Pascal.Proofs.Session.Given
import Pascal.Proofs.Session.Predefined
import Pascal.Proofs.UnknownTypes

/-!
# Why an expression has no type

In a session whose declared types mention no unknown type, units apart, a pass says of every
expression that is left without a type why this is so: one of its children has none either, it is
complained about, the call that it stands for is refused, or it names a unit. Nothing is said of the
beginnings of dotted names, nor of a call of something that cannot be called.

## Main results

- `Session.unknown_explained`: a pass explains the expressions that it leaves without a type.
-/

namespace Pascal

open TypingContext SyntaxTree

/-- The tables say why an expression has no type. -/
inductive Annotations.Explained (env : Environment) (tree : SyntaxTree) (a : Annotations)
    (n : NodeId) : Prop
  | child {c : NodeId} (listed : c ∈ tree.childIds n) (type : a.type? c = some .unknown)
  | issue {issue : Issue} (recorded : issue ∈ a.issues) (node : issue.node = n)
  /-- It is called, and no signature takes the arguments. -/
  | refused {issue : Issue} {name : String} {arguments : List String}
    (recorded : issue ∈ a.issues) (calls : tree.Calls issue.node n)
    (kind : issue.kind = .noApplicableOverload name arguments)
  | unit {occurrence : Occurrence} {d : DeclId} (refers : a.occurrence? n = some occurrence)
    (declaration : occurrence.declaration = some d)
    (named : (env.declaration d).isUnitName = true)

/-- An invocation of something of a known type that is neither a type nor can be called. -/
structure Annotations.CallsInVain (env : Environment) (tree : SyntaxTree) (a : Annotations)
    (n c : NodeId) : Prop where
  kind : tree.kind n = .invocation
  callee : (tree.childIds n).head? = some c
  known : ∃ ty, a.type? c = some ty ∧ ty ≠ .unknown ∧ ty.callResult? = none
  value : ∀ occurrence d, a.occurrence? c = some occurrence → occurrence.declaration = some d →
    (env.declaration d).isType = false

namespace Typing

variable {ctx : TypingContext} {allowed : ScopeId → NodeId → Prop} {scope : ScopeId}
  {s : TypingState} {n m c : NodeId}

theorem type?_of_sight (typed : (s.annotations.type? n).isSome) (h : (s.sight n).ty = .unknown) :
    s.annotations.type? n = some .unknown := by
  obtain ⟨ty, hty⟩ := Option.isSome_iff_exists.1 typed
  rw [TypingState.sight, hty] at h
  rw [hty]
  exact congrArg some h

theorem sight_of_type? {ty : Ty} (h : s.annotations.type? n = some ty) : (s.sight n).ty = ty := by
  rw [TypingState.sight, h]
  rfl

section Operands

variable (proper : ctx.tree.Proper) (restorable : s.annotations.Restorable ctx.tree)
include proper restorable

/-- An operand that is no expression has no type. -/
theorem unknown_of_not_isExpression (hn : (ctx.tree.kind n).isExpression = true) {b : Below n}
    (hb : b ∈ ctx.tree.operands n) (h : (ctx.tree.kind b.1).isExpression = false) :
    (s.sight b.1).ty = .unknown := by
  cases ht : s.annotations.type? b.1 with
  | none => rw [TypingState.sight, ht]; rfl
  | some ty =>
    rw [sight_of_type? ht]
    refine (restorable.types b.1 ty h ht).resolve_right ?_
    rintro ⟨outer, plain, listed⟩
    obtain hchild | ⟨c, hc, hchild⟩ := mem_operands hb
    · obtain rfl := proper.single.eq hchild listed
      cases plain.symm.trans hn
    · obtain rfl := proper.single.eq hchild listed
      cases plain.symm.trans hc.isExpression_callee

/-- What is seen of an operand is clear, if this holds of its type in case it is an expression. -/
theorem clear_sight (hn : (ctx.tree.kind n).isExpression = true) {b : Below n}
    (hb : b ∈ ctx.tree.operands n)
    (h : (ctx.tree.kind b.1).isExpression = true →
      ∀ ty, s.annotations.type? b.1 = some ty → ty.Clear) : (s.sight b.1).ty.Clear := by
  cases hk : (ctx.tree.kind b.1).isExpression with
  | false => exact .inl (unknown_of_not_isExpression proper restorable hn hb hk)
  | true =>
    cases ht : s.annotations.type? b.1 with
    | none => exact .inl (by rw [TypingState.sight, ht]; rfl)
    | some ty =>
      rw [sight_of_type? ht]
      exact h hk ty ht

variable (settled : Settled ctx allowed s) (clear : ctx.env.Clear)
include settled clear

/-- What is known of an expression is clear. -/
theorem Settled.clear_type (hn : (ctx.tree.kind n).isExpression = true) {ty : Ty}
    (type : s.annotations.type? n = some ty) : ty.Clear := by
  induction hi : n.index using Nat.strong_induction_on generalizing n ty with
  | _ index ih =>
    obtain ⟨k, scope, rfl | calls, -, recorded⟩ :=
      settled.traced n hn (Option.isSome_iff_exists.2 ⟨ty, type⟩)
    · cases type.symm.trans recorded.type
      refine (made_conclude Ty.hereditary_clear clear.declares ?_).ty
      simp only [List.forall_mem_map]
      exact fun b hb => clear_sight proper restorable hn hb fun hk ty ht =>
        ih b.1.index (hi ▸ b.2) hk ht rfl
    · obtain ⟨name, hname⟩ := calls.exists_name
      obtain ⟨⟨known, callee⟩, -⟩ := (ctx.sound_conclude scope k _).called n calls
      cases type.symm.trans (recorded.callee n known callee)
      rw [conclude_looking_calls calls hname] at callee
      exact (made_called Ty.hereditary_clear clear.declares ..).callee _ callee

theorem Settled.clear_operand (hn : (ctx.tree.kind n).isExpression = true) {b : Below n}
    (hb : b ∈ ctx.tree.operands n) : (s.sight b.1).ty.Clear :=
  clear_sight proper restorable hn hb fun hk _ ht =>
    settled.clear_type proper restorable clear hk ht

end Operands

section Receivers

variable (settled : Settled ctx allowed s)
include settled

/-- What is left open has no type. -/
theorem Settled.unknown_of_isOpen (h : (s.sight n).isOpen = true) : (s.sight n).ty = .unknown :=
  sight_of_type? (settled.left n (by simpa [TypingState.sight] using h)).2

/-- What names a unit has no type. -/
theorem Settled.unknown_of_unitNamed? (clear : ctx.env.Clear)
    (typed : (s.annotations.type? n).isSome)
    (h : (ctx.unitNamed? (s.sight n).declaration).isSome) : (s.sight n).ty = .unknown := by
  obtain ⟨occurrence, d, ho, hd, hu⟩ : ∃ occurrence d, s.annotations.occurrence? n =
      some occurrence ∧ occurrence.declaration = some d ∧
        (ctx.env.declaration d).isUnitName = true := by
    obtain ⟨unit, hunit⟩ := Option.isSome_iff_exists.1 h
    obtain ⟨d, hd, hk⟩ := Option.bind_eq_some_iff.1 hunit
    obtain ⟨occurrence, ho, hd⟩ := Option.bind_eq_some_iff.1 hd
    refine ⟨occurrence, d, ho, hd, ?_⟩
    cases kind : (ctx.env.declaration d).kind <;> simp [kind] at hk <;>
      simp [DeclarationSpec.isUnitName, kind]
  have named := settled.named n (Option.isSome_iff_exists.2 ⟨_, ho⟩)
  obtain ⟨k, scope, rfl | calls, -, recorded⟩ :=
    settled.traced n (NodeKind.isExpression_of_isReference named) typed
  · obtain ⟨name, hname⟩ := Option.isSome_iff_exists.1 (NodeKind.isSome_referenceName?.trans named)
    obtain ⟨again, hagain⟩ := (ctx.sound_conclude scope k _).named named
    cases ho.symm.trans (recorded.occurrence k again hagain)
    rw [sight_of_type? recorded.type, drawn]
    rw [conclude_looking_reference hname] at hagain ⊢
    exact reference_of_isUnitName clear hagain hd hu
  · obtain ⟨name, hname⟩ := calls.exists_name
    obtain ⟨-, again, hagain⟩ := (ctx.sound_conclude scope k _).called n calls
    cases ho.symm.trans (recorded.occurrence n again hagain)
    refine sight_of_type? (recorded.callee n .unknown ?_)
    rw [drawn]
    rw [conclude_looking_calls calls hname] at hagain ⊢
    exact called_of_isUnitName clear hagain hd hu

end Receivers

/-! ## Explanations -/

theorem exists_head? (covered : Covered ctx.tree s.annotations n)
    (h : 0 < (ctx.tree.kind n).required) : ∃ c, (ctx.tree.childIds n).head? = some c := by
  have lacks := not_lacks_of_missing? covered.missing 0
  cases hc : ctx.tree.childIds n with
  | nil => exact absurd ⟨h, by simp [hc]⟩ lacks
  | cons c rest => exact ⟨c, rfl⟩

theorem Covered.explained (covered : Covered ctx.tree s.annotations n) {b : Below n}
    (hb : b ∈ ctx.tree.operands n) (listed : b.1 ∈ ctx.tree.childIds n)
    (h : (s.sight b.1).ty = .unknown) : s.annotations.Explained ctx.env ctx.tree n :=
  .child listed (type?_of_sight (covered.operands b hb) h)

theorem Recorded.explained_of_issue (recorded : Recorded ctx scope s n) {kind : IssueKind}
    (h : (ctx.drawn scope s n).issue = some (n, kind)) :
    s.annotations.Explained ctx.env ctx.tree n := by
  obtain ⟨issue, hissue, node, -⟩ := recorded.issue n kind h
  exact .issue hissue node

/-- An invocation of a name or member. -/
theorem Recorded.explained_call (recorded : Recorded ctx scope s n) (clear : ctx.env.Clear)
    (calls : ctx.tree.Calls n c) (type : s.annotations.type? n = some .unknown)
    (callable : ∀ c, ¬s.annotations.CallsInVain ctx.env ctx.tree n c) :
    s.annotations.Explained ctx.env ctx.tree n := by
  obtain ⟨name, hname⟩ := calls.exists_name
  have drawn : ctx.drawn scope s n = ctx.called n c name _ (ctx.referral scope s.sight c) :=
    conclude_looking_calls calls hname
  have unknown := Option.some.inj (recorded.type.symm.trans type)
  cases hr : ctx.referral scope s.sight c with
  | pending | nothing =>
    exact .child calls.mem (recorded.callee c .unknown (by rw [drawn, hr]; rfl))
  | found first others =>
    rw [hr] at drawn
    rw [drawn] at unknown
    obtain heq | ⟨chosen, d, hc, -, result, -⟩ | heq :=
      called_found ctx n c name
        ((ctx.tree.childIds n).tail.map fun b => (s.sight b).ty) first others
    · exact recorded.explained_of_issue (by rw [drawn, heq])
    · exact absurd (result.symm.trans unknown) (result_ne_unknown clear hc)
    · have callee := recorded.callee c _ (by rw [drawn, heq])
      have refers := recorded.occurrence c _ (by rw [drawn, heq])
      rw [heq] at unknown
      by_cases hty : (ctx.env.declaration first).ty = .unknown
      · exact .child calls.mem (hty ▸ callee)
      -- The value of a known type is called, so it has to be something that cannot be called.
      cases ht : (ctx.env.declaration first).isType with
      | true => exact absurd (by simpa [ht] using unknown) hty
      | false =>
        cases hres : (ctx.env.declaration first).ty.callResult? with
        | some result =>
          have known := Ty.yieldsUnknown_of_callResult? ((clear.declares.types first).of_ne hty) hres
          simp only [ht, hres, Option.getD_some] at unknown
          exact absurd unknown (Ty.ne_unknown known)
        | none =>
          refine absurd ⟨calls.kind_eq, (calls_iff.1 calls).2.1,
            ⟨_, callee, hty, hres⟩, ?_⟩ (callable c)
          intro occurrence d ho hd
          cases refers.symm.trans ho
          cases hd
          exact ht

section Explanations

variable (settled : Settled ctx allowed s) (clear : ctx.env.Clear)
  (covered : Covered ctx.tree s.annotations n)
include settled clear covered

/-- A name that is looked for in vain without a complaint is a member of something without a
type. -/
theorem Settled.explained_of_nothing (named : (ctx.tree.kind n).isReference = true)
    (h : ctx.referral scope s.sight n = .nothing none) :
    s.annotations.Explained ctx.env ctx.tree n := by
  obtain ⟨name, hk, seen⟩ := receiver_of_referral named h
  obtain ⟨receiver, hr⟩ := exists_head? covered (by rw [hk]; exact Nat.one_pos)
  obtain ⟨b, rfl, operands⟩ := exists_operands_eq_singleton (by simp only [operands, hk]) hr
  have hb : b ∈ ctx.tree.operands n := by simp [operands]
  refine covered.explained hb (List.mem_of_head? hr) ?_
  obtain unknown | unit | opened := seen b.1 hr
  · exact unknown
  · exact settled.unknown_of_unitNamed? clear (covered.operands b hb) unit
  · exact settled.unknown_of_isOpen opened

/-- A name or member that stands for itself. -/
theorem Settled.explained_reference (recorded : Recorded ctx scope s n)
    (named : (ctx.tree.kind n).isReference = true)
    (type : s.annotations.type? n = some .unknown) (free : ctx.isQualifier n = false) :
    s.annotations.Explained ctx.env ctx.tree n := by
  obtain ⟨name, hname⟩ := Option.isSome_iff_exists.1 (NodeKind.isSome_referenceName?.trans named)
  have drawn : ctx.drawn scope s n = ctx.reference n name (ctx.referral scope s.sight n) :=
    conclude_looking_reference hname
  have unknown : (ctx.reference n name (ctx.referral scope s.sight n)).ty = .unknown := by
    rw [← drawn]
    exact Option.some.inj (recorded.type.symm.trans type)
  have proper := ctx.proper_referral scope s.sight n
  cases hr : ctx.referral scope s.sight n with
  | pending =>
    rw [hr] at proper
    cases free.symm.trans proper
  | nothing complaint =>
    cases complaint with
    | none => exact settled.explained_of_nothing clear covered named hr
    | some kind =>
      have hi : (ctx.drawn scope s n).issue = some (n, kind) := by
        rw [drawn, hr]
        rfl
      exact recorded.explained_of_issue hi
  | found first others =>
    rw [hr] at unknown drawn
    obtain ⟨chosen, hc, heq⟩ | heq := reference_found ctx n name first others
    · rw [heq] at unknown
      exact absurd unknown (result_ne_unknown clear hc)
    · rw [heq] at unknown drawn
      exact .unit (recorded.occurrence n _ (by rw [drawn])) rfl (clear.isUnitName unknown)

/-- A name or member that is called. -/
theorem Settled.explained_callee {k : NodeId} (recorded : Recorded ctx scope s k)
    (calls : ctx.tree.Calls k n) (type : s.annotations.type? n = some .unknown)
    (free : ctx.isQualifier n = false) : s.annotations.Explained ctx.env ctx.tree n := by
  obtain ⟨name, hname⟩ := calls.exists_name
  have drawn : ctx.drawn scope s k = ctx.called k n name _ (ctx.referral scope s.sight n) :=
    conclude_looking_calls calls hname
  have proper := ctx.proper_referral scope s.sight n
  cases hr : ctx.referral scope s.sight n with
  | pending =>
    rw [hr] at proper
    cases free.symm.trans proper
  | nothing complaint =>
    cases complaint with
    | none => exact settled.explained_of_nothing clear covered calls.isReference hr
    | some kind =>
      obtain ⟨issue, hissue, node, -⟩ := recorded.issue n kind (by rw [drawn, hr]; rfl)
      exact .issue hissue node
  | found first others =>
    rw [hr] at drawn
    obtain heq | ⟨chosen, d, hc, hd, -, callee, -⟩ | heq :=
      called_found ctx k n name
        ((ctx.tree.childIds k).tail.map fun b => (s.sight b).ty) first others
    · obtain ⟨issue, hissue, rfl, kind⟩ := recorded.issue k _ (by rw [drawn, heq])
      exact .refused hissue calls kind
    · have declared := recorded.callee n _ (by rw [drawn, callee])
      have unit := clear.isUnitName (Option.some.inj (declared.symm.trans type))
      cases (isUnitName_of_mem_routines clear hc hd).symm.trans unit
    · have declared := recorded.callee n _ (by rw [drawn, heq])
      exact .unit (recorded.occurrence n _ (by rw [drawn, heq])) rfl
        (clear.isUnitName (Option.some.inj (declared.symm.trans type)))

end Explanations

section Expressions

variable (proper : ctx.tree.Proper) (restorable : s.annotations.Restorable ctx.tree)
  (settled : Settled ctx allowed s) (clear : ctx.env.Clear)
  (covered : Covered ctx.tree s.annotations n)
include proper restorable settled clear covered

/-- An invocation of something else. -/
theorem Settled.explained_invocation (recorded : Recorded ctx scope s n)
    (hn : ctx.tree.kind n = .invocation) (uncalled : ∀ c, ¬ctx.tree.Calls n c)
    (type : s.annotations.type? n = some .unknown)
    (callable : ∀ c, ¬s.annotations.CallsInVain ctx.env ctx.tree n c) :
    s.annotations.Explained ctx.env ctx.tree n := by
  obtain ⟨c, hc⟩ := exists_head? covered (by rw [hn]; exact Nat.one_pos)
  have drawn : ctx.drawn scope s n = { ty := (s.sight c).ty.callResult?.getD .unknown } := by
    rw [drawn, conclude_looking_invocation hn uncalled, hc]
    rfl
  have unknown := Option.some.inj (recorded.type.symm.trans type)
  rw [drawn] at unknown
  obtain ⟨b, hb, rfl⟩ : ∃ b ∈ ctx.tree.operands n, b.1 = c := by
    have hchild := hc
    rw [← val_child?_zero] at hchild
    obtain ⟨b, hb, rfl⟩ := Option.map_eq_some_iff.1 hchild
    exact ⟨b, (operand_or_calls_of_invocation hn hb).resolve_right (uncalled _), rfl⟩
  by_cases hty : (s.sight b.1).ty = .unknown
  · exact covered.explained hb (List.mem_of_head? hc) hty
  have known := (settled.clear_operand proper restorable clear (by rw [hn]; rfl) hb).of_ne hty
  cases hres : (s.sight b.1).ty.callResult? with
  | some result =>
    rw [hres] at unknown
    exact absurd unknown (Ty.ne_unknown (Ty.yieldsUnknown_of_callResult? known hres))
  | none =>
    obtain ⟨ty, ht⟩ := Option.isSome_iff_exists.1 (covered.operands b hb)
    rw [sight_of_type? ht] at hty hres
    refine absurd ⟨hn, hc, ⟨ty, ht, hty, hres⟩, ?_⟩ (callable b.1)
    intro occurrence d ho
    have named := settled.named b.1 (Option.isSome_iff_exists.2 ⟨_, ho⟩)
    exact absurd (calls_iff.2 ⟨hn, hc, named⟩) (uncalled b.1)

/-- An expression that is typed from its first child. -/
theorem Settled.explained_first (recorded : Recorded ctx scope s n) {f : Sight → Finding}
    (hn : (ctx.tree.kind n).isExpression = true)
    (single : ctx.tree.operands n = (ctx.tree.child? n 0).toList)
    (required : 0 < (ctx.tree.kind n).required)
    (looking : ctx.drawn scope s n =
      (ctx.tree.childIds n).head?.elim {} fun c => f (s.sight c))
    (type : s.annotations.type? n = some .unknown)
    (why : ∀ sight, sight.ty.Clear → (f sight).ty = .unknown →
      sight.ty = .unknown ∨ ∃ kind, (f sight).issue = some (n, kind)) :
    s.annotations.Explained ctx.env ctx.tree n := by
  obtain ⟨c, hc⟩ := exists_head? covered required
  obtain ⟨b, rfl, operands⟩ := exists_operands_eq_singleton single hc
  have hb : b ∈ ctx.tree.operands n := by simp [operands]
  have drawn : ctx.drawn scope s n = f (s.sight b.1) := by rw [looking, hc, Option.elim_some]
  have unknown := Option.some.inj (recorded.type.symm.trans type)
  rw [drawn] at unknown
  have clear := settled.clear_operand proper restorable clear hn hb
  obtain hu | ⟨kind, hi⟩ := why _ clear unknown
  · exact covered.explained hb (List.mem_of_head? hc) hu
  · exact recorded.explained_of_issue (drawn ▸ hi)

/-- An expression with two operands. -/
theorem Settled.explained_binaryExpression (recorded : Recorded ctx scope s n)
    {operator : BinaryOperator} (hk : ctx.tree.kind n = .binaryExpression operator)
    (type : s.annotations.type? n = some .unknown) :
    s.annotations.Explained ctx.env ctx.tree n := by
  have lacks := not_lacks_of_missing? covered.missing 1
  rcases hc : ctx.tree.childIds n with _ | ⟨left, _ | ⟨right, rest⟩⟩
  · exact absurd ⟨by simp [hk, NodeKind.required], by simp [hc]⟩ lacks
  · exact absurd ⟨by simp [hk, NodeKind.required], by simp [hc]⟩ lacks
  obtain ⟨l, r, rfl, rfl, operands⟩ := exists_operands_eq_pair hk hc
  have hl : l ∈ ctx.tree.operands n := by simp [operands]
  have hr : r ∈ ctx.tree.operands n := by simp [operands]
  have drawn : ctx.drawn scope s n =
      ctx.combined n operator (s.sight l.1).ty (s.sight r.1).ty :=
    conclude_looking_binaryExpression hk hc
  have unknown := Option.some.inj (recorded.type.symm.trans type)
  rw [drawn] at unknown
  have seen := @Settled.clear_operand ctx allowed s n proper restorable settled clear
    (by rw [hk]; rfl)
  obtain hu | hu | ⟨kind, hi⟩ :=
    unknown_of_combined clear (seen hl) (seen hr) unknown
  · exact covered.explained hl (by simp [hc]) hu
  · exact covered.explained hr (by simp [hc]) hu
  · exact recorded.explained_of_issue (drawn ▸ hi)

/-- Settled tables explain the expressions without a type. -/
theorem Settled.explained (hn : (ctx.tree.kind n).isExpression = true)
    (type : s.annotations.type? n = some .unknown) (free : ctx.isQualifier n = false)
    (callable : ∀ c, ¬s.annotations.CallsInVain ctx.env ctx.tree n c) :
    s.annotations.Explained ctx.env ctx.tree n := by
  obtain ⟨k, scope, rfl | calls, -, recorded⟩ :=
    settled.traced n hn (Option.isSome_iff_exists.2 ⟨_, type⟩)
  case inr => exact settled.explained_callee clear covered recorded calls type free
  have unknown := Option.some.inj (recorded.type.symm.trans type)
  cases hk : ctx.tree.kind k with
  | nameReference | memberAccess =>
    exact settled.explained_reference clear covered recorded (by rw [hk]; rfl) type free
  | invocation =>
    by_cases hc : ∃ c, ctx.tree.Calls k c
    · obtain ⟨c, calls⟩ := hc
      exact recorded.explained_call clear calls type callable
    · exact settled.explained_invocation proper restorable clear covered recorded hk
        (not_exists.1 hc) type callable
  | binaryExpression =>
    exact settled.explained_binaryExpression proper restorable clear covered recorded hk type
  | unaryExpression operator =>
    refine settled.explained_first (f := fun sight => ctx.applied k (.unary operator) [sight.ty])
      proper restorable clear covered recorded hn (by simp only [operands, hk])
      (by simp [hk, NodeKind.required]) (conclude_looking_unaryExpression hk) type
      fun sight seen h => ?_
    obtain hu | issue := unknown_of_applied clear (by simpa using seen) h
    · exact .inl (List.mem_singleton.1 hu).symm
    · exact .inr issue
  | parenthesized =>
    exact settled.explained_first (f := fun sight => { ty := sight.ty }) proper restorable clear
      covered recorded hn (by simp only [operands, hk])
      (by simp [hk, NodeKind.required]) (conclude_looking_parenthesized hk) type
      fun _ _ h => .inl h
  | dereference =>
    exact settled.explained_first (f := fun sight => ctx.dereferenced k sight.ty) proper restorable
      clear covered recorded hn (by simp only [operands, hk])
      (by simp [hk, NodeKind.required]) (conclude_looking_dereference hk) type
      fun _ => unknown_of_dereferenced
  | addressOf =>
    exact settled.explained_first (f := fun sight => { ty := ctx.addressType sight }) proper
      restorable clear covered recorded hn (by simp only [operands, hk])
      (by simp [hk, NodeKind.required]) (conclude_looking_addressOf hk) type
      fun _ _ h => .inl (unknown_of_addressType h)
  | textLiteral =>
    simp only [drawn, conclude, hk] at unknown
    split_ifs at unknown <;> cases unknown
  | integerLiteral | realLiteral | nilLiteral | arrayConstructor =>
    simp only [drawn, conclude, hk] at unknown
    cases unknown
  | _ =>
    rw [hk] at hn
    cases hn

end Expressions

end Typing

namespace Session

/-- In every session, units have no type, and routines have the types of their signatures. -/
theorem Holds.clear {settings : Settings} {session : Session} {model : Model}
    (held : Holds settings session model)
    (declared : ∀ d, (session.env.declaration d).isUnitName = false →
      (session.env.declaration d).ty.mentionsUnknown = false) : session.env.Clear := by
  have formative : Ty.Formative fun _ => True := by constructor <;> intros <;> trivial
  have hereditary : Ty.Hereditary fun _ => True := by
    constructor <;> (try constructor) <;> intros <;> trivial
  have made := ((invariant_made formative hereditary).holds
    (SystemUnit.made_build formative hereditary.toCalculable fun _ => trivial) held).1
  exact ⟨fun d => (made.declarations d).unit, declared,
    fun d signature h => ((made.declarations d).routine signature h).2⟩

/-- In a session whose declared types mention no unknown type, units apart, a pass that succeeds
explains every expression that it leaves without a type, the receivers of members and the calls of
what cannot be called apart. -/
theorem unknown_explained (settings : Settings) (session : Session) (model : Model)
    (held : Holds settings session model) (proper : model.tree.Proper)
    (declared : ∀ d, (session.env.declaration d).isUnitName = false →
      (session.env.declaration d).ty.mentionsUnknown = false)
    (fine : (session.resolve model).1 = .ok ()) :
    let a := (session.resolve model).2.annotations
    ∀ n, (model.tree.kind n).isExpression = true → a.type? n = some .unknown →
      (∀ m name, model.tree.kind m = .memberAccess name →
        (model.tree.childIds m).head? ≠ some n) →
      (∀ c, ¬a.CallsInVain session.env model.tree n c) →
        a.Explained session.env model.tree n := by
  intro a n hn type received callable
  have unbroken : (session.env.resolved model).violation = none := by
    rw [resolve, Environment.resolve_eq] at fine
    cases hv : (session.env.resolved model).violation with
    | none => rfl
    | some cause => simp [hv] at fine
  have free : TypingContext.isQualifier ⟨session.env, model.tree⟩ n = false := by
    by_contra h
    obtain ⟨m, name, hk, hhead⟩ := TypingContext.exists_memberAccess_of_isQualifier
      (Bool.not_eq_false _ ▸ h)
    exact received m name hk hhead
  have settled := Environment.settled_resolved session.env proper held.restorable.declarative
  have covered := Environment.allCovered_resolved session.env model unbroken n hn
    (Option.isSome_iff_exists.2 ⟨_, type⟩)
  have restorable : (session.env.resolved model).annotations.Restorable model.tree :=
    @Typing.restorable_resolveNode ⟨session.env, model.tree⟩
      { annotations := model.annotations.resetResolution model.tree }
      held.restorable.resetResolution model.scope model.tree.root
  exact settled.explained proper restorable (held.clear declared) covered hn type free callable

/-! ## A refused call -/

/-- A unit whose only expression is `Assigned()`, a call of a routine that takes an argument. -/
def refusedUnit : SyntaxTree where
  nodes := #[{ kind := .nameReference "Assigned" }, { kind := .invocation, children := [⟨0⟩] },
    { kind := .unit "Sample", children := [⟨1⟩] }]
  root := ⟨2⟩
  ordered := by decide

/-- What a pass over the unit records, if the call is refused. -/
theorem resolved_refusedUnit {env : Environment} {file : ScopeId} {d : DeclId}
    (found : env.find file "Assigned" = [d]) (routine : (env.declaration d).isRoutine = true)
    (refused : env.types.choose (routines ⟨env, refusedUnit⟩ [d]) [] = .noApplicable) :
    let s := env.resolved (bareModel "Sample" refusedUnit file)
    s.violation = none ∧ s.annotations.type? ⟨0⟩ = some .unknown ∧
      s.annotations.occurrence? ⟨0⟩ = some ⟨"Assigned", none⟩ ∧
      ∀ issue ∈ s.annotations.issues, issue.node = ⟨1⟩ := by
  intro s
  let ctx : TypingContext := ⟨env, refusedUnit⟩
  have operands : refusedUnit.operands ⟨1⟩ = [] := by decide
  have expression : (refusedUnit.kind ⟨1⟩).isExpression = true := rfl
  have named : ctx.named file ⟨0⟩ "Assigned" = .found d [] := by
    rw [named, found]
  have concluded : ctx.conclude file ⟨1⟩ [] =
      { issue := some (⟨1⟩, .noApplicableOverload "Assigned" [])
        occurrence := some (⟨0⟩, ⟨"Assigned", none⟩)
        callee := some (⟨0⟩, .unknown) } := by
    change ctx.called ⟨1⟩ ⟨0⟩ "Assigned" [] (ctx.named file ⟨0⟩ "Assigned") = _
    rw [named]
    simp only [called, ctx, routine, if_true, refused]
    rfl
  have missing : refusedUnit.missing? ⟨1⟩ = none := by decide
  have recorded : s = (ctx.conclude file ⟨1⟩ []).enter refusedUnit ⟨1⟩
      { annotations := (bareModel "Sample" refusedUnit file).annotations.resetResolution
          refusedUnit } := by
    simp only [s]
    rw [resolved_bare env rfl rfl rfl, Typing.run_typeOf_of_none (by simp [expression])]
    simp only [Typing.survey, operands, Typing.run_mapM_nil]
    rfl
  rw [recorded, concluded]
  refine ⟨?_, ?_, ?_, fun issue hissue => ?_⟩
  · rw [Finding.violation_enter, missing]
    rfl
  · simp [Finding.type?_enter]
  · simp [Finding.occurrence?_enter]
  · rw [Finding.issues_enter] at hissue
    obtain before | rfl := Array.mem_push.1 hissue
    · exact absurd (Array.mem_def.1 before) List.not_mem_nil
    · rfl

/-- A new session in which the unit has been collected. -/
def refusedHost : Session := ((start {}).collect refusedUnit).2

/-- The unit as the session gives it out. -/
def refusedModel : Model := bareModel "Sample" refusedUnit (start {}).nextFile

theorem holds_refusedModel : Holds {} refusedHost refusedModel :=
  holds_bare (isTaken_start {} (by decide)) rfl (by decide)

theorem env_refusedHost :
    refusedHost.env = (start {}).env.openUnit (start {}).system.scope "Sample" :=
  congrArg (fun collected => collected.2.env)
    (collect_bare (isTaken_start {} (by decide)) rfl (by decide))

/-- Units apart, every declaration of the session has a known type. -/
theorem declared_refusedHost (d : DeclId)
    (h : (refusedHost.env.declaration d).isUnitName = false) :
    (refusedHost.env.declaration d).ty.mentionsUnknown = false := by
  have all : refusedHost.env.symbols.declarations.toList.all
      (fun declaration => declaration.isUnitName || !declaration.ty.mentionsUnknown) = true := by
    rw [env_refusedHost]
    decide +kernel
  simp only [Environment.declaration, SymbolTable.get] at h ⊢
  by_cases hd : d.index < refusedHost.env.symbols.declarations.size
  · simp only [Array.getD, dif_pos hd] at h ⊢
    have entry := List.all_eq_true.1 all _ (Array.mem_toList_iff.2 (Array.getElem_mem hd))
    obtain unit | known := Bool.or_eq_true_iff.1 entry
    · cases h.symm.trans unit
    · exact Bool.not_eq_eq_eq_not.1 known
  · simp only [Array.getD, dif_neg hd] at h
    cases h

theorem resolved_refusedModel :
    let s := refusedHost.env.resolved refusedModel
    s.violation = none ∧ s.annotations.type? ⟨0⟩ = some .unknown ∧
      s.annotations.occurrence? ⟨0⟩ = some ⟨"Assigned", none⟩ ∧
      ∀ issue ∈ s.annotations.issues, issue.node = ⟨1⟩ := by
  have declared : (start {}).env.symbols.findFolded ⟨0⟩ (Name.fold "Assigned") = [⟨51⟩] := by
    rw [listed_start]
    decide +kernel
  rw [env_refusedHost]
  refine @resolved_refusedUnit _ _ ⟨51⟩ ?_ ?_ ?_
  · rw [← declared]
    exact (valid_start {}).find_openUnit (by decide) (by simp [declared])
  · decide +kernel
  · decide +kernel

/-- A pass over the unit succeeds. -/
theorem resolve_refusedModel : (refusedHost.resolve refusedModel).1 = .ok () := by
  rw [resolve, Environment.resolve_eq, resolved_refusedModel.1]

/-- No member is looked up in the routine that the unit calls. -/
theorem received_refusedUnit (m : NodeId) (name : String)
    (h : refusedUnit.kind m = .memberAccess name) :
    (refusedUnit.childIds m).head? ≠ some ⟨0⟩ := by
  obtain ⟨_ | _ | _ | i⟩ := m <;> cases h

/-- A pass explains why the routine that the unit calls has no type: the call is refused. -/
theorem refusedUnit_explained :
    let a := (refusedHost.resolve refusedModel).2.annotations
    Holds {} refusedHost refusedModel ∧ (refusedHost.resolve refusedModel).1 = .ok () ∧
      a.type? ⟨0⟩ = some .unknown ∧ a.Explained refusedHost.env refusedUnit ⟨0⟩ := by
  intro a
  obtain ⟨-, type, -, -⟩ := resolved_refusedModel
  refine ⟨holds_refusedModel, resolve_refusedModel, type, ?_⟩
  refine unknown_explained {} refusedHost refusedModel holds_refusedModel (by decide)
    declared_refusedHost resolve_refusedModel ⟨0⟩ rfl type received_refusedUnit ?_
  intro c vain
  cases vain.kind

/-- The routine that the unit calls has no type, although it has no children, nothing is said about
it in particular, and it does not name a unit. -/
theorem refusedUnit_unreported :
    let a := (refusedHost.resolve refusedModel).2.annotations
    Holds {} refusedHost refusedModel ∧
      (∀ d, (refusedHost.env.declaration d).isUnitName = false →
        (refusedHost.env.declaration d).ty.mentionsUnknown = false) ∧
      (refusedHost.resolve refusedModel).1 = .ok () ∧ refusedModel.Visited ⟨0⟩ ∧
      (refusedUnit.kind ⟨0⟩).isExpression = true ∧ a.type? ⟨0⟩ = some .unknown ∧
      (∀ m name, refusedUnit.kind m = .memberAccess name →
        (refusedUnit.childIds m).head? ≠ some ⟨0⟩) ∧
      ¬((∃ c ∈ refusedUnit.childIds ⟨0⟩, a.type? c = some .unknown) ∨
        (∃ issue ∈ a.issues, issue.node = ⟨0⟩ ∨
          refusedUnit.kind ⟨0⟩ = .invocation ∧
            (refusedUnit.childIds ⟨0⟩).head? = some issue.node) ∨
        ∃ occurrence d, a.occurrence? ⟨0⟩ = some occurrence ∧ occurrence.declaration = some d ∧
          (refusedHost.env.declaration d).isUnitName = true) := by
  intro a
  obtain ⟨-, type, occurrence, issues⟩ := resolved_refusedModel
  have called : refusedModel.Visited ⟨1⟩ := .child .root id List.mem_cons_self
  refine ⟨holds_refusedModel, declared_refusedHost, resolve_refusedModel,
    .child called id List.mem_cons_self, rfl, type, received_refusedUnit, ?_⟩
  rintro (⟨c, listed, -⟩ | ⟨issue, recorded, here | ⟨kind, -⟩⟩ | ⟨found, d, refers, bound, -⟩)
  · cases listed
  · cases here.symm.trans (issues issue recorded)
  · cases kind
  · cases occurrence.symm.trans refers
    cases bound

end Session

end Pascal
