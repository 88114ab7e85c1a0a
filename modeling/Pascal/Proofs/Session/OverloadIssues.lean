import Pascal.Proofs.Choice
import Pascal.Proofs.Session.Given
import Pascal.Proofs.Settled

/-!
# Complaints about a choice among signatures

A pass complains about a choice among signatures where a node chooses and not exactly one candidate
wins. An operator chooses only if the types of all its operands are known, so it keeps silent about
an operand that something is wrong with already. A call chooses whatever is known of its arguments:
an argument of unknown type is taken by every parameter but a family of types, and it counts like
any other when the arguments are too many or too few or when several candidates are equally good.

## Main results

- `Session.overload_issues`: where a pass complains about a choice among signatures.
-/

namespace Pascal

/-- The finding is a complaint about a choice among signatures. -/
def Finding.complains (finding : Finding) : Bool :=
  finding.issue.any (·.2.isOverload)

namespace TypingContext

variable {ctx : TypingContext} {scope : ScopeId} {look : NodeId → Sight} {n c : NodeId}
  {name : String} {candidates : List Invocable} {arguments : List Ty}

/-- A node chooses among candidates, for the types of its operands or arguments. -/
inductive Chooses (ctx : TypingContext) (scope : ScopeId) (look : NodeId → Sight) (n : NodeId) :
    List Invocable → List Ty → Prop
  | unary {operator : UnaryOperator} {c : NodeId}
    (kind : ctx.tree.kind n = .unaryExpression operator)
    (children : (ctx.tree.childIds n).head? = some c)
    (known : (look c).ty.isUnknown = false) :
    Chooses ctx scope look n (ctx.env.operatorCandidates (.unary operator) [(look c).ty])
      [(look c).ty]
  | binary {operator : BinaryOperator} {left right : NodeId} {rest : List NodeId}
    (kind : ctx.tree.kind n = .binaryExpression operator)
    (children : ctx.tree.childIds n = left :: right :: rest)
    (choosing : operator ≠ .is ∧ operator ≠ .as)
    (known : (look left).ty.isUnknown = false ∧ (look right).ty.isUnknown = false) :
    Chooses ctx scope look n
      (ctx.env.operatorCandidates (.binary operator) [(look left).ty, (look right).ty])
      [(look left).ty, (look right).ty]
  | call {c : NodeId} {first : DeclId} {others : List DeclId} (calls : ctx.tree.Calls n c)
    (found : ctx.referral scope look c = .found first others)
    (routine : (ctx.env.declaration first).isRoutine = true) :
    Chooses ctx scope look n (ctx.routines (first :: others))
      ((ctx.tree.childIds n).tail.map fun b => (look b).ty)

/-! ## Findings that complain -/

theorem complains_settled (ctx : TypingContext) (n : NodeId) (name : String)
    (candidates : List Invocable) (arguments : List Ty) :
    (ctx.settled n name (ctx.env.types.choose candidates arguments) arguments).complains = true ↔
      (candidates.filter (ctx.env.types.wins candidates arguments)).length ≠ 1 := by
  rw [TypeTable.choose_eq_ofWinners]
  generalize hw : List.mergeSort _ _ = winners
  rw [← List.length_mergeSort (candidates.filter _), hw]
  match winners with
  | [] => simp [settled, Finding.complains, Resolution.ofWinners, complaint?, IssueKind.isOverload]
  | [_] => simp [settled, Finding.complains, Resolution.ofWinners, complaint?]
  | _ :: _ :: _ =>
    simp [settled, Finding.complains, Resolution.ofWinners, complaint?, IssueKind.isOverload]

theorem complains_applied (ctx : TypingContext) (n : NodeId) (operator : Operator)
    (operands : List Ty) :
    (ctx.applied n operator operands).complains = true ↔
      (∀ ty ∈ operands, ty.isUnknown = false) ∧
        let candidates := ctx.env.operatorCandidates operator operands
        (candidates.filter (ctx.env.types.wins candidates operands)).length ≠ 1 := by
  rw [applied]
  split_ifs with h
  · simp only [List.any_eq_true] at h
    obtain ⟨ty, hty, unknown⟩ := h
    simp only [Finding.complains, Option.any_none, Bool.false_eq_true, false_iff, not_and]
    intro known
    rw [known ty hty] at unknown
    cases unknown
  · simp only [List.any_eq_true, not_exists, not_and, Bool.not_eq_true] at h
    rw [Environment.resolveOperator, complains_settled]
    exact ⟨fun hw => ⟨h, hw⟩, fun hw => hw.2⟩

/-- Tests and checked casts choose nothing. -/
theorem complains_combined (ctx : TypingContext) (n : NodeId) (operator : BinaryOperator)
    (left right : Ty) :
    (ctx.combined n operator left right).complains = true ↔
      (operator ≠ .is ∧ operator ≠ .as) ∧
        (ctx.applied n (.binary operator) [left, right]).complains = true := by
  cases operator with
  | as => cases right <;> simp [combined, Finding.complains]
  | is => simp [combined, Finding.complains]
  | _ => simp [combined]

theorem complains_dereferenced (ctx : TypingContext) (n : NodeId) (ty : Ty) :
    (ctx.dereferenced n ty).complains = false := by
  unfold dereferenced
  cases ty.unaliased with
  | pointer target =>
    dsimp only
    split_ifs <;> rfl
  | _ => rfl

theorem complains_reference {referral : Referral} (proper : referral.Proper ctx n) :
    (ctx.reference n name referral).complains = false := by
  cases referral with
  | pending => rfl
  | nothing complaint =>
    cases complaint with
    | none => rfl
    | some kind =>
      obtain ⟨missing, rfl⟩ := proper kind rfl
      rfl
  | found first others => cases hm : ctx.mentioned? n first others <;> simp [reference, hm] <;> rfl

theorem complains_called {referral : Referral} (proper : referral.Proper ctx c) :
    (ctx.called n c name arguments referral).complains = true ↔
      ∃ first others, referral = .found first others ∧
        (ctx.env.declaration first).isRoutine = true ∧
        let candidates := ctx.routines (first :: others)
        (candidates.filter (ctx.env.types.wins candidates arguments)).length ≠ 1 := by
  cases referral with
  | pending => simp [called, Finding.complains]
  | nothing complaint =>
    cases complaint with
    | none => simp [called, Finding.complains]
    | some kind =>
      obtain ⟨missing, rfl⟩ := proper kind rfl
      simp [called, Finding.complains, IssueKind.isOverload]
  | found first others =>
    have settled := complains_settled ctx n name (ctx.routines (first :: others)) arguments
    by_cases routine : (ctx.env.declaration first).isRoutine = true
    · simp only [called, routine, if_true]
      constructor
      · exact fun h => ⟨first, others, rfl, routine, settled.1 h⟩
      · rintro ⟨_, _, ⟨⟩, -, h⟩
        exact settled.2 h
    · simp only [called, routine]
      constructor
      · rintro ⟨⟩
      · rintro ⟨_, _, ⟨⟩, h, -⟩
        exact absurd h routine

theorem exists_of_complains_elim {f : NodeId → Finding} {o : Option NodeId}
    (h : (o.elim {} f).complains = true) : ∃ c, o = some c ∧ (f c).complains = true := by
  cases o with
  | none => cases h
  | some c => exact ⟨c, rfl, h⟩

/-- A finding complains where the node chooses and not exactly one candidate wins. -/
theorem complains_conclude :
    (ctx.conclude scope n ((ctx.tree.operands n).map fun b => look b.1)).complains = true ↔
      ∃ candidates arguments, ctx.Chooses scope look n candidates arguments ∧
        (candidates.filter (ctx.env.types.wins candidates arguments)).length ≠ 1 := by
  constructor
  · intro h
    cases hk : ctx.tree.kind n with
    | nameReference | memberAccess =>
      rw [conclude_looking_reference (by rw [hk]; rfl),
        complains_reference (proper_referral ctx scope look n)] at h
      cases h
    | unaryExpression operator =>
      rw [conclude_looking_unaryExpression hk] at h
      obtain ⟨c, hc, h⟩ := exists_of_complains_elim h
      obtain ⟨known, hw⟩ := (complains_applied ..).1 h
      exact ⟨_, _, .unary hk hc (known _ (by simp)), hw⟩
    | binaryExpression operator =>
      rcases hc : ctx.tree.childIds n with _ | ⟨left, _ | ⟨right, rest⟩⟩
      · rw [conclude_looking_of_length_lt hk (by simp [hc])] at h
        cases h
      · rw [conclude_looking_of_length_lt hk (by simp [hc])] at h
        cases h
      · rw [conclude_looking_binaryExpression hk hc, complains_combined, complains_applied] at h
        obtain ⟨choosing, known, hw⟩ := h
        exact ⟨_, _, .binary hk hc choosing ⟨known _ (by simp), known _ (by simp)⟩, hw⟩
    | invocation =>
      by_cases hc : ∃ c, ctx.tree.Calls n c
      · obtain ⟨c, calls⟩ := hc
        obtain ⟨name, hname⟩ := calls.exists_name
        rw [conclude_looking_calls calls hname,
          complains_called (proper_referral ctx scope look c)] at h
        obtain ⟨first, others, found, routine, hw⟩ := h
        exact ⟨_, _, .call calls found routine, hw⟩
      · rw [conclude_looking_invocation hk (not_exists.1 hc)] at h
        obtain ⟨c, -, h⟩ := exists_of_complains_elim h
        cases h
    | parenthesized =>
      rw [conclude_looking_parenthesized hk] at h
      obtain ⟨c, -, h⟩ := exists_of_complains_elim h
      cases h
    | dereference =>
      rw [conclude_looking_dereference hk] at h
      obtain ⟨c, -, h⟩ := exists_of_complains_elim h
      rw [complains_dereferenced] at h
      cases h
    | addressOf =>
      rw [conclude_looking_addressOf hk] at h
      obtain ⟨c, -, h⟩ := exists_of_complains_elim h
      cases h
    | _ =>
      rw [conclude, hk] at h
      cases h
  · rintro ⟨_, _, chooses, hw⟩
    cases chooses with
    | unary hk hc known =>
      rw [conclude_looking_unaryExpression hk, hc, Option.elim_some, complains_applied]
      exact ⟨by simpa using known, hw⟩
    | binary hk hc choosing known =>
      rw [conclude_looking_binaryExpression hk hc, complains_combined, complains_applied]
      exact ⟨choosing, by simpa using known, hw⟩
    | @call c first others calls found routine =>
      obtain ⟨name, hname⟩ := calls.exists_name
      rw [conclude_looking_calls calls hname, complains_called (proper_referral ctx scope look c)]
      exact ⟨first, others, found, routine, hw⟩

theorem Chooses.kind (h : ctx.Chooses scope look n candidates arguments) :
    (ctx.tree.kind n).isExpression = true ∧ (ctx.tree.kind n).isReference = false := by
  cases h with
  | unary kind | binary kind =>
    rw [kind]
    exact ⟨rfl, rfl⟩
  | call calls =>
    rw [calls.kind_eq]
    exact ⟨rfl, rfl⟩

/-- Operators choose only if the types of all operands are known. -/
theorem Chooses.known (h : ctx.Chooses scope look n candidates arguments)
    (hk : ctx.tree.kind n ≠ .invocation) {b : Below n} (hb : b ∈ ctx.tree.operands n) :
    (look b.1).ty.isUnknown = false := by
  cases h with
  | unary kind children known =>
    obtain ⟨c, rfl, operands⟩ := SyntaxTree.exists_operands_eq_singleton
      (by simp only [SyntaxTree.operands, kind]) children
    rw [operands, List.mem_singleton] at hb
    rwa [hb]
  | @binary operator left right rest kind children choosing known =>
    obtain ⟨l, r, rfl, rfl, operands⟩ := SyntaxTree.exists_operands_eq_pair kind children
    simp only [operands, List.mem_cons, List.not_mem_nil, or_false] at hb
    obtain rfl | rfl := hb
    · exact known.1
    · exact known.2
  | call calls found routine => exact absurd calls.kind_eq hk

end TypingContext

namespace Session

/-- Where a pass over a unit complains about a choice among signatures: at the nodes that choose and
for which not exactly one candidate wins. Operators keep silent unless the types of all operands are
known. A call does not: of the arguments that a candidate refuses, one of unknown type is refused
only in the place of a family of types, but it takes part in the count and in the ranking. -/
theorem overload_issues (settings : Settings) (session : Session) (model : Model)
    (held : Holds settings session model) (proper : model.tree.Proper) :
    let ctx : TypingContext := ⟨session.env, model.tree⟩
    let a := (session.resolve model).2.annotations
    (∀ n, (∃ issue ∈ a.issues, issue.node = n ∧ issue.kind.isOverload = true) ↔
      (a.type? n).isSome ∧ ∃ candidates arguments,
        ctx.Chooses (model.scopeOf n) (session.env.resolved model).sight n candidates arguments ∧
          (candidates.filter (session.env.types.wins candidates arguments)).length ≠ 1) ∧
    (∀ issue ∈ a.issues, issue.kind.isOverload = true →
      model.tree.kind issue.node ≠ .invocation →
        ∀ b ∈ model.tree.operands issue.node, ∃ ty, a.type? b.1 = some ty ∧ ty ≠ .unknown) ∧
    ∀ arguments candidate, session.env.types.rank? arguments candidate = none ↔
      session.env.types.Refuses arguments candidate := by
  intro ctx a
  have settled := Environment.settled_resolved session.env proper held.restorable.declarative
  -- A complaint follows from what is seen of the operands, in the scope around the node.
  have chosen : ∀ issue ∈ a.issues, issue.kind.isOverload = true →
      (a.type? issue.node).isSome ∧
      (∀ b ∈ model.tree.operands issue.node, (a.type? b.1).isSome) ∧ ∃ candidates arguments,
        ctx.Chooses (model.scopeOf issue.node) (session.env.resolved model).sight issue.node
          candidates arguments ∧
          (candidates.filter (session.env.types.wins candidates arguments)).length ≠ 1 := by
    intro issue hissue ho
    obtain ⟨scope, ⟨placed, -⟩, recorded, drawn⟩ := settled.choices issue hissue ho
    have expression : (model.tree.kind issue.node).isExpression = true := by
      by_contra h
      rw [TypingContext.drawn,
        TypingContext.conclude_of_not_isExpression (Bool.not_eq_true _ ▸ h)] at drawn
      cases drawn
    obtain rfl := placed expression
    refine ⟨Option.isSome_iff_exists.2 ⟨_, recorded.type⟩, recorded.ready,
      TypingContext.complains_conclude.1 ?_⟩
    change (ctx.drawn _ (session.env.resolved model) issue.node).complains = true
    rw [Finding.complains, drawn]
    exact ho
  refine ⟨fun n => ⟨?_, ?_⟩, ?_, fun _ _ => TypeTable.rank?_eq_none_iff⟩
  · rintro ⟨issue, hissue, rfl, ho⟩
    obtain ⟨typed, -, chooses⟩ := chosen issue hissue ho
    exact ⟨typed, chooses⟩
  · rintro ⟨typed, candidates, arguments, chooses, hw⟩
    have complains := TypingContext.complains_conclude.2 ⟨_, _, chooses, hw⟩
    obtain ⟨expression, unnamed⟩ := chooses.kind
    obtain ⟨k, scope, rfl | calls, ⟨placed, -⟩, recorded⟩ := settled.traced n expression typed
    · obtain rfl := placed expression
      obtain ⟨⟨m, kind⟩, drawn, ho⟩ := (Option.any_eq_true _ _).1 complains
      obtain ⟨rfl, -⟩ := (ctx.sound_conclude _ k _).eq_of_isOverload drawn ho
      obtain ⟨issue, hissue, hm, rfl⟩ := recorded.issue m kind drawn
      exact ⟨issue, hissue, hm, ho⟩
    · cases unnamed.symm.trans calls.isReference
  · intro issue hissue ho hk b hb
    obtain ⟨-, ready, candidates, arguments, chooses, -⟩ := chosen issue hissue ho
    obtain ⟨ty, hty⟩ := Option.isSome_iff_exists.1 (ready b hb)
    refine ⟨ty, hty, ?_⟩
    have known := chooses.known hk hb
    rintro rfl
    change (session.env.resolved model).annotations.type? b.1 = _ at hty
    rw [TypingState.sight, hty] at known
    cases known

/-- A unit whose only expression is the sum of `not nil` and `nil`. -/
def negationUnit : SyntaxTree where
  nodes := #[{ kind := .nilLiteral }, { kind := .unaryExpression .not, children := [⟨0⟩] },
    { kind := .nilLiteral }, { kind := .binaryExpression .add, children := [⟨1⟩, ⟨2⟩] },
    { kind := .unit "Sample", children := [⟨3⟩] }]
  root := ⟨4⟩
  ordered := by decide

/-- In the unit, the negation is complained about, and the sum, which has it as an operand, is
not. -/
theorem negationUnit_issues :
    let host := ((start {}).collect negationUnit).2
    ∃ model, Holds {} host model ∧ model.tree.Proper ∧
      let a := (host.resolve model).2.annotations
      (∃ issue ∈ a.issues, issue.node = ⟨1⟩ ∧ issue.kind.isOverload = true) ∧
        ¬∃ issue ∈ a.issues, issue.node = ⟨3⟩ ∧ issue.kind.isOverload = true := by
  intro host
  let model := bareModel "Sample" negationUnit (start {}).nextFile
  let s := host.env.resolved model
  have held : Holds {} host model :=
    holds_bare (isTaken_start {} (by decide)) rfl (by decide)
  have proper : negationUnit.Proper := by decide
  have settled := Environment.settled_resolved host.env proper held.restorable.declarative
  obtain ⟨complained, -, -⟩ := overload_issues {} host model held proper
  have sum : model.Visited ⟨3⟩ := .child .root id List.mem_cons_self
  have negation : model.Visited ⟨1⟩ := .child sum id List.mem_cons_self
  have literal : model.Visited ⟨0⟩ := .child negation id List.mem_cons_self
  have typed : ∀ n, model.Visited n → (negationUnit.kind n).isExpression = true →
      (negationUnit.kind n).isReference = false → ∃ scope, s.annotations.type? n =
        some (TypingContext.drawn ⟨host.env, negationUnit⟩ scope s n).ty := by
    intro n visited hn unnamed
    have complete : negationUnit.Complete := by decide
    obtain ⟨k, scope, rfl | calls, -, recorded⟩ := settled.traced n hn
      (Environment.isSome_type?_of_complete complete visited hn)
    · exact ⟨scope, recorded.type⟩
    · cases unnamed.symm.trans calls.isReference
  let meanings := host.env.operatorCandidates (.unary .not) [.nil]
  have losing : meanings.filter (host.env.types.wins meanings [.nil]) = [] := by cbv
  have operand : (s.sight ⟨0⟩).ty = .nil := by
    obtain ⟨scope, type⟩ := typed ⟨0⟩ literal rfl rfl
    rw [TypingState.sight, type, TypingContext.drawn, TypingContext.conclude_nilLiteral rfl]
    rfl
  have refused : (s.sight ⟨1⟩).ty = .unknown := by
    obtain ⟨scope, type⟩ := typed ⟨1⟩ negation rfl rfl
    rw [TypingState.sight, type, TypingContext.drawn,
      TypingContext.conclude_looking_unaryExpression rfl]
    change (TypingContext.applied _ ⟨1⟩ (.unary .not) [(s.sight ⟨0⟩).ty]).ty = _
    rw [operand]
    change (host.env.types.choose meanings [.nil]).result = _
    rw [TypeTable.choose_eq_ofWinners, losing, List.mergeSort_nil]
    rfl
  have chooses : TypingContext.Chooses ⟨host.env, negationUnit⟩ (model.scopeOf ⟨1⟩) s.sight ⟨1⟩
      meanings [.nil] := by
    have := @TypingContext.Chooses.unary ⟨host.env, negationUnit⟩ (model.scopeOf ⟨1⟩) s.sight ⟨1⟩
      .not ⟨0⟩ rfl rfl (by rw [operand]; rfl)
    rwa [operand] at this
  refine ⟨model, held, proper, (complained ⟨1⟩).2 ⟨?_, meanings, [.nil], chooses, ?_⟩, ?_⟩
  · obtain ⟨scope, type⟩ := typed ⟨1⟩ negation rfl rfl
    exact Option.isSome_iff_exists.2 ⟨_, type⟩
  · rw [losing]
    decide
  · intro h
    obtain ⟨-, candidates, arguments, chooses, -⟩ := (complained ⟨3⟩).1 h
    cases chooses with
    | unary kind => cases kind
    | binary kind children choosing known =>
      cases children
      have known : (s.sight ⟨1⟩).ty.isUnknown = false := known.1
      rw [refused] at known
      cases known
    | call calls => cases calls.kind_eq

end Session

end Pascal
