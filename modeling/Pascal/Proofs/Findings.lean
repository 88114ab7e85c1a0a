import Pascal.Proofs.Typing

/-!
# What typing a node finds out

Typing a node goes in two steps. First its operands are typed, one after the other. Then, from what
is seen of them, everything else follows without looking at the state: the type, what the node refers
to, the signature that is called, and at most one issue. The second step is a function, so that what
holds of every node is shown by cases on this function and not on runs.

## Main results

- `Typing.run_compute`: typing a node is typing its operands and recording the finding.
-/

namespace Pascal

open SyntaxTree TypingContext

/-- Nodes that refer to declarations by a name. -/
def NodeKind.isReference : NodeKind → Bool
  | nameReference _ | memberAccess _ => true
  | _ => false

namespace SyntaxTree

variable (tree : SyntaxTree) (n : NodeId)

/-- The name or member that an invocation calls. -/
def callee? : Option (Below n) :=
  match tree.kind n with
  | .invocation => (tree.child? n 0).filter fun callee => (tree.kind callee.1).isReference
  | _ => none

/-- The nodes that a node is typed from, in the order in which they are typed. The name or member
that an invocation calls is not among them; the receiver of the member is. -/
def operands : List (Below n) :=
  match tree.kind n with
  | .memberAccess _ | .unaryExpression _ | .parenthesized | .dereference | .addressOf =>
    (tree.child? n 0).toList
  | .binaryExpression _ =>
    match tree.child? n 0, tree.child? n 1 with
    | some left, some right => [left, right]
    | _, _ => []
  | .arrayConstructor => tree.children n
  | .invocation =>
    match tree.child? n 0 with
    | none => []
    | some callee =>
      (tree.children n).tail ++
        match tree.kind callee.1 with
        | .nameReference _ => []
        | .memberAccess _ => (tree.child? callee.1 0).toList.map callee.lift
        | _ => [callee]
  | _ => []

/-- The complaint about a child that is not there. -/
def lack? (index : Nat) : Option TreeError :=
  match tree.child n index with
  | .ok _ => none
  | .error cause => some cause

/-- The complaint about the first child that typing a node asks for in vain. -/
def missing? : Option TreeError :=
  match tree.kind n with
  | .memberAccess _ | .unaryExpression _ | .parenthesized | .dereference | .addressOf =>
    tree.lack? n 0
  | .binaryExpression _ => tree.lack? n 0 <|> tree.lack? n 1
  | .invocation =>
    match tree.child? n 0 with
    | none => tree.lack? n 0
    | some callee =>
      match tree.kind callee.1 with
      | .memberAccess _ => tree.lack? callee.1 0
      | _ => none
  | _ => none

end SyntaxTree

/-- What is seen of an operand once it is typed. -/
structure Sight where
  ty : Ty
  /-- The declaration that it refers to. -/
  declaration : Option DeclId := none
  /-- It is left open, as the beginning of a dotted unit name. -/
  isOpen : Bool := false
  deriving Inhabited

/-- What a name is found to refer to. -/
inductive Referral where
  | found (first : DeclId) (others : List DeclId)
  /-- Nothing so far, but it may be the beginning of a dotted unit name. -/
  | pending
  | nothing (complaint : Option IssueKind)

/-- What is found out about a node once its operands are typed. -/
structure Finding where
  ty : Ty := .unknown
  /-- The node that is left open. -/
  pending : Option NodeId := none
  issue : Option (NodeId × IssueKind) := none
  /-- The node that refers to something, and what it refers to. -/
  occurrence : Option (NodeId × Occurrence) := none
  /-- The node that is called, and the type of what is called. -/
  callee : Option (NodeId × Ty) := none
  /-- The signature that is called. -/
  invocation : Option Invocable := none
  deriving Inhabited

namespace Referral

/-- The declarations that a name refers to. -/
def ids : Referral → List DeclId
  | found first others => first :: others
  | _ => []

/-- Notes at a node that its name refers to nothing. -/
def note (referral : Referral) (tree : SyntaxTree) (n : NodeId) (s : TypingState) : TypingState :=
  match referral with
  | found _ _ | nothing none => s
  | pending => { s with deferred := n :: s.deferred }
  | nothing (some kind) =>
    { s with annotations := s.annotations.pushIssue { node := n, position := tree.position n, kind } }

end Referral

namespace TypingContext

variable (ctx : TypingContext) (scope : ScopeId) (n : NodeId)

/-! ## References -/

/-- A name that refers to nothing. -/
def unresolved (name : String) : Referral :=
  if ctx.isQualifier n then .pending else .nothing (some (.unresolvedReference name))

/-- What a plain name refers to. -/
def named (name : String) : Referral :=
  match ctx.env.find scope name with
  | first :: others => .found first others
  | [] => ctx.unresolved n name

/-- The file scope of the unit that a declaration stands for. -/
def unitNamed? (declaration : Option DeclId) : Option ScopeId :=
  declaration.bind fun id =>
    match (ctx.env.declaration id).kind with
    | .unit | .unitImport => (ctx.env.declaration id).unitScope
    | _ => none

/-- What a dotted name refers to as the name of a unit. -/
def dotted : Referral :=
  match ctx.dottedName? n with
  | none => .nothing none
  | some dotted =>
    match (ctx.env.find scope dotted).filter fun id => (ctx.env.declaration id).unitScope.isSome with
    | first :: others => .found first others
    | [] => ctx.unresolved n dotted

/-- What a member of a value refers to. -/
def valueMember (receiver : Ty) (name : String) : Referral :=
  if receiver.isUnknown then .nothing none
  else
    match ctx.env.findMember scope receiver name with
    | first :: others => .found first others
    | [] => .nothing (some (.unresolvedReference (ctx.env.types.image receiver ++ "." ++ name)))

/-- What a member access refers to, from what is seen of its receiver. -/
def member (name : String) : Option Sight → Referral
  | none => .nothing none
  | some receiver =>
    let unit := ctx.unitNamed? receiver.declaration
    match unit.elim [] (ctx.env.findInUnit scope · name) with
    | first :: others => .found first others
    | [] =>
      if unit.isSome || receiver.isOpen then ctx.dotted scope n
      else ctx.valueMember scope receiver.ty name

/-- The routine that a mention calls without arguments. -/
def mentioned? (first : DeclId) (others : List DeclId) : Option Invocable :=
  if (ctx.env.declaration first).isRoutine && !ctx.isCallee n && !ctx.isAddressOperand n then
    (ctx.env.types.choose (ctx.routines (first :: others)) []).chosen?
  else none

/-- The finding about a reference. -/
def reference (name : String) : Referral → Finding
  | .pending => { pending := some n, occurrence := some (n, ⟨name, none⟩) }
  | .nothing complaint =>
    { issue := complaint.map (n, ·), occurrence := some (n, ⟨name, none⟩) }
  | .found first others =>
    match ctx.mentioned? n first others with
    | some chosen =>
      { ty := chosen.result
        occurrence := some (n, ⟨name, chosen.declaration⟩)
        invocation := some chosen }
    | none =>
      { ty := (ctx.env.declaration first).ty, occurrence := some (n, ⟨name, some first⟩) }

/-! ## Calls and operators -/

/-- What is wrong with the outcome of choosing among signatures. -/
def complaint? (name : String) (arguments : List Ty) : Resolution → Option IssueKind
  | .resolved _ => none
  | .ambiguous chosen others =>
    some (.ambiguousOverload name (ctx.env.types.signature chosen)
      ((chosen :: others).map ctx.env.types.signature))
  | .noApplicable => some (.noApplicableOverload name (arguments.map ctx.env.types.image))

/-- The finding about an application, from the outcome of choosing among signatures. -/
def settled (name : String) (resolution : Resolution) (arguments : List Ty) : Finding where
  ty := resolution.result
  issue := (ctx.complaint? name arguments resolution).map (n, ·)
  invocation := resolution.chosen?

/-- The finding about the application of an operator. -/
def applied (operator : Operator) (operands : List Ty) : Finding :=
  if operands.any (·.isUnknown) then {}
  else ctx.settled n ("operator " ++ operator.symbol) (ctx.env.resolveOperator operator operands)
    operands

/-- The finding about a call, from what its callee refers to. -/
def called (callee : NodeId) (name : String) (arguments : List Ty) : Referral → Finding
  | .pending =>
    { pending := some callee
      occurrence := some (callee, ⟨name, none⟩)
      callee := some (callee, .unknown) }
  | .nothing complaint =>
    { issue := complaint.map (callee, ·)
      occurrence := some (callee, ⟨name, none⟩)
      callee := some (callee, .unknown) }
  | .found first others =>
    let declaration := ctx.env.declaration first
    if declaration.isRoutine then
      let resolution := ctx.env.types.choose (ctx.routines (first :: others)) arguments
      { ctx.settled n name resolution arguments with
        occurrence := some (callee, ⟨name, resolution.chosen?.bind (·.declaration)⟩)
        callee :=
          match resolution.chosen? with
          | some chosen => chosen.declaration.map fun id => (callee, (ctx.env.declaration id).ty)
          | none => some (callee, .unknown) }
    else
      { ty := if declaration.isType then declaration.ty
          else declaration.ty.callResult?.getD .unknown
        occurrence := some (callee, ⟨name, some first⟩)
        callee := some (callee, declaration.ty) }

/-- The finding about an invocation, from what is seen of its arguments and, behind them, of the
receiver of a member that is called or of a callee that is no name. -/
def invoked (sights : List Sight) : Finding :=
  match ctx.tree.child? n 0 with
  | none => {}
  | some callee =>
    let count := (ctx.tree.children n).tail.length
    let arguments := (sights.take count).map (·.ty)
    match ctx.tree.kind callee.1 with
    | .nameReference name =>
      ctx.called n callee.1 name arguments (ctx.named scope callee.1 name)
    | .memberAccess name =>
      ctx.called n callee.1 name arguments (ctx.member scope callee.1 name sights[count]?)
    | _ => { ty := (sights[count]?.elim .unknown (·.ty)).callResult?.getD .unknown }

/-! ## Other expressions -/

/-- The finding about an expression with two operands. -/
def combined (operator : BinaryOperator) (left right : Ty) : Finding :=
  match operator, right with
  | .is, _ => { ty := .bool }
  | .as, .classRef target => { ty := target }
  | .as, other => { ty := other }
  | _, _ => ctx.applied n (.binary operator) [left, right]

/-- The finding about what a pointer points to. -/
def dereferenced (ty : Ty) : Finding :=
  let refused : Finding :=
    { issue := some (n, .malformedType
        ("Cannot dereference a value of type " ++ ctx.env.types.image ty)) }
  match ty.unaliased with
  | .unknown => {}
  | .pointer target _ _ => if target.isUntyped then refused else { ty := target }
  | _ => refused

/-- The type of the address of what is seen. -/
def addressType (operand : Sight) : Ty :=
  let namesRoutine := operand.declaration.any fun id => (ctx.env.declaration id).isRoutine
  if operand.ty.isUnknown || namesRoutine then operand.ty else .pointerTo operand.ty false

/-- The finding about a node, from what is seen of its operands. -/
def conclude (sights : List Sight) : Finding :=
  match ctx.tree.kind n with
  | .integerLiteral value => { ty := .integer (.ofLiteral value) }
  | .realLiteral _ => { ty := ctx.env.types.target.extended }
  | .textLiteral value => { ty := if value.length = 1 then .char else .string }
  | .nilLiteral => { ty := .nil }
  | .nameReference name => ctx.reference n name (ctx.named scope n name)
  | .memberAccess name => ctx.reference n name (ctx.member scope n name sights.head?)
  | .invocation => ctx.invoked scope n sights
  | .binaryExpression operator =>
    match sights with
    | [left, right] => ctx.combined n operator left.ty right.ty
    | _ => {}
  | .unaryExpression operator =>
    sights.head?.elim {} fun operand => ctx.applied n (.unary operator) [operand.ty]
  | .parenthesized => sights.head?.elim {} fun inner => { ty := inner.ty }
  | .arrayConstructor => { ty := .bracket (sights.map (·.ty)) }
  | .dereference => sights.head?.elim {} fun pointer => ctx.dereferenced n pointer.ty
  | .addressOf => sights.head?.elim {} fun operand => { ty := ctx.addressType operand }
  | _ => {}

variable {ctx scope n} {name : String} {sights : List Sight}

theorem conclude_nilLiteral (hk : ctx.tree.kind n = .nilLiteral) :
    ctx.conclude scope n sights = { ty := .nil } := by
  rw [conclude, hk]

theorem conclude_nameReference (hk : ctx.tree.kind n = .nameReference name) :
    ctx.conclude scope n sights = ctx.reference n name (ctx.named scope n name) := by
  rw [conclude, hk]

theorem conclude_memberAccess (hk : ctx.tree.kind n = .memberAccess name) :
    ctx.conclude scope n sights =
      ctx.reference n name (ctx.member scope n name sights.head?) := by
  rw [conclude, hk]

theorem conclude_invocation (hk : ctx.tree.kind n = .invocation) :
    ctx.conclude scope n sights = ctx.invoked scope n sights := by
  rw [conclude, hk]

/-- Nothing is found out about a node that is no expression. -/
theorem conclude_of_not_isExpression (h : (ctx.tree.kind n).isExpression = false) :
    ctx.conclude scope n sights = {} := by
  unfold conclude
  generalize ctx.tree.kind n = kind at h
  cases kind <;> first | rfl | cases h

end TypingContext

/-- Records a finding about a node. -/
def Finding.record (finding : Finding) (tree : SyntaxTree) (n : NodeId) (s : TypingState) :
    TypingState :=
  { s with
    annotations :=
      let a := s.annotations
      let a := finding.issue.elim a fun (m, kind) =>
        a.pushIssue { node := m, position := tree.position m, kind }
      let a := finding.occurrence.elim a fun (m, occurrence) => a.setOccurrence m occurrence
      let a := finding.callee.elim a fun (m, ty) => a.setType m ty
      finding.invocation.elim a (a.setInvocation n)
    deferred := finding.pending.toList ++ s.deferred }

/-- Records a complaint about the layout of the tree, unless there is one already. -/
def TypingState.complain (s : TypingState) (cause : Option TreeError) : TypingState :=
  { s with violation := s.violation <|> cause }

@[simp] theorem TypingState.complain_none (s : TypingState) : s.complain none = s := by
  simp [complain]

theorem TypingState.complain_complain (s : TypingState) (cause other : Option TreeError) :
    (s.complain cause).complain other = s.complain (cause <|> other) := by
  simp only [complain]
  cases s.violation <;> rfl

namespace Typing

variable {ctx : TypingContext} {scope : ScopeId} {n : NodeId} {s : TypingState}

/-- Types an operand and looks at it. -/
def observe (typeOf : Below n → Typing Ty) (operand : Below n) : Typing Sight := do
  let ty ← typeOf operand
  let s ← get
  pure {
    ty
    declaration := (s.annotations.occurrence? operand.1).bind (·.declaration)
    isOpen := s.deferred.contains operand.1 }

/-! ## Steps -/

theorem run_child (index : Nat) :
    (child ctx n index).run s = (ctx.tree.child? n index, s.complain (ctx.tree.lack? n index)) := by
  simp only [child, SyntaxTree.lack?, SyntaxTree.child]
  cases ctx.tree.child? n index with
  | none => rfl
  | some b => simp only [TypingState.complain_none]; rfl

theorem run_unresolved (name : String) :
    (unresolved ctx n name).run s = ((), (ctx.unresolved n name).note ctx.tree n s) := by
  simp only [unresolved, TypingContext.unresolved]
  split_ifs <;> rfl

@[simp] theorem ids_unresolved (name : String) : (ctx.unresolved n name).ids = [] := by
  simp only [TypingContext.unresolved]
  split_ifs <;> rfl

theorem run_resolveName (name : String) :
    (resolveName ctx scope n name).run s =
      ((ctx.named scope n name).ids, (ctx.named scope n name).note ctx.tree n s) := by
  simp only [resolveName, named]
  cases ctx.env.find scope name with
  | cons first others => rfl
  | nil => simp only [List.isEmpty_nil, if_true, run_bind, run_unresolved, ids_unresolved]; rfl

theorem run_unitOf :
    (unitOf ctx n).run s =
      (ctx.unitNamed? ((s.annotations.occurrence? n).bind (·.declaration)), s) := by
  simp only [unitOf, run_get_bind]
  cases s.annotations.occurrence? n with
  | none => rfl
  | some occurrence =>
    obtain ⟨name, declaration⟩ := occurrence
    cases declaration with
    | none => rfl
    | some id =>
      simp only [unitNamed?, Option.bind_some]
      cases (ctx.env.declaration id).kind <;> rfl

theorem run_resolveDotted :
    (resolveDotted ctx scope n).run s =
      ((ctx.dotted scope n).ids, (ctx.dotted scope n).note ctx.tree n s) := by
  simp only [resolveDotted, dotted]
  cases ctx.dottedName? n with
  | none => rfl
  | some dotted =>
    dsimp only
    cases (ctx.env.find scope dotted).filter
      fun id => (ctx.env.declaration id).unitScope.isSome with
    | cons first others => rfl
    | nil => simp only [List.isEmpty_nil, if_true, run_bind, run_unresolved, ids_unresolved]; rfl

theorem run_resolveValueMember (receiver : Ty) (name : String) :
    (resolveValueMember ctx scope n receiver name).run s =
      ((ctx.valueMember scope receiver name).ids,
        (ctx.valueMember scope receiver name).note ctx.tree n s) := by
  simp only [resolveValueMember, valueMember]
  cases receiver.isUnknown with
  | true => rfl
  | false => cases ctx.env.findMember scope receiver name <;> rfl

section Members

variable (typeOf : Below n → Typing Ty)

theorem run_observe (b : Below n) :
    (observe typeOf b).run s =
      let r := (typeOf b).run s
      ({ ty := r.1
         declaration := (r.2.annotations.occurrence? b.1).bind (·.declaration)
         isOpen := r.2.deferred.contains b.1 }, r.2) := rfl

@[simp] theorem run_mapM_nil {A B : Type} (f : A → Typing B) :
    (([] : List A).mapM f).run s = ([], s) := rfl

theorem run_mapM_cons {A B : Type} (f : A → Typing B) (a : A) (l : List A) :
    ((a :: l).mapM f).run s =
      let first := (f a).run s
      let rest := (l.mapM f).run first.2
      (first.1 :: rest.1, rest.2) := by
  simp only [List.mapM_cons]
  rfl

theorem run_mapM_append {A B : Type} (f : A → Typing B) (l l' : List A) :
    ((l ++ l').mapM f).run s =
      let first := (l.mapM f).run s
      let rest := (l'.mapM f).run first.2
      (first.1 ++ rest.1, rest.2) := by
  simp only [List.mapM_append]
  rfl

/-- Looking at operands changes nothing. -/
theorem run_mapM_observe (l : List (Below n)) :
    (l.mapM typeOf).run s =
      let seen := (l.mapM (observe typeOf)).run s
      (seen.1.map (·.ty), seen.2) := by
  induction l generalizing s with
  | nil => rfl
  | cons b rest ih => simp only [run_mapM_cons, run_observe, ih, List.map_cons]

theorem length_mapM {A B : Type} (f : A → Typing B) (l : List A) :
    ((l.mapM f).run s).1.length = l.length := by
  induction l generalizing s with
  | nil => rfl
  | cons b rest ih => simp only [run_mapM_cons, List.length_cons, ih]

/-- What a member access refers to, once its receiver is typed. -/
theorem run_resolveMember (name : String) :
    (resolveMember ctx scope n name typeOf).run s =
      let seen := ((ctx.tree.child? n 0).toList.mapM (observe typeOf)).run s
      let referral := ctx.member scope n name seen.1.head?
      (referral.ids, referral.note ctx.tree n (seen.2.complain (ctx.tree.lack? n 0))) := by
  simp only [resolveMember, run_bind, run_child]
  cases hc : ctx.tree.child? n 0 with
  | none => rfl
  | some receiver =>
    have hl : ctx.tree.lack? n 0 = none := by simp [SyntaxTree.lack?, SyntaxTree.child, hc]
    simp only [hl, TypingState.complain_none, Option.toList_some, run_mapM_cons, run_observe,
      run_bind, run_unitOf, List.head?_cons, member]
    generalize (typeOf receiver).run s = r
    generalize ctx.unitNamed? ((r.2.annotations.occurrence? receiver.1).bind (·.declaration)) = unit
    cases unit.elim [] (ctx.env.findInUnit scope · name) with
    | cons first others => rfl
    | nil =>
      simp only [List.isEmpty_nil, Bool.not_true, Bool.false_eq_true, if_false, run_get_bind]
      split_ifs
      · exact run_resolveDotted
      · exact run_resolveValueMember r.1 name

end Members

/-! ## References and calls -/

theorem run_referenceType (name : String) (referral : Referral) :
    (referenceType ctx n name referral.ids).run (referral.note ctx.tree n s) =
      ((ctx.reference n name referral).ty, (ctx.reference n name referral).record ctx.tree n s) := by
  cases referral with
  | pending => rfl
  | nothing complaint => cases complaint <;> rfl
  | found first others =>
    change (match ctx.mentioned? n first others with
      | some chosen => _
      | none => _ : Typing Ty).run s = _
    simp only [reference]
    cases ctx.mentioned? n first others <;> rfl

theorem run_settle (name : String) (resolution : Resolution) (arguments : List Ty) :
    (settle ctx n name resolution arguments).run s = (resolution.chosen?,
      Finding.record { issue := (ctx.complaint? name arguments resolution).map (n, ·) }
        ctx.tree n s) := by
  cases resolution <;> rfl

theorem run_operation (operator : Operator) (operands : List Ty) :
    (operation ctx n operator operands).run s =
      ((ctx.applied n operator operands).ty,
        (ctx.applied n operator operands).record ctx.tree n s) := by
  simp only [operation, applied]
  cases operands.any (·.isUnknown) with
  | true => rfl
  | false =>
    simp only [Bool.false_eq_true, if_false, run_bind, run_settle, settled]
    cases ctx.env.resolveOperator operator operands <;> rfl

theorem run_call (callee : NodeId) (name : String) (arguments : List Ty) (referral : Referral) :
    (call ctx n callee name referral.ids arguments).run (referral.note ctx.tree callee s) =
      ((ctx.called n callee name arguments referral).ty,
        (ctx.called n callee name arguments referral).record ctx.tree n s) := by
  cases referral with
  | pending => rfl
  | nothing complaint => cases complaint <;> rfl
  | found first others =>
    simp only [Referral.ids, Referral.note, call, called]
    cases (ctx.env.declaration first).isRoutine with
    | true =>
      simp only [if_true, run_bind, run_settle, settled]
      cases ctx.env.types.choose (ctx.routines (first :: others)) arguments with
      | noApplicable => rfl
      | resolved chosen | ambiguous chosen _ =>
        obtain ⟨_, _, _, _, declaration⟩ := chosen
        cases declaration <;> rfl
    | false =>
      simp only [Bool.false_eq_true, if_false]
      cases (ctx.env.declaration first).isType <;> rfl

/-! ## Expressions -/

section Compound

variable (typeOf : Below n → Typing Ty)

/-- What is seen of the operands of a node, and the state they leave. -/
def survey (tree : SyntaxTree) (typeOf : Below n → Typing Ty) (s : TypingState) :
    List Sight × TypingState :=
  ((tree.operands n).mapM (observe typeOf)).run s

theorem run_invocation (hk : ctx.tree.kind n = .invocation) :
    (invocation ctx scope n typeOf).run s =
      let seen := survey ctx.tree typeOf s
      let finding := ctx.invoked scope n seen.1
      (finding.ty, finding.record ctx.tree n (seen.2.complain (ctx.tree.missing? n))) := by
  simp only [invocation, run_bind, run_child, survey, operands, missing?, hk, invoked]
  cases hc : ctx.tree.child? n 0 with
  | none => rfl
  | some callee =>
    have hl : ctx.tree.lack? n 0 = none := by simp [SyntaxTree.lack?, SyntaxTree.child, hc]
    simp only [hl, TypingState.complain_none, run_bind, run_mapM_observe, run_mapM_append]
    have count := length_mapM (s := s) (observe typeOf) (ctx.tree.children n).tail
    generalize ((ctx.tree.children n).tail.mapM (observe typeOf)).run s = arguments at count
    cases hk' : ctx.tree.kind callee.1 with
    | nameReference name =>
      have all : arguments.1.take (ctx.tree.children n).tail.length = arguments.1 :=
        List.take_of_length_le count.le
      simp only [run_bind, run_resolveName, run_call, run_mapM_nil, List.append_nil, all,
        TypingState.complain_none]
    | memberAccess name =>
      simp only [run_bind, run_resolveMember, run_call, List.mapM_map]
      have all : ∀ last, (arguments.1 ++ last).take (ctx.tree.children n).tail.length =
          arguments.1 := fun last => by rw [← count, List.take_left]
      have head : ∀ last, (arguments.1 ++ last)[(ctx.tree.children n).tail.length]? =
          last.head? := fun last => by
        rw [← count, List.getElem?_append_right le_rfl, Nat.sub_self, List.head?_eq_getElem?]
      simp only [all, head]
      rfl
    | _ =>
      have head : ∀ last, (arguments.1 ++ [last])[(ctx.tree.children n).tail.length]? =
          some last := fun last => by simp [← count]
      simp only [run_mapM_cons, run_mapM_nil, run_bind, run_observe, head,
        TypingState.complain_none]
      rfl

theorem run_combined (operator : BinaryOperator) (left right : Ty) :
    (match operator, right with
      | .is, _ => pure .bool
      | .as, .classRef target => pure target
      | .as, other => pure other
      | _, _ => operation ctx n (.binary operator) [left, right] : Typing Ty).run s =
      ((ctx.combined n operator left right).ty,
        (ctx.combined n operator left right).record ctx.tree n s) := by
  cases operator with
  | is => rfl
  | as => cases right <;> rfl
  | _ => exact run_operation _ _

theorem run_dereferenced (ty : Ty) :
    (let refuse : Typing Ty := do
        issue ctx n (.malformedType
          ("Cannot dereference a value of type " ++ ctx.env.types.image ty))
        pure .unknown
      match ty.unaliased with
      | .unknown => pure .unknown
      | .pointer target _ _ => if target.isUntyped then refuse else pure target
      | _ => refuse : Typing Ty).run s =
      ((ctx.dereferenced n ty).ty, (ctx.dereferenced n ty).record ctx.tree n s) := by
  simp only [dereferenced]
  cases ty.unaliased with
  | pointer target _ _ => cases h : target.isUntyped <;> simp only [h] <;> rfl
  | _ => rfl

theorem run_addressed (operand : NodeId) (ty : Ty) :
    (do
      let named := ((← get).annotations.occurrence? operand).bind (·.declaration)
      let namesRoutine := named.any fun id => (ctx.env.declaration id).isRoutine
      if ty.isUnknown || namesRoutine then pure ty else pure (.pointerTo ty false) : Typing Ty).run s =
      (ctx.addressType {
        ty
        declaration := (s.annotations.occurrence? operand).bind (·.declaration)
        isOpen := s.deferred.contains operand }, s) := by
  simp only [run_get_bind, addressType]
  split_ifs <;> rfl

/-- Typing a node is typing its operands and recording what follows from what is seen of them. -/
theorem run_compute :
    (compute ctx scope n typeOf).run s =
      let seen := survey ctx.tree typeOf s
      let finding := ctx.conclude scope n seen.1
      (finding.ty, finding.record ctx.tree n (seen.2.complain (ctx.tree.missing? n))) := by
  have lacking : ∀ {i : Nat} {b : Below n}, ctx.tree.child? n i = some b →
      ctx.tree.lack? n i = none := fun h => by simp [SyntaxTree.lack?, SyntaxTree.child, h]
  unfold compute conclude
  cases hk : ctx.tree.kind n with
  | nameReference name =>
    simp only [run_bind, run_resolveName, run_referenceType, survey, operands,
      missing?, hk, TypingState.complain_none, List.mapM_nil]
    rfl
  | memberAccess name =>
    simp only [run_bind, run_resolveMember, run_referenceType, survey, operands, missing?, hk]
  | invocation => exact run_invocation typeOf hk
  | binaryExpression operator =>
    simp only [binary, run_bind, run_child, survey, operands, missing?, hk,
      TypingState.complain_complain]
    cases hl : ctx.tree.child? n 0 with
    | none => rfl
    | some left =>
      cases hr : ctx.tree.child? n 1 with
      | none => rfl
      | some right =>
        have whole : (ctx.tree.lack? n 0 <|> ctx.tree.lack? n 1) = none := by
          rw [lacking hl, lacking hr]
          rfl
        simp only [whole, TypingState.complain_none, run_mapM_cons, run_observe, run_mapM_nil,
          run_bind]
        exact run_combined operator _ _
  | unaryExpression operator =>
    simp only [unary, run_bind, run_child, survey, operands, missing?, hk]
    cases hc : ctx.tree.child? n 0 with
    | none => rfl
    | some operand =>
      simp only [lacking hc, TypingState.complain_none, run_bind, run_operation]
      rfl
  | parenthesized =>
    simp only [run_bind, run_child, survey, operands, missing?, hk]
    cases hc : ctx.tree.child? n 0 with
    | none => rfl
    | some inner =>
      simp only [lacking hc, TypingState.complain_none]
      rfl
  | arrayConstructor =>
    simp only [run_bind, run_mapM_observe, survey, operands, missing?, hk,
      TypingState.complain_none]
    rfl
  | dereference =>
    simp only [dereference, run_bind, run_child, survey, operands, missing?, hk]
    cases hc : ctx.tree.child? n 0 with
    | none => rfl
    | some pointer =>
      simp only [lacking hc, TypingState.complain_none, run_bind]
      exact run_dereferenced _
  | addressOf =>
    simp only [addressOf, run_bind, run_child, survey, operands, missing?, hk]
    cases hc : ctx.tree.child? n 0 with
    | none => rfl
    | some operand =>
      simp only [lacking hc, TypingState.complain_none, run_bind]
      exact run_addressed operand.1 _
  | _ =>
    simp only [survey, operands, missing?, hk, TypingState.complain_none]
    rfl

end Compound

end Typing

end Pascal
