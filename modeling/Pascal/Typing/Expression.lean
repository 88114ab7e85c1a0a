import Pascal.Typing.Reference

/-!
# Typing expressions
-/

namespace Pascal.Typing

/-- The signature that is called, with an issue if it is not the single best one. -/
def settle (ctx : TypingContext) (n : NodeId) (name : String) (resolution : Resolution)
    (arguments : List Ty) : Typing (Option Invocable) := do
  let types := ctx.env.types
  match resolution with
  | .resolved chosen => pure (some chosen)
  | .ambiguous chosen others =>
    issue ctx n (.ambiguousOverload name (types.signature chosen)
      ((chosen :: others).map types.signature))
    pure (some chosen)
  | .noApplicable =>
    issue ctx n (.noApplicableOverload name (arguments.map types.image))
    pure none

/-- The type of applying an operator. An unknown operand makes the result unknown. -/
def operation (ctx : TypingContext) (n : NodeId) (operator : Operator) (operands : List Ty) :
    Typing Ty := do
  if operands.any (·.isUnknown) then pure .unknown
  else
    let resolution := ctx.env.resolveOperator operator operands
    match ← settle ctx n ("operator " ++ operator.symbol) resolution operands with
    | some chosen =>
      annotate (·.setInvocation n chosen)
      pure chosen.result
    | none => pure .unknown

/-- The type of an expression with two operands. -/
def binary (ctx : TypingContext) (n : NodeId) (operator : BinaryOperator)
    (typeOf : Below n → Typing Ty) : Typing Ty := do
  let left ← child ctx n 0
  let right ← child ctx n 1
  match left, right with
  | some left, some right =>
    let left ← typeOf left
    let right ← typeOf right
    match operator, right with
    | .is, _ => pure .bool
    | .as, .classRef target => pure target
    | .as, other => pure other
    | _, _ => operation ctx n (.binary operator) [left, right]
  | _, _ => pure .unknown

/-- The type of an expression with one operand. -/
def unary (ctx : TypingContext) (n : NodeId) (operator : UnaryOperator)
    (typeOf : Below n → Typing Ty) : Typing Ty := do
  match ← child ctx n 0 with
  | some operand => operation ctx n (.unary operator) [← typeOf operand]
  | none => pure .unknown

/-- The type of a call whose callee names declarations. -/
def call (ctx : TypingContext) (n callee : NodeId) (name : String) (found : List DeclId)
    (arguments : List Ty) : Typing Ty := do
  match found with
  | [] =>
    recordOccurrence callee name none
    annotate (·.setType callee .unknown)
    pure .unknown
  | first :: _ =>
    let declaration := ctx.env.declaration first
    if declaration.isRoutine then
      let resolution := ctx.env.types.choose (ctx.routines found) arguments
      match ← settle ctx n name resolution arguments with
      | some chosen =>
        recordOccurrence callee name chosen.declaration
        if let some id := chosen.declaration then
          annotate (·.setType callee (ctx.env.declaration id).ty)
        annotate (·.setInvocation n chosen)
        pure chosen.result
      | none =>
        recordOccurrence callee name none
        annotate (·.setType callee .unknown)
        pure .unknown
    else
      recordOccurrence callee name (some first)
      annotate (·.setType callee declaration.ty)
      -- A cast to a type, or a call through a value.
      if declaration.isType then pure declaration.ty
      else pure (declaration.ty.callResult?.getD .unknown)

/-- The type of an invocation: its arguments are typed first, then its callee is resolved. -/
def invocation (ctx : TypingContext) (scope : ScopeId) (n : NodeId)
    (typeOf : Below n → Typing Ty) : Typing Ty := do
  match ← child ctx n 0 with
  | none => pure .unknown
  | some callee =>
    let arguments ← (ctx.tree.children n).tail.mapM typeOf
    match ctx.tree.kind callee.1 with
    | .nameReference name =>
      let found ← resolveName ctx scope callee.1 name
      call ctx n callee.1 name found arguments
    | .memberAccess name =>
      let found ← resolveMember ctx scope callee.1 name fun inner => typeOf (callee.lift inner)
      call ctx n callee.1 name found arguments
    | _ =>
      let calleeType ← typeOf callee
      pure (calleeType.callResult?.getD .unknown)

def dereference (ctx : TypingContext) (n : NodeId) (typeOf : Below n → Typing Ty) : Typing Ty := do
  match ← child ctx n 0 with
  | none => pure .unknown
  | some pointer =>
    let ty ← typeOf pointer
    let refuse : Typing Ty := do
      issue ctx n (.malformedType
        ("Cannot dereference a value of type " ++ ctx.env.types.image ty))
      pure .unknown
    match ty.unaliased with
    | .unknown => pure .unknown
    | .pointer target _ _ => if target.isUntyped then refuse else pure target
    | _ => refuse

/-- The type of the address of a value. The address of a routine is the routine as a value. -/
def addressOf (ctx : TypingContext) (n : NodeId) (typeOf : Below n → Typing Ty) : Typing Ty := do
  match ← child ctx n 0 with
  | none => pure .unknown
  | some operand =>
    let ty ← typeOf operand
    let named := ((← get).annotations.occurrence? operand.1).bind (·.declaration)
    let namesRoutine := named.any fun id => (ctx.env.declaration id).isRoutine
    if ty.isUnknown || namesRoutine then pure ty else pure (.pointerTo ty false)

/-- The type of a node, given the types of the nodes before it. -/
def compute (ctx : TypingContext) (scope : ScopeId) (n : NodeId)
    (typeOf : Below n → Typing Ty) : Typing Ty := do
  match ctx.tree.kind n with
  | .integerLiteral value => pure (.integer (.ofLiteral value))
  | .realLiteral _ => pure ctx.env.types.target.extended
  | .textLiteral value => pure (if value.length = 1 then .char else .string)
  | .nilLiteral => pure .nil
  | .nameReference name =>
    let found ← resolveName ctx scope n name
    referenceType ctx n name found
  | .memberAccess name =>
    let found ← resolveMember ctx scope n name typeOf
    referenceType ctx n name found
  | .invocation => invocation ctx scope n typeOf
  | .binaryExpression operator => binary ctx n operator typeOf
  | .unaryExpression operator => unary ctx n operator typeOf
  | .parenthesized =>
    match ← child ctx n 0 with
    | some inner => typeOf inner
    | none => pure .unknown
  | .arrayConstructor => return .bracket (← (ctx.tree.children n).mapM typeOf)
  | .dereference => dereference ctx n typeOf
  | .addressOf => addressOf ctx n typeOf
  | _ => pure .unknown

/-- The type of a node, found now unless it is remembered. -/
def typeOf (ctx : TypingContext) (scope : ScopeId) (n : NodeId) : Typing Ty := do
  match (← get).annotations.type? n with
  | some ty => pure ty
  | none =>
    let ty ← compute ctx scope n fun earlier => typeOf ctx scope earlier.1
    annotate (·.setType n ty)
    pure ty
  termination_by n.index
  decreasing_by exact earlier.2

end Pascal.Typing
