import Pascal.Environment
import Pascal.Operator.Basic
import Pascal.Overload.Invocable

/-!
# Candidates of an operator

The signatures that an operator may have because one of its operands has a certain type. Choosing
among them is a matter of overloading.
-/

namespace Pascal

namespace Operator

def between (name : String) (left right result : Ty) : Invocable :=
  .builtin name [left, right] result

/-- Signatures for equal operands of every type and for operands of neighbouring types, which give
the wider of the two. Types that are not neighbours are not combined. -/
def ladder (name : String) : List Ty → List Invocable
  | [] => []
  | [ty] => [between name ty ty ty]
  | ty :: next :: rest =>
    between name ty ty ty :: between name ty next next :: between name next ty next ::
      ladder name (next :: rest)

/-- Whole-number arithmetic: signed and unsigned operands widen apart from each other. -/
def integerArithmetic (name : String) : List Invocable :=
  ladder name [.int, .int64] ++ ladder name [.cardinal, .uInt64]

/-- Bitwise disjunction, which knows every width. -/
def bitwiseOr (name : String) : List Invocable :=
  ladder name [.shortInt, .smallInt, .int, .int64] ++
    ladder name [.byte, .word, .cardinal, .uInt64]

/-- Bitwise conjunction, in which the narrow widths stay apart. -/
def bitwiseAnd : List Invocable :=
  [Ty.shortInt, .smallInt, .byte, .word].map (fun ty => between "BitwiseAnd" ty ty ty) ++
    integerArithmetic "BitwiseAnd"

/-- Shifts, by a number of digits. -/
def shift (name : String) : List Invocable :=
  [Ty.int, .cardinal, .int64, .uInt64].map fun ty => between name ty .int ty

def arithmetic (target : Target) (name : String) : List Invocable :=
  let real := target.extended
  integerArithmetic name ++
    [between name real real real, between name .int real real, between name real .int real]

def division (target : Target) : List Invocable :=
  [between "Divide" target.extended target.extended target.extended]

/-- The built-in meanings for an operand that is a real number. -/
def onDecimal (target : Target) : BinaryOperator → List Invocable
  | .add => arithmetic target "Add"
  | .subtract => arithmetic target "Subtract"
  | .multiply => arithmetic target "Multiply"
  | .divide => division target
  | _ => []

/-- The built-in meanings for an operand that is a whole number. -/
def onInteger (target : Target) : BinaryOperator → List Invocable
  | .and => bitwiseAnd
  | .or => bitwiseOr "BitwiseOr"
  | .xor => bitwiseOr "BitwiseXor"
  | .div => integerArithmetic "IntDivide"
  | .mod => integerArithmetic "Modulus"
  | .shl => shift "LeftShift"
  | .shr => shift "RightShift"
  | operator => onDecimal target operator

/-- The built-in meanings for an operand that is a truth value. -/
def onBoolean : BinaryOperator → List Invocable
  | .and => [between "LogicalAnd" .bool .bool .bool]
  | .or => [between "LogicalOr" .bool .bool .bool]
  | .xor => [between "LogicalXor" .bool .bool .bool]
  | _ => []

/-- The built-in meanings for a pointer that can be reckoned with. -/
def onPointer (pointer : Ty) : BinaryOperator → List Invocable
  | .add =>
    [between "Add" pointer .int pointer, between "Add" .int pointer pointer,
      between "Add" pointer (.matcher .pointerMathOperand) pointer]
  | .subtract =>
    [between "Subtract" pointer .int pointer,
      between "Subtract" pointer (.matcher .pointerMathOperand) .int]
  | _ => []

/-- The built-in meanings for an operand that is a set, or may become one. -/
def onSet (set : Ty) : BinaryOperator → List Invocable
  | .add => [between "Add" set set set]
  | .subtract => [between "Subtract" set set set]
  | .multiply => [between "Multiply" set set set]
  | _ => []

def onVariant : BinaryOperator → List Invocable
  | .in_ | .as => []
  | operator =>
    [between ("Variant::" ++ operator.intrinsicName) .anyVariant .anyVariant
      (if operator.isComparison then .bool else .anyVariant)]

/-- The built-in meaning of joining two values of a type. -/
def onJoinable (ty : Ty) : BinaryOperator → List Invocable
  | .add => [between "Add" ty ty ty]
  | _ => []

/-- The built-in meanings that do not depend on the operand. -/
def onAnything (operator : BinaryOperator) : List Invocable :=
  if operator.isComparison then [between operator.intrinsicName .untyped .untyped .bool]
  else if operator = .in_ then [between "In" (.matcher .anyOrdinal) (.matcher .anySet) .bool]
  else []

/-- The built-in meanings of a binary operator for an operand that is no structured type. -/
def builtinBinary (types : TypeTable) (operator : BinaryOperator) : Ty → List Invocable
  | .pointer target isNil true => onPointer (.pointer target isNil true) operator
  | .variant _ => onVariant operator
  | .set element => onSet (.set element) operator
  | .bracket elements => onSet (.bracket [types.widest elements]) operator
  | .array .dynamic element => onJoinable (.array .dynamic element) operator
  | .integer _ => onInteger types.target operator
  | .decimal _ _ => onDecimal types.target operator
  | .boolean _ => onBoolean operator
  | .text _ => onJoinable .string operator
  | _ => []

/-- Whole-number meanings of a unary operator. -/
def integerUnary (name : String) : List Invocable :=
  [Ty.int, .int64].map fun ty => .builtin name [ty] ty

def arithmeticUnary (target : Target) (name : String) : List Invocable :=
  integerUnary name ++ [.builtin name [target.extended] target.extended]

/-- The built-in meanings of a unary operator for an operand that is no structured type. -/
def builtinUnary (types : TypeTable) (operator : UnaryOperator) : Ty → List Invocable
  | .variant _ =>
    [.builtin ("Variant::" ++ operator.names.headD "") [.anyVariant] .anyVariant]
  | _ =>
    match operator with
    | .not => integerUnary "BitwiseNot" ++ [.builtin "LogicalNot" [.bool] .bool]
    | .plus => arithmeticUnary types.target "Positive"
    | .negate => arithmeticUnary types.target "Negative"

end Operator

namespace Environment

/-- The operator methods that a structured type declares itself under a name of the operator. -/
def operatorMethods (env : Environment) (id : StructId) (operator : Operator) : List Invocable :=
  (env.symbols.declarationsIn (env.membersOf id)).filterMap fun method =>
    let declaration := env.declaration method
    if declaration.isOperator && operator.names.any (Name.sameAscii · declaration.name) then
      Invocable.ofDeclaration? method declaration.toDeclarationSpec
    else none

/-- The signatures of an operator for one operand type, without repetition. -/
def candidates (env : Environment) (ty : Ty) (operator : Operator) : List Invocable :=
  let found :=
    match operator, ty.unaliased with
    | .binary binary, .struct id => env.operatorMethods id operator ++ Operator.onAnything binary
    | .unary _, .struct id => env.operatorMethods id operator
    | .binary binary, bare =>
      Operator.builtinBinary env.types binary bare ++ Operator.onAnything binary
    | .unary unary, bare => Operator.builtinUnary env.types unary bare
  found.eraseDups

/-- The signatures of an operator for all operand types together, without repetition. -/
def operatorCandidates (env : Environment) (operator : Operator) (operands : List Ty) :
    List Invocable :=
  (operands.flatMap (env.candidates · operator)).eraseDups

end Environment

end Pascal
