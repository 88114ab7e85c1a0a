/-!
# Operators
-/

namespace Pascal

/-- The operators between two operands. -/
inductive BinaryOperator where
  | add | subtract | multiply | divide | div | mod | shl | shr | and | or | xor
  | equal | notEqual | lessThan | lessThanEqual | greaterThan | greaterThanEqual
  | in_ | is | as
  deriving Repr, DecidableEq, Inhabited

namespace BinaryOperator

/-- The method names by which a structured type gives the operator a meaning. -/
def names : BinaryOperator → List String
  | add => ["Add"]
  | subtract => ["Subtract"]
  | multiply => ["Multiply"]
  | divide => ["Divide"]
  | div => ["IntDivide"]
  | mod => ["Modulus"]
  | shl => ["LeftShift"]
  | shr => ["RightShift"]
  | and => ["LogicalAnd", "BitwiseAnd"]
  | or => ["LogicalOr", "BitwiseOr"]
  | xor => ["LogicalXor", "BitwiseXor"]
  | equal => ["Equal"]
  | notEqual => ["NotEqual"]
  | lessThan => ["LessThan"]
  | lessThanEqual => ["LessThanOrEqual"]
  | greaterThan => ["GreaterThan"]
  | greaterThanEqual => ["GreaterThanOrEqual"]
  | in_ => ["In"]
  | is | as => []

/-- The name of the built-in meanings of the operator. -/
def intrinsicName : BinaryOperator → String
  | is => "Is"
  | as => "As"
  | operator => operator.names.headD ""

def symbol : BinaryOperator → String
  | add => "+"
  | subtract => "-"
  | multiply => "*"
  | divide => "/"
  | div => "div"
  | mod => "mod"
  | shl => "shl"
  | shr => "shr"
  | and => "and"
  | or => "or"
  | xor => "xor"
  | equal => "="
  | notEqual => "<>"
  | lessThan => "<"
  | lessThanEqual => "<="
  | greaterThan => ">"
  | greaterThanEqual => ">="
  | in_ => "in"
  | is => "is"
  | as => "as"

def isComparison : BinaryOperator → Bool
  | equal | notEqual | lessThan | lessThanEqual | greaterThan | greaterThanEqual => true
  | _ => false

end BinaryOperator

/-- The operators on one operand. -/
inductive UnaryOperator where
  | not | plus | negate
  deriving Repr, DecidableEq, Inhabited

namespace UnaryOperator

/-- The method names by which a structured type gives the operator a meaning. -/
def names : UnaryOperator → List String
  | not => ["LogicalNot", "BitwiseNot"]
  | plus => ["Positive"]
  | negate => ["Negative"]

def symbol : UnaryOperator → String
  | not => "not"
  | plus => "+"
  | negate => "-"

end UnaryOperator

/-- The operators of expressions. -/
inductive Operator where
  | binary (operator : BinaryOperator)
  | unary (operator : UnaryOperator)
  deriving Repr, DecidableEq, Inhabited

namespace Operator

def names : Operator → List String
  | binary operator => operator.names
  | unary operator => operator.names

def arity : Operator → Nat
  | binary _ => 2
  | unary _ => 1

def symbol : Operator → String
  | binary operator => operator.symbol
  | unary operator => operator.symbol

end Operator

end Pascal
