import Pascal.Operator.Candidates
import Pascal.Overload.Choice

/-!
# Choosing the meaning of an operator
-/

namespace Pascal.Environment

/-- The best meaning of an operator among the candidates of all its operand types. -/
def resolveOperator (env : Environment) (operator : Operator) (operands : List Ty) : Resolution :=
  env.types.choose (env.operatorCandidates operator operands) operands

end Pascal.Environment
