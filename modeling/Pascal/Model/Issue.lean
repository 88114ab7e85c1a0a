import Pascal.Error
import Pascal.Identity

/-!
# Issues

What is wrong with a unit without stopping its analysis. The node concerned stays without a type or
without a declaration.
-/

namespace Pascal

/-- What is wrong at a node. -/
inductive IssueKind where
  | unresolvedReference (name : String)
  | ambiguousOverload (name chosen : String) (candidates : List String)
  | noApplicableOverload (name : String) (arguments : List String)
  | malformedType (message : String)
  deriving Repr, DecidableEq, Inhabited

/-- What is wrong, and where. -/
structure Issue where
  node : NodeId
  position : Position
  kind : IssueKind
  deriving Repr, DecidableEq, Inhabited

namespace Issue

def isUnresolved (issue : Issue) : Bool :=
  match issue.kind with
  | .unresolvedReference _ => true
  | _ => false

def message (issue : Issue) : String :=
  match issue.kind with
  | .unresolvedReference name => s!"Unresolved reference '{name}'"
  | .ambiguousOverload name chosen candidates =>
    s!"Ambiguous call to '{name}', {candidates.length} candidates tie; using {chosen}"
  | .noApplicableOverload name arguments =>
    let listed := ", ".intercalate arguments
    s!"No overload of '{name}' accepts ({listed})"
  | .malformedType message => message

end Issue

end Pascal
