import Pascal.Model.Annotations

/-!
# Models

A unit with everything the analysis found out about it.
-/

namespace Pascal

/-- A unit with what is known about it. -/
structure Model where
  name : String
  scope : ScopeId
  tree : SyntaxTree
  annotations : Annotations := {}

namespace Model

/-- The type recorded for a node; `unknown` if there is none. -/
def typeOf (model : Model) (n : NodeId) : Ty := (model.annotations.type? n).getD .unknown

/-- The innermost scope around a node. -/
def scopeOf (model : Model) (n : NodeId) : ScopeId :=
  ((n :: model.tree.ancestors n).findSome? model.annotations.scope?).getD model.scope

end Model

end Pascal
