import Pascal.Tree.Basic

/-!
# Walking a tree

A walk visits the nodes of a subtree in the order of the text and hands a context from each visit to
the next. A visit may keep the walk out of the children of its node.
-/

namespace Pascal

/-- Whether a visit lets the walk descend into the children, with the context to go on with. -/
inductive Flow (κ : Type) where
  | descend (context : κ)
  | skip (context : κ)
  deriving Repr, DecidableEq

/-- The categories of nodes that a visitor tells apart. -/
inductive NodeCategory where
  | unit | typeDeclaration | routine | nameReference | invocation | binaryExpression
  | unaryExpression | asmBlock | other
  deriving Repr, DecidableEq, Inhabited

def NodeKind.category : NodeKind → NodeCategory
  | unit _ => .unit
  | typeDeclaration _ => .typeDeclaration
  | routineDeclaration _ _ | routineImplementation _ _ => .routine
  | nameReference _ | memberAccess _ => .nameReference
  | invocation => .invocation
  | binaryExpression _ => .binaryExpression
  | unaryExpression _ => .unaryExpression
  | asmBlock _ => .asmBlock
  | _ => .other

/-- What to do at a node, which is given with its category. -/
structure Visitor (m : Type → Type) (κ : Type) where
  visit : NodeCategory → NodeId → κ → m (Flow κ)

def Visitor.passive {m : Type → Type} [Monad m] {κ : Type} : Visitor m κ where
  visit _ _ context := pure (.descend context)

/-- Walks over a subtree and gives the context of the last visit. -/
def walk {m : Type → Type} [Monad m] {κ : Type} (tree : SyntaxTree) (visitor : Visitor m κ)
    (n : NodeId) (context : κ) : m κ := do
  match ← visitor.visit (tree.kind n).category n context with
  | .skip context => pure context
  | .descend context =>
    (tree.children n).foldlM (fun context child => walk tree visitor child.1 context) context
  termination_by n.index
  decreasing_by exact child.2

end Pascal
