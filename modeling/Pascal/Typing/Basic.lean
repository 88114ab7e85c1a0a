import Pascal.Lookup.Members
import Pascal.Model.Annotations
import Pascal.Overload.Operators

/-!
# Typing

The types of expressions are found on demand and remembered, so that a type is found at most once.
Typing never fails: what cannot be typed is `unknown`, and unless an operand was unknown already, an
issue says why.
-/

namespace Pascal

/-- The tables and the tree that expressions are typed against. -/
structure TypingContext where
  env : Environment
  tree : SyntaxTree

/-- What is found while expressions are typed. -/
structure TypingState where
  annotations : Annotations := {}
  /-- Names left open because they may be the first segments of a dotted unit name. -/
  deferred : List NodeId := []
  /-- The first breach of the layout of the tree. -/
  violation : Option TreeError := none
  deriving Inhabited

/-- Computations that find types. -/
abbrev Typing := StateM TypingState

namespace Typing

def annotate (change : Annotations → Annotations) : Typing Unit :=
  modify fun s => { s with annotations := change s.annotations }

def issue (ctx : TypingContext) (n : NodeId) (kind : IssueKind) : Typing Unit :=
  annotate (·.pushIssue { node := n, position := ctx.tree.position n, kind })

/-- The child that a node cannot do without; the first one missing is a breach of the layout. -/
def child (ctx : TypingContext) (n : NodeId) (index : Nat) : Typing (Option (Below n)) := do
  match ctx.tree.child n index with
  | .ok child => pure (some child)
  | .error cause =>
    modify fun s => { s with violation := s.violation <|> some cause }
    pure none

def recordOccurrence (n : NodeId) (name : String) (declaration : Option DeclId) : Typing Unit :=
  annotate (·.setOccurrence n { name, declaration })

end Typing

namespace TypingContext

/-- Whether a node is the first child of a node of a certain kind. -/
def isFirstChild (ctx : TypingContext) (n : NodeId) (test : NodeKind → Bool) : Bool :=
  match ctx.tree.parent? n with
  | some parent => test (ctx.tree.kind parent) && (ctx.tree.childIds parent).head? = some n
  | none => false

/-- Whether a node is the receiver of a member access. -/
def isQualifier (ctx : TypingContext) (n : NodeId) : Bool :=
  ctx.isFirstChild n fun
    | .memberAccess _ => true
    | _ => false

/-- Whether a node is what an invocation calls. -/
def isCallee (ctx : TypingContext) (n : NodeId) : Bool := ctx.isFirstChild n (· = .invocation)

def isAddressOperand (ctx : TypingContext) (n : NodeId) : Bool :=
  (ctx.tree.parent? n).any fun parent => ctx.tree.kind parent = .addressOf

/-- The dotted name that a chain of plain names spells. -/
def dottedName? (ctx : TypingContext) (n : NodeId) : Option String :=
  match ctx.tree.kind n with
  | .nameReference name => some name
  | .memberAccess name =>
    match ctx.tree.child? n 0 with
    | some receiver => (ctx.dottedName? receiver.1).map fun outer => outer ++ "." ++ name
    | none => none
  | _ => none
  termination_by n.index
  decreasing_by exact receiver.2

/-- The routines among declarations, as signatures. -/
def routines (ctx : TypingContext) (ids : List DeclId) : List Invocable :=
  ids.filterMap fun id => Invocable.ofDeclaration? id (ctx.env.declaration id).toDeclarationSpec

end TypingContext

end Pascal
