import Pascal.Error
import Pascal.Tree.Kind

/-!
# Syntax trees

A syntax tree is a table of nodes in which the children of a node stand before it. What is found out
about a node is kept elsewhere, by the identity of the node.
-/

namespace Pascal

/-- A node of a syntax tree. -/
structure Node where
  kind : NodeKind
  position : Position := {}
  children : List NodeId := []
  deriving Repr, DecidableEq, Inhabited

/-- In a table of nodes, children stand before their parents. -/
def Ordered (nodes : Array Node) : Prop :=
  ∀ i < nodes.size, ∀ child ∈ (nodes.getD i default).children, child.index < i

instance (nodes : Array Node) : Decidable (Ordered nodes) :=
  inferInstanceAs (Decidable (∀ i < nodes.size, ∀ child ∈ _, _))

/-- A node that stands before `n`. -/
abbrev Below (n : NodeId) : Type := { child : NodeId // child < n }

/-- What stands before a child stands before the node. -/
def Below.lift {n : NodeId} (child : Below n) (inner : Below child.1) : Below n :=
  ⟨inner.1, Nat.lt_trans inner.2 child.2⟩

/-- For each node the last one that has it as a child. -/
def parentsOf (nodes : Array Node) : Array (Option NodeId) :=
  nodes.zipIdx.foldl
    (fun parents (node, i) =>
      node.children.foldl (fun parents child => parents.setIfInBounds child.index (some ⟨i⟩)) parents)
    (Array.replicate nodes.size none)

/-- A table of nodes, children before parents, with a root. -/
structure SyntaxTree where
  nodes : Array Node
  root : NodeId
  ordered : Ordered nodes
  /-- For each node the one around it. -/
  parents : Array (Option NodeId) := parentsOf nodes
  parents_eq : parents = parentsOf nodes := by rfl

namespace SyntaxTree

/-- The tree of a table of nodes, if children stand before their parents and the root is in it. -/
def ofNodes? (nodes : Array Node) (root : NodeId) : Option SyntaxTree :=
  if h : root.index < nodes.size ∧ Ordered nodes then some { nodes, root, ordered := h.2 }
  else none

def size (tree : SyntaxTree) : Nat := tree.nodes.size

def node (tree : SyntaxTree) (n : NodeId) : Node := tree.nodes.getD n.index default

def kind (tree : SyntaxTree) (n : NodeId) : NodeKind := (tree.node n).kind

def position (tree : SyntaxTree) (n : NodeId) : Position := (tree.node n).position

def childIds (tree : SyntaxTree) (n : NodeId) : List NodeId := (tree.node n).children

def parent? (tree : SyntaxTree) (n : NodeId) : Option NodeId := tree.parents.getD n.index none

def ids (tree : SyntaxTree) : List NodeId := (List.range tree.size).map NodeId.mk

/-- A child stands before its node. -/
theorem lt_of_mem_childIds (tree : SyntaxTree) {n child : NodeId} (h : child ∈ tree.childIds n) :
    child < n := by
  by_cases hn : n.index < tree.nodes.size
  · exact tree.ordered n.index hn child h
  · simp [childIds, node, Array.getD, hn] at h
    cases h

/-- The children of a node, each known to stand before it. -/
def children (tree : SyntaxTree) (n : NodeId) : List (Below n) :=
  (tree.childIds n).attach.map fun child => ⟨child.1, tree.lt_of_mem_childIds child.2⟩

@[simp] theorem map_val_children (tree : SyntaxTree) (n : NodeId) :
    (tree.children n).map (·.1) = tree.childIds n := by
  simp [children, Function.comp_def]

def child? (tree : SyntaxTree) (n : NodeId) (index : Nat) : Option (Below n) :=
  (tree.children n)[index]?

/-- The child that a node cannot do without. -/
def child (tree : SyntaxTree) (n : NodeId) (index : Nat) : Except TreeError (Below n) :=
  match tree.child? n index with
  | some child => .ok child
  | none => .error (.missingChild (tree.kind n).name (tree.position n) index)

def findChild? (tree : SyntaxTree) (n : NodeId) (test : NodeKind → Bool) : Option NodeId :=
  (tree.childIds n).find? fun child => test (tree.kind child)

/-- The nodes around a node, innermost first. -/
def ancestors (tree : SyntaxTree) (n : NodeId) : List NodeId :=
  match tree.parent? n with
  | some parent =>
    if n.index < parent.index ∧ parent.index < tree.size then parent :: tree.ancestors parent
    else [parent]
  | none => []
  termination_by tree.size - n.index

/-- The complaint that a node is not of the kind that its place asks for. -/
def unexpected (tree : SyntaxTree) (n : NodeId) (expected : String) : TreeError :=
  .unexpectedKind expected (tree.kind n).name (tree.position n)

end SyntaxTree

end Pascal
