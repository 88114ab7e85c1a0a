import Pascal.Tree.Basic

/-!
# Nested documents

The nested form in which a syntax tree is handed over. Laying a document out as a table gives the
nodes their identities in post-order.
-/

namespace Pascal

/-- A node with its children inside it. -/
inductive Document where
  | node (kind : NodeKind) (position : Position) (children : List Document)
  deriving Repr, Inhabited

namespace Document

mutual
/-- The nodes of a document behind those of a table; the last one is its root. -/
def lay (nodes : Array Node) : Document → Array Node
  | node kind position children =>
    let (ids, nodes) := layAll nodes children
    nodes.push { kind, position, children := ids }
/-- The nodes of several documents behind those of a table, and the identities of their roots. -/
def layAll (nodes : Array Node) : List Document → List NodeId × Array Node
  | [] => ([], nodes)
  | document :: rest =>
    let nodes := lay nodes document
    let root : NodeId := ⟨nodes.size - 1⟩
    let (roots, nodes) := layAll nodes rest
    (root :: roots, nodes)
end

end Document

/-- A node pushed behind an ordered table keeps it ordered if its children are in the table. -/
theorem Ordered.push {nodes : Array Node} (h : Ordered nodes) {node : Node}
    (hc : ∀ child ∈ node.children, child.index < nodes.size) : Ordered (nodes.push node) := by
  intro i hi child hmem
  by_cases hn : i < nodes.size
  · exact h i hn child (by simpa [Array.getD, Array.getElem_push, hn, Nat.lt_succ_of_lt hn] using hmem)
  · have hi' : i = nodes.size := by simp at hi; omega
    subst hi'
    exact hc child (by simpa [Array.getD] using hmem)

namespace Document

mutual
/-- Laying out a document makes the table longer and keeps it ordered. -/
theorem lay_ordered {nodes : Array Node} (h : Ordered nodes) :
    (document : Document) → Ordered (lay nodes document) ∧ nodes.size < (lay nodes document).size
  | node kind position children => by
    obtain ⟨ho, hs, hr⟩ := layAll_ordered h children
    simp only [lay, Array.size_push]
    exact ⟨ho.push hr, by omega⟩
/-- Laying out documents keeps the table ordered, and their roots are in it. -/
theorem layAll_ordered {nodes : Array Node} (h : Ordered nodes) :
    (documents : List Document) → Ordered (layAll nodes documents).2 ∧
      nodes.size ≤ (layAll nodes documents).2.size ∧
      ∀ root ∈ (layAll nodes documents).1, root.index < (layAll nodes documents).2.size
  | [] => by simp [layAll, h]
  | document :: rest => by
    obtain ⟨ho, hs⟩ := lay_ordered h document
    obtain ⟨ho', hs', hr'⟩ := layAll_ordered ho rest
    simp only [layAll, List.mem_cons, forall_eq_or_imp]
    exact ⟨ho', by omega, by omega, hr'⟩
end

end Document

def SyntaxTree.ofDocument (document : Document) : SyntaxTree where
  nodes := document.lay #[]
  root := ⟨(document.lay #[]).size - 1⟩
  ordered := (Document.lay_ordered (by simp [Ordered]) document).1

end Pascal
