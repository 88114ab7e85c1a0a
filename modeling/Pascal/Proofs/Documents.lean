import Mathlib.Data.List.Nodup
import Mathlib.Data.List.Pairwise
import Pascal.Proofs.Trees
import Pascal.Tree.Document

/-!
# Documents and their tables

Laying a document out as a table loses nothing: the document can be read back from the table. The
nodes of a document stand in the table one after the other in post-order, so that a subtree is a
stretch of the table that ends with its root, and every node but the root is listed as a child once.

## Main results

- `SyntaxTree.ofDocument_faithful`: the tree of a document.
-/

namespace Pascal

/-- A number of identities, from a position on. -/
def span (low count : Nat) : List NodeId := (List.range' low count).map NodeId.mk

theorem span_add (low count count' : Nat) :
    span low (count + count') = span low count ++ span (low + count) count' := by
  simp [span, ← List.range'_append_1]

theorem span_succ (low count : Nat) : span low (count + 1) = span low count ++ [⟨low + count⟩] :=
  span_add low count 1

theorem span_pred_append (low : Nat) {count : Nat} (h : 0 < count) :
    span low (count - 1) ++ [⟨low + count - 1⟩] = span low count := by
  obtain ⟨k, rfl⟩ : ∃ k, count = k + 1 := ⟨count - 1, by omega⟩
  exact (span_succ low k).symm

theorem mem_span {low count : Nat} {n : NodeId} :
    n ∈ span low count ↔ low ≤ n.index ∧ n.index < low + count := by
  obtain ⟨i⟩ := n
  simp [span]

theorem nodup_span (low count : Nat) : (span low count).Nodup :=
  (List.nodup_range').map fun _ _ h => congrArg NodeId.index h

/-! ## Reading a tree back -/

namespace SyntaxTree

variable {tree : SyntaxTree} {n : NodeId}

/-- The document below a node. -/
def document (tree : SyntaxTree) (n : NodeId) : Document :=
  .node (tree.kind n) (tree.position n) ((tree.children n).map fun child => tree.document child.1)
  termination_by n.index
  decreasing_by exact child.2

theorem document_eq (tree : SyntaxTree) (n : NodeId) : tree.document n =
    .node (tree.kind n) (tree.position n) ((tree.childIds n).map tree.document) := by
  rw [document, ← map_val_children, List.map_map]
  rfl

/-- The nodes below a node, the node itself last and its children one after the other before it. -/
def postorder (tree : SyntaxTree) (n : NodeId) : List NodeId :=
  ((tree.children n).flatMap fun child => tree.postorder child.1) ++ [n]
  termination_by n.index
  decreasing_by exact child.2

theorem postorder_eq (tree : SyntaxTree) (n : NodeId) :
    tree.postorder n = (tree.childIds n).flatMap tree.postorder ++ [n] := by
  rw [postorder, ← map_val_children, List.flatMap_map]

end SyntaxTree

/-! ## Tables that hold documents -/

namespace Document

mutual
/-- The number of nodes of a document. -/
def count : Document → Nat
  | node _ _ children => countAll children + 1
/-- The number of nodes of several documents. -/
def countAll : List Document → Nat
  | [] => 0
  | document :: rest => count document + countAll rest
end

theorem count_pos (document : Document) : 0 < document.count := by
  cases document
  simp [count]

/-- The roots of documents that stand one after the other from a position on. -/
def roots (low : Nat) : List Document → List NodeId
  | [] => []
  | document :: rest => ⟨low + document.count - 1⟩ :: roots (low + document.count) rest

mutual
/-- A table holds a document from a position on: first its children, one after the other, then its
root. -/
def Held (nodes : Array Node) (low : Nat) : Document → Prop
  | node kind position children => HeldAll nodes low children ∧
    nodes[low + countAll children]? = some { kind, position, children := roots low children }
/-- A table holds several documents, one after the other, from a position on. -/
def HeldAll (nodes : Array Node) (low : Nat) : List Document → Prop
  | [] => True
  | document :: rest => Held nodes low document ∧ HeldAll nodes (low + document.count) rest
end

/-! ### Laying out -/

section Laying

mutual
theorem size_lay (nodes : Array Node) :
    (document : Document) → (lay nodes document).size = nodes.size + document.count
  | node kind position children => by
    have inner := (layAll_eq nodes children).1
    simp only [lay, Array.size_push, count, inner]
    omega
/-- Laying out documents gives their roots, and each node a place of its own. -/
theorem layAll_eq (nodes : Array Node) :
    (documents : List Document) → (layAll nodes documents).2.size = nodes.size + countAll documents ∧
      (layAll nodes documents).1 = roots nodes.size documents
  | [] => by simp [layAll, countAll, roots]
  | document :: rest => by
    have first := size_lay nodes document
    obtain ⟨size, later⟩ := layAll_eq (lay nodes document) rest
    rw [first] at size later
    simp only [layAll, countAll, roots, size, later, first]
    exact ⟨by omega, trivial⟩
end

mutual
/-- What was in the table stays where it is. -/
theorem getElem?_lay {nodes : Array Node} {i : Nat} (hi : i < nodes.size) :
    (document : Document) → (lay nodes document)[i]? = nodes[i]?
  | node kind position children => by
    have inner := getElem?_layAll hi children
    have bound : i < (layAll nodes children).2.size := by
      rw [(layAll_eq nodes children).1]
      omega
    simp only [lay]
    rw [Array.getElem?_push_lt bound, ← inner, Array.getElem?_eq_getElem bound]
theorem getElem?_layAll {nodes : Array Node} {i : Nat} (hi : i < nodes.size) :
    (documents : List Document) → (layAll nodes documents).2[i]? = nodes[i]?
  | [] => rfl
  | document :: rest => by
    have grown : i < (lay nodes document).size := by
      rw [size_lay]
      omega
    exact (getElem?_layAll grown rest).trans (getElem?_lay hi document)
end

mutual
/-- A table that says the same at the places of a document holds it as well. -/
theorem Held.congr {nodes nodes' : Array Node} {low : Nat} :
    {document : Document} → Held nodes low document →
      (∀ i < low + document.count, nodes'[i]? = nodes[i]?) → Held nodes' low document
  | node kind position children, ⟨inner, root⟩, same => by
    simp only [count] at same
    exact ⟨inner.congr fun i hi => same i (by omega), (same _ (by omega)).trans root⟩
theorem HeldAll.congr {nodes nodes' : Array Node} {low : Nat} :
    {documents : List Document} → HeldAll nodes low documents →
      (∀ i < low + countAll documents, nodes'[i]? = nodes[i]?) → HeldAll nodes' low documents
  | [], _, _ => trivial
  | document :: rest, ⟨first, later⟩, same => by
    simp only [countAll] at same
    exact ⟨first.congr fun i hi => same i (by omega), later.congr fun i hi => same i (by omega)⟩
end

mutual
/-- Laying out a document makes the table hold it. -/
theorem held_lay (nodes : Array Node) :
    (document : Document) → Held (lay nodes document) nodes.size document
  | node kind position children => by
    obtain ⟨size, ids⟩ := layAll_eq nodes children
    have inner := heldAll_layAll nodes children
    simp only [lay, Held, ids]
    refine ⟨inner.congr fun i hi => ?_, ?_⟩
    · have bound : i < (layAll nodes children).2.size := by omega
      rw [Array.getElem?_push_lt bound, Array.getElem?_eq_getElem bound]
    · rw [← size, Array.getElem?_push_size]
theorem heldAll_layAll (nodes : Array Node) :
    (documents : List Document) → HeldAll (layAll nodes documents).2 nodes.size documents
  | [] => trivial
  | document :: rest => by
    have size := size_lay nodes document
    have later := heldAll_layAll (lay nodes document) rest
    rw [size] at later
    refine ⟨(held_lay nodes document).congr fun i hi => ?_, later⟩
    exact getElem?_layAll (by omega) rest
end

end Laying

/-! ### What a table looks like that holds a document -/

section Trees

variable {tree : SyntaxTree} {low : Nat}

theorem node_of_getElem? {i : Nat} {entry : Node} (h : tree.nodes[i]? = some entry) :
    tree.node ⟨i⟩ = entry := by
  simp [SyntaxTree.node, Array.getD_eq_getD_getElem?, h]

/-- The root of a document that is held. -/
theorem Held.root {kind : NodeKind} {position : Position} {children : List Document}
    (h : Held tree.nodes low (node kind position children)) :
    let root : NodeId := ⟨low + countAll children⟩
    tree.kind root = kind ∧ tree.position root = position ∧
      tree.childIds root = roots low children := by
  have entry := node_of_getElem? h.2
  simp [SyntaxTree.kind, SyntaxTree.position, SyntaxTree.childIds, entry]

mutual
/-- A document that is held can be read back from its root. -/
theorem Held.document {low : Nat} : {document : Document} → Held tree.nodes low document →
    tree.document ⟨low + document.count - 1⟩ = document
  | node kind position children, h => by
    obtain ⟨hk, hp, hc⟩ := h.root
    have inner := HeldAll.document h.1
    simp only [count, Nat.add_succ_sub_one]
    rw [SyntaxTree.document_eq, hk, hp, hc, inner]
theorem HeldAll.document {low : Nat} : {documents : List Document} →
    HeldAll tree.nodes low documents → (roots low documents).map tree.document = documents
  | [], _ => rfl
  | document :: rest, ⟨first, later⟩ => by
    rw [roots, List.map_cons, Held.document first, HeldAll.document later]
end

mutual
/-- The nodes below the root of a document that is held are the places where it is held, in order. -/
theorem Held.postorder {low : Nat} : {document : Document} → Held tree.nodes low document →
    tree.postorder ⟨low + document.count - 1⟩ = span low document.count
  | node kind position children, h => by
    obtain ⟨-, -, hc⟩ := h.root
    have inner := HeldAll.postorder h.1
    simp only [count, Nat.add_succ_sub_one]
    rw [SyntaxTree.postorder_eq, hc, inner, span_succ]
theorem HeldAll.postorder {low : Nat} : {documents : List Document} →
    HeldAll tree.nodes low documents →
      (roots low documents).flatMap tree.postorder = span low (countAll documents)
  | [], _ => rfl
  | document :: rest, ⟨first, later⟩ => by
    rw [roots, List.flatMap_cons, Held.postorder first, HeldAll.postorder later, countAll, span_add]
end

mutual
/-- Every place where a document is held is the root of a document that is held. -/
theorem Held.exists_held {nodes : Array Node} {low i : Nat} : {document : Document} →
    Held nodes low document → low ≤ i → i < low + document.count →
      ∃ start inner, Held nodes start inner ∧ start + inner.count = i + 1
  | node kind position children, h, hlow, hi => by
    simp only [count] at hi
    by_cases last : i = low + countAll children
    · exact ⟨low, _, h, by simp only [count]; omega⟩
    · exact HeldAll.exists_held h.1 hlow (by omega)
theorem HeldAll.exists_held {nodes : Array Node} {low i : Nat} : {documents : List Document} →
    HeldAll nodes low documents → low ≤ i → i < low + countAll documents →
      ∃ start inner, Held nodes start inner ∧ start + inner.count = i + 1
  | [], _, hlow, hi => by
    simp only [countAll] at hi
    omega
  | document :: rest, ⟨first, later⟩, hlow, hi => by
    simp only [countAll] at hi
    by_cases early : i < low + document.count
    · exact Held.exists_held first hlow early
    · exact HeldAll.exists_held later (by omega) (by omega)
end

mutual
/-- The nodes of a document that is held list, all together, each of them but the root once. -/
theorem Held.listed {low : Nat} : {document : Document} → Held tree.nodes low document →
    ((span low document.count).flatMap tree.childIds).Perm (span low (document.count - 1))
  | node kind position children, h => by
    obtain ⟨-, -, hc⟩ := h.root
    have inner := HeldAll.listed h.1
    simpa [count, span_succ, hc] using inner
theorem HeldAll.listed {low : Nat} : {documents : List Document} →
    HeldAll tree.nodes low documents →
      ((span low (countAll documents)).flatMap tree.childIds ++ roots low documents).Perm
        (span low (countAll documents))
  | [], _ => by simp [countAll, span, roots]
  | document :: rest, ⟨first, later⟩ => by
    have inside := Held.listed first
    have others := HeldAll.listed later
    -- Behind what is listed inside the first document goes its root.
    have together := (inside.append_right [⟨low + document.count - 1⟩]).append others
    rw [span_pred_append low document.count_pos] at together
    rw [countAll, span_add, List.flatMap_append, roots, List.append_assoc]
    refine (List.perm_middle.append_left _).trans ?_
    rwa [List.append_cons]
end

end Trees

end Document

/-! ## The tree of a document -/

namespace SyntaxTree

variable {tree : SyntaxTree} {n : NodeId}

/-- A node that is not listed has no parent. -/
theorem parent?_eq_none (hn : n.index < tree.size) (unlisted : ∀ m, n ∉ tree.childIds m) :
    tree.parent? n = none := by
  have bound : n.index < (Array.replicate tree.nodes.size (none : Option NodeId)).size := by
    rwa [Array.size_replicate]
  simp only [parent?, tree.parents_eq, parentsOf, ← Array.foldl_toList, Array.getD_eq_getD_getElem?]
  obtain ⟨⟨parent, i⟩, hmem, hlist, -⟩ | ⟨-, heq⟩ :=
    getElem?_foldl_enterChildren _ n.index tree.nodes.zipIdx.toList bound
  · have hparent := Array.mem_zipIdx_iff_getElem?.1 (Array.mem_toList_iff.1 hmem)
    have listed : tree.childIds ⟨i⟩ = parent.children :=
      congrArg Node.children (Document.node_of_getElem? hparent)
    exact absurd (listed ▸ hlist) (unlisted ⟨i⟩)
  · have empty : (Array.replicate tree.nodes.size (none : Option NodeId))[n.index]? = some none := by
      rw [Array.getElem?_replicate]
      exact if_pos hn
    exact congrArg (·.getD none) (heq.trans empty)

theorem mem_span_of_mem_childIds {child : NodeId} (h : child ∈ tree.childIds n) :
    n ∈ span 0 tree.size :=
  mem_span.2 ⟨Nat.zero_le _, by simpa using lt_size_of_mem_childIds h⟩

section OfDocument

variable (document : Document)

theorem held_ofDocument : document.Held (ofDocument document).nodes 0 :=
  Document.held_lay #[] document

theorem size_ofDocument : (ofDocument document).size = document.count := by
  simp [size, ofDocument, Document.size_lay]

theorem root_ofDocument : (ofDocument document).root = ⟨0 + document.count - 1⟩ := by
  simp [ofDocument, Document.size_lay]

theorem index_root_ofDocument : (ofDocument document).root.index + 1 = document.count := by
  have := document.count_pos
  simp only [root_ofDocument]
  omega

/-- All nodes together list each node but the root once. -/
theorem listed_ofDocument :
    let tree := ofDocument document
    ((span 0 tree.size).flatMap tree.childIds).Perm (span 0 (tree.size - 1)) := by
  have listed := (held_ofDocument document).listed
  rwa [← size_ofDocument] at listed

/-- No node of the tree of a document lists a child twice, and no two nodes list the same one. -/
theorem nodup_childIds_ofDocument : let tree := ofDocument document
    (∀ n, (tree.childIds n).Nodup) ∧
      ∀ n m child, child ∈ tree.childIds n → child ∈ tree.childIds m → m = n := by
  intro tree
  have distinct := (listed_ofDocument document).nodup_iff.2 (nodup_span _ _)
  obtain ⟨single, apart⟩ := List.nodup_flatMap.1 distinct
  refine ⟨fun n => ?_, fun n m child hn hm => ?_⟩
  · cases hc : tree.childIds n with
    | nil => exact List.nodup_nil
    | cons child rest =>
      have first : child ∈ tree.childIds n := hc ▸ List.mem_cons_self
      exact hc ▸ single n (mem_span_of_mem_childIds first)
  · by_contra hne
    have symmetric : Std.Symm (Function.onFun List.Disjoint tree.childIds) :=
      ⟨fun _ _ h _ hb ha => h ha hb⟩
    exact apart.forall (mem_span_of_mem_childIds hm) (mem_span_of_mem_childIds hn) hne hm hn

/-- Every node but the root is listed. -/
theorem exists_parent_ofDocument {n : NodeId} (hn : n.index < (ofDocument document).size)
    (hroot : n ≠ (ofDocument document).root) : ∃ p, n ∈ (ofDocument document).childIds p := by
  have inner : n ∈ span 0 ((ofDocument document).size - 1) := by
    refine mem_span.2 ⟨Nat.zero_le _, ?_⟩
    have other : n.index ≠ (ofDocument document).root.index := fun h => hroot (congrArg NodeId.mk h)
    have last := index_root_ofDocument document
    rw [size_ofDocument] at hn ⊢
    omega
  obtain ⟨p, -, hp⟩ := List.mem_flatMap.1 ((listed_ofDocument document).mem_iff.2 inner)
  exact ⟨p, hp⟩

theorem root_not_mem_childIds_ofDocument (p : NodeId) :
    (ofDocument document).root ∉ (ofDocument document).childIds p := by
  intro h
  have listed : (ofDocument document).root ∈
      (span 0 (ofDocument document).size).flatMap (ofDocument document).childIds :=
    List.mem_flatMap.2 ⟨p, mem_span_of_mem_childIds h, h⟩
  have inner := mem_span.1 ((listed_ofDocument document).mem_iff.1 listed)
  have last := index_root_ofDocument document
  rw [size_ofDocument] at inner
  omega

end OfDocument

/-- The tree of a document loses nothing of it. Reading it back from the root gives the document.
Its nodes are numbered in post-order: there are as many as in the document, the root is the last one,
and the nodes below a node are the ones up to it, as many as there are. Every node but the root has a
parent, which is the only node that lists it and does so once; the root has none. -/
theorem ofDocument_faithful (document : Document) :
    let tree := ofDocument document
    tree.document tree.root = document ∧
    tree.size = document.count ∧ tree.root.index + 1 = tree.size ∧
    (∀ n, n.index < tree.size → let below := (tree.document n).count
      below ≤ n.index + 1 ∧ tree.postorder n = span (n.index + 1 - below) below) ∧
    (∀ n, n.index < tree.size → n ≠ tree.root → ∃ p, tree.parent? n = some p ∧
      (tree.childIds p).count n = 1 ∧ ∀ q, n ∈ tree.childIds q → q = p) ∧
    tree.parent? tree.root = none ∧ ∀ q, tree.root ∉ tree.childIds q := by
  intro tree
  have held := held_ofDocument document
  have size : tree.size = document.count := size_ofDocument document
  have last : tree.root.index + 1 = tree.size := (index_root_ofDocument document).trans size.symm
  obtain ⟨once, unique⟩ := nodup_childIds_ofDocument document
  have unlisted := root_not_mem_childIds_ofDocument document
  refine ⟨?_, size, last, fun n hn => ?_, fun n hn hroot => ?_, ?_, unlisted⟩
  · exact (root_ofDocument document).symm ▸ held.document
  · obtain ⟨low, inner, held, stretch⟩ := held.exists_held (Nat.zero_le n.index) (by omega)
    have place : n = ⟨low + inner.count - 1⟩ := by
      rw [stretch]
      rfl
    have start : n.index + 1 - inner.count = low := by omega
    have below : tree.document n = inner := place ▸ held.document
    simp only [below, start]
    exact ⟨by omega, place ▸ held.postorder⟩
  · obtain ⟨p, hp⟩ := exists_parent_ofDocument document hn hroot
    have single := oneParent_iff.2 unique
    exact ⟨p, single p n hp, List.count_eq_one_of_mem (once p) hp, fun q hq => unique p q n hp hq⟩
  · exact parent?_eq_none (by omega) unlisted

/-- The document of `(X) + 1`, at the beginning of the third line. -/
def sumDocument : Document :=
  .node (.binaryExpression .add) ⟨3, 5⟩
    [.node .parenthesized ⟨3, 1⟩ [.node (.nameReference "X") ⟨3, 2⟩ []],
      .node (.integerLiteral 1) ⟨3, 7⟩ []]

/-- The four nodes of the sum are numbered in post-order, and the parentheses have one parent. -/
theorem ofDocument_sumDocument : let tree := ofDocument sumDocument
    tree.document tree.root = sumDocument ∧ tree.size = 4 ∧
    tree.postorder tree.root = [⟨0⟩, ⟨1⟩, ⟨2⟩, ⟨3⟩] ∧
    ∃ p, tree.parent? ⟨1⟩ = some p ∧ (tree.childIds p).count ⟨1⟩ = 1 := by
  intro tree
  obtain ⟨back, size, -, below, listed, -⟩ := ofDocument_faithful sumDocument
  have four : tree.size = 4 := size.trans (by decide)
  have root : tree.root = ⟨3⟩ := root_ofDocument sumDocument
  refine ⟨back, four, ?_, ?_⟩
  · obtain ⟨-, stretch⟩ := below tree.root (by rw [four, root]; decide)
    rw [stretch, back, root]
    rfl
  · obtain ⟨p, parent, once, -⟩ := listed ⟨1⟩ (by rw [four]; decide) (by rw [root]; decide)
    exact ⟨p, parent, once⟩

end SyntaxTree

end Pascal
