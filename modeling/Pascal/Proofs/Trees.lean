import Mathlib.Data.List.Basic
import Pascal.Tree.Basic

/-!
# Trees in which each node has one parent

A table of nodes may list a node as the child of several others. The parent of a node is then the
last one that lists it. Where every node is listed by one node only, the parent is that node, and the
nodes around a child are its parent and the nodes around its parent.
-/

namespace Pascal

/-! ## Parents -/

section Parents

variable (parents : Array (Option NodeId)) (k : Nat)

/-- Enters a node as the parent of its children. -/
def enterChildren (parent : NodeId) (children : List NodeId) : Array (Option NodeId) :=
  children.foldl (fun parents child => parents.setIfInBounds child.index (some parent)) parents

theorem size_enterChildren (parent : NodeId) (children : List NodeId) :
    (enterChildren parents parent children).size = parents.size := by
  induction children generalizing parents with
  | nil => rfl
  | cons child rest ih => exact (ih _).trans Array.size_setIfInBounds

theorem getElem?_enterChildren (parent : NodeId) (children : List NodeId) (hk : k < parents.size) :
    (enterChildren parents parent children)[k]? =
      if ⟨k⟩ ∈ children then some (some parent) else parents[k]? := by
  induction children generalizing parents with
  | nil => rfl
  | cons child rest ih =>
    have step := ih (parents.setIfInBounds child.index (some parent)) (by simpa using hk)
    refine Eq.trans step ?_
    simp only [List.mem_cons, Array.getElem?_setIfInBounds]
    by_cases hc : child.index = k
    · subst hc
      simp [hk]
    · have hne : (⟨k⟩ : NodeId) ≠ child := fun h => hc (h ▸ rfl)
      simp [hc, hne]

/-- A parent that is entered is one of the nodes that list the child, and one is entered if there is
such a node. -/
theorem getElem?_foldl_enterChildren (nodes : List (Node × Nat)) (hk : k < parents.size) :
    let entered := nodes.foldl (fun parents (node, i) => enterChildren parents ⟨i⟩ node.children)
      parents
    (∃ entry ∈ nodes, ⟨k⟩ ∈ entry.1.children ∧ entered[k]? = some (some ⟨entry.2⟩)) ∨
      (∀ entry ∈ nodes, ⟨k⟩ ∉ entry.1.children) ∧ entered[k]? = parents[k]? := by
  induction nodes generalizing parents with
  | nil => exact .inr ⟨by simp, rfl⟩
  | cons entry rest ih =>
    obtain ⟨node, i⟩ := entry
    have hsize := size_enterChildren parents ⟨i⟩ node.children
    have first := getElem?_enterChildren parents k ⟨i⟩ node.children hk
    simp only [List.foldl_cons]
    obtain ⟨entry, hmem, hlist, heq⟩ | ⟨hnone, heq⟩ :=
      ih (enterChildren parents ⟨i⟩ node.children) (hsize.symm ▸ hk)
    · exact .inl ⟨entry, List.mem_cons_of_mem _ hmem, hlist, heq⟩
    · by_cases hin : (⟨k⟩ : NodeId) ∈ node.children
      · rw [if_pos hin] at first
        exact .inl ⟨(node, i), List.mem_cons_self, hin, heq.trans first⟩
      · rw [if_neg hin] at first
        refine .inr ⟨?_, heq.trans first⟩
        simpa using ⟨hin, fun node i h => hnone (node, i) h⟩

end Parents

namespace SyntaxTree

variable {tree : SyntaxTree} {n m child : NodeId}

theorem val_child? (tree : SyntaxTree) (n : NodeId) (index : Nat) :
    (tree.child? n index).map (·.1) = (tree.childIds n)[index]? := by
  rw [child?, ← List.getElem?_map, map_val_children]

theorem mem_children_of_child? {index : Nat} {b : Below n} (h : tree.child? n index = some b) :
    b ∈ tree.children n := List.mem_of_getElem? h

theorem mem_childIds {b : Below n} (h : b ∈ tree.children n) : b.1 ∈ tree.childIds n := by
  rw [← map_val_children]
  exact List.mem_map_of_mem h

theorem lt_size_of_mem_childIds (h : child ∈ tree.childIds n) : n.index < tree.size := by
  by_contra hn
  have hn : ¬n.index < tree.nodes.size := hn
  simp only [childIds, node, Array.getD, dif_neg hn] at h
  cases h

theorem forall_nodup_childIds_iff : (∀ n, (tree.childIds n).Nodup) ↔
    ∀ i < tree.size, (tree.childIds ⟨i⟩).Nodup := by
  refine ⟨fun h i _ => h ⟨i⟩, fun h n => ?_⟩
  by_cases hn : n.index < tree.size
  · exact h n.index hn
  · have childless : tree.childIds n = [] := by
      rw [List.eq_nil_iff_forall_not_mem]
      exact fun child hc => hn (lt_size_of_mem_childIds hc)
    rw [childless]
    exact List.nodup_nil

/-- Whoever lists a node is its parent. -/
def OneParent (tree : SyntaxTree) : Prop :=
  ∀ n child, child ∈ tree.childIds n → tree.parent? child = some n

instance (tree : SyntaxTree) : Decidable tree.OneParent :=
  decidable_of_iff (∀ i < tree.size, ∀ child ∈ tree.childIds ⟨i⟩, tree.parent? child = some ⟨i⟩)
    ⟨fun h n child hc => h n.index (lt_size_of_mem_childIds hc) child hc,
      fun h i _ child hc => h ⟨i⟩ child hc⟩

theorem OneParent.eq (h : tree.OneParent) (hn : child ∈ tree.childIds n)
    (hm : child ∈ tree.childIds m) : m = n :=
  Option.some.inj ((h m child hm).symm.trans (h n child hn))

theorem OneParent.forall_parent {P : NodeId → Prop} (h : tree.OneParent)
    (hm : tree.parent? child = some m) (holds : P m) : ∀ p, child ∈ tree.childIds p → P p := by
  intro p hp
  cases (h p child hp).symm.trans hm
  exact holds

/-- Each node has one parent if no two nodes list the same child. -/
theorem oneParent_iff :
    tree.OneParent ↔ ∀ n m child, child ∈ tree.childIds n → child ∈ tree.childIds m → m = n := by
  refine ⟨fun h n m child hn hm => h.eq hn hm, fun unique n child hc => ?_⟩
  have hn : n.index < tree.nodes.size := lt_size_of_mem_childIds hc
  have hk : child.index < (Array.replicate tree.nodes.size (none : Option NodeId)).size := by
    have := tree.lt_of_mem_childIds hc
    simpa using Nat.lt_trans this hn
  have lists : ∀ i, (hi : i < tree.nodes.size) → tree.childIds ⟨i⟩ = tree.nodes[i].children := by
    intro i hi
    simp [childIds, node, Array.getD, hi]
  simp only [parent?, tree.parents_eq, parentsOf, ← Array.foldl_toList, Array.getD_eq_getD_getElem?]
  obtain ⟨⟨parent, i⟩, hmem, hlist, heq⟩ | ⟨hnone, -⟩ :=
    getElem?_foldl_enterChildren _ child.index tree.nodes.zipIdx.toList hk
  · obtain ⟨hi, hparent⟩ := Array.mem_zipIdx_iff_getElem?.1 (Array.mem_toList_iff.1 hmem)
      |> Array.getElem?_eq_some_iff.1
    have hsame := unique n ⟨i⟩ child hc (by
      rw [lists i hi, hparent]
      exact hlist)
    rw [← hsame]
    exact congrArg (·.getD none) heq
  · refine absurd ?_ (hnone (tree.nodes[n.index], n.index) ?_)
    · rw [← lists n.index hn]
      exact hc
    · rw [Array.mem_toList_iff, Array.mem_zipIdx_iff_getElem?]
      exact Array.getElem?_eq_getElem hn

/-- The nodes around a child are its parent and the nodes around its parent. -/
theorem OneParent.ancestors (h : tree.OneParent) (hc : child ∈ tree.childIds n) :
    tree.ancestors child = n :: tree.ancestors n := by
  rw [SyntaxTree.ancestors, h n child hc]
  exact if_pos ⟨tree.lt_of_mem_childIds hc, lt_size_of_mem_childIds hc⟩

end SyntaxTree

end Pascal
