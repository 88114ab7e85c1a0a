import Mathlib.Data.Set.Lattice
import Mathlib.Logic.Relation
import Mathlib.Order.CompletePartialOrder
import Pascal.Proofs.Trees

/-!
# Regions of a tree

What is done at a node stays within the nodes below it. Where every node is listed once, the nodes
below two children of a node are different nodes.
-/

namespace Pascal.SyntaxTree

open Relation

variable {tree : SyntaxTree} {n m c c' : NodeId}

/-- A node and those below it. -/
def under (tree : SyntaxTree) (n : NodeId) : Set NodeId :=
  { m | ReflTransGen (fun outer inner => inner ∈ tree.childIds outer) n m }

/-- The nodes below those children of a node that are of certain kinds. -/
def among (tree : SyntaxTree) (n : NodeId) (kinds : NodeKind → Prop) : Set NodeId :=
  { m | ∃ c ∈ tree.childIds n, kinds (tree.kind c) ∧ m ∈ tree.under c }

/-- The nodes below a child, if it is of certain kinds. -/
def part (tree : SyntaxTree) (kinds : NodeKind → Prop) (c : Below n) : Set NodeId :=
  { m | kinds (tree.kind c.1) ∧ m ∈ tree.under c.1 }

/-- The nodes below a node. -/
abbrev inside (tree : SyntaxTree) (n : NodeId) : Set NodeId := tree.among n fun _ => True

/-- Every node is listed once: by one parent, and there in one place. -/
structure ListedOnce (tree : SyntaxTree) : Prop where
  single : tree.OneParent
  once : ∀ n, (tree.childIds n).Nodup

instance (tree : SyntaxTree) : Decidable tree.ListedOnce :=
  decidable_of_iff (tree.OneParent ∧ ∀ i < tree.size, (tree.childIds ⟨i⟩).Nodup) <| by
    rw [← forall_nodup_childIds_iff]
    exact ⟨fun h => ⟨h.1, h.2⟩, fun h => ⟨h.single, h.once⟩⟩

theorem mem_under_self (tree : SyntaxTree) (n : NodeId) : n ∈ tree.under n := ReflTransGen.refl

theorem under_subset (hc : c ∈ tree.childIds n) : tree.under c ⊆ tree.under n :=
  fun _ hm => ReflTransGen.head hc hm

theorem under_subset_inside (hc : c ∈ tree.childIds n) : tree.under c ⊆ tree.inside n :=
  fun _ hm => ⟨c, hc, trivial, hm⟩

theorem among_subset_inside {kinds : NodeKind → Prop} : tree.among n kinds ⊆ tree.inside n :=
  fun _ ⟨c, hc, _, hm⟩ => ⟨c, hc, trivial, hm⟩

theorem iUnion_under_subset : ⋃ c ∈ tree.childIds n, tree.under c ⊆ tree.inside n :=
  Set.iUnion₂_subset fun _ hc => under_subset_inside hc

theorem part_subset {kinds : NodeKind → Prop} (c : Below n) :
    tree.part kinds c ⊆ tree.under c.1 :=
  fun _ hm => hm.2

theorem iUnion_part_subset {kinds : NodeKind → Prop} :
    ⋃ c ∈ tree.children n, tree.part kinds c ⊆ tree.among n kinds :=
  Set.iUnion₂_subset fun c hc _ hm => ⟨c.1, mem_childIds hc, hm⟩

theorem inside_subset_under : tree.inside n ⊆ tree.under n :=
  fun _ ⟨_, hc, _, hm⟩ => under_subset hc hm

theorem le_of_mem_under (h : m ∈ tree.under n) : m.index ≤ n.index := by
  induction h with
  | refl => exact Nat.le_refl _
  | tail _ hc ih => exact Nat.le_trans (Nat.le_of_lt (tree.lt_of_mem_childIds hc)) ih

theorem lt_of_mem_inside (h : m ∈ tree.inside n) : m.index < n.index := by
  obtain ⟨c, hc, -, hm⟩ := h
  exact Nat.lt_of_le_of_lt (le_of_mem_under hm) (tree.lt_of_mem_childIds hc)

theorem not_mem_inside_self (tree : SyntaxTree) (n : NodeId) : n ∉ tree.inside n :=
  fun h => Nat.lt_irrefl _ (lt_of_mem_inside h)

namespace ListedOnce

variable (h : tree.ListedOnce)

include h

/-- Of two nodes above a third, one is above the other. -/
theorem comparable (hm : m ∈ tree.under c) (hm' : m ∈ tree.under c') :
    c' ∈ tree.under c ∨ c ∈ tree.under c' := by
  induction hm generalizing c' with
  | refl => exact .inr hm'
  | @tail outer inner _ listed ih =>
    obtain rfl | ⟨outer', hm', listed'⟩ := ReflTransGen.cases_tail hm'
    · exact .inl (ReflTransGen.tail ‹_› listed)
    · rw [h.single.eq listed listed'] at hm'
      exact ih hm'

/-- No child of a node is below another. -/
theorem not_mem_under (hc : c ∈ tree.childIds n) (hc' : c' ∈ tree.childIds n) (hne : c ≠ c') :
    c' ∉ tree.under c := by
  intro hm
  obtain rfl | ⟨outer, hm, listed⟩ := ReflTransGen.cases_tail hm
  · exact hne rfl
  · rw [h.single.eq hc' listed] at hm
    exact Nat.lt_irrefl _ (Nat.lt_of_le_of_lt (le_of_mem_under hm) (tree.lt_of_mem_childIds hc))

theorem disjoint_under (hc : c ∈ tree.childIds n) (hc' : c' ∈ tree.childIds n) (hne : c ≠ c') :
    Disjoint (tree.under c) (tree.under c') := by
  rw [Set.disjoint_left]
  intro m hm hm'
  obtain above | above := h.comparable hm hm'
  · exact h.not_mem_under hc hc' hne above
  · exact h.not_mem_under hc' hc hne.symm above

theorem disjoint_among {kinds kinds' : NodeKind → Prop} (apart : ∀ kind, kinds kind → ¬kinds' kind) :
    Disjoint (tree.among n kinds) (tree.among n kinds') := by
  rw [Set.disjoint_left]
  rintro m ⟨c, hc, hk, hm⟩ ⟨c', hc', hk', hm'⟩
  refine Set.disjoint_left.1 (h.disjoint_under hc hc' ?_) hm hm'
  rintro rfl
  exact apart _ hk hk'

/-- The children of a node are apart from one another. -/
theorem pairwise_childIds (n : NodeId) :
    (tree.childIds n).Pairwise fun c c' => Disjoint (tree.under c) (tree.under c') :=
  (h.once n).imp_of_mem fun hc hc' hne => h.disjoint_under hc hc' hne

theorem pairwise_children (n : NodeId) :
    (tree.children n).Pairwise fun c c' => Disjoint (tree.under c.1) (tree.under c'.1) := by
  have pairwise := h.pairwise_childIds n
  rwa [← map_val_children, List.pairwise_map] at pairwise

theorem pairwise_part (kinds : NodeKind → Prop) (n : NodeId) :
    (tree.children n).Pairwise fun c c' => Disjoint (tree.part kinds c) (tree.part kinds c') :=
  (h.pairwise_children n).imp fun apart => apart.mono (part_subset _) (part_subset _)

/-- A node is below one child at most. -/
theorem eq_of_mem_under {c c' : Below n} (hc : c ∈ tree.children n) (hc' : c' ∈ tree.children n)
    (hm : m ∈ tree.under c.1) (hm' : m ∈ tree.under c'.1) : c = c' := by
  by_contra hne
  refine Set.disjoint_left.1 (h.disjoint_under (mem_childIds hc) (mem_childIds hc') ?_) hm hm'
  exact fun heq => hne (Subtype.ext heq)

end ListedOnce

end Pascal.SyntaxTree
