import Mathlib.Order.Lattice.Nat
import Pascal.Proofs.Dependencies

/-!
# The layers of a batch

The rounds in which the trees of a batch are placed are layers. A tree stands in the first layer
above everything that it refers to, and the trees of a layer stand as they are given. The rounds end
by themselves: there are no more of them than trees.

## Main results

- `dependencyOrder_layered`: the order of a batch.
-/

namespace Pascal

open Relation

/-! ## References -/

/-- A tree is the first one of a batch whose unit has a name. -/
def FirstNamed (trees : List SyntaxTree) (key : FoldedName) (j : Nat) : Prop :=
  (∃ tree, trees[j]? = some tree ∧ Name.fold tree.unitName = key) ∧
    ∀ k < j, ∀ tree, trees[k]? = some tree → Name.fold tree.unitName ≠ key

/-- A reference anywhere in one tree of a batch leads to another one, or to the tree itself: to the
first one whose unit has the name. -/
def Refers (trees : List SyntaxTree) (i j : Nat) : Prop :=
  ∃ tree, trees[i]? = some tree ∧ ∃ node ∈ tree.nodes, ∃ name,
    node.kind = .unitReference name ∧ FirstNamed trees (Name.fold name) j

section References

variable {trees : List SyntaxTree} {i j : Nat}

theorem findIdx?_eq_some_iff_firstNamed {key : FoldedName} :
    (trees.map fun tree => Name.fold tree.unitName).findIdx? (· == key) = some j ↔
      FirstNamed trees key j := by
  rw [List.findIdx?_eq_some_iff_getElem, FirstNamed]
  simp only [List.length_map, List.getElem_map, beq_iff_eq, List.getElem?_eq_some_iff]
  constructor
  · rintro ⟨hj, hkey, before⟩
    refine ⟨⟨trees[j], ⟨hj, rfl⟩, hkey⟩, ?_⟩
    rintro k hk _ ⟨-, rfl⟩
    simpa using before k hk
  · rintro ⟨⟨_, ⟨hj, rfl⟩, hkey⟩, before⟩
    exact ⟨hj, hkey, fun k hk => by simpa using before k hk _ ⟨hk.trans hj, rfl⟩⟩

theorem needs_iff_refers : Needs (batchDependencies trees) i j ↔ j ≠ i ∧ Refers trees i j := by
  simp only [Needs, mem_batchDependencies, findIdx?_eq_some_iff_firstNamed, Refers]

end References

/-- A circle with at least two members can be reached. -/
def MeetsCircle (r : Nat → Nat → Prop) (i : Nat) : Prop :=
  ∃ w v, v ≠ w ∧ ReflTransGen r i w ∧ TransGen r w v ∧ TransGen r v w

section Circles

variable {r s : Nat → Nat → Prop} {i j : Nat}

/-- Steps from a position to itself can be left out of a way. -/
theorem reflTransGen_of_ne (h : ∀ i j, j ≠ i → r i j → s i j) (reach : ReflTransGen r i j) :
    ReflTransGen s i j := by
  induction reach with
  | refl => exact .refl
  | @tail j k _ step ih =>
    by_cases same : k = j
    · exact same ▸ ih
    · exact ih.tail (h j k same step)

theorem transGen_of_ne (h : ∀ i j, j ≠ i → r i j → s i j) (hne : j ≠ i) (reach : TransGen r i j) :
    TransGen s i j :=
  (reflTransGen_iff_eq_or_transGen.1 (reflTransGen_of_ne h reach.to_reflTransGen)).resolve_left hne

/-- Steps from a position to itself make no circle. -/
theorem tangled_iff_meetsCircle (h : ∀ i j, s i j ↔ j ≠ i ∧ r i j) :
    Tangled s i ↔ MeetsCircle r i := by
  have weaken : ∀ i j, s i j → r i j := fun i j step => ((h i j).1 step).2
  have strengthen : ∀ i j, j ≠ i → r i j → s i j := fun i j hne step => (h i j).2 ⟨hne, step⟩
  constructor
  · rintro ⟨w, reach, circle⟩
    -- The first step of the circle leads to another position, from which the rest leads back.
    obtain ⟨v, step, back⟩ := TransGen.head'_iff.1 circle
    have hne : v ≠ w := ((h w v).1 step).1
    have back : TransGen s v w := (reflTransGen_iff_eq_or_transGen.1 back).resolve_left hne.symm
    exact ⟨w, v, hne, ReflTransGen.mono weaken i w reach, .single (weaken w v step),
      TransGen.mono weaken v w back⟩
  · rintro ⟨w, v, hne, reach, there, back⟩
    exact ⟨w, reflTransGen_of_ne strengthen reach,
      (transGen_of_ne strengthen hne there).trans (transGen_of_ne strengthen hne.symm back)⟩

end Circles

/-! ## Layers -/

/-- Every way from a position passes through at most `k` positions, itself included. -/
def Shallow (r : Nat → Nat → Prop) : Nat → Nat → Prop
  | 0, _ => False
  | k + 1, i => ∀ d, r i d → Shallow r k d

/-- The number of steps of the longest way from a position. -/
noncomputable def layer (r : Nat → Nat → Prop) (i : Nat) : Nat :=
  sInf { k | Shallow r (k + 1) i }

section Depth

variable {r : Nat → Nat → Prop} {k m i : Nat}

theorem Shallow.succ (h : Shallow r k i) : Shallow r (k + 1) i := by
  induction k generalizing i with
  | zero => exact h.elim
  | succ k ih => exact fun d hd => ih (h d hd)

theorem Shallow.mono (h : Shallow r k i) (hle : k ≤ m) : Shallow r m i := by
  induction hle with
  | refl => exact h
  | step _ ih => exact ih.succ

/-- Where every way ends, the layer says how soon. -/
theorem Shallow.iff_layer_lt (h : Shallow r m i) : Shallow r k i ↔ layer r i < k := by
  cases k with
  | zero => exact ⟨False.elim, fun hlt => absurd hlt (Nat.not_lt_zero _)⟩
  | succ k =>
    rw [Nat.lt_succ_iff]
    refine ⟨fun hk => Nat.sInf_le hk, fun hle => ?_⟩
    have least : Shallow r (layer r i + 1) i := Nat.sInf_mem (s := { k | Shallow r (k + 1) i })
      ⟨m, h.succ⟩
    exact least.mono (Nat.succ_le_succ hle)

/-- A position lies in the first layer above all that it leads to. -/
theorem Shallow.layer_le_iff (h : Shallow r m i) :
    layer r i ≤ k ↔ ∀ d, r i d → layer r d < k := by
  have inner : ∀ d, r i d → Shallow r m d := h.succ
  calc layer r i ≤ k ↔ Shallow r (k + 1) i := by rw [h.iff_layer_lt, Nat.lt_succ_iff]
    _ ↔ ∀ d, r i d → layer r d < k := forall₂_congr fun d hd => (inner d hd).iff_layer_lt

end Depth

section Rounds

variable {dependencies : List (List Nat)} {placed : List Nat} {k : Nat}

/-- The positions of the first `k` layers are placed, one layer behind the other, each of them in
ascending order. -/
structure Layered (dependencies : List (List Nat)) (k : Nat) (placed : List Nat) : Prop where
  mem_iff : ∀ i, i ∈ placed ↔ i < dependencies.length ∧ Shallow (Needs dependencies) k i
  sorted : placed.Pairwise fun i j => layer (Needs dependencies) i < layer (Needs dependencies) j ∨
    layer (Needs dependencies) i = layer (Needs dependencies) j ∧ i < j

theorem layered_nil : Layered dependencies 0 [] := ⟨by simp [Shallow], .nil⟩

/-- One round places one layer. -/
theorem Layered.round (h : Layered dependencies k placed)
    (inside : ∀ i d, Needs dependencies i d → d < dependencies.length) :
    Layered dependencies (k + 1) (placed ++ readyTrees dependencies placed) := by
  have ready : ∀ i, i ∈ readyTrees dependencies placed ↔ i < dependencies.length ∧
      ¬Shallow (Needs dependencies) k i ∧ Shallow (Needs dependencies) (k + 1) i := by
    intro i
    rw [mem_readyTrees, h.mem_iff, not_and]
    refine and_congr_right fun hi => and_congr ⟨fun new => new hi, fun new _ => new⟩ ?_
    refine forall₂_congr fun d hd => (h.mem_iff d).trans ?_
    exact and_iff_right (inside i d hd)
  have place : ∀ i ∈ readyTrees dependencies placed, layer (Needs dependencies) i = k := by
    intro i hi
    obtain ⟨-, new, now⟩ := (ready i).1 hi
    rw [now.iff_layer_lt] at new now
    omega
  refine ⟨fun i => ?_, List.pairwise_append.2 ⟨h.sorted, ?_, fun i hi j hj => .inl ?_⟩⟩
  · rw [List.mem_append, h.mem_iff, ready, ← and_or_left]
    refine and_congr_right fun _ => ⟨?_, fun now => ?_⟩
    · rintro (early | ⟨-, now⟩)
      · exact early.succ
      · exact now
    · by_cases early : Shallow (Needs dependencies) k i
      · exact .inl early
      · exact .inr ⟨early, now⟩
  · have ascending : (readyTrees dependencies placed).Pairwise (· < ·) :=
      List.pairwise_lt_range.filter _
    refine ascending.imp_of_mem fun {i j} hi hj hlt => .inr ⟨?_, hlt⟩
    rw [place i hi, place j hj]
  · have early := ((h.mem_iff i).1 hi).2
    rw [place j hj]
    exact early.iff_layer_lt.1 early

/-- To stop where nothing is ready makes no difference. -/
theorem placeTrees_of_ready_eq_nil (h : readyTrees dependencies placed = []) (rounds : Nat) :
    placeTrees dependencies rounds placed = placed := by
  cases rounds with
  | zero => rfl
  | succ rounds => rw [placeTrees, h]

theorem placeTrees_succ (rounds : Nat) :
    placeTrees dependencies (rounds + 1) placed =
      placeTrees dependencies rounds (placed ++ readyTrees dependencies placed) := by
  rw [placeTrees]
  split
  next none => rw [none, List.append_nil, placeTrees_of_ready_eq_nil none]
  next => rfl

/-- A number of rounds places as many layers. -/
theorem Layered.placeTrees (h : Layered dependencies k placed)
    (inside : ∀ i d, Needs dependencies i d → d < dependencies.length) (rounds : Nat) :
    Layered dependencies (k + rounds) (placeTrees dependencies rounds placed) := by
  induction rounds generalizing k placed with
  | zero => exact h
  | succ rounds ih =>
    rw [placeTrees_succ, Nat.add_comm rounds, ← Nat.add_assoc]
    exact ih (h.round inside)

theorem placeTrees_add (rounds more : Nat) :
    placeTrees dependencies (rounds + more) placed =
      placeTrees dependencies more (placeTrees dependencies rounds placed) := by
  induction rounds generalizing placed with
  | zero => rw [Nat.zero_add, placeTrees]
  | succ rounds ih => rw [Nat.add_right_comm, placeTrees_succ, ih, placeTrees_succ]

/-- Rounds beyond the number of trees place nothing. -/
theorem placeTrees_eq_of_le {rounds : Nat} (hle : dependencies.length ≤ rounds) :
    placeTrees dependencies rounds [] = placeTrees dependencies dependencies.length [] := by
  obtain ⟨more, rfl⟩ := Nat.exists_eq_add_of_le hle
  rw [placeTrees_add]
  exact placeTrees_of_ready_eq_nil (placed_nil.readyTrees_eq_nil (Nat.le_add_left ..)) more

end Rounds

/-! ## The order -/

/-- Every tree of a batch has one place in the order. First come the trees from which no circle of
two or more trees can be reached: layer by layer, each in the first layer above the other trees that
it refers to, and in ascending order within a layer, so that all of these stand before it. The others
follow in ascending order. As many rounds as there are trees are enough. -/
theorem dependencyOrder_layered (trees : List SyntaxTree) :
    ∃ first rest, dependencyOrder trees = first ++ rest ∧
      (dependencyOrder trees).Perm (List.range trees.length) ∧
      (∀ rounds, trees.length ≤ rounds →
        placeTrees (batchDependencies trees) rounds [] = first) ∧
      (∀ i, i ∈ first ↔ i < trees.length ∧ ¬MeetsCircle (Refers trees) i) ∧
      (∀ i ∈ first, ∀ d, Refers trees i d → d ≠ i → [d, i].Sublist first) ∧
      (∃ layer : Nat → Nat,
        (∀ i ∈ first, ∀ k, layer i ≤ k ↔ ∀ d, Refers trees i d → d ≠ i → layer d < k) ∧
        first.Pairwise fun i j => layer i < layer j ∨ layer i = layer j ∧ i < j) ∧
      (∀ i, i ∈ rest ↔ i < trees.length ∧ MeetsCircle (Refers trees) i) ∧
      rest.Pairwise (· < ·) := by
  have circles : ∀ i, Tangled (Needs (batchDependencies trees)) i ↔ MeetsCircle (Refers trees) i :=
    fun i => tangled_iff_meetsCircle fun _ _ => needs_iff_refers
  have length := length_batchDependencies trees
  have layered : Layered (batchDependencies trees) (0 + trees.length) (placedFirst trees) :=
    layered_nil.placeTrees (fun i d hd => length.symm ▸ lt_of_needs hd) trees.length
  refine ⟨placedFirst trees, leftOver trees, dependencyOrder_eq trees, dependencyOrder_perm trees,
    fun rounds hle => ?_, fun i => ?_, fun i hi d hd hne => ?_,
    ⟨layer (Needs (batchDependencies trees)), fun i hi k => ?_, layered.sorted⟩, fun i => ?_,
    pairwise_leftOver trees⟩
  · rw [placeTrees_eq_of_le (length.symm ▸ hle), length]
    rfl
  · rw [mem_placedFirst, circles]
  · exact (placed_placedFirst trees).before i hi d (needs_iff_refers.2 ⟨hne, hd⟩)
  · rw [((layered.mem_iff i).1 hi).2.layer_le_iff]
    simp only [needs_iff_refers, and_imp]
    exact forall_congr' fun d => imp.swap
  · rw [mem_leftOver, circles]

end Pascal
