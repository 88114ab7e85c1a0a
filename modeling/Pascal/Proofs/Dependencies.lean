import Mathlib.Data.Fintype.Pigeonhole
import Mathlib.Data.List.Sort
import Mathlib.Logic.Relation
import Pascal.Session.Batch

/-!
# The order of a batch

The trees of a batch are placed in rounds, each after the trees that it depends on. What is left
over when no tree is ready depends on a circle: either it is part of one, or something that it needs
is. Those trees follow as they are given, so that a tree which only needs a circle can come before
it.
-/

namespace Pascal

open Relation

/-- One position depends on another one. -/
def Needs (dependencies : List (List Nat)) (i d : Nat) : Prop :=
  d ≠ i ∧ d ∈ (dependencies[i]?).getD []

/-- A position depends on a circle: it can be reached from it. -/
def Tangled (r : Nat → Nat → Prop) (i : Nat) : Prop :=
  ∃ w, ReflTransGen r i w ∧ TransGen r w w

section Circles

variable {r : Nat → Nat → Prop} {i j : Nat}

theorem Tangled.of_rel (hr : r i j) (h : Tangled r j) : Tangled r i := by
  obtain ⟨w, reach, circle⟩ := h
  exact ⟨w, reach.head hr, circle⟩

/-- Where every way ends there is no circle. -/
theorem not_tangled_of_acc (h : Acc (flip r) i) : ¬Tangled r i := by
  induction h with
  | intro i _ ih =>
    rintro ⟨w, reach, circle⟩
    obtain rfl | ⟨next, hnext, reach⟩ := reach.cases_head
    · -- The circle goes through the position itself, so the next one is tangled as well.
      obtain ⟨next, hnext, back⟩ := TransGen.head'_iff.1 circle
      exact ih next hnext ⟨next, .refl, .tail' back hnext⟩
    · exact ih next hnext ⟨w, reach, circle⟩

/-- Among finitely many positions, each of which leads to another one, there is a circle. -/
theorem tangled_of_forall_exists {S : Nat → Prop} {bound : Nat} (hbound : ∀ i, S i → i < bound)
    (next : ∀ i, S i → ∃ j, S j ∧ r i j) (hi : S i) : Tangled r i := by
  choose! step hstep hr using next
  let walk : Nat → Nat := fun k => step^[k] i
  have inside : ∀ k, S (walk k) := by
    intro k
    induction k with
    | zero => exact hi
    | succ k ih =>
      simp only [walk, Function.iterate_succ_apply']
      exact hstep _ ih
  have forward : ∀ k, r (walk k) (walk (k + 1)) := by
    intro k
    simp only [walk, Function.iterate_succ_apply']
    exact hr _ (inside k)
  have reach : ∀ k m, ReflTransGen r (walk k) (walk (k + m)) := by
    intro k m
    induction m with
    | zero => exact .refl
    | succ m ih => exact ih.tail (forward (k + m))
  -- The walk cannot go on without meeting a position again.
  obtain ⟨a, b, hne, heq⟩ := Finite.exists_ne_map_eq_of_infinite
    fun k => (⟨walk k, hbound _ (inside k)⟩ : Fin bound)
  have same : walk a = walk b := congrArg Fin.val heq
  have circle : ∀ {a b : Nat}, a < b → walk a = walk b → Tangled r i := by
    intro a b hlt same
    have start : ReflTransGen r (walk 0) (walk (0 + a)) := reach 0 a
    rw [Nat.zero_add] at start
    obtain ⟨m, rfl⟩ := Nat.exists_eq_add_of_lt hlt
    refine ⟨walk a, start, TransGen.head' (forward a) ?_⟩
    rw [same, Nat.add_right_comm]
    exact reach (a + 1) m
  obtain hlt | hlt := Nat.lt_or_gt_of_ne hne
  · exact circle hlt same
  · exact circle hlt same.symm

end Circles

/-! ## Rounds -/

section Rounds

variable {dependencies : List (List Nat)} {placed : List Nat} {i d : Nat}

theorem mem_readyTrees : i ∈ readyTrees dependencies placed ↔
    i < dependencies.length ∧ i ∉ placed ∧ ∀ d, Needs dependencies i d → d ∈ placed := by
  simp [readyTrees, Needs, or_iff_not_imp_left]
  grind

/-- What holds of the positions placed so far. -/
structure Placed (dependencies : List (List Nat)) (placed : List Nat) : Prop where
  nodup : placed.Nodup
  bound : ∀ i ∈ placed, i < dependencies.length
  before : ∀ i ∈ placed, ∀ d, Needs dependencies i d → [d, i].Sublist placed
  ends : ∀ i ∈ placed, Acc (flip (Needs dependencies)) i

theorem placed_nil : Placed dependencies [] := ⟨List.nodup_nil, by simp, by simp, by simp⟩

/-- One round. -/
theorem Placed.round (h : Placed dependencies placed) :
    Placed dependencies (placed ++ readyTrees dependencies placed) := by
  have ready := fun {i} => @mem_readyTrees dependencies placed i
  refine ⟨?_, ?_, ?_, ?_⟩
  · refine List.nodup_append.2 ⟨h.nodup, List.nodup_range.filter _, ?_⟩
    rintro i hi _ hnew rfl
    exact (ready.1 hnew).2.1 hi
  · intro i hi
    obtain hi | hi := List.mem_append.1 hi
    · exact h.bound i hi
    · exact (ready.1 hi).1
  · intro i hi d hd
    obtain hi | hi := List.mem_append.1 hi
    · exact (h.before i hi d hd).trans (List.sublist_append_left ..)
    · have first : [d].Sublist placed := List.singleton_sublist.2 ((ready.1 hi).2.2 d hd)
      exact first.append (List.singleton_sublist.2 hi)
  · intro i hi
    obtain hi | hi := List.mem_append.1 hi
    · exact h.ends i hi
    · exact ⟨i, fun d hd => h.ends d ((ready.1 hi).2.2 d hd)⟩

theorem Placed.placeTrees (h : Placed dependencies placed) (rounds : Nat) :
    Placed dependencies (placeTrees dependencies rounds placed) := by
  induction rounds generalizing placed with
  | zero => exact h
  | succ rounds ih =>
    unfold Pascal.placeTrees
    split
    · exact h
    · exact ih h.round

/-- As many rounds as there are trees leave none that is ready. -/
theorem Placed.readyTrees_eq_nil (h : Placed dependencies placed) {rounds : Nat}
    (hrounds : dependencies.length ≤ placed.length + rounds) :
    readyTrees dependencies (Pascal.placeTrees dependencies rounds placed) = [] := by
  induction rounds generalizing placed with
  | zero =>
    have all : placed.Perm (List.range dependencies.length) := by
      refine (h.nodup.subperm fun i hi => ?_).perm_of_length_le (by simpa using hrounds)
      exact List.mem_range.2 (h.bound i hi)
    rw [List.eq_nil_iff_forall_not_mem]
    intro i hi
    obtain ⟨hlt, hnew, -⟩ := mem_readyTrees.1 hi
    exact hnew (all.mem_iff.2 (List.mem_range.2 hlt))
  | succ rounds ih =>
    unfold Pascal.placeTrees
    split
    next hnone => exact hnone
    next hsome =>
      refine ih h.round ?_
      have hpos := List.length_pos_iff.2 hsome
      rw [List.length_append]
      omega

/-- The rounds place exactly the trees that depend on no circle. -/
theorem mem_placeTrees_iff
    (inside : ∀ i d, Needs dependencies i d → d < dependencies.length) :
    i ∈ placeTrees dependencies dependencies.length [] ↔
      i < dependencies.length ∧ ¬Tangled (Needs dependencies) i := by
  have done : Placed dependencies (placeTrees dependencies dependencies.length []) :=
    placed_nil.placeTrees dependencies.length
  have stuck : readyTrees dependencies (placeTrees dependencies dependencies.length []) = [] :=
    placed_nil.readyTrees_eq_nil (Nat.le_add_left ..)
  generalize placeTrees dependencies dependencies.length [] = placed at done stuck ⊢
  refine ⟨fun hi => ⟨done.bound i hi, not_tangled_of_acc (done.ends i hi)⟩, ?_⟩
  rintro ⟨hlt, hfree⟩
  by_contra hi
  -- Everything left over needs something that is left over too.
  refine hfree (tangled_of_forall_exists (S := fun i => i < dependencies.length ∧ i ∉ placed)
    (fun _ h => h.1) ?_ ⟨hlt, hi⟩)
  rintro i ⟨hlt, hi⟩
  have unready : i ∉ readyTrees dependencies placed := by simp [stuck]
  rw [mem_readyTrees] at unready
  push Not at unready
  obtain ⟨d, hd, hleft⟩ := unready hlt hi
  exact ⟨d, ⟨inside i d hd, hleft⟩, hd⟩

end Rounds

/-! ## References between the trees -/

/-- A tree refers to the unit of another one by its name. -/
def SyntaxTree.Mentions (tree other : SyntaxTree) : Prop :=
  ∃ node ∈ tree.nodes, ∃ name, node.kind = .unitReference name ∧
    Name.fold name = Name.fold other.unitName

/-- One tree of a batch refers to the unit of another one by its name. -/
def DependsOn (trees : List SyntaxTree) (u v : Nat) : Prop :=
  v ≠ u ∧ ∃ tree other, trees[u]? = some tree ∧ trees[v]? = some other ∧ tree.Mentions other

section References

variable {trees : List SyntaxTree} {u v : Nat}

theorem length_batchDependencies (trees : List SyntaxTree) :
    (batchDependencies trees).length = trees.length := by
  simp [batchDependencies]

theorem mem_batchDependencies : v ∈ ((batchDependencies trees)[u]?).getD [] ↔
    ∃ tree, trees[u]? = some tree ∧ ∃ node ∈ tree.nodes, ∃ name,
      node.kind = .unitReference name ∧
        (trees.map fun tree => Name.fold tree.unitName).findIdx? (· == Name.fold name) =
          some v := by
  rw [batchDependencies, List.getElem?_map]
  cases trees[u]? with
  | none => simp
  | some tree =>
    simp only [Option.map_some, Option.getD_some, List.mem_filterMap, Array.mem_toList_iff,
      Option.some.injEq, exists_eq_left']
    refine exists_congr fun node => and_congr_right fun _ => ?_
    cases node.kind <;> simp

theorem lt_of_needs (h : Needs (batchDependencies trees) u v) : v < trees.length := by
  obtain ⟨tree, -, node, -, name, -, found⟩ := mem_batchDependencies.1 h.2
  obtain ⟨hlt, -⟩ := List.findIdx?_eq_some_iff_getElem.1 found
  simpa using hlt

theorem fold_unitName_ne (distinct : (trees.map fun tree => Name.fold tree.unitName).Nodup)
    {tree other : SyntaxTree} (hu : trees[u]? = some tree) (hv : trees[v]? = some other)
    (hne : u ≠ v) : Name.fold tree.unitName ≠ Name.fold other.unitName := by
  obtain ⟨hlu, rfl⟩ := List.getElem?_eq_some_iff.1 hu
  obtain ⟨hlv, rfl⟩ := List.getElem?_eq_some_iff.1 hv
  have apart := List.pairwise_iff_getElem.1 (List.pairwise_map.1 distinct)
  obtain hlt | hlt := Nat.lt_or_gt_of_ne hne
  · exact apart u v hlu hlv hlt
  · exact (apart v u hlv hlu hlt).symm

/-- If the units have different names, the dependencies are the references by name. -/
theorem needs_eq_dependsOn (distinct : (trees.map fun tree => Name.fold tree.unitName).Nodup) :
    Needs (batchDependencies trees) = DependsOn trees := by
  have found : ∀ (key : FoldedName) (v : Nat),
      (trees.map fun tree => Name.fold tree.unitName).findIdx? (· == key) = some v ↔
        ∃ other, trees[v]? = some other ∧ key = Name.fold other.unitName := by
    intro key v
    rw [List.findIdx?_eq_some_iff_getElem]
    constructor
    · rintro ⟨hlt, hkey, -⟩
      rw [List.length_map] at hlt
      rw [List.getElem_map] at hkey
      exact ⟨trees[v], List.getElem?_eq_getElem hlt, (eq_of_beq hkey).symm⟩
    · rintro ⟨other, hother, rfl⟩
      obtain ⟨hlt, rfl⟩ := List.getElem?_eq_some_iff.1 hother
      refine ⟨by simpa using hlt, by simp, fun j hj hsame => ?_⟩
      have hlj : j < trees.length := hj.trans hlt
      refine fold_unitName_ne distinct (List.getElem?_eq_getElem hlj) hother (Nat.ne_of_lt hj) ?_
      simpa using hsame
  funext u v
  simp only [Needs, mem_batchDependencies, found, DependsOn, SyntaxTree.Mentions, eq_iff_iff]
  refine and_congr_right fun _ => ?_
  constructor
  · rintro ⟨tree, htree, node, hnode, name, hkind, other, hother, hname⟩
    exact ⟨tree, other, htree, hother, node, hnode, name, hkind, hname⟩
  · rintro ⟨tree, other, htree, hother, node, hnode, name, hkind, hname⟩
    exact ⟨tree, htree, node, hnode, name, hkind, other, hother, hname⟩

end References

/-! ## The order -/

section Order

variable {trees : List SyntaxTree} {u v : Nat}

/-- The positions that depend on no circle, in the order in which they are placed. -/
def placedFirst (trees : List SyntaxTree) : List Nat :=
  placeTrees (batchDependencies trees) trees.length []

/-- The positions that depend on a circle, in ascending order. -/
def leftOver (trees : List SyntaxTree) : List Nat :=
  (List.range trees.length).filter fun i => !(placedFirst trees).contains i

theorem dependencyOrder_eq (trees : List SyntaxTree) :
    dependencyOrder trees = placedFirst trees ++ leftOver trees := rfl

theorem placed_placedFirst (trees : List SyntaxTree) :
    Placed (batchDependencies trees) (placedFirst trees) :=
  placed_nil.placeTrees trees.length

theorem mem_placedFirst : u ∈ placedFirst trees ↔
    u < trees.length ∧ ¬Tangled (Needs (batchDependencies trees)) u := by
  have placed := @mem_placeTrees_iff (batchDependencies trees) u fun i d hd => by
    rw [length_batchDependencies]
    exact lt_of_needs hd
  rwa [length_batchDependencies] at placed

theorem mem_leftOver : u ∈ leftOver trees ↔
    u < trees.length ∧ Tangled (Needs (batchDependencies trees)) u := by
  simp only [leftOver, List.mem_filter, List.mem_range, List.contains_eq_mem, mem_placedFirst,
    Bool.not_eq_true', decide_eq_false_iff_not, not_and, not_not]
  exact and_congr_right fun hlt => ⟨fun h => h hlt, fun h _ => h⟩

theorem pairwise_leftOver (trees : List SyntaxTree) : (leftOver trees).Pairwise (· < ·) :=
  List.pairwise_lt_range.filter _

/-- Every tree is placed once. -/
theorem dependencyOrder_perm (trees : List SyntaxTree) :
    (dependencyOrder trees).Perm (List.range trees.length) := by
  have nodup : (dependencyOrder trees).Nodup := by
    rw [dependencyOrder_eq, List.nodup_append]
    refine ⟨(placed_placedFirst trees).nodup, (pairwise_leftOver trees).imp Nat.ne_of_lt, ?_⟩
    rintro i hi _ hj rfl
    exact (mem_placedFirst.1 hi).2 (mem_leftOver.1 hj).2
  rw [List.perm_ext_iff_of_nodup nodup List.nodup_range]
  intro i
  rw [dependencyOrder_eq, List.mem_append, mem_placedFirst, mem_leftOver, List.mem_range,
    ← and_or_left]
  exact and_iff_left (Classical.em _).symm

/-- A tree that depends on no circle stands before those that depend on it. -/
theorem sublist_of_not_tangled (h : Needs (batchDependencies trees) u v) (hu : u < trees.length)
    (free : ¬Tangled (Needs (batchDependencies trees)) v) :
    [v, u].Sublist (dependencyOrder trees) := by
  have hv : v ∈ placedFirst trees := mem_placedFirst.2 ⟨lt_of_needs h, free⟩
  rw [dependencyOrder_eq]
  by_cases hplaced : u ∈ placedFirst trees
  · exact ((placed_placedFirst trees).before u hplaced v h).trans (List.sublist_append_left ..)
  · have hleft : u ∈ leftOver trees := by
      refine mem_leftOver.2 ⟨hu, ?_⟩
      by_contra hfree
      exact hplaced (mem_placedFirst.2 ⟨hu, hfree⟩)
    exact (List.singleton_sublist.2 hv).append (List.singleton_sublist.2 hleft)

/-- Trees that depend on circles stand as they are given. -/
theorem sublist_of_tangled {i j : Nat} (hlt : i < j) (hj : j < trees.length)
    (first : Tangled (Needs (batchDependencies trees)) i)
    (second : Tangled (Needs (batchDependencies trees)) j) :
    [i, j].Sublist (dependencyOrder trees) := by
  have inside : [i, j] ⊆ leftOver trees := by
    simp [mem_leftOver, first, second, hj, hlt.trans hj]
  have ascending : [i, j].Pairwise (· < ·) := by simpa using hlt
  have nodup : [i, j].Nodup := ascending.imp Nat.ne_of_lt
  have both : [i, j].Sublist (leftOver trees) :=
    List.sublist_of_subperm_of_pairwise (nodup.subperm inside) ascending (pairwise_leftOver trees)
  rw [dependencyOrder_eq]
  exact both.trans (List.sublist_append_right ..)

end Order

end Pascal
