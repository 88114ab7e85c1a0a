import Mathlib.Data.List.Nodup
import Mathlib.Logic.Relation
import Pascal.Proofs.Tables

/-!
# Nested scopes

What is nested in a scope is listed by a loop over the scopes that wait for a visit: the first of
them is visited, and its children wait behind the others. A child has a larger identity than its
parent, so the loop ends. In a tree that was made by creating, freezing and taking out scopes, the
loop meets every nested scope once, and what is nested in a frozen scope is frozen.

## Main results

- `ScopeTree.frozen_downwards`: the shape of every tree, and that freezing reaches what is nested.
-/

namespace Pascal.ScopeTree

open Relation

/-- A scope has another one as its child. -/
def Holds (tree : ScopeTree) (p c : ScopeId) : Prop := c ∈ (tree.get p).children

/-- Children come after their parents. -/
def Ascending (tree : ScopeTree) : Prop :=
  ∀ p c, tree.Holds p c → p.index < c.index ∧ c.index < tree.size

/-- The loop over the scopes that wait for a visit ends, with these visits. -/
inductive Visits (tree : ScopeTree) : List ScopeId → List ScopeId → Prop
  | done : Visits tree [] []
  | next {s : ScopeId} {pending out : List ScopeId}
    (rest : Visits tree (pending ++ (tree.get s).children) out) :
    Visits tree (s :: pending) (s :: out)

variable {tree : ScopeTree} {s t p c : ScopeId} {pending out : List ScopeId}

/-! ## The loop ends -/

/-- All scopes of a generation are visited before their children are. -/
theorem Visits.append (current : List ScopeId)
    (h : tree.Visits (pending ++ current.flatMap fun s => (tree.get s).children) out) :
    tree.Visits (current ++ pending) (current ++ out) := by
  induction current generalizing pending with
  | nil => simpa using h
  | cons s rest ih =>
    rw [List.flatMap_cons, ← List.append_assoc] at h
    have visits := ih h
    rw [← List.append_assoc] at visits
    exact .next visits

theorem Ascending.visits_generations (h : tree.Ascending) {rounds : Nat} {current : List ScopeId}
    (hc : ∀ t ∈ current, t.index < tree.size ∧ tree.size < t.index + rounds) :
    tree.Visits current (tree.generations rounds current) := by
  induction rounds generalizing current with
  | zero =>
    cases current with
    | nil => exact .done
    | cons s rest =>
      have := hc s List.mem_cons_self
      omega
  | succ rounds ih =>
    cases current with
    | nil => exact .done
    | cons s rest =>
      have visits : tree.Visits (s :: rest ++ []) _ := .append (s :: rest) (ih fun c hc' => by
        obtain ⟨p, hp, hchild⟩ := List.mem_flatMap.1 hc'
        have bound := hc p hp
        have grows := h p c hchild
        omega)
      rwa [List.append_nil] at visits

/-- The subtree is what the loop visits from the scope on. -/
theorem Ascending.visits_subtree (h : tree.Ascending) (s : ScopeId) :
    tree.Visits [s] (tree.subtree s) := by
  have visits : tree.Visits ([s] ++ []) _ := .append [s] (h.visits_generations fun c hc => by
    have grows := h s c (by simpa [Holds] using hc)
    exact ⟨grows.2, (by omega : tree.size < c.index + tree.size)⟩)
  exact visits

/-! ## What the loop visits -/

theorem Visits.mem_iff (h : tree.Visits pending out) :
    t ∈ out ↔ ∃ s ∈ pending, ReflTransGen tree.Holds s t := by
  induction h with
  | done => simp
  | @next s pending out _ ih =>
    have below : ReflTransGen tree.Holds s t ↔
        t = s ∨ ∃ c ∈ (tree.get s).children, ReflTransGen tree.Holds c t := by
      rw [ReflTransGen.cases_head_iff, eq_comm]
      rfl
    simp only [List.mem_cons, ih, List.mem_append, or_and_right, exists_or, exists_eq_left, below]
    rw [← or_assoc, or_right_comm]

/-- A visited scope comes before each of its children. -/
theorem Visits.sublist (h : tree.Visits pending out) (hp : p ∈ out) (hc : tree.Holds p c) :
    [p, c].Sublist out := by
  induction h with
  | done => cases hp
  | @next s pending out rest ih =>
    obtain rfl | hp := List.mem_cons.1 hp
    · have later : c ∈ out := rest.mem_iff.2 ⟨c, List.mem_append_right _ hc, .refl⟩
      exact (List.singleton_sublist.2 later).cons_cons p
    · exact (ih hp).cons s

theorem Ascending.mem_subtree (h : tree.Ascending) :
    t ∈ tree.subtree s ↔ ReflTransGen tree.Holds s t := by
  simp [(h.visits_subtree s).mem_iff]

theorem Ascending.le_of_reaches (h : tree.Ascending) (hr : ReflTransGen tree.Holds s t) :
    s.index ≤ t.index := by
  induction hr with
  | refl => exact Nat.le_refl _
  | tail _ hc ih => exact ih.trans (h _ _ hc).1.le

/-- What freezing does to any scope, whether it is there or not. -/
theorem get_freeze_any (tree : ScopeTree) (f s : ScopeId) :
    ∃ frozen, (tree.freeze f).get s = { tree.get s with frozen } ∧
      (frozen = true ↔ (tree.get s).frozen = true ∨ s.index < tree.size ∧ s ∈ tree.subtree f) := by
  by_cases hs : s.index < tree.size
  · exact ⟨_, get_freeze f hs, by simp [hs]⟩
  · have hs' : (tree.freeze f).size ≤ s.index := by simpa using hs
    refine ⟨(tree.get s).frozen, ?_, by simp [hs]⟩
    simp only [get_eq_default hs', get_eq_default (Nat.le_of_not_lt hs)]

/-- The scopes after one was created: those there were, the new one, and nothing else. -/
theorem get_create_cases (kind : ScopeKind) {parent : Option ScopeId} (name : String)
    (inside : ∀ p, parent = some p → p.index < tree.size) (s : ScopeId) :
    s.index < tree.size ∧ (tree.create kind parent name).2.get s = { tree.get s with
        children := (tree.get s).children ++ if parent = some s then [⟨tree.size⟩] else [] } ∨
      s = ⟨tree.size⟩ ∧ (tree.create kind parent name).2.get s =
        { kind, name, parent, frozen := tree.startsFrozen parent } ∨
      (tree.create kind parent name).2.get s = default := by
  by_cases hs : s.index < (tree.create kind parent name).2.size
  · obtain hs | rfl := (lt_size_create ..).1 hs
    · exact .inl ⟨hs, get_create kind parent name hs⟩
    · exact .inr (.inl ⟨rfl, get_create_new kind parent name inside⟩)
  · exact .inr (.inr (get_eq_default (Nat.le_of_not_lt hs)))

/-! ## The shape of a tree -/

/-- How a child stands to its parent. Only a System scope can be frozen without its children. -/
structure Link (tree : ScopeTree) (p c : ScopeId) : Prop where
  lt : p.index < c.index
  has : c.index < tree.size
  parent : (tree.get c).parent = some p
  kind : (tree.get c).kind ≠ .system
  frozen : (tree.get p).kind ≠ .system → (tree.get p).frozen = true → (tree.get c).frozen = true

/-- Children are linked to the scope that lists them, and listed once. -/
structure Sound (tree : ScopeTree) : Prop where
  link : ∀ p c, tree.Holds p c → tree.Link p c
  once : ∀ p, (tree.get p).children.Nodup
  outer : ∀ c p, (tree.get c).parent = some p → p.index < tree.size

namespace Sound

theorem ascending (h : tree.Sound) : tree.Ascending :=
  fun p c hc => ⟨(h.link p c hc).lt, (h.link p c hc).has⟩

theorem lt_of_reaches (h : tree.Sound) (hc : tree.Holds p c) (way : ReflTransGen tree.Holds c t) :
    p.index < t.index :=
  (h.link p c hc).lt.trans_le (h.ascending.le_of_reaches way)

/-- A way to a child leads through its parent. -/
theorem reaches_parent (h : tree.Sound) (hc : tree.Holds p c) (way : TransGen tree.Holds s c) :
    ReflTransGen tree.Holds s p := by
  obtain ⟨q, way, hq⟩ := TransGen.tail'_iff.1 way
  cases (h.link q c hq).parent.symm.trans (h.link p c hc).parent
  exact way

/-- As long as no scope that waits is nested in another one, none is visited twice. -/
theorem nodup_of_visits (h : tree.Sound) (visits : tree.Visits pending out)
    (waiting : pending.Nodup)
    (apart : ∀ s ∈ pending, ∀ t ∈ pending, ¬TransGen tree.Holds s t) : out.Nodup := by
  induction visits with
  | done => exact .nil
  | @next s pending out rest ih =>
    obtain ⟨fresh, waiting⟩ := List.nodup_cons.1 waiting
    have clear : ∀ a ∈ pending, ¬ReflTransGen tree.Holds a s := by
      intro a ha way
      obtain rfl | way := reflTransGen_iff_eq_or_transGen.1 way
      · exact fresh ha
      · exact apart a (.tail _ ha) s (.head _) way
    refine List.nodup_cons.2 ⟨fun hs => ?_, ih ?_ fun a ha b hb way => ?_⟩
    · obtain ⟨a, ha, way⟩ := rest.mem_iff.1 hs
      obtain ha | ha := List.mem_append.1 ha
      · exact clear a ha way
      · exact Nat.lt_irrefl _ (h.lt_of_reaches ha way)
    · exact waiting.append (h.once s) fun a ha hc => apart s (.head _) a (.tail _ ha) (.single hc)
    · obtain ha | ha := List.mem_append.1 ha <;> obtain hb | hb := List.mem_append.1 hb
      · exact apart a (.tail _ ha) b (.tail _ hb) way
      · exact clear a ha (h.reaches_parent hb way)
      · exact apart s (.head _) b (.tail _ hb) (.head ha way)
      · exact Nat.lt_irrefl _ (h.lt_of_reaches ha (h.reaches_parent hb way))

theorem nodup_subtree (h : tree.Sound) (s : ScopeId) : (tree.subtree s).Nodup := by
  refine h.nodup_of_visits (h.ascending.visits_subtree s) (List.nodup_singleton s) ?_
  simp only [List.mem_singleton, forall_eq]
  intro way
  obtain ⟨c, hc, way⟩ := TransGen.head'_iff.1 way
  exact Nat.lt_irrefl _ (h.lt_of_reaches hc way)

theorem frozen_of_reaches (h : tree.Sound) (hk : (tree.get s).kind ≠ .system)
    (hf : (tree.get s).frozen = true) (way : ReflTransGen tree.Holds s t) :
    (tree.get t).kind ≠ .system ∧ (tree.get t).frozen = true := by
  induction way with
  | refl => exact ⟨hk, hf⟩
  | tail _ hc ih => exact ⟨(h.link _ _ hc).kind, (h.link _ _ hc).frozen ih.1 ih.2⟩

/-! ## Changes -/

/-- A change that creates no scope keeps the shape, if it freezes no scope without its children. -/
theorem change {tree' : ScopeTree} (h : tree.Sound) (size : tree'.size = tree.size)
    (parent : ∀ s, (tree'.get s).parent = (tree.get s).parent)
    (kind : ∀ s, (tree'.get s).kind = (tree.get s).kind)
    (children : ∀ s, (tree'.get s).children.Sublist (tree.get s).children)
    (frozen : ∀ p c, tree.Holds p c → (tree.get p).kind ≠ .system →
      (tree'.get p).frozen = true → (tree'.get c).frozen = true) : tree'.Sound where
  link p c hc := by
    have held : tree.Holds p c := (children p).subset hc
    have link := h.link p c held
    exact ⟨link.lt, size ▸ link.has, (parent c).trans link.parent, kind c ▸ link.kind,
      kind p ▸ frozen p c held⟩
  once p := (h.once p).sublist (children p)
  outer c p hp := size ▸ h.outer c p ((parent c).symm.trans hp)

/-- A change of one scope that concerns neither its place nor whether it is frozen. -/
theorem modify (h : tree.Sound) (s : ScopeId) {change : Scope → Scope}
    (parent : ∀ scope, (change scope).parent = scope.parent)
    (kind : ∀ scope, (change scope).kind = scope.kind)
    (children : ∀ scope, (change scope).children = scope.children)
    (frozen : ∀ scope, (change scope).frozen = scope.frozen) : (tree.modify s change).Sound := by
  refine h.change (size_modify change) (fun _ => get_modify_field Scope.parent change parent)
    (fun _ => get_modify_field Scope.kind change kind) (fun t => ?_) fun p c hc hk hp => ?_
  · rw [get_modify_field Scope.children change children]
  · rw [get_modify_field Scope.frozen change frozen] at hp ⊢
    exact (h.link p c hc).frozen hk hp

theorem freeze (h : tree.Sound) (s : ScopeId) : (tree.freeze s).Sound := by
  choose frozen get is_frozen using get_freeze_any tree s
  refine h.change (size_freeze s) (fun t => ?_) (fun t => ?_) (fun t => ?_) fun p c hc hk hp => ?_
  · rw [get]
  · rw [get]
  · rw [get]
  · rw [get] at hp ⊢
    have link := h.link p c hc
    refine (is_frozen c).2 (((is_frozen p).1 hp).imp (link.frozen hk) fun inside => ⟨link.has, ?_⟩)
    exact h.ascending.mem_subtree.2 ((h.ascending.mem_subtree.1 inside.2).tail hc)

theorem detach (h : tree.Sound) (s : ScopeId) : (tree.detach s).Sound := by
  have get : ∀ t, (tree.detach s).get t = _ := fun t => get_detach s (h.outer s)
  refine h.change (size_detach s) (fun t => ?_) (fun t => ?_) (fun t => ?_) fun p c hc hk hp => ?_
  · rw [get]
  · rw [get]
  · rw [get]
    dsimp only
    split_ifs
    · exact List.filter_sublist
    · exact .refl _
  · rw [get] at hp ⊢
    exact (h.link p c hc).frozen hk hp

theorem create (h : tree.Sound) {kind : ScopeKind} {parent : Option ScopeId} (name : String)
    (inside : ∀ p, parent = some p → p.index < tree.size ∧ kind ≠ .system) :
    (tree.create kind parent name).2.Sound := by
  have get := get_create_cases kind name fun p hp => (inside p hp).1
  refine ⟨fun p c hc => ?_, fun p => ?_, fun c p hp => ?_⟩
  · unfold Holds at hc
    obtain ⟨hp, heq⟩ | ⟨-, heq⟩ | heq := get p <;> rw [heq] at hc
    · obtain hc | hc := List.mem_append.1 hc
      · have link := h.link p c hc
        refine ⟨link.lt, ?_, ?_, ?_, ?_⟩
        · rw [size_create]
          exact Nat.lt_succ_of_lt link.has
        all_goals rw [get_create kind parent name link.has]
        · exact link.parent
        · exact link.kind
        · rw [heq]
          exact link.frozen
      · split_ifs at hc with hparent
        · cases List.mem_singleton.1 hc
          have new := get_create_new kind parent name fun p hp => (inside p hp).1
          refine ⟨hp, by simp, ?_, ?_, ?_⟩
          all_goals rw [new]
          · exact hparent
          · exact (inside p hparent).2
          · rw [heq]
            intro (hk : (tree.get p).kind ≠ .system) (hf : (tree.get p).frozen = true)
            simp [hparent, startsFrozen, hf, hk]
        · cases hc
    · cases hc
    · cases hc
  · obtain ⟨-, heq⟩ | ⟨-, heq⟩ | heq := get p <;> rw [heq]
    · refine (h.once p).append (by split_ifs <;> simp) fun c hc hnew => ?_
      have has := (h.link p c hc).has
      split_ifs at hnew
      · cases List.mem_singleton.1 hnew
        exact Nat.lt_irrefl _ has
      · cases hnew
    · exact .nil
    · exact .nil
  · rw [size_create]
    obtain ⟨-, heq⟩ | ⟨-, heq⟩ | heq := get c <;> rw [heq] at hp
    · exact Nat.lt_succ_of_lt (h.outer c p hp)
    · exact Nat.lt_succ_of_lt (inside p hp).1
    · cases hp

end Sound

/-- A call that changes a tree. Every scope it names is there, and a System scope is created only
outside of all others. -/
inductive Step (tree : ScopeTree) : ScopeTree → Prop
  | create (kind : ScopeKind) (parent : Option ScopeId) (name : String)
    (inside : ∀ p, parent = some p → p.index < tree.size ∧ kind ≠ .system) :
    Step tree (tree.create kind parent name).2
  | freeze (s : ScopeId) (has : s.index < tree.size) : Step tree (tree.freeze s)
  | detach (s : ScopeId) (has : s.index < tree.size) : Step tree (tree.detach s)
  | addImport (s used : ScopeId) (has : s.index < tree.size) (used_has : used.index < tree.size) :
    Step tree (tree.addImport s used)
  | registerHelper (s : ScopeId) (target : Ty) (helper : StructId) (has : s.index < tree.size) :
    Step tree (tree.registerHelper s target helper)

theorem Sound.step {tree' : ScopeTree} (h : tree.Sound) (step : tree.Step tree') : tree'.Sound := by
  cases step with
  | create kind parent name inside => exact h.create name inside
  | freeze s => exact h.freeze s
  | detach s => exact h.detach s
  | addImport s used =>
    exact h.modify s (fun _ => rfl) (fun _ => rfl) (fun _ => rfl) fun _ => rfl
  | registerHelper s target helper =>
    exact h.modify s (fun _ => rfl) (fun _ => rfl) (fun _ => rfl) fun _ => rfl

theorem sound_of_run (run : ReflTransGen Step {} tree) : tree.Sound := by
  induction run with
  | refl =>
    have none (s : ScopeId) : ({} : ScopeTree).get s = default := get_eq_default (Nat.zero_le _)
    refine ⟨fun p c hc => ?_, fun p => none p ▸ .nil, fun c p hp => ?_⟩
    · rw [Holds, none] at hc
      cases hc
    · rw [none] at hp
      cases hp
  | tail _ step ih => exact ih.step step

/-- The shape of a tree after any calls. A child comes after its parent and is listed once, by its
parent alone. The loop over a subtree ends; it visits the scope and all that is reached through
children, each once, and each before its children. What is nested in a frozen scope is frozen,
unless that is a System scope. -/
theorem frozen_downwards (run : ReflTransGen Step {} tree) :
    (∀ p c, c ∈ (tree.get p).children → p.index < c.index ∧ (tree.get c).parent = some p ∧
      (tree.get p).children.count c = 1 ∧ ∀ q, c ∈ (tree.get q).children → q = p) ∧
    (∀ s, s.index < tree.size → tree.Visits [s] (tree.subtree s) ∧
      (∀ t, t ∈ tree.subtree s ↔ ReflTransGen tree.Holds s t) ∧ (tree.subtree s).Nodup ∧
      ∀ p c, p ∈ tree.subtree s → c ∈ (tree.get p).children → [p, c].Sublist (tree.subtree s)) ∧
    ∀ s, (tree.get s).kind ≠ .system → (tree.get s).frozen = true →
      ∀ t ∈ tree.subtree s, (tree.get t).frozen = true := by
  have h := sound_of_run run
  refine ⟨fun p c hc => ?_, fun s _ => ?_, fun s hk hf t ht => ?_⟩
  · have link := h.link p c hc
    refine ⟨link.lt, link.parent, List.count_eq_one_of_mem (h.once p) hc, fun q hq => ?_⟩
    exact Option.some.inj ((h.link q c hq).parent.symm.trans link.parent)
  · have visits := h.ascending.visits_subtree s
    exact ⟨visits, fun t => h.ascending.mem_subtree, h.nodup_subtree s, fun p c => visits.sublist⟩
  · exact (h.frozen_of_reaches hk hf (h.ascending.mem_subtree.1 ht)).2

/-- A unit is frozen with a type in it and taken out, and then the type gets a routine. -/
def closedUnit : ScopeTree :=
  let tree := (create {} .system none "System").2
  let tree := (tree.create .file (some ⟨0⟩) "Lists").2
  let tree := (tree.create .type (some ⟨1⟩) "TList").2
  (((tree.freeze ⟨1⟩).detach ⟨1⟩).create .routine (some ⟨2⟩) "Sort").2

/-- The routine is frozen like everything in the unit, and nothing of it is left below System. -/
theorem closedUnit_frozen :
    closedUnit.subtree ⟨1⟩ = [⟨1⟩, ⟨2⟩, ⟨3⟩] ∧ closedUnit.subtree ⟨0⟩ = [⟨0⟩] ∧
      ∀ t ∈ closedUnit.subtree ⟨1⟩, (closedUnit.get t).frozen = true := by
  have run : ReflTransGen Step {} closedUnit := by
    refine .tail (.tail (.tail (.tail (.tail (.single (.create .system none "System" ?_))
      (.create .file (some ⟨0⟩) "Lists" ?_)) (.create .type (some ⟨1⟩) "TList" ?_))
      (.freeze ⟨1⟩ ?_)) (.detach ⟨1⟩ ?_)) (.create .routine (some ⟨2⟩) "Sort" ?_)
    all_goals decide +kernel
  exact ⟨by decide +kernel, by decide +kernel,
    (frozen_downwards run).2.2 ⟨1⟩ (by decide +kernel) (by decide +kernel)⟩

end Pascal.ScopeTree
