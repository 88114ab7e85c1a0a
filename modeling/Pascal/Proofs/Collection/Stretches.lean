import Pascal.Proofs.Collection.Course

/-!
# Stretches of a collection

What a stretch of a collection does stays within a region of the tree. Two stretches in a row whose
regions have nothing in common mark no node twice. A structured type that gets its identity where its
members are written is left to be described later on.
-/

namespace Pascal

namespace Collecting

variable {ctx : CollectionContext} {σ mid τ : CollectionState} {n : NodeId} {scope : ScopeId}

/-! ## What is left to be described -/

/-- The structured type that a deed leaves to be described, with the node that describes it. -/
def Deed.promises? : Deed → Option (NodeId × StructId)
  | .identify _ type _ _ false struct => some (type, struct)
  | _ => none

/-- Whatever moments leave to be described is described later on, among them or in the moments
`later` that follow them. -/
def Fulfils (later : List Moment) : List Moment → Prop
  | [] => True
  | moment :: rest => (∀ promise ∈ moment.deed.promises?,
      ∃ other ∈ rest ++ later, other.deed = .describe promise.1 promise.2) ∧ Fulfils later rest

theorem fulfils_append {later first second : List Moment} :
    Fulfils later (first ++ second) ↔ Fulfils (second ++ later) first ∧ Fulfils later second := by
  induction first with
  | nil => simp [Fulfils]
  | cons moment rest ih => simp only [List.cons_append, Fulfils, ih, List.append_assoc, and_assoc]

theorem Fulfils.mono {later later' moments : List Moment} (h : Fulfils later moments)
    (hl : later ⊆ later') : Fulfils later' moments := by
  induction moments with
  | nil => trivial
  | cons moment rest ih =>
    refine ⟨fun promise hpromise => ?_, ih h.2⟩
    obtain ⟨other, hother, described⟩ := h.1 promise hpromise
    refine ⟨other, ?_, described⟩
    exact List.mem_append.2 ((List.mem_append.1 hother).imp_right fun hm => hl hm)

theorem fulfils_of_forall {later moments : List Moment} (h : ∀ moment ∈ moments,
    ∀ promise ∈ moment.deed.promises?, ∃ other ∈ later, other.deed = .describe promise.1 promise.2) :
    Fulfils later moments := by
  induction moments with
  | nil => trivial
  | cons moment rest ih =>
    refine ⟨fun promise hpromise => ?_, ih fun other hother => h other (List.mem_cons_of_mem _ hother)⟩
    obtain ⟨other, hother, described⟩ := h moment List.mem_cons_self promise hpromise
    exact ⟨other, List.mem_append_right _ hother, described⟩

/-! ## Stretches within a region -/

/-- The course of a stretch that marks nodes of a region only, and each of them once where the tree
lists every node once. -/
structure Story (ctx : CollectionContext) (region : Set NodeId) (σ : CollectionState)
    (moments : List Moment) (τ : CollectionState) : Prop where
  course : Course ctx σ moments τ
  inside : ∀ m ∈ marks moments, m ∈ region
  once : ctx.tree.ListedOnce → (marks moments).Nodup

namespace Story

variable {region outer first second : Set NodeId} {moments earlier later : List Moment}

theorem of_pause (h : Pause ctx σ τ) : Story ctx region σ [] τ :=
  ⟨.pause h, by simp, fun _ => List.nodup_nil⟩

theorem of_does {deed : Deed} (h : Does ctx σ deed τ) (inside : ∀ m ∈ deed.marks, m ∈ region)
    (once : deed.marks.Nodup) : Story ctx region σ [⟨σ, deed, τ⟩] τ where
  course := .moment (.refl ctx σ) h (.pause (.refl ctx τ))
  inside := by simpa using inside
  once _ := by simpa using once

theorem mono (h : Story ctx region σ moments τ) (hr : region ⊆ outer) :
    Story ctx outer σ moments τ :=
  { h with inside := fun m hm => hr (h.inside m hm) }

theorem trans (h : Story ctx first σ earlier mid) (g : Story ctx second mid later τ)
    (apart : ctx.tree.ListedOnce → Disjoint first second) :
    Story ctx (first ∪ second) σ (earlier ++ later) τ where
  course := h.course.trans g.course
  inside m hm := by
    rw [marks_append, List.mem_append] at hm
    exact hm.imp (h.inside m) (g.inside m)
  once listed := by
    rw [marks_append, List.nodup_append']
    refine ⟨h.once listed, g.once listed, fun m hm hm' => ?_⟩
    exact Set.disjoint_left.1 (apart listed) (h.inside m hm) (g.inside m hm')

theorem pause_left (p : Pause ctx σ mid) (h : Story ctx region mid moments τ) :
    Story ctx region σ moments τ :=
  { h with course := (Course.pause p).trans h.course }

theorem pause_right (h : Story ctx region σ moments mid) (p : Pause ctx mid τ) :
    Story ctx region σ moments τ := by
  refine { h with course := ?_ }
  simpa using h.course.trans (.pause p)

/-- Nothing is recorded outside the region. -/
theorem type?_eq (h : Story ctx region σ moments τ) {m : NodeId} (hm : m ∉ region) :
    τ.annotations.type? m = σ.annotations.type? m :=
  h.course.spares.types m fun marked => hm (h.inside m marked)

/-- A loop whose rounds have regions of their own; `P` is what is known of the moments so far. -/
theorem forIn {A β : Type} {l : List A} {f : A → β → Collecting (ForInStep β)}
    (region : A → Set NodeId) {P : List A → β → List Moment → CollectionState → Prop} {init b : β}
    (apart : ctx.tree.ListedOnce → l.Pairwise fun x y => Disjoint (region x) (region y))
    (round : ∀ done x rest b moments σ r τ, l = done ++ x :: rest → P done b moments σ →
      (f x b).run.run σ = (.ok r, τ) → ∃ b' new, r = .yield b' ∧ Story ctx (region x) σ new τ ∧
        P (done ++ [x]) b' (moments ++ new) τ)
    (start : P [] init [] σ) (h : (ForIn.forIn l init f).run.run σ = (.ok b, τ)) :
    ∃ moments, Story ctx (⋃ x ∈ l, region x) σ moments τ ∧ P l b moments τ := by
  refine forIn_induction (P := fun done b mid =>
    ∃ moments, Story ctx (⋃ x ∈ done, region x) σ moments mid ∧ P done b moments mid)
    (fun done x rest b mid r τ hl hdone ran => ?_) ⟨[], of_pause (.refl ctx σ), start⟩ h
  obtain ⟨moments, story, known⟩ := hdone
  obtain ⟨b', new, rfl, next, known⟩ := round done x rest b moments mid r τ hl known ran
  refine ⟨b', rfl, moments ++ new, (story.trans next fun listed => ?_).mono ?_, known⟩
  · rw [Set.disjoint_iUnion₂_left]
    intro y hy
    have pairwise := apart listed
    rw [hl, List.pairwise_append] at pairwise
    exact pairwise.2.2 y hy x List.mem_cons_self
  · refine Set.union_subset (Set.biUnion_subset_biUnion_left fun y hy => ?_) ?_
    · exact List.mem_append_left _ hy
    · exact Set.subset_biUnion_of_mem (u := region) (List.mem_append_right done (List.mem_singleton_self x))

end Story

/-- A stretch follows a course within a region, nothing is left to be described, and some routines get
their body. -/
def Unfolds (ctx : CollectionContext) (region : Set NodeId) (visits : List BodyVisit)
    (σ τ : CollectionState) : Prop :=
  ∃ moments, Story ctx region σ moments τ ∧ Fulfils [] moments ∧ visited moments = visits

namespace Unfolds

variable {region outer first second : Set NodeId} {visits visits' : List BodyVisit}

theorem of_pause (h : Pause ctx σ τ) : Unfolds ctx region [] σ τ := ⟨[], .of_pause h, trivial, rfl⟩

theorem of_does {deed : Deed} (h : Does ctx σ deed τ) (inside : ∀ m ∈ deed.marks, m ∈ region)
    (once : deed.marks.Nodup) (promises : deed.promises? = none) :
    Unfolds ctx region deed.visit?.toList σ τ := by
  refine ⟨_, .of_does h inside once, ⟨by simp [promises], trivial⟩, ?_⟩
  rw [visited_cons, visited_nil, List.append_nil]

theorem mono (h : Unfolds ctx region visits σ τ) (hr : region ⊆ outer) :
    Unfolds ctx outer visits σ τ := by
  obtain ⟨moments, story, told⟩ := h
  exact ⟨moments, story.mono hr, told⟩

theorem trans (h : Unfolds ctx first visits σ mid) (g : Unfolds ctx second visits' mid τ)
    (apart : ctx.tree.ListedOnce → Disjoint first second) :
    Unfolds ctx (first ∪ second) (visits ++ visits') σ τ := by
  obtain ⟨earlier, story, fulfils, rfl⟩ := h
  obtain ⟨later, story', fulfils', rfl⟩ := g
  refine ⟨earlier ++ later, story.trans story' apart, fulfils_append.2 ⟨?_, fulfils'⟩,
    visited_append earlier later⟩
  exact fulfils.mono (List.nil_subset _)

theorem pause_left (p : Pause ctx σ mid) (h : Unfolds ctx region visits mid τ) :
    Unfolds ctx region visits σ τ := by
  obtain ⟨moments, story, told⟩ := h
  exact ⟨moments, story.pause_left p, told⟩

theorem pause_right (h : Unfolds ctx region visits σ mid) (p : Pause ctx mid τ) :
    Unfolds ctx region visits σ τ := by
  obtain ⟨moments, story, told⟩ := h
  exact ⟨moments, story.pause_right p, told⟩

/-- After what is done below a node, something is done at the node itself. -/
theorem own (h : Unfolds ctx (ctx.tree.inside n) [] σ mid) {deed : Deed} (does : Does ctx mid deed τ)
    (marks : deed.marks = [n]) (promises : deed.promises? = none) :
    Unfolds ctx (ctx.tree.under n) deed.visit?.toList σ τ := by
  have last : Unfolds ctx {n} deed.visit?.toList mid τ :=
    .of_does does (by simp [marks]) (by simp [marks]) promises
  refine (h.trans last fun _ => ?_).mono (Set.union_subset SyntaxTree.inside_subset_under ?_)
  · exact Set.disjoint_singleton_right.2 (SyntaxTree.not_mem_inside_self ctx.tree n)
  · exact Set.singleton_subset_iff.2 (SyntaxTree.mem_under_self ctx.tree n)

theorem type?_eq (h : Unfolds ctx region visits σ τ) {m : NodeId} (hm : m ∉ region) :
    τ.annotations.type? m = σ.annotations.type? m := by
  obtain ⟨moments, story, -⟩ := h
  exact story.type?_eq hm

/-- A loop whose rounds have regions of their own, and in which no routine gets its body. -/
theorem forIn {A β : Type} {l : List A} {f : A → β → Collecting (ForInStep β)}
    (region : A → Set NodeId) {P : List A → β → CollectionState → Prop} {init b : β}
    (apart : ctx.tree.ListedOnce → l.Pairwise fun x y => Disjoint (region x) (region y))
    (round : ∀ done x rest b σ r τ, l = done ++ x :: rest → P done b σ →
      (f x b).run.run σ = (.ok r, τ) →
        ∃ b', r = .yield b' ∧ Unfolds ctx (region x) [] σ τ ∧ P (done ++ [x]) b' τ)
    (start : P [] init σ) (h : (ForIn.forIn l init f).run.run σ = (.ok b, τ)) :
    Unfolds ctx (⋃ x ∈ l, region x) [] σ τ ∧ P l b τ := by
  obtain ⟨moments, story, known, told⟩ := Story.forIn region
    (P := fun done b moments σ => P done b σ ∧ Fulfils [] moments ∧ visited moments = []) apart
    (fun done x rest b moments σ r τ hl known ran => by
      obtain ⟨known, fulfils, silent⟩ := known
      obtain ⟨b', rfl, ⟨new, story, fulfils', silent'⟩, next⟩ := round done x rest b σ r τ hl known ran
      refine ⟨b', new, rfl, story, next, fulfils_append.2 ⟨?_, fulfils'⟩, by simp [silent, silent']⟩
      exact fulfils.mono (List.nil_subset _)) ⟨start, trivial, rfl⟩ h
  exact ⟨⟨moments, story, told⟩, known⟩

/-- Several computations in a row that have regions of their own; `I` is what holds before each. -/
theorem forM {A : Type} {l : List A} {f : A → Collecting Unit} (region : A → Set NodeId)
    (visits : A → CollectionState → List BodyVisit) {I : CollectionState → Prop} {u : Unit}
    (apart : ctx.tree.ListedOnce → l.Pairwise fun x y => Disjoint (region x) (region y))
    (round : ∀ x ∈ l, ∀ σ u τ, I σ → (f x).run.run σ = (.ok u, τ) →
      Unfolds ctx (region x) (visits x σ) σ τ ∧ I τ)
    (start : I σ) (h : (l.forM f).run.run σ = (.ok u, τ)) :
    Unfolds ctx (⋃ x ∈ l, region x) (along f visits l σ) σ τ := by
  induction l generalizing σ with
  | nil =>
    obtain ⟨-, rfl⟩ := Prod.mk.inj h
    exact .of_pause (.refl ctx σ)
  | cons x rest ih =>
    obtain ⟨_, mid, first, later⟩ := exists_of_run_bind h
    obtain ⟨unfolds, next⟩ := round x List.mem_cons_self _ _ _ start first
    have further := ih (fun listed => (apart listed).of_cons)
      (fun y hy => round y (List.mem_cons_of_mem x hy)) next later
    simp only [along, first]
    refine (unfolds.trans further fun listed => ?_).mono (by simp)
    rw [Set.disjoint_iUnion₂_right]
    exact (List.pairwise_cons.1 (apart listed)).1

end Unfolds

theorem eq_of_run_child {index : Nat} {c : Below n}
    (h : (child ctx n index).run.run σ = (.ok c, τ)) :
    ctx.tree.child? n index = some c ∧ τ = σ := by
  cases hc : ctx.tree.child? n index with
  | some found =>
    simp only [child, SyntaxTree.child, hc] at h
    obtain ⟨⟨⟩, rfl⟩ := Prod.mk.inj h
    exact ⟨rfl, rfl⟩
  | none =>
    simp only [child, SyntaxTree.child, hc] at h
    cases h

/-! ## Computations -/

section Computations

variable {α β A : Type} {region outer first second : Set NodeId}

/-- A computation that, if it succeeds, does nothing of note. -/
def Rests (ctx : CollectionContext) (m : Collecting α) : Prop :=
  ∀ σ a τ, m.run.run σ = (.ok a, τ) → Pause ctx σ τ

/-- A computation that, if it succeeds, unfolds within a region, without a body for a routine. -/
def Stays (ctx : CollectionContext) (region : Set NodeId) (m : Collecting α) : Prop :=
  ∀ σ a τ, m.run.run σ = (.ok a, τ) → Unfolds ctx region [] σ τ

namespace Rests

theorem pure (a : α) : Rests ctx (Pure.pure a) := by
  rintro σ _ _ ⟨⟩
  exact .refl ctx σ

theorem malformed (cause : TreeError) : Rests ctx (Collecting.malformed cause : Collecting α) := by
  rintro σ _ _ ⟨⟩

theorem bind {m : Collecting α} {k : α → Collecting β} (h : Rests ctx m)
    (hk : ∀ a, Rests ctx (k a)) : Rests ctx (m >>= k) := by
  intro σ b τ ran
  obtain ⟨a, mid, first, second⟩ := exists_of_run_bind ran
  exact (h σ a mid first).trans (hk a mid b τ second)

theorem discard {m : Collecting α} (h : Rests ctx m) : Rests ctx (discard m) := by
  rw [discard_eq]
  exact h.bind fun _ => .pure _

theorem getEnv {k : Environment → Collecting β} (h : ∀ env, Rests ctx (k env)) :
    Rests ctx (Collecting.getEnv >>= k) := by
  intro σ b τ ran
  rw [run_getEnv_bind] at ran
  exact h σ.env σ b τ ran

/-- A round of a loop that ends with the next one. -/
theorem next {m : Collecting Unit} (h : Rests ctx m) :
    Rests ctx (m >>= fun _ => Pure.pure (ForInStep.yield PUnit.unit)) :=
  h.bind fun _ => .pure _

theorem each {l : List A} {f : A → PUnit → Collecting (ForInStep PUnit)}
    (h : ∀ x ∈ l, Rests ctx (f x PUnit.unit)) : Rests ctx (ForIn.forIn l PUnit.unit f) := by
  induction l with
  | nil => exact .pure _
  | cons x rest ih =>
    rw [List.forIn_cons]
    refine (h x List.mem_cons_self).bind fun r => ?_
    cases r with
    | done => exact .pure _
    | yield => exact ih fun y hy => h y (List.mem_cons_of_mem x hy)

theorem stays {m : Collecting α} (h : Rests ctx m) : Stays ctx region m :=
  fun σ a τ ran => .of_pause (h σ a τ ran)

end Rests

namespace Stays

theorem mono {m : Collecting α} (h : Stays ctx region m) (hr : region ⊆ outer) :
    Stays ctx outer m :=
  fun σ a τ ran => (h σ a τ ran).mono hr

theorem pause_bind {m : Collecting α} {k : α → Collecting β} (h : Rests ctx m)
    (hk : ∀ a, Stays ctx region (k a)) : Stays ctx region (m >>= k) := by
  intro σ b τ ran
  obtain ⟨a, mid, first, second⟩ := exists_of_run_bind ran
  exact (hk a mid b τ second).pause_left (h σ a mid first)

theorem bind_pause {m : Collecting α} {k : α → Collecting β} (h : Stays ctx region m)
    (hk : ∀ a, Rests ctx (k a)) : Stays ctx region (m >>= k) := by
  intro σ b τ ran
  obtain ⟨a, mid, first, second⟩ := exists_of_run_bind ran
  exact (h σ a mid first).pause_right (hk a mid b τ second)

theorem getEnv {k : Environment → Collecting β} (h : ∀ env, Stays ctx region (k env)) :
    Stays ctx region (Collecting.getEnv >>= k) := by
  intro σ b τ ran
  rw [run_getEnv_bind] at ran
  exact h σ.env σ b τ ran

theorem bind {m : Collecting α} {k : α → Collecting β} (h : Stays ctx first m)
    (hk : ∀ a, Stays ctx second (k a)) (apart : ctx.tree.ListedOnce → Disjoint first second) :
    Stays ctx (first ∪ second) (m >>= k) := by
  intro σ b τ ran
  obtain ⟨a, mid, ran, next⟩ := exists_of_run_bind ran
  exact (h σ a mid ran).trans (hk a mid b τ next) apart

theorem child {index : Nat} {k : Below n → Collecting β}
    (h : ∀ c, ctx.tree.child? n index = some c → Stays ctx region (k c)) :
    Stays ctx region (Collecting.child ctx n index >>= k) := by
  intro σ b τ ran
  obtain ⟨c, mid, found, next⟩ := exists_of_run_bind ran
  obtain ⟨hc, rfl⟩ := eq_of_run_child found
  exact h c hc mid b τ next

/-- A loop whose rounds have regions of their own. -/
theorem each {l : List A} {f : A → β → Collecting (ForInStep β)} (region : A → Set NodeId)
    (apart : ctx.tree.ListedOnce → l.Pairwise fun x y => Disjoint (region x) (region y))
    (h : ∀ x ∈ l, ∀ b, Stays ctx (region x) (f x b)) (init : β) :
    Stays ctx (⋃ x ∈ l, region x) (ForIn.forIn l init f) := by
  induction l generalizing init with
  | nil => exact (Rests.pure _).stays
  | cons x rest ih =>
    have later : ∀ r : ForInStep β, Stays ctx (⋃ y ∈ rest, region y) (match r with
        | .done b => Pure.pure b
        | .yield b => ForIn.forIn rest b f) := by
      rintro (b | b)
      · exact (Rests.pure b).stays
      · exact ih (fun listed => (apart listed).of_cons)
          (fun y hy => h y (List.mem_cons_of_mem x hy)) b
    rw [List.forIn_cons]
    refine ((h x List.mem_cons_self init).bind later fun listed => ?_).mono (by simp)
    rw [Set.disjoint_iUnion₂_right]
    exact (List.pairwise_cons.1 (apart listed)).1

/-- A loop over the children of a node that does nothing of note at those of other kinds. -/
theorem eachChild {kinds : NodeKind → Prop} {f : Below n → β → Collecting (ForInStep β)}
    (h : ∀ c ∈ ctx.tree.children n, kinds (ctx.tree.kind c.1) → ∀ b,
      Stays ctx (ctx.tree.under c.1) (f c b))
    (rest : ∀ c ∈ ctx.tree.children n, ¬kinds (ctx.tree.kind c.1) → ∀ b, Rests ctx (f c b))
    (init : β) : Stays ctx (ctx.tree.among n kinds) (ForIn.forIn (ctx.tree.children n) init f) := by
  refine (each (ctx.tree.part kinds) (fun listed => listed.pairwise_part kinds n)
    (fun c hc b => ?_) init).mono SyntaxTree.iUnion_part_subset
  by_cases hk : kinds (ctx.tree.kind c.1)
  · exact (h c hc hk b).mono fun m hm => ⟨hk, hm⟩
  · exact (rest c hc hk b).stays

theorem eachInside {f : Below n → β → Collecting (ForInStep β)}
    (h : ∀ c ∈ ctx.tree.children n, ∀ b, Stays ctx (ctx.tree.under c.1) (f c b)) (init : β) :
    Stays ctx (ctx.tree.inside n) (ForIn.forIn (ctx.tree.children n) init f) :=
  eachChild (fun c hc _ => h c hc) (by simp) init

end Stays

end Computations

end Collecting

end Pascal
