import Mathlib
import Pascal.Proofs.Collection.Uses
import Pascal.Proofs.Completeness
import Pascal.Proofs.Session.BatchOrder
import Pascal.Proofs.Session.Invariants

/-!
# What the units of a batch import

The entries of a uses clause whose units are collected before the unit itself are imported when it is
collected. The units of the other entries, the unit itself among them, are imported once the whole
batch is collected, behind all of the former. So a unit imports what it uses in the order in which it
is written, unless it uses a unit that is collected later in front of one that is collected before.

## Main results

- `Session.analyzeBatch_imports`: what the units of a batch import.
-/

namespace Pascal

open Collecting

/-- The two parts into which a test divides a list give the list again exactly if nothing that passes
stands behind something that does not. -/
theorem filter_append_filter_not_eq_iff {α : Type} (p : α → Bool) (l : List α) :
    l.filter p ++ l.filter (fun a => !p a) = l ↔ l.Pairwise fun a b => p b → p a := by
  induction l with
  | nil => simp
  | cons a rest ih =>
    rw [List.pairwise_cons, ← ih]
    cases ha : p a with
    | true => simp [ha]
    | false =>
      constructor
      · intro heq
        -- The list starts with `a`, so nothing behind it passes.
        have fails : rest.filter p = [] := by
          cases hf : rest.filter p with
          | nil => rfl
          | cons b others =>
            have hb : p b = true := (List.mem_filter.1 (hf ▸ List.mem_cons_self)).2
            have hab : b = a := by simpa [ha, hf] using congrArg List.head? heq
            rw [hab, ha] at hb
            cases hb
        refine ⟨fun b hb hpass => absurd hpass (List.filter_eq_nil_iff.1 fails b hb), ?_⟩
        simpa [ha, fails] using heq
      · rintro ⟨fails, heq⟩
        have fails : rest.filter p = [] :=
          List.filter_eq_nil_iff.2 fun b hb hpass => Bool.false_ne_true (fails b hb hpass)
        simpa [ha, fails] using heq

theorem filter_filterMap_or {α β : Type} {early late : α → Option β} {p : β → Bool}
    (passes : ∀ a b, early a = some b → p b = true) (fails : ∀ a b, late a = some b → p b = false)
    (disjoint : ∀ a, (early a).isSome → late a = none) (l : List α) :
    (l.filterMap fun a => (early a).or (late a)).filter p = l.filterMap early ∧
      (l.filterMap fun a => (early a).or (late a)).filter (fun b => !p b) = l.filterMap late := by
  induction l with
  | nil => simp
  | cons a rest ih =>
    cases hearly : early a with
    | some b => simp [hearly, disjoint a (by simp [hearly]), passes a b hearly, ih]
    | none =>
      cases hlate : late a with
      | some b => simp [hearly, hlate, fails a b hlate, ih]
      | none => simp [hearly, hlate, ih]

namespace Session

/-- The units recorded at the entries of the uses clauses of a unit, in the order in which they are
written. -/
def recordedUnits (session : Session) (model : Model) : List ScopeId :=
  model.tree.usesEntries.filterMap (model.annotations.recordedUnit? session.env)

/-- The keys under which a used unit is sought, in turn. -/
def keysOf (session : Session) (name : String) : List FoldedName :=
  (name :: session.settings.unitScopeNames.map fun space => space ++ "." ++ name).map Name.fold

/-- A unit that is collected, but whose entries have not been looked up again. `known` are the units
that were known when it was collected; what is known besides was collected with it or later. -/
structure Awaiting (session : Session) (known : String → Option ScopeId) (model : Model) : Prop
    where
  references : ∀ n ∈ model.tree.usesEntries, (model.tree.kind n).usedUnit?.isSome
  early : ∀ name unit, known name = some unit → unit.index < model.scope.index
  late : ∀ name, known name = none → Name.same name systemName = false ∧
    ∀ key ∈ session.keysOf name, ∀ entry, session.units[key]? = some entry →
      model.scope.index ≤ entry.scope.index
  tracks : session.env.Tracks model.tree model.scope
    (model.tree.usesEntries.filterMap (model.tree.usedScope? known))
    (fun n => if n ∈ model.tree.usesEntries then model.tree.usedScope? known n else none)
    model.annotations
  pending : pendingImports model.tree model.annotations =
    model.tree.usesEntries.filterMap (model.tree.missingUse? known)

/-- A unit whose entries have been looked up again. It imports the units that were collected before it
first, and then the others. -/
structure Arranged (session : Session) (model : Model) : Prop where
  has : session.env.Has (.scope model.scope)
  recorded : ∀ n ∈ model.tree.usesEntries, ∀ d, model.annotations.declaration? n = some d →
    session.env.Has (.decl d)
  imports : (session.env.scopes.get model.scope).imports =
    (session.recordedUnits model).filter (·.index < model.scope.index) ++
      (session.recordedUnits model).filter (model.scope.index ≤ ·.index)

section Collecting

variable {session : Session} {tree : SyntaxTree} {model : Model} {known : String → Option ScopeId}

theorem keys_of_unitScope?_eq_none {name : String} (h : session.unitScope? name = none) :
    Name.same name systemName = false ∧
      ∀ key ∈ session.keysOf name, session.units[key]? = none := by
  unfold unitScope? at h
  split_ifs at h with hs
  refine ⟨by simpa using hs, fun key hkey => ?_⟩
  obtain ⟨spelling, hspelling, rfl⟩ := List.mem_map.1 hkey
  exact List.findSome?_eq_none_iff.1 (Option.map_eq_none_iff.1 h) spelling hspelling

theorem exists_key_of_unitScope? {name : String} {unit : ScopeId}
    (h : session.unitScope? name = some unit) (hs : Name.same name systemName = false) :
    ∃ key ∈ session.keysOf name, ∃ entry, session.units[key]? = some entry ∧ entry.scope = unit := by
  simp only [unitScope?, hs, Bool.false_eq_true, if_false] at h
  obtain ⟨entry, hentry, rfl⟩ := Option.map_eq_some_iff.1 h
  obtain ⟨spelling, hspelling, hentry⟩ := List.exists_of_findSome?_eq_some hentry
  exact ⟨_, List.mem_map_of_mem hspelling, entry, hentry, rfl⟩

/-- Before anything is collected, nothing is known of the uses of a unit. -/
theorem Valid.follows_openUnit (h : session.Valid) (name : String) (tree : SyntaxTree) :
    Collecting.Follows (session.collectionContext tree session.nextFile) []
      { env := session.env.openUnit session.system.scope name } where
  references := by simp
  tracks := {
    has := Environment.has_openUnit ..
    imports := congrArg Scope.imports (Environment.get_openUnit h.has_system name)
    recorded := by simp
    unrecorded := fun _ _ _ => Std.HashMap.getElem?_empty }
  unfrozen := h.unfrozen_openUnit name
  pending := rfl

/-- A unit that is collected awaits the units that were not known. -/
theorem Valid.awaiting_collect (h : session.Valid) (hok : (session.collect tree).1 = .ok model) :
    model.tree = tree ∧ model.scope = session.nextFile ∧
      (session.collect tree).2.Awaiting session.unitScope? model := by
  obtain ⟨-, registered, -⟩ := h.collect_registers hok
  obtain ⟨name, state, hroot, -, hran, rfl, heq⟩ := collect_eq_of_ok hok
  refine ⟨rfl, rfl, ?_⟩
  have root : (tree.kind tree.root).isExpression = false := by rw [hroot]; rfl
  have follows : Collecting.Follows (session.collectionContext tree session.nextFile)
      tree.usesEntries (session.collecting name tree).2 :=
    (settles_unit root [] _ (h.follows_openUnit name tree) ()
      (congrArg Prod.fst hran)).1
  rw [hran] at follows
  refine ⟨follows.references, fun name unit hu => h.has_unitScope hu, fun name hu => ?_, ?_, ?_⟩
  · obtain ⟨hs, hkeys⟩ := keys_of_unitScope?_eq_none hu
    refine ⟨hs, fun key hkey entry hentry => ?_⟩
    rw [registered] at hentry
    split_ifs at hentry with hkey'
    · cases hentry
      exact Nat.le_refl _
    · have hkey : key ∈ session.keysOf name := by rwa [heq] at hkey
      rw [hkeys key hkey] at hentry
      cases hentry
  · rw [heq]
    exact follows.tracks.congr fun _ _ => rfl
  · exact follows.pending

/-- The collection of another unit leaves a unit waiting. -/
theorem Awaiting.collect (a : session.Awaiting known model) (h : session.Valid)
    {other : Model} (hok : (session.collect tree).1 = .ok other) :
    (session.collect tree).2.Awaiting known model := by
  obtain ⟨-, registered, -⟩ := h.collect_registers hok
  have grows := (h.collects tree).grows
  obtain ⟨name, state, hroot, -, hran, rfl, heq⟩ := collect_eq_of_ok hok
  have hlt : model.scope.index < session.nextFile.index := a.tracks.has
  refine { a with late := fun name hu => ?_, tracks := a.tracks.extend grows ?_ }
  · obtain ⟨hs, hkeys⟩ := a.late name hu
    refine ⟨hs, fun key hkey entry hentry => ?_⟩
    rw [registered] at hentry
    split_ifs at hentry with hkey'
    · cases hentry
      exact Nat.le_of_lt hlt
    · rw [heq] at hkey
      exact hkeys key hkey entry hentry
  · have opened := Environment.extends_openUnit session.env session.system.scope name
    have steps := (session.steps_collecting hroot).tables
    rw [hran] at steps
    rw [heq]
    refine (steps.imports (opened.has _ a.tracks.has) ?_).trans ?_
    · rintro heq
      rw [heq] at hlt
      exact Nat.lt_irrefl _ hlt
    · rw [Environment.get_openUnit_of_has a.tracks.has]

/-- A batch whose collection succeeds starts with its first tree. -/
theorem collectAll_eq_ok {trees : List SyntaxTree} {i : Nat} {order : List Nat}
    {models : List (Nat × Model)} (hi : trees[i]? = some tree)
    (hok : (session.collectAll trees (i :: order)).1 = .ok models) :
    ∃ model others, (session.collect tree).1 = .ok model ∧
      ((session.collect tree).2.collectAll trees order).1 = .ok others ∧
      models = (i, model) :: others := by
  simp only [collectAll, hi] at hok
  generalize session.collect tree = ran at hok ⊢
  obtain ⟨cause | model, mid⟩ := ran
  · cases hok
  · dsimp only at hok ⊢
    generalize mid.collectAll trees order = ran at hok ⊢
    obtain ⟨cause | others, last⟩ := ran
    · cases hok
    · cases hok
      exact ⟨model, others, rfl, rfl, rfl⟩

theorem Awaiting.collectAll (a : session.Awaiting known model) (h : session.Valid)
    {trees : List SyntaxTree} {order : List Nat} {models : List (Nat × Model)}
    (hok : (session.collectAll trees order).1 = .ok models) :
    (session.collectAll trees order).2.Awaiting known model := by
  induction order generalizing session models with
  | nil => exact a
  | cons i rest ih =>
    cases hi : trees[i]? with
    | none =>
      rw [collectAll_of_none hi] at hok ⊢
      exact ih a h hok
    | some tree =>
      obtain ⟨other, others, hfirst, hrest, -⟩ := collectAll_eq_ok hi hok
      rw [collectAll_of_ok hi hfirst]
      exact ih (a.collect h hfirst) (h.collects tree).valid hrest

/-- The units of a batch are collected into file scopes that follow each other, and await the units
that were not known. -/
theorem Valid.awaiting_collectAll (h : session.Valid) {trees : List SyntaxTree} {order : List Nat}
    {models : List (Nat × Model)} (hok : (session.collectAll trees order).1 = .ok models) :
    (∀ entry ∈ models, trees[entry.1]? = some entry.2.tree ∧
      session.nextFile.index ≤ entry.2.scope.index ∧
      ∃ known, (session.collectAll trees order).2.Awaiting known entry.2) ∧
    models.Pairwise (fun first second => first.2.scope.index < second.2.scope.index) ∧
    models.map (·.1) = order.filter (· < trees.length) := by
  induction order generalizing session models with
  | nil =>
    cases hok
    simp
  | cons i rest ih =>
    cases hi : trees[i]? with
    | none =>
      rw [collectAll_of_none hi] at hok ⊢
      have hlen : trees.length ≤ i := List.getElem?_eq_none_iff.1 hi
      rw [List.filter_cons_of_neg (by simpa using hlen)]
      exact ih h hok
    | some tree =>
      obtain ⟨model, others, hfirst, hrest, rfl⟩ := collectAll_eq_ok hi hok
      have valid := (h.collects tree).valid
      obtain ⟨htree, hscope, waits⟩ := h.awaiting_collect hfirst
      have hlt := (h.collect_registers hfirst).2.2
      have hlen : i < trees.length := (List.getElem?_eq_some_iff.1 hi).1
      obtain ⟨each, ordered, places⟩ := ih valid hrest
      rw [collectAll_of_ok hi hfirst]
      refine ⟨List.forall_mem_cons.2 ⟨⟨htree ▸ hi, hscope ▸ Nat.le_refl _, _,
        waits.collectAll valid hrest⟩, fun entry hentry => ?_⟩, List.pairwise_cons.2 ⟨?_, ordered⟩, ?_⟩
      · obtain ⟨ht, hs, ha⟩ := each entry hentry
        exact ⟨ht, Nat.le_of_lt (hlt.trans_le hs), ha⟩
      · intro entry hentry
        rw [hscope]
        exact hlt.trans_le (each entry hentry).2.1
      · rw [List.filter_cons_of_pos (by simpa using hlen), List.map_cons, places]

end Collecting

/-! ## Looking up again -/

section Retrying

variable {session : Session} {model : Model} {known : String → Option ScopeId}

theorem Arranged.recordedUnits_extend {after : Session} (a : session.Arranged model)
    (he : session.env.Extends after.env) :
    after.recordedUnits model = session.recordedUnits model := by
  refine List.filterMap_congr fun n hn => Option.bind_congr fun d hd => ?_
  rw [he.decl d (a.recorded n hn d hd)]

theorem Arranged.extend {after : Session} (a : session.Arranged model)
    (he : session.env.Extends after.env)
    (same : (after.env.scopes.get model.scope).imports =
      (session.env.scopes.get model.scope).imports) : after.Arranged model := by
  refine ⟨he.has _ a.has, fun n hn d hd => he.has _ (a.recorded n hn d hd), ?_⟩
  rw [same, a.recordedUnits_extend he, a.imports]

/-- The unit of an entry that was not known, as far as it is known now. -/
def lateScope? (session : Session) (tree : SyntaxTree) (known : String → Option ScopeId)
    (n : NodeId) : Option ScopeId :=
  (tree.missingUse? known n).bind fun entry => session.unitScope? entry.2

theorem lateScope?_eq {tree : SyntaxTree} {name : String} {n : NodeId}
    (hn : (tree.kind n).usedUnit? = some name) : session.lateScope? tree known n =
      if (known name).isSome then none else session.unitScope? name := by
  simp only [lateScope?, SyntaxTree.missingUse?, hn, Option.bind_some]
  split_ifs <;> rfl

/-- The units found when the entries are looked up again were collected with the unit or later. -/
theorem Awaiting.le_of_lateScope? (a : session.Awaiting known model) {n : NodeId} {unit : ScopeId}
    (hu : session.lateScope? model.tree known n = some unit) :
    model.scope.index ≤ unit.index := by
  cases hn : (model.tree.kind n).usedUnit? with
  | none => simp [lateScope?, SyntaxTree.missingUse?, hn] at hu
  | some name =>
    rw [lateScope?_eq hn] at hu
    split_ifs at hu with hknown
    obtain ⟨hs, hkeys⟩ := a.late name (by simpa using hknown)
    obtain ⟨key, hkey, entry, hentry, rfl⟩ := exists_key_of_unitScope? hu hs
    exact hkeys key hkey entry hentry

/-- Looking up again finds the units of the entries that were left over, and of no others. -/
theorem Awaiting.retried_eq (a : session.Awaiting known model) {n : NodeId}
    (hn : n ∈ model.tree.usesEntries) :
    (if n ∈ (pendingImports model.tree model.annotations).map (·.1) then
      model.tree.usedScope? session.unitScope? n else none) =
        session.lateScope? model.tree known n := by
  obtain ⟨name, hname⟩ := Option.isSome_iff_exists.1 (a.references n hn)
  have pending : n ∈ (pendingImports model.tree model.annotations).map (·.1) ↔
      known name = none := by
    rw [a.pending]
    simp only [List.mem_map, List.mem_filterMap]
    constructor
    · rintro ⟨entry, ⟨m, -, hm⟩, rfl⟩
      obtain ⟨other, hother, hm⟩ := Option.bind_eq_some_iff.1 hm
      split_ifs at hm with hknown
      cases hm
      cases hother.symm.trans hname
      simpa using hknown
    · intro hknown
      exact ⟨(n, name), ⟨n, hn, by simp [SyntaxTree.missingUse?, hname, hknown]⟩, rfl⟩
  rw [lateScope?_eq hname]
  simp only [pending, SyntaxTree.usedScope?, hname, Option.bind_some]
  cases known name <;> rfl

/-- Once the entries of a unit are looked up again, its imports are arranged. -/
theorem Awaiting.retryImports (a : session.Awaiting known model)
    (unfrozen : (session.env.scopes.get model.scope).frozen = false) :
    ∃ model', (session.retryImports model).1 = .ok model' ∧ model'.tree = model.tree ∧
      model'.scope = model.scope ∧ (session.retryImports model).2.Arranged model' ∧
      (session.retryImports model).2.recordedUnits model' = model.tree.usesEntries.filterMap
        fun n => (model.tree.usedScope? known n).or (session.lateScope? model.tree known n) := by
  obtain ⟨state, hran, tracks⟩ := @tracks_retryImports
    (session.collectionContext model.tree model.scope)
    { env := session.env, annotations := model.annotations } _ _ a.tracks unfrozen
  simp only [Session.retryImports, hran]
  refine ⟨_, rfl, rfl, rfl, ?_⟩
  let early := model.tree.usedScope? known
  let late := session.lateScope? model.tree known
  have unitAt : ∀ n ∈ model.tree.usesEntries,
      state.annotations.recordedUnit? state.env n = (early n).or (late n) := by
    intro n hn
    refine (tracks.recordedUnit? (a.references n hn)).trans ?_
    rw [if_pos hn]
    exact congrArg _ (a.retried_eq hn)
  have imports : (state.env.scopes.get model.scope).imports =
      model.tree.usesEntries.filterMap early ++ model.tree.usesEntries.filterMap late := by
    refine tracks.imports.trans ?_
    dsimp only
    rw [show (session.collectionContext model.tree model.scope).tree = model.tree from rfl,
      a.pending, List.filterMap_filterMap]
    rfl
  have passes : ∀ n unit, early n = some unit → decide (unit.index < model.scope.index) = true := by
    intro n unit hu
    obtain ⟨name, -, hknown⟩ := Option.bind_eq_some_iff.1 hu
    exact decide_eq_true (a.early name unit hknown)
  have fails : ∀ n unit, late n = some unit → decide (unit.index < model.scope.index) = false :=
    fun n unit hu => decide_eq_false (Nat.not_lt.2 (a.le_of_lateScope? hu))
  have disjoint : ∀ n, (early n).isSome → late n = none := by
    intro n hn
    obtain ⟨unit, hunit⟩ := Option.isSome_iff_exists.1 hn
    obtain ⟨name, hname, hknown⟩ := Option.bind_eq_some_iff.1 hunit
    exact (lateScope?_eq hname).trans (by simp [hknown])
  obtain ⟨before, behind⟩ := filter_filterMap_or passes fails disjoint model.tree.usesEntries
  have recorded : recordedUnits { session with env := state.env }
      { model with annotations := state.annotations } =
        model.tree.usesEntries.filterMap fun n => (early n).or (late n) :=
    List.filterMap_congr unitAt
  refine ⟨⟨tracks.has, fun n hn d hd => tracks.has_declaration (a.references n hn) hd, ?_⟩, recorded⟩
  rw [recorded, before]
  simp only [← Nat.not_lt, decide_not, behind]
  exact imports

/-- The entries of another unit are looked up again. -/
theorem Awaiting.retryOther (a : session.Awaiting known model) (h : session.Valid) {other : Model}
    (opened : Open session.env other) (hne : model.scope ≠ other.scope) :
    (session.retryImports other).2.Awaiting known model := by
  have grows := (h.retryImports opened).1.grows
  obtain ⟨env, steps, heq⟩ := session.retryImports_snd other
  rw [heq] at grows ⊢
  exact { a with tracks := a.tracks.extend grows (steps.imports a.tracks.has hne) }

theorem Arranged.retryAll (a : session.Arranged model) (h : session.Valid)
    {models : List (Nat × Model)} (opened : ∀ entry ∈ models, Open session.env entry.2)
    (hne : ∀ entry ∈ models, model.scope ≠ entry.2.scope) :
    (session.retryAll models).2.Arranged model := by
  induction models generalizing session with
  | nil => exact a
  | cons entry rest ih =>
    simp only [List.forall_mem_cons] at opened hne
    obtain ⟨works, steady, -⟩ := h.retryImports opened.1
    have first : (session.retryImports entry.2).2.Arranged model := by
      have grows := works.grows
      obtain ⟨env, steps, heq⟩ := session.retryImports_snd entry.2
      rw [heq] at grows ⊢
      exact a.extend grows (steps.imports a.has hne.1)
    unfold Session.retryAll
    generalize session.retryImports entry.2 = ran at works steady first
    obtain ⟨cause | model', mid⟩ := ran
    · exact first
    · have more := ih first works.valid (fun other hother =>
        (opened.2 other hother).later h.founded.wellFormed works.grows steady) hne.2
      dsimp only
      generalize mid.retryAll rest = ran at more
      obtain ⟨cause | models, after⟩ := ran <;> exact more

/-- Once the entries of all units of a batch are looked up again, the imports of all are arranged. -/
theorem Valid.arranged_retryAll (h : session.Valid) {models results : List (Nat × Model)}
    (opened : ∀ entry ∈ models, Open session.env entry.2)
    (waits : ∀ entry ∈ models, ∃ known, session.Awaiting known entry.2)
    (distinct : models.Pairwise fun first second => first.2.scope ≠ second.2.scope)
    (hok : (session.retryAll models).1 = .ok results) :
    results.map (fun entry => (entry.1, entry.2.tree)) =
        models.map (fun entry => (entry.1, entry.2.tree)) ∧
      ∀ entry ∈ results, (session.retryAll models).2.Arranged entry.2 := by
  induction models generalizing session results with
  | nil =>
    cases hok
    simp
  | cons entry rest ih =>
    simp only [List.forall_mem_cons, List.pairwise_cons] at opened waits distinct
    obtain ⟨⟨known, waits⟩, others⟩ := waits
    obtain ⟨works, steady, -⟩ := h.retryImports opened.1
    obtain ⟨model, hmodel, htree, hscope, arranged, -⟩ := waits.retryImports opened.1.unfrozen
    have awaiting : ∀ other ∈ rest, ∃ known,
        (session.retryImports entry.2).2.Awaiting known other.2 := by
      intro other hother
      obtain ⟨known, waits⟩ := others other hother
      exact ⟨known, waits.retryOther h opened.1 (distinct.1 other hother).symm⟩
    have opened : ∀ other ∈ rest, Open (session.retryImports entry.2).2.env other.2 :=
      fun other hother => (opened.2 other hother).later h.founded.wellFormed works.grows steady
    have valid := works.valid
    unfold Session.retryAll at hok ⊢
    generalize session.retryImports entry.2 = ran at *
    obtain ⟨outcome, mid⟩ := ran
    cases hmodel
    have stays := arranged.retryAll valid opened fun other hother => hscope ▸ distinct.1 other hother
    dsimp only at hok stays ⊢
    have more := @ih mid
    generalize mid.retryAll rest = ran at hok stays more ⊢
    obtain ⟨cause | results, after⟩ := ran
    · cases hok
    · cases hok
      obtain ⟨same, each⟩ := more valid opened awaiting distinct.2 rfl
      refine ⟨by simp [htree, same], List.forall_mem_cons.2 ⟨stays, each⟩⟩

end Retrying

/-! ## Whole batches -/

section Batches

variable {session : Session} {model : Model}

theorem declaration?_resolve (session : Session) (model : Model) (n : NodeId) :
    (session.resolve model).2.annotations.declaration? n = model.annotations.declaration? n :=
  (Typing.steps_resolveNode ..).declaration?_eq n

theorem recordedUnits_resolve (session : Session) (model : Model) :
    session.recordedUnits (session.resolve model).2 = session.recordedUnits model :=
  List.filterMap_congr fun n _ => congrArg (Option.bind · _) (session.declaration?_resolve model n)

theorem Arranged.resolve (a : session.Arranged model) :
    session.Arranged (session.resolve model).2 := by
  refine ⟨a.has, fun n hn d hd => ?_, ?_⟩
  · exact a.recorded n hn d ((session.declaration?_resolve model n).symm.trans hd)
  · rw [recordedUnits_resolve]
    exact a.imports

theorem Arranged.freezeAll (a : session.Arranged model) (models : List (Nat × Model)) :
    (models.foldl (fun session entry => session.freeze entry.2) session).Arranged model := by
  induction models generalizing session with
  | nil => exact a
  | cons entry rest ih =>
    have later := @Environment.later_freezeScope (fun _ => False) session.env entry.2.scope
    exact ih (a.extend (Environment.extends_freezeScope session.env entry.2.scope)
      (later.imports _ a.has (.inr id)))

/-- Values that stand at the places of a list, sorted by their places, are the list. -/
theorem map_mergeSort_eq {A B : Type} {entries : List (Nat × A)} {f : A → B} {l : List B}
    (places : (entries.map (·.1)).Perm (List.range l.length))
    (values : ∀ entry ∈ entries, l[entry.1]? = some (f entry.2)) :
    (entries.mergeSort fun a b => a.1 ≤ b.1).map (fun entry => f entry.2) = l := by
  have perm := List.mergeSort_perm entries fun a b => decide (a.1 ≤ b.1)
  have ordered := @List.pairwise_mergeSort _ (fun a b : Nat × A => decide (a.1 ≤ b.1))
    (by simp only [decide_eq_true_eq]; omega)
    (by simp only [Bool.or_eq_true, decide_eq_true_eq]; omega) entries
  generalize entries.mergeSort (fun a b => decide (a.1 ≤ b.1)) = sorted at perm ordered
  have hplaces : sorted.map (·.1) = List.range l.length := by
    refine @List.Perm.eq_of_pairwise _ (· ≤ ·) _ _ (fun _ _ _ _ => Nat.le_antisymm) ?_ ?_
      ((perm.map _).trans places)
    · exact List.pairwise_map.2 (ordered.imp of_decide_eq_true)
    · exact List.pairwise_lt_range.imp Nat.le_of_lt
  apply (List.map_inj_right fun _ _ => Option.some.inj).1
  calc (sorted.map fun entry => f entry.2).map some
      = sorted.map fun entry => l[entry.1]? := by
        rw [List.map_map]
        exact List.map_congr_left fun entry hentry => (values entry (perm.mem_iff.1 hentry)).symm
    _ = (List.range l.length).map (l[·]?) := by
        rw [← hplaces, List.map_map]
        rfl
    _ = l.map some := by apply List.ext_getElem <;> simp

/-- A batch that succeeds gives the models of its trees, and the imports of all are arranged. -/
theorem Valid.arranged_analyzeBatch (h : session.Valid) {trees : List SyntaxTree}
    {models : List Model} (hok : (session.analyzeBatch trees).1 = .ok models) :
    models.map (·.tree) = trees ∧
      ∀ model ∈ models, (session.analyzeBatch trees).2.Arranged model := by
  obtain ⟨collected, retried, hcollected, hretried, rfl, hafter⟩ := analyzeBatch_eq_ok hok
  obtain ⟨each, ordered, places⟩ := h.awaiting_collectAll hcollected
  have stage := stage_collectAll (keeps_works session).collect h.works trees (dependencyOrder trees)
  have distinct : collected.Pairwise fun first second => first.2.scope ≠ second.2.scope :=
    ordered.imp fun hlt heq => Nat.ne_of_lt hlt (congrArg ScopeId.index heq)
  obtain ⟨same, arranged⟩ := stage.after.valid.arranged_retryAll (stage.given _ hcollected)
    (fun entry hentry => (each entry hentry).2.2) distinct hretried
  have perm := dependencyOrder_perm trees
  constructor
  · rw [List.map_map]
    refine map_mergeSort_eq ?_ fun entry hentry => ?_
    · have kept : (dependencyOrder trees).filter (· < trees.length) = dependencyOrder trees :=
        List.filter_eq_self.2 fun i hi => by simpa using perm.mem_iff.1 hi
      have same := congrArg (List.map Prod.fst) same
      simp only [List.map_map, Function.comp_def] at same ⊢
      rw [same, places, kept]
      exact perm
    · obtain ⟨first, hfirst, rfl⟩ := List.mem_map.1 hentry
      have found : (first.1, first.2.tree) ∈ collected.map fun entry => (entry.1, entry.2.tree) :=
        same ▸ List.mem_map_of_mem hfirst
      obtain ⟨origin, horigin, heq⟩ := List.mem_map.1 found
      obtain ⟨hplace, htree⟩ : origin.1 = first.1 ∧ origin.2.tree = first.2.tree :=
        Prod.ext_iff.1 heq
      refine (congrArg (trees[·]?) hplace.symm).trans ((each origin horigin).1.trans ?_)
      exact congrArg some htree
  · intro model hmodel
    obtain ⟨entry, hentry, rfl⟩ := List.mem_map.1 hmodel
    obtain ⟨first, hfirst, rfl⟩ := List.mem_map.1 (List.mem_mergeSort.1 hentry)
    rw [hafter]
    exact (arranged first hfirst).resolve.freezeAll _

/-- A unit of a batch imports the units recorded at its entries that were collected before it, in the
order in which they are written, and then the others. This is the order of all entries exactly if no
unit that was collected before it is written behind one that was not. -/
theorem analyzeBatch_imports (settings : Settings) (operations : List Operation)
    (trees : List SyntaxTree) (models : List Model)
    (hok : (((start settings).run operations).analyzeBatch trees).1 = .ok models) :
    let after := (((start settings).run operations).analyzeBatch trees).2
    models.map (·.tree) = trees ∧ ∀ model ∈ models,
      let recorded := after.recordedUnits model
      let imports := (after.env.scopes.get model.scope).imports
      imports = recorded.filter (·.index < model.scope.index) ++
          recorded.filter (model.scope.index ≤ ·.index) ∧
        (imports = recorded ↔ recorded.Pairwise fun first second =>
          second.index < model.scope.index → first.index < model.scope.index) := by
  intro after
  obtain ⟨htrees, arranged⟩ := (valid_run settings operations).arranged_analyzeBatch hok
  refine ⟨htrees, fun model hmodel => ⟨(arranged model hmodel).imports, ?_⟩⟩
  rw [(arranged model hmodel).imports]
  simpa only [← Nat.not_lt, decide_not, decide_eq_true_eq] using
    filter_append_filter_not_eq_iff (fun unit : ScopeId => decide (unit.index < model.scope.index))
      (after.recordedUnits model)

end Batches

/-! ## A unit that uses itself -/

/-- A unit that uses itself and then the System unit. -/
def selfUser : SyntaxTree where
  nodes := #[{ kind := .unitReference "Sample" }, { kind := .unitReference "System" },
    { kind := .usesClause, children := [⟨0⟩, ⟨1⟩] }, { kind := .unit "Sample", children := [⟨2⟩] }]
  root := ⟨3⟩
  ordered := by decide

attribute [local irreducible] Text.lowercase in
/-- The unit finds itself only when its uses are looked at again. -/
theorem collect_selfUser : ∃ model after, (start {}).collect selfUser = (.ok model, after) ∧
    (match after.retryImports model with
    | (.ok retried, last) => decide (last.recordedUnits retried = [model.scope, ⟨0⟩])
    | (.error _, _) => false) = true :=
  exists_collected (by cbv)

theorem complete_selfUser (n : NodeId) : selfUser.missing? n = none := by
  match n with
  | ⟨0⟩ | ⟨1⟩ | ⟨2⟩ | ⟨3⟩ | ⟨_ + 4⟩ => rfl

/-- The unit imports the System unit, which was there before, in front of itself. -/
theorem selfUser_imports :
    let session := (start {}).run []
    let after := (session.analyzeBatch [selfUser]).2
    ∃ model, (session.analyzeBatch [selfUser]).1 = .ok [model] ∧ 0 < model.scope.index ∧
      after.recordedUnits model = [model.scope, ⟨0⟩] ∧
      (after.env.scopes.get model.scope).imports = [⟨0⟩, model.scope] := by
  intro session after
  have valid : session.Valid := valid_start {}
  obtain ⟨collected, mid, ran, recorded⟩ := collect_selfUser
  have hcollect : (session.collect selfUser).1 = .ok collected := congrArg Prod.fst ran
  obtain ⟨htree, hscope, waits⟩ := valid.awaiting_collect hcollect
  obtain ⟨retried, hretry, htree', hscope', arranged, -⟩ :=
    waits.retryImports ((valid.collects selfUser).model _ hcollect).unfrozen
  rw [show session.collect selfUser = _ from ran] at hretry arranged
  let last := (mid.retryImports collected).2
  have again : mid.retryImports collected = (.ok retried, last) := Prod.ext hretry rfl
  rw [again] at recorded
  have arranged : last.Arranged retried := arranged
  let model := (last.resolve retried).2
  have found : last.resolve retried = (.ok (), model) := by
    refine Prod.ext ?_ rfl
    rw [resolve_of_complete _ (htree'.trans htree ▸ complete_selfUser)]
  have hok : session.analyzeBatch [selfUser] = (.ok [model], last.freeze model) := by
    have order : dependencyOrder [selfUser] = [0] := by decide
    have ran : session.collect selfUser = (.ok collected, mid) := ran
    simp [analyzeBatch, order, collectAll, ran, retryAll, again, resolveAll, found]
  have positive : 0 < model.scope.index := by
    rw [show model.scope = session.nextFile from hscope'.trans hscope]
    exact Nat.zero_lt_of_lt valid.has_system
  have recorded : after.recordedUnits model = [model.scope, ⟨0⟩] := by
    have frozen := Environment.extends_freezeScope last.env model.scope
    have same : after = last.freeze model := congrArg Prod.snd hok
    rw [same, arranged.resolve.recordedUnits_extend frozen, recordedUnits_resolve]
    exact (of_decide_eq_true recorded).trans (congrArg (fun s => [s, ⟨0⟩]) hscope'.symm)
  refine ⟨model, congrArg Prod.fst hok, positive, recorded, ?_⟩
  obtain ⟨imports, -⟩ := (analyzeBatch_imports {} [] [selfUser] [model]
    (congrArg Prod.fst hok)).2 model (by simp)
  refine imports.trans ?_
  rw [show Session.recordedUnits _ model = _ from recorded]
  simp [positive, Nat.not_le.2 positive]

end Session

end Pascal
