import Mathlib
import Pascal.Proofs.Dependencies
import Pascal.Proofs.Session.Units

/-!
# The order in which a batch is collected

The units of a batch are collected in the order of their dependencies, and each gets the next file
scope. A unit that refers to another one by its name is collected after it, if the other one depends
on no circle. If it does, the two are collected as they are given, also where the first is not part
of the circle itself.

## Main results

- `Session.analyzeBatch_order`: which of two units is collected first.
-/

namespace Pascal.Session

open Relation

/-- A unit is registered that was not before. -/
def Gains (session after : Session) (key : FoldedName) (entry : UnitEntry) : Prop :=
  session.units[key]? = none ∧ after.units[key]? = some entry

/-- Of two units, the second is collected only after the first. -/
def CollectsBefore (session after : Session) (first second : FoldedName) : Prop :=
  ∀ entry, session.Gains after second entry →
    ∃ early, session.Gains after first early ∧ early.scope.index < entry.scope.index

section Collecting

variable {session after : Session} {tree : SyntaxTree} {trees : List SyntaxTree}
  {order : List Nat}

/-- A collection that succeeds registers one unit, with the next file scope. -/
theorem Valid.collect_registers (h : session.Valid) {model : Model}
    (hok : (session.collect tree).1 = .ok model) :
    session.units[Name.fold tree.unitName]? = none ∧
      (∀ key, (session.collect tree).2.units[key]? =
        if Name.fold tree.unitName = key then
          some { name := tree.unitName, scope := session.nextFile }
        else session.units[key]?) ∧
      session.nextFile.index < (session.collect tree).2.nextFile.index := by
  have valid := (h.collects tree).valid
  obtain ⟨name, env, hroot, free, heq⟩ := collect_of_ok hok
  have hname : tree.unitName = name := by simp [SyntaxTree.unitName, hroot]
  rw [hname]
  have registered : (session.collect tree).2.units =
      session.units.insert (Name.fold name) { name, scope := session.nextFile } := by rw [heq]
  refine ⟨(isTaken_eq_false free).1, fun key => ?_, ?_⟩
  · simp [registered, Std.HashMap.getElem?_insert]
  · exact (valid.units (Name.fold name) { name, scope := session.nextFile } (by simp [registered])).1

theorem units_collect_of_error {cause : AnalysisError}
    (herror : (session.collect tree).1 = .error cause) :
    (session.collect tree).2.units = session.units := by
  obtain ⟨env, heq⟩ := collect_of_error herror
  rw [heq]

theorem collectAll_of_none {i : Nat} (hi : trees[i]? = none) :
    session.collectAll trees (i :: order) = session.collectAll trees order := by
  rw [collectAll, hi]

theorem collectAll_of_error {i : Nat} {cause : AnalysisError} (hi : trees[i]? = some tree)
    (herror : (session.collect tree).1 = .error cause) :
    (session.collectAll trees (i :: order)).2 = (session.collect tree).2 := by
  simp only [collectAll, hi]
  generalize session.collect tree = ran at herror
  obtain ⟨outcome, mid⟩ := ran
  cases herror
  rfl

theorem collectAll_of_ok {i : Nat} {model : Model} (hi : trees[i]? = some tree)
    (hok : (session.collect tree).1 = .ok model) :
    (session.collectAll trees (i :: order)).2 =
      ((session.collect tree).2.collectAll trees order).2 := by
  simp only [collectAll, hi]
  generalize session.collect tree = ran at hok
  obtain ⟨outcome, mid⟩ := ran
  cases hok
  dsimp only
  generalize mid.collectAll trees order = ran
  obtain ⟨cause | models, last⟩ := ran <;> rfl

/-- Units get file scopes that were not there before. -/
theorem Valid.nextFile_le_of_gains (h : session.Valid) {key : FoldedName} {entry : UnitEntry}
    (gains : session.Gains (session.collectAll trees order).2 key entry) :
    session.nextFile.index ≤ entry.scope.index := by
  induction order generalizing session with
  | nil => cases gains.1.symm.trans gains.2
  | cons i rest ih =>
    cases hi : trees[i]? with
    | none =>
      rw [collectAll_of_none hi] at gains
      exact ih h gains
    | some tree =>
      obtain ⟨hnone, hsome⟩ := gains
      cases hc : (session.collect tree).1 with
      | error cause =>
        rw [collectAll_of_error hi hc, units_collect_of_error hc] at hsome
        cases hnone.symm.trans hsome
      | ok model =>
        rw [collectAll_of_ok hi hc] at hsome
        obtain ⟨-, registered, hlt⟩ := h.collect_registers hc
        by_cases hkey : Name.fold tree.unitName = key
        · subst hkey
          have stays := ((session.collect tree).2.retains_collectAll trees rest).units
            (Name.fold tree.unitName) _ ((registered _).trans (if_pos rfl))
          cases stays.symm.trans hsome
          exact Nat.le_refl _
        · have hstill : (session.collect tree).2.units[key]? = none := by
            rw [registered, if_neg hkey, hnone]
          exact Nat.le_of_lt (hlt.trans_le (ih (h.collects tree).valid ⟨hstill, hsome⟩))

/-- Units are collected one after the other. -/
theorem Valid.collectsBefore_collectAll (h : session.Valid) (nodup : order.Nodup)
    (distinct : (trees.map fun tree => Name.fold tree.unitName).Nodup) {i j : Nat}
    {first second : SyntaxTree} (hi : trees[i]? = some first) (hj : trees[j]? = some second)
    (sub : [i, j].Sublist order) :
    session.CollectsBefore (session.collectAll trees order).2 (Name.fold first.unitName)
      (Name.fold second.unitName) := by
  induction order generalizing session with
  | nil => simp at sub
  | cons k rest ih =>
    rw [List.nodup_cons] at nodup
    cases hk : trees[k]? with
    | none =>
      rw [collectAll_of_none hk]
      cases sub with
      | cons _ sub => exact ih h nodup.2 sub
      | cons_cons _ sub => cases hk.symm.trans hi
    | some tree =>
      rintro entry ⟨hnone, hsome⟩
      have valid := (h.collects tree).valid
      cases hc : (session.collect tree).1 with
      | error cause =>
        rw [collectAll_of_error hk hc, units_collect_of_error hc] at hsome
        cases hnone.symm.trans hsome
      | ok model =>
        rw [collectAll_of_ok hk hc] at hsome ⊢
        obtain ⟨free, registered, hlt⟩ := h.collect_registers hc
        have hjrest : j ∈ rest := by
          cases sub with
          | cons _ sub => exact sub.subset (by simp)
          | cons_cons _ sub => exact List.singleton_sublist.1 sub
        have hother : Name.fold tree.unitName ≠ Name.fold second.unitName :=
          fold_unitName_ne distinct hk hj fun heq => nodup.1 (heq ▸ hjrest)
        have hstill : (session.collect tree).2.units[Name.fold second.unitName]? = none := by
          rw [registered, if_neg hother, hnone]
        cases sub with
        | cons _ sub =>
          obtain ⟨early, ⟨hfree, hearly⟩, hbefore⟩ := ih valid nodup.2 sub entry ⟨hstill, hsome⟩
          refine ⟨early, ⟨?_, hearly⟩, hbefore⟩
          have hthis : Name.fold tree.unitName ≠ Name.fold first.unitName :=
            fold_unitName_ne distinct hk hi fun heq => nodup.1 (heq ▸ sub.subset (by simp))
          rwa [registered, if_neg hthis] at hfree
        | cons_cons _ sub =>
          -- The first of the two is collected now, the second finds a larger tree of scopes.
          cases hk.symm.trans hi
          have stays := ((session.collect first).2.retains_collectAll trees rest).units
            (Name.fold first.unitName) _ ((registered _).trans (if_pos rfl))
          exact ⟨_, ⟨free, stays⟩, hlt.trans_le (valid.nextFile_le_of_gains ⟨hstill, hsome⟩)⟩

end Collecting

/-! ## Batches -/

section Batches

variable {session : Session}

theorem units_retryAll (session : Session) (models : List (Nat × Model)) :
    (session.retryAll models).2.units = session.units := by
  refine (stage_retryAll (I := fun after => after.units = session.units) (M := fun _ _ => True) ?_
    rfl fun _ _ => trivial).after
  intro mid model h _
  obtain ⟨env, -, heq⟩ := mid.retryImports_snd model
  exact ⟨heq ▸ h, fun _ _ => trivial, fun _ _ => trivial⟩

/-- After the units of a batch are collected, no further unit is registered. -/
theorem units_analyzeBatch (session : Session) (trees : List SyntaxTree) :
    (session.analyzeBatch trees).2.units =
      (session.collectAll trees (dependencyOrder trees)).2.units := by
  unfold analyzeBatch
  generalize session.collectAll trees (dependencyOrder trees) = ran
  obtain ⟨cause | models, mid⟩ := ran
  · rfl
  · have retried := mid.units_retryAll models
    dsimp only
    generalize mid.retryAll models = ran at retried
    obtain ⟨cause | models, last⟩ := ran
    · exact retried
    · dsimp only
      split
      · exact retried
      · exact freezeAll_keeps (I := fun after => after.units = mid.units) (fun h _ => h) retried _

end Batches

theorem mentions_importingUnit {name used : String} {other : SyntaxTree} :
    (importingUnit name used).Mentions other ↔ Name.fold used = Name.fold other.unitName := by
  simp [SyntaxTree.Mentions, importingUnit]

/-- A unit in front of the two units of a circle, one of which it uses. -/
def circleBatch : List SyntaxTree :=
  [importingUnit "Front" "Left", importingUnit "Left" "Right", importingUnit "Right" "Left"]

attribute [local irreducible] Text.lowercase in
theorem isSome_collectAll_circleBatch :
    (((start {}).collectAll circleBatch [0, 1, 2]).2.units[Name.fold "Right"]?).isSome = true := by
  cbv

/-- Of two units of a batch, one of which refers to the other one by its name, the other one is
collected first, unless it depends on a circle and is given later; then it is collected later, even
if it does not need the unit that refers to it. -/
theorem analyzeBatch_order (settings : Settings) (operations : List Operation)
    (trees : List SyntaxTree) (distinct : (trees.map fun tree => Name.fold tree.unitName).Nodup)
    {u v : Nat} {user used : SyntaxTree} (hu : trees[u]? = some user) (hv : trees[v]? = some used)
    (hne : v ≠ u) (mentions : user.Mentions used) :
    let session := (start settings).run operations
    let after := (session.analyzeBatch trees).2
    (dependencyOrder trees).Perm (List.range trees.length) ∧
      (¬Tangled (DependsOn trees) v ∨ v < u →
        [v, u].Sublist (dependencyOrder trees) ∧
          session.CollectsBefore after (Name.fold used.unitName) (Name.fold user.unitName)) ∧
      (Tangled (DependsOn trees) v → u < v →
        [u, v].Sublist (dependencyOrder trees) ∧
          session.CollectsBefore after (Name.fold user.unitName) (Name.fold used.unitName)) := by
  intro session after
  have valid : session.Valid := valid_run settings operations
  have perm := dependencyOrder_perm trees
  have collects : ∀ {i j : Nat} {first second : SyntaxTree}, trees[i]? = some first →
      trees[j]? = some second → [i, j].Sublist (dependencyOrder trees) →
      session.CollectsBefore after (Name.fold first.unitName) (Name.fold second.unitName) := by
    intro i j first second hi hj sub
    have before := valid.collectsBefore_collectAll (perm.nodup_iff.2 List.nodup_range) distinct hi
      hj sub
    simp only [CollectsBefore, Gains] at before ⊢
    rwa [show after.units = _ from units_analyzeBatch session trees]
  have depends : DependsOn trees u v := ⟨hne, user, used, hu, hv, mentions⟩
  have hlu : u < trees.length := (List.getElem?_eq_some_iff.1 hu).1
  have hlv : v < trees.length := (List.getElem?_eq_some_iff.1 hv).1
  rw [← needs_eq_dependsOn distinct] at depends ⊢
  refine ⟨perm, fun hfirst => ?_, fun tangled hlt => ?_⟩
  · have sub : [v, u].Sublist (dependencyOrder trees) := by
      by_cases free : Tangled (Needs (batchDependencies trees)) v
      · have hlt := hfirst.resolve_left (not_not.2 free)
        exact sublist_of_tangled hlt hlu free (free.of_rel depends)
      · exact sublist_of_not_tangled depends hlu free
    exact ⟨sub, collects hv hu sub⟩
  · have sub := sublist_of_tangled hlt hlv (tangled.of_rel depends) tangled
    exact ⟨sub, collects hu hv sub⟩

/-- The unit in front of the circle is collected before the unit that it uses, which does not need
it. -/
theorem circleBatch_order :
    let session := (start {}).run []
    let after := (session.analyzeBatch circleBatch).2
    ¬ReflTransGen (DependsOn circleBatch) 1 0 ∧ DependsOn circleBatch 0 1 ∧
      [0, 1].Sublist (dependencyOrder circleBatch) ∧
      session.CollectsBefore after (Name.fold "Front") (Name.fold "Left") ∧
      [1, 2].Sublist (dependencyOrder circleBatch) ∧
      session.CollectsBefore after (Name.fold "Left") (Name.fold "Right") ∧
      ∃ entry, session.Gains after (Name.fold "Right") entry := by
  intro session after
  have frontLeft : DependsOn circleBatch 0 1 :=
    ⟨by decide, _, _, rfl, rfl, mentions_importingUnit.2 rfl⟩
  have leftRight : DependsOn circleBatch 1 2 :=
    ⟨by decide, _, _, rfl, rfl, mentions_importingUnit.2 rfl⟩
  have rightLeft : DependsOn circleBatch 2 1 :=
    ⟨by decide, _, _, rfl, rfl, mentions_importingUnit.2 rfl⟩
  have tangled : Tangled (DependsOn circleBatch) 1 :=
    ⟨1, .refl, .head leftRight (.single rightLeft)⟩
  have unneeded : ∀ i, ¬DependsOn circleBatch i 0 := by
    rintro i ⟨-, tree, other, htree, hother, mentions⟩
    cases hother
    have htree := List.mem_of_getElem? htree
    simp only [circleBatch, List.mem_cons, List.not_mem_nil, or_false] at htree
    obtain rfl | rfl | rfl := htree
    all_goals exact absurd (mentions_importingUnit.1 mentions) (by decide)
  have distinct : (circleBatch.map fun tree => Name.fold tree.unitName).Nodup := by decide
  have order : dependencyOrder circleBatch = [0, 1, 2] := by decide
  obtain ⟨-, -, later⟩ := analyzeBatch_order {} [] circleBatch distinct rfl rfl frontLeft.1
    (mentions_importingUnit.2 rfl)
  obtain ⟨-, sooner, -⟩ := analyzeBatch_order {} [] circleBatch distinct rfl rfl rightLeft.1
    (mentions_importingUnit.2 rfl)
  obtain ⟨frontFirst, front⟩ := later tangled (by decide)
  obtain ⟨leftFirst, left⟩ := sooner (.inr (by decide))
  refine ⟨fun reach => ?_, frontLeft, frontFirst, front, leftFirst, left, ?_⟩
  · obtain heq | ⟨i, -, hi⟩ := reach.cases_tail
    · cases heq
    · exact unneeded i hi
  · obtain ⟨entry, hentry⟩ := Option.isSome_iff_exists.1 isSome_collectAll_circleBatch
    refine ⟨entry, Std.HashMap.getElem?_empty, ?_⟩
    change (session.analyzeBatch circleBatch).2.units[_]? = _
    rw [units_analyzeBatch, order]
    exact hentry

end Pascal.Session
