import Pascal.Proofs.Collection.Invariants
import Pascal.Proofs.Session.Repetition

/-!
# Invariants of a session

A session opens units, collects them, closes and discards them, and types expressions. A property of
its tables that each of these keeps holds in every session, and a property of what is remembered about
a unit holds of every unit that a session gave out, whatever has been asked about it since. Until a
unit is given out, more may be known about it, because nothing but a collection has touched it.

## Main results

- `Session.Invariant.run`: the property of the tables holds in every session.
- `Session.Invariant.holds`: the property of what is remembered holds of every unit.
-/

namespace Pascal.Session

/-- Properties of the tables and of what is remembered about a unit that all work keeps: `C` while
the unit is collected, and `A` once it is given out. -/
structure Invariant (T : Ty → Prop) (P : Environment → Prop) (C A : SyntaxTree → Annotations → Prop) :
    Prop where
  openUnit {env : Environment} (h : P env) (system : ScopeId) (name : String) :
    P (env.openUnit system name)
  freezeScope {env : Environment} (h : P env) (file : ScopeId) : P (env.freezeScope file)
  discardScope {env : Environment} (h : P env) (file : ScopeId) : P (env.discardScope file)
  collection (ctx : CollectionContext) : Collecting.UseInvariant ctx T fun σ =>
    P σ.env ∧ C ctx.tree σ.annotations ∧ A ctx.tree σ.constants
  blank (tree : SyntaxTree) : C tree {}
  sealIssues {tree : SyntaxTree} {a : Annotations} (h : C tree a) : C tree a.sealIssues
  given {tree : SyntaxTree} {a : Annotations} (h : C tree a) : A tree a
  resetResolution {tree : SyntaxTree} {a : Annotations} (h : A tree a) :
    A tree (a.resetResolution tree)
  typed {ctx : TypingContext} {s : TypingState} (henv : P ctx.env) (h : A ctx.tree s.annotations)
    (scope : ScopeId) (n : NodeId) : A ctx.tree ((Typing.typeOf ctx scope n).run s).2.annotations
  passed {ctx : TypingContext} {s : TypingState} (henv : P ctx.env) (h : A ctx.tree s.annotations)
    (scope : ScopeId) (n : NodeId) :
    A ctx.tree ((Typing.resolveNode ctx scope n).run s).2.annotations

/-- The units that an operation gives out. -/
def given (session : Session) : Operation → List Model
  | .collect tree => (session.collect tree).1.toOption.toList
  | .analyze tree => (session.analyze tree).1.toOption.toList
  | .analyzeBatch trees => (session.analyzeBatch trees).1.toOption.getD []
  | _ => []

/-- A session at work, with a unit that it gave out and what has been asked about the unit. -/
inductive Holds (settings : Settings) : Session → Model → Prop
  | given (operations : List Operation) (operation : Operation) {model : Model}
      (h : model ∈ ((start settings).run operations).given operation) :
    Holds settings (((start settings).run operations).perform operation) model
  | perform {session : Session} {model : Model} (h : Holds settings session model)
      (operation : Operation) : Holds settings (session.perform operation) model
  | ask {session : Session} {model : Model} (h : Holds settings session model) (query : Query) :
    Holds settings session (session.ask model query)

namespace Invariant

variable {T : Ty → Prop} {P : Environment → Prop} {C A : SyntaxTree → Annotations → Prop}
  (inv : Invariant T P C A) {session : Session} (hs : P session.env)

include inv

section Units

include hs

theorem collect (tree : SyntaxTree) : Kept (fun session => P session.env)
    (fun _ model => C model.tree model.annotations) session (session.collect tree) := by
  unfold Session.collect
  split
  · rename_i name hroot
    split_ifs
    · exact ⟨hs, by simp, fun _ h => h⟩
    · have root : (tree.kind tree.root).isExpression = false := by rw [hroot]; rfl
      have kept := (((inv.collection (session.collectionContext tree session.nextFile)).unit root)
        { env := session.env.openUnit session.system.scope name }
        ⟨inv.openUnit hs _ name, inv.blank tree, inv.given (inv.blank tree)⟩).1
      rw [collectNamed_eq]
      change P (session.collecting name tree).2.env ∧
        C tree (session.collecting name tree).2.annotations ∧
        A tree (session.collecting name tree).2.constants at kept
      generalize session.collecting name tree = ran at kept
      obtain ⟨cause | ⟨⟩, state⟩ := ran
      · exact ⟨inv.discardScope kept.1 _, by simp, fun _ h => h⟩
      · refine ⟨kept.1, ?_, fun _ h => h⟩
        rintro _ ⟨⟩
        exact inv.sealIssues kept.2.1
  · exact ⟨hs, by simp, fun _ h => h⟩

theorem resolve {model : Model} (h : A model.tree model.annotations) :
    A model.tree (session.resolve model).2.annotations :=
  @passed _ _ _ _ inv ⟨session.env, model.tree⟩ _ hs (inv.resetResolution h) _ _

theorem typeOf {model : Model} (h : A model.tree model.annotations) (n : NodeId) :
    A (session.typeOf model n).2.tree (session.typeOf model n).2.annotations := by
  unfold Session.typeOf Environment.typeOf
  split
  · exact h
  · exact @typed _ _ _ _ inv ⟨session.env, model.tree⟩ _ hs h _ _

theorem discard (name : String) : P (session.discard name).2.env := by
  unfold Session.discard
  split
  · exact inv.discardScope hs _
  · exact hs

end Units

/-! ## Batches -/

section Batches

include hs

theorem retryImports {model : Model} (h : C model.tree model.annotations) :
    Kept (fun session => P session.env) (fun _ model => C model.tree model.annotations) session
      (session.retryImports model) := by
  have kept := ((inv.collection (session.collectionContext model.tree model.scope)).retryImports
    { env := session.env, annotations := model.annotations }
    ⟨hs, h, inv.given (inv.blank model.tree)⟩).1
  simp only [Session.retryImports]
  generalize (Collecting.retryImports (session.collectionContext model.tree model.scope)).run.run
    { env := session.env, annotations := model.annotations } = ran at kept ⊢
  obtain ⟨cause | ⟨⟩, state⟩ := ran
  · exact ⟨kept.1, by simp, fun _ h => h⟩
  · refine ⟨kept.1, ?_, fun _ h => h⟩
    rintro _ ⟨⟩
    exact kept.2.1

omit hs in
theorem keeps : Keeps (fun session => P session.env)
    (fun _ model => C model.tree model.annotations) where
  collect hs tree := inv.collect hs tree
  retryImports hs h := inv.retryImports hs h
  freeze hs model := inv.freezeScope hs model.scope

theorem given_analyze {tree : SyntaxTree} {model : Model}
    (hok : (session.analyze tree).1 = .ok model) : A model.tree model.annotations := by
  have collected := inv.collect hs tree
  unfold Session.analyze at hok
  generalize session.collect tree = ran at collected hok
  obtain ⟨cause | given, mid⟩ := ran
  · cases hok
  · have resolved := inv.resolve collected.after (inv.given (collected.given given rfl))
    have same : (mid.resolve given).2.tree = given.tree := rfl
    rw [← same] at resolved
    dsimp only at hok
    generalize mid.resolve given = ran at resolved hok
    obtain ⟨cause | ⟨⟩, model⟩ := ran
    · cases hok
    · cases hok
      exact resolved

theorem given_analyzeBatch {trees : List SyntaxTree} {models : List Model}
    (hok : (session.analyzeBatch trees).1 = .ok models) :
    ∀ model ∈ models, A model.tree model.annotations := by
  obtain ⟨collected, retried, hcollected, hretried, rfl, -⟩ := analyzeBatch_eq_ok hok
  have first := stage_collectAll inv.keeps.collect hs trees (dependencyOrder trees)
  have second := stage_retryAll inv.keeps.retryImports first.after (first.given _ hcollected)
  intro model hmodel
  obtain ⟨entry, hentry, rfl⟩ := List.mem_map.1 hmodel
  obtain ⟨given, hgiven, rfl⟩ := List.mem_map.1 (List.mem_mergeSort.1 hentry)
  exact inv.resolve second.after (inv.given (second.given _ hretried given hgiven))

end Batches

/-! ## Every session -/

theorem perform (hs : P session.env) (operation : Operation) :
    P (session.perform operation).env := by
  cases operation with
  | discard name => exact inv.discard hs name
  | _ => exact inv.keeps.perform hs (by simp)

/-- The property of the tables holds in every session. -/
theorem run (hs : P session.env) (operations : List Operation) :
    P (session.run operations).env := by
  induction operations generalizing session with
  | nil => exact hs
  | cons operation rest ih => exact ih (inv.perform hs operation)

theorem ask (hs : P session.env) {model : Model} (h : A model.tree model.annotations)
    (query : Query) : A (session.ask model query).tree (session.ask model query).annotations := by
  cases query with
  | typeOf n => exact inv.typeOf hs h n
  | resolve => exact inv.resolve hs h

theorem mem_given (hs : P session.env) {operation : Operation} {model : Model}
    (h : model ∈ session.given operation) : A model.tree model.annotations := by
  have single : ∀ {outcome : Except AnalysisError Model}, model ∈ outcome.toOption.toList →
      outcome = .ok model := by
    rintro (cause | given) h
    · cases h
    · rw [List.mem_singleton.1 h]
  cases operation with
  | collect tree => exact inv.given ((inv.collect hs tree).given model (single h))
  | analyze tree => exact inv.given_analyze hs (single h)
  | analyzeBatch trees =>
    change model ∈ (session.analyzeBatch trees).1.toOption.getD [] at h
    cases hok : (session.analyzeBatch trees).1 with
    | error cause =>
      rw [hok] at h
      cases h
    | ok models =>
      rw [hok] at h
      exact inv.given_analyzeBatch hs hok model h
  | discard | resolve | typeOf => cases h

/-- The property of what is remembered holds of every unit. -/
theorem holds {settings : Settings} (hstart : P (start settings).env) {model : Model}
    (h : Holds settings session model) : P session.env ∧ A model.tree model.annotations := by
  induction h with
  | given operations operation h =>
    have before := inv.run hstart operations
    exact ⟨inv.perform before operation, inv.mem_given before h⟩
  | perform h operation ih => exact ⟨inv.perform ih.1 operation, ih.2⟩
  | ask h query ih => exact ⟨ih.1, inv.ask ih.1 ih.2 query⟩

end Invariant

end Pascal.Session
