import Mathlib
import Pascal.Proofs.Session.QueryOrder
import Pascal.Proofs.Session.Visibility
import Pascal.Proofs.Settled

/-!
# Types on demand

A pass over a unit hands the scope down from node to node, and types every expression that it meets
as a whole. A question for one node looks for the innermost scope around the node instead. Both come
to the same scope and to the same type, if the node has one in both.

## Main results

- `Session.typeOf_eq_resolved`: a question that is asked first finds the type that a pass assigns.
- `Session.asked_first_differs`: a pass leaves expressions without a type that a question types, and
  it assigns types where a question fails.
-/

namespace Pascal

open Collecting

namespace Typing

/-- The expressions that a pass over a subtree types as a whole, each with the scope in which it does
so, in the order of the pass. -/
def visits (tree : SyntaxTree) (scopes : NodeId → Option ScopeId) (scope : ScopeId) (n : NodeId) :
    List (ScopeId × NodeId) :=
  match duty (tree.kind n) (scopes n) scope with
  | .ignore => []
  | .type => [(scope, n)]
  | .descend inner => (tree.children n).flatMap fun child => visits tree scopes inner child.1
  termination_by n.index
  decreasing_by exact child.2

section Visits

variable {tree : SyntaxTree} {scopes : NodeId → Option ScopeId} {scope place : ScopeId}
  {n m : NodeId}

/-- The visits of a pass are the expressions that it leads to. -/
theorem mem_visits_iff : (place, m) ∈ visits tree scopes scope n ↔
    Passes tree scopes scope n place m ∧ (tree.kind m).isExpression = true := by
  constructor
  · intro h
    induction hi : n.index using Nat.strong_induction_on generalizing n scope with
    | _ index ih =>
      rw [visits] at h
      cases hd : duty (tree.kind n) (scopes n) scope with
      | ignore => simp [hd] at h
      | type =>
        simp only [hd, List.mem_singleton, Prod.mk.injEq] at h
        obtain ⟨rfl, rfl⟩ := h
        exact ⟨.here _ _, duty_eq_type_iff.1 hd⟩
      | descend inner =>
        simp only [hd, List.mem_flatMap] at h
        obtain ⟨child, hc, h⟩ := h
        obtain ⟨passes, hm⟩ := ih child.1.index (hi ▸ child.2) h rfl
        exact ⟨.descend hd (SyntaxTree.mem_childIds hc) passes, hm⟩
  · rintro ⟨passes, hm⟩
    induction passes with
    | here => simp [visits, duty_eq_type_iff.2 hm]
    | @descend scope inner scope' n child m opens listed later ih =>
      rw [← SyntaxTree.map_val_children] at listed
      obtain ⟨b, hb, rfl⟩ := List.mem_map.1 listed
      rw [visits]
      simp only [opens, List.mem_flatMap]
      exact ⟨b, hb, ih hm⟩

/-- The node around one that a pass leads to is no expression. -/
theorem Passes.exists_parent (passes : Passes tree scopes scope n place m) :
    m = n ∨ ∃ p, m ∈ tree.childIds p ∧ (tree.kind p).isExpression = false := by
  induction passes with
  | here => exact .inl rfl
  | @descend scope inner scope' n child m opens listed later ih =>
    right
    obtain rfl | parent := ih
    · refine ⟨n, listed, Bool.eq_false_of_not_eq_true fun hn => ?_⟩
      simp [duty_eq_type_iff.2 hn] at opens
    · exact parent

end Visits

variable {ctx : TypingContext} {scope : ScopeId} {n : NodeId} {s : TypingState}

/-- Typing one expression after the other. -/
def typeAll (ctx : TypingContext) (visits : List (ScopeId × NodeId)) : Typing Unit :=
  visits.forM fun visit => discard (typeOf ctx visit.1 visit.2)

theorem typeAll_append (visits others : List (ScopeId × NodeId)) :
    typeAll ctx (visits ++ others) = (do typeAll ctx visits; typeAll ctx others) :=
  List.forM_append

/-- A pass over several subtrees types their visits one after the other if a pass over each does. -/
theorem run_forM_resolveNode {scopes : NodeId → Option ScopeId} {inner : ScopeId}
    {l : List (Below n)} (hs : ∀ m, s.annotations.scope? m = scopes m)
    (pass : ∀ b ∈ l, ∀ s, (∀ m, s.annotations.scope? m = scopes m) →
      (resolveNode ctx inner b.1).run s = (typeAll ctx (visits ctx.tree scopes inner b.1)).run s) :
    (l.forM fun b => resolveNode ctx inner b.1).run s =
      (typeAll ctx (l.flatMap fun b => visits ctx.tree scopes inner b.1)).run s := by
  induction l generalizing s with
  | nil => rfl
  | cons b rest ih =>
    rw [List.forall_mem_cons] at pass
    have kept : ∀ m, ((resolveNode ctx inner b.1).run s).2.annotations.scope? m = scopes m :=
      fun m => ((steps_resolveNode ctx inner b.1 s).scope?_eq m).trans (hs m)
    rw [List.flatMap_cons, typeAll_append, List.forM, run_bind, run_bind, ← pass.1 s hs,
      ih kept pass.2]

/-- A pass over a subtree types its visits one after the other. -/
theorem run_resolveNode {scopes : NodeId → Option ScopeId}
    (hs : ∀ m, s.annotations.scope? m = scopes m) :
    (resolveNode ctx scope n).run s = (typeAll ctx (visits ctx.tree scopes scope n)).run s := by
  induction hi : n.index using Nat.strong_induction_on generalizing n scope s with
  | _ index ih =>
    rw [resolveNode_eq, passNode, run_get_bind, hs n, visits]
    cases hd : duty (ctx.tree.kind n) (scopes n) scope with
    | ignore => rfl
    | type => rfl
    | descend inner =>
      exact run_forM_resolveNode hs fun b _ s hs => ih b.1.index (hi ▸ b.2) hs rfl

end Typing

namespace Typing

/-- Nothing is known about the expressions of a unit when a pass begins. -/
theorem foreseen_resetResolution {model : Model} {n : NodeId} (env : Environment)
    (hn : (model.tree.kind n).isExpression = true) :
    Foreseen env model n { annotations := model.annotations.resetResolution model.tree } where
  untouched m _ := ⟨model.annotations.occurrence?_resetResolution model.tree m, List.not_mem_nil⟩
  others m hm := by
    rw [Environment.foresight_of_not_isExpression hm]
    simp [TypingState.sight, Model.typeOf, hm]
  inner m _ hm typed := by simp [hm] at typed
  top ty hty := by simp [hn] at hty

end Typing

namespace Model

variable {model : Model} {place : ScopeId} {n : NodeId}

/-- The expressions of a unit that a pass types as a whole, each with the scope in which it does so,
in the order of the pass. -/
def visits (model : Model) : List (ScopeId × NodeId) :=
  Typing.visits model.tree model.annotations.scope? model.scope model.tree.root

/-- A visited node is one that the pass leads to, or it stands inside an expression. -/
theorem Visited.passes_or_inside (single : model.tree.OneParent) (visited : model.Visited n) :
    (∃ place, Typing.Passes model.tree model.annotations.scope? model.scope model.tree.root
      place n) ∨ ∃ p ∈ model.tree.ancestors n, (model.tree.kind p).isExpression = true := by
  induction visited with
  | root => exact .inl ⟨_, .here _ _⟩
  | @child n child visited enters listed ih =>
    rw [single.ancestors listed]
    obtain ⟨place, passes⟩ | ⟨p, hp, inside⟩ := ih
    · cases hn : (model.tree.kind n).isExpression with
      | true => exact .inr ⟨n, List.mem_cons_self, hn⟩
      | false =>
        obtain ⟨inner, opens⟩ := (exists_descend_iff place hn).2 enters
        exact .inl ⟨inner, passes.tail opens listed⟩
    · exact .inr ⟨p, List.mem_cons_of_mem _ hp, inside⟩

/-- A unit, and its root opens the file scope. -/
structure Rooted (model : Model) : Prop where
  unit : ∃ name, model.tree.kind model.tree.root = .unit name
  opened : model.annotations.scope? model.tree.root = some model.scope

/-- A pass over a unit meets expressions in the innermost scopes around them. -/
theorem Rooted.placed (rooted : model.Rooted) (single : model.tree.OneParent)
    (declarative : model.annotations.Declarative model.tree)
    (passes : Typing.Passes model.tree model.annotations.scope? model.scope model.tree.root
      place n) : Typing.Placed model place n := by
  intro hn
  obtain ⟨name, hroot⟩ := rooted.unit
  cases passes with
  | here =>
    rw [hroot] at hn
    cases hn
  | @descend _ inner _ _ child _ opens listed later =>
    rw [hroot, rooted.opened] at opens
    obtain rfl : model.scope = inner := NodeDuty.descend.inj opens
    have outermost : model.scope = ((model.tree.ancestors child).findSome?
        model.annotations.scope?).getD model.scope := by
      rw [single.ancestors listed, List.findSome?_cons, rooted.opened]
      rfl
    rw [later.eq_findSome? single outermost, scopeOf, List.findSome?_cons,
      declarative.scopes n hn]

/-- Nothing calls an expression that a pass types as a whole. -/
theorem Rooted.not_calls (rooted : model.Rooted) (single : model.tree.OneParent)
    (visit : (place, n) ∈ model.visits) (p : NodeId) : ¬model.tree.Calls p n := by
  intro calls
  obtain ⟨passes, hn⟩ := Typing.mem_visits_iff.1 visit
  obtain rfl | ⟨outer, listed, plain⟩ := passes.exists_parent
  · obtain ⟨name, hroot⟩ := rooted.unit
    rw [hroot] at hn
    cases hn
  · obtain rfl := single.eq listed calls.mem
    exact absurd calls.isExpression (by simp [plain])

end Model

namespace Environment

variable {env : Environment} {model : Model} {place : ScopeId} {n : NodeId}

/-- A pass assigns the type that was foreseen. -/
theorem type?_resolved (units : env.UnitsUntyped) (rooted : model.Rooted)
    (single : model.tree.OneParent) (declarative : model.annotations.Declarative model.tree)
    (visit : (place, n) ∈ model.visits) :
    (env.resolved model).annotations.type? n = some (env.foreseen model n).ty := by
  obtain ⟨passes, hn⟩ := Typing.mem_visits_iff.1 visit
  have steps : Typing.Steps ⟨env, model.tree⟩ (Typing.Placed model)
      { annotations := model.annotations.resetResolution model.tree } (env.resolved model) :=
    (Typing.reaches_resolveNode (fun _ _ h _ hb => h.operand single declarative hb) (fun _ => rfl)
      fun _ _ passes _ => rooted.placed single declarative passes).1
  have foreseen := steps.keeps (Typing.foreseen_resetResolution env hn) fun _ _ h step =>
    step.foreseen units single declarative hn h
  obtain ⟨ty, hty⟩ := Option.isSome_iff_exists.1 ((reaches_resolved env model).2 place n passes hn)
  have uncalled := rooted.not_calls single visit
  rw [hty, foreseen.top ty hty (.inl fun p calls => absurd calls (uncalled p))]

/-- A pass does not type an expression that it does not lead to, if no expression lists it. -/
theorem type?_resolved_eq_none (env : Environment) (hn : (model.tree.kind n).isExpression = true)
    (outer : ∀ p, n ∈ model.tree.childIds p → (model.tree.kind p).isExpression = false)
    (unmet : ∀ place, (place, n) ∉ model.visits) :
    (env.resolved model).annotations.type? n = none := by
  -- A pass takes what it leads to, and otherwise only what an expression lists.
  let allowed : ScopeId → NodeId → Prop := fun place m => (place, m) ∈ model.visits ∨
    ∃ p, m ∈ model.tree.childIds p ∧ (model.tree.kind p).isExpression = true
  have steps : Typing.Steps ⟨env, model.tree⟩ allowed
      { annotations := model.annotations.resetResolution model.tree } (env.resolved model) := by
    refine (Typing.reaches_resolveNode (fun _ k _ b hb => .inr ?_) (fun _ => rfl)
      fun _ _ passes hm => .inl (Typing.mem_visits_iff.2 ⟨passes, hm⟩)).1
    obtain listed | ⟨c, calls, listed⟩ := SyntaxTree.mem_operands hb
    · exact ⟨k, listed, SyntaxTree.isExpression_of_mem_operands hb⟩
    · exact ⟨c, listed, calls.isExpression_callee⟩
  rw [steps.type?_eq (m := n) ?_, Annotations.type?_resetResolution, if_pos hn]
  refine fun place k permitted => ⟨?_, fun calls => ?_⟩
  · rintro rfl
    obtain met | ⟨p, listed, hp⟩ := permitted
    · exact unmet place met
    · exact absurd hp (by simp [outer p listed])
  · exact absurd calls.isExpression (by simp [outer k calls.mem])

end Environment

namespace Session

/-- A question is answered if nothing is missing of the nodes that have to be typed for it. -/
theorem typeOf_of_complete (host : Session) {model : Model} {n : NodeId}
    (complete : ∀ m, model.tree.Needs n m → model.tree.missing? m = none) :
    (host.typeOf model n).1 = .ok (host.env.asking model model.annotations n).1 := by
  have fine : (host.env.asking model model.annotations n).2.violation = none :=
    Typing.violation_typeOf _ _ _ complete
  have asked : host.typeOf model n = _ :=
    @Environment.typeOf_eq host.env model model.annotations (fun _ => rfl) n
  rw [asked, fine]

/-- A pass over a collected unit types its visits one after the other. They are the visited
expressions around which there is none, and each is typed in the innermost scope around it. A
question that is asked first finds the type that the pass assigns to it, and if the question fails,
so does the pass. -/
theorem typeOf_eq_resolved (settings : Settings) (past : List Operation) (session : Session)
    (tree : SyntaxTree) (model : Model) (collected : (session.collect tree).1 = .ok model)
    (single : tree.OneParent) :
    let host := (start settings).run past
    let ran := host.resolve model
    let fresh := { model with annotations := model.annotations.resetResolution tree }
    ran = host.env.runTyping fresh (fun ctx => Typing.typeAll ctx model.visits) ∧
    (∀ n, model.Visited n → (tree.kind n).isExpression = true →
      (∀ p, n ∈ tree.childIds p → (tree.kind p).isExpression = false) →
      (∃ scope, (scope, n) ∈ model.visits) ∨
        (∃ p ∈ tree.ancestors n, (tree.kind p).isExpression = true) ∧
          ran.2.annotations.type? n = none) ∧
    ∀ scope n, (scope, n) ∈ model.visits → scope = model.scopeOf n ∧
      let asked := host.typeOf model n
      ∃ ty, ran.2.annotations.type? n = some ty ∧ asked.2.annotations.type? n = some ty ∧
        (asked.1 = .ok ty ∨
          (∃ cause, asked.1 = .error cause) ∧ ∃ cause, ran.1 = .error cause) := by
  intro host ran fresh
  have root := scope?_root_of_collect collected
  obtain ⟨rfl, declarative⟩ := declarative_of_collect collected
  have rooted : model.Rooted := ⟨root.1, root.2⟩
  have units : host.env.UnitsUntyped := unitsUntyped_run settings past
  have hran : ran = _ := Environment.resolve_eq host.env model
  refine ⟨?_, fun n visited hn outer => ?_, fun scope n visit => ?_⟩
  · simp only [ran, resolve, Environment.resolve, Environment.runTyping]
    rw [@Typing.run_resolveNode _ _ _ _ model.annotations.scope? fun _ => rfl]
    rfl
  · by_cases met : ∃ scope, (scope, n) ∈ model.visits
    · exact .inl met
    · obtain ⟨place, passes⟩ | inside := visited.passes_or_inside single
      · exact absurd ⟨place, Typing.mem_visits_iff.2 ⟨passes, hn⟩⟩ met
      · rw [hran]
        exact .inr ⟨inside, Environment.type?_resolved_eq_none _ hn outer (not_exists.1 met)⟩
  · obtain ⟨passes, hn⟩ := Typing.mem_visits_iff.1 visit
    have assigned := Environment.type?_resolved units rooted single declarative visit
    have foreseen := Environment.foreseen_asking units single declarative hn
      (Typing.foreseen_collected declarative host.env hn) n
    have uncalled := rooted.not_calls single visit
    have answer : (host.env.asking model model.annotations n).1 = (host.env.foreseen model n).ty :=
      foreseen.top _ (Environment.type?_asking ..) (.inl fun p calls => absurd calls (uncalled p))
    have hasked : host.typeOf model n = _ :=
      @Environment.typeOf_eq host.env model model.annotations (fun _ => rfl) n
    refine ⟨rooted.placed single declarative passes hn, (host.env.foreseen model n).ty, ?_, ?_, ?_⟩
    · rw [hran]
      exact assigned
    · rw [hasked, ← answer]
      exact Environment.type?_asking ..
    · cases hv : (host.env.resolved model).violation with
      | some cause =>
        rw [hasked, hran, ← answer, hv]
        cases (host.env.asking model model.annotations n).2.violation with
        | some cause => exact .inr ⟨⟨_, rfl⟩, _, rfl⟩
        | none => exact .inl rfl
      | none =>
        -- The pass has typed everything that the question needs, and missed nothing.
        have covered := Environment.allCovered_resolved host.env model
        rw [← answer]
        exact .inl (typeOf_of_complete host fun _ =>
          covered.missing? hv (Option.isSome_iff_exists.2 ⟨_, assigned⟩))

/-! ## A routine that names itself -/

/-- A unit with a procedure `Run` without parameters, in whose body `Run` is named. -/
def runUnit : SyntaxTree where
  nodes := #[{ kind := .nameReference "Run" }, { kind := .expressionStatement, children := [⟨0⟩] },
    { kind := .compoundStatement, children := [⟨1⟩] },
    { kind := .routineImplementation "Run" .procedure, children := [⟨2⟩] },
    { kind := .unit "Sample", children := [⟨3⟩] }]
  root := ⟨4⟩
  ordered := by decide

/-- The procedure has a scope of its own, next to the file scope. -/
theorem collect_runUnit : ∃ model after, (start {}).collect runUnit = (.ok model, after) ∧
    (model.scope = ⟨3⟩ ∧ model.annotations.scope? ⟨4⟩ = some ⟨3⟩ ∧
      model.annotations.scope? ⟨3⟩ = some ⟨4⟩ ∧ model.annotations.scope? ⟨2⟩ = none ∧
      model.annotations.scope? ⟨1⟩ = none) :=
  exists_collected (by cbv)

/-- A question for what is named in the body finds the type that a pass assigns to it, in the scope
of the procedure. -/
theorem runUnit_asked_first :
    let host := (start {}).run [.collect runUnit]
    ∃ model, ((start {}).collect runUnit).1 = .ok model ∧ runUnit.OneParent ∧
      (model.scopeOf ⟨0⟩, ⟨0⟩) ∈ model.visits ∧ model.scopeOf ⟨0⟩ ≠ model.scope ∧
      ∃ ty, (host.resolve model).2.annotations.type? ⟨0⟩ = some ty ∧
        (host.typeOf model ⟨0⟩).1 = .ok ty := by
  intro host
  obtain ⟨model, after, hran, hfile, unit, procedure, compound, statement⟩ := collect_runUnit
  have collected : ((start {}).collect runUnit).1 = .ok model := congrArg Prod.fst hran
  obtain ⟨htree, -⟩ := declarative_of_collect collected
  have single : runUnit.OneParent := by decide
  obtain ⟨-, -, agree⟩ := typeOf_eq_resolved {} [.collect runUnit] (start {}) runUnit model
    collected single
  have visit : (⟨4⟩, ⟨0⟩) ∈ model.visits := by
    refine Typing.mem_visits_iff.2 ⟨?_, by rw [htree]; rfl⟩
    have hroot : runUnit.root = ⟨4⟩ := rfl
    rw [htree, hfile, hroot]
    -- The unit opens the file scope and the procedure its own; the statements open none.
    exact .descend (by rw [unit]; rfl) List.mem_cons_self <|
      .descend (by rw [procedure]; rfl) List.mem_cons_self <|
      .descend (by rw [compound]; rfl) List.mem_cons_self <|
      .descend (by rw [statement]; rfl) List.mem_cons_self (.here _ _)
  obtain ⟨place, ty, assigned, -, answered⟩ := agree _ _ visit
  refine ⟨model, collected, single, place ▸ visit, ?_, ty, assigned, ?_⟩
  · rw [← place, hfile]
    decide
  · obtain answered | ⟨⟨cause, failed⟩, -⟩ := answered
    · exact answered
    · have complete : ∀ m, model.tree.missing? m = none := by
        rw [htree]
        rintro ⟨_ | _ | _ | _ | _ | _⟩ <;> rfl
      rw [typeOf_of_complete host fun m _ => complete m] at failed
      cases failed

/-! ## Where a question and a pass differ -/

/-- A unit with a statement in parentheses, and `nil` in the statement. -/
def enclosingUnit : SyntaxTree where
  nodes := #[{ kind := .nilLiteral }, { kind := .expressionStatement, children := [⟨0⟩] },
    { kind := .parenthesized, children := [⟨1⟩] }, { kind := .unit "Sample", children := [⟨2⟩] }]
  root := ⟨3⟩
  ordered := by decide

/-- A pass over the unit does not lead to what stands in the statement. -/
theorem unmet_enclosingUnit (file place : ScopeId) :
    (place, ⟨0⟩) ∉ (bareModel "Sample" enclosingUnit file).visits := by
  intro visit
  obtain ⟨passes, -⟩ := Typing.mem_visits_iff.1 visit
  cases passes with
  | @descend _ inner _ _ child _ opens listed later =>
    cases List.mem_singleton.1 listed
    -- The parentheses are an expression, and a pass does not lead into expressions.
    cases later with
    | descend opens' => cases opens'

/-- A pass assigns no type to an expression in a statement that stands within an expression, and a
question finds one. A question for parentheses around nothing fails, and a pass assigns a type to
them. -/
theorem asked_first_differs :
    (∃ model after, (start {}).collect enclosingUnit = (.ok model, after) ∧
      enclosingUnit.OneParent ∧ model.Visited ⟨0⟩ ∧ (enclosingUnit.kind ⟨0⟩).isExpression = true ∧
      (∀ p, ⟨0⟩ ∈ enclosingUnit.childIds p → (enclosingUnit.kind p).isExpression = false) ∧
      (after.resolve model).1 = .ok () ∧ (after.resolve model).2.annotations.type? ⟨0⟩ = none ∧
      (after.typeOf model ⟨0⟩).1 = .ok .nil) ∧
    ∃ model after cause, (start {}).collect brokenUnit = (.ok model, after) ∧
      brokenUnit.OneParent ∧ model.Visited ⟨0⟩ ∧ (brokenUnit.kind ⟨0⟩).isExpression = true ∧
      (∀ p, ⟨0⟩ ∈ brokenUnit.childIds p → (brokenUnit.kind p).isExpression = false) ∧
      (after.resolve model).2.annotations.type? ⟨0⟩ = some .unknown ∧
      (after.typeOf model ⟨0⟩).1 = .error cause := by
  constructor
  · have single : enclosingUnit.OneParent := by decide
    have above : enclosingUnit.parent? ⟨0⟩ = some ⟨1⟩ := by decide
    have outer : ∀ p, ⟨0⟩ ∈ enclosingUnit.childIds p →
        (enclosingUnit.kind p).isExpression = false := single.forall_parent above rfl
    have complete : ∀ m, enclosingUnit.missing? m = none := by
      rintro ⟨_ | _ | _ | _ | _⟩ <;> rfl
    let file := (start {}).nextFile
    let model := bareModel "Sample" enclosingUnit file
    refine ⟨model, _, collect_bare (isTaken_start {} (by decide)) rfl ?_, single,
      .child (.child (.child .root id List.mem_cons_self) id List.mem_cons_self) id
        List.mem_cons_self, rfl, outer, ?_, ?_, ?_⟩
    · intro child hc
      cases List.mem_singleton.1 hc
      rfl
    · rw [resolve_of_complete _ complete]
    · simp only [resolve, Environment.resolve_eq]
      exact Environment.type?_resolved_eq_none _ rfl outer (unmet_enclosingUnit file)
    · rw [typeOf_of_complete _ fun m _ => complete m, Environment.asking, Typing.typeOf]
      simp only [StateT.run_bind, StateT.run_get, pure_bind, model, type?_bareModel]
      rfl
  · have single : brokenUnit.OneParent := by decide
    have above : brokenUnit.parent? ⟨0⟩ = some ⟨1⟩ := by decide
    let model := bareModel "Broken" brokenUnit (start {}).nextFile
    have failed : ∀ host : Session, (host.typeOf model ⟨0⟩).1 =
        .error (.malformedTree (.missingChild "parenthesized" {} 0)) := by
      intro host
      obtain ⟨state, hran, violation⟩ := run_typeOf_brokenUnit host.env (model.scopeOf ⟨0⟩)
        (type?_bareModel ..)
      have hasking : host.env.asking model model.annotations ⟨0⟩ = (.unknown, state) := hran
      have asked : host.typeOf model ⟨0⟩ = _ :=
        @Environment.typeOf_eq host.env model model.annotations (fun _ => rfl) ⟨0⟩
      rw [asked, hasking, violation]
    have typed : ∀ env : Environment,
        (env.resolved model).annotations.type? ⟨0⟩ = some .unknown := by
      intro env
      obtain ⟨state, hran, -⟩ := run_typeOf_brokenUnit env model.scope
        (Annotations.type?_resetResolution _ brokenUnit ⟨0⟩)
      rw [show env.resolved model = _ from resolved_expressionUnit env rfl _, Typing.type?_typeOf]
      exact congrArg (some ·.1) hran
    refine ⟨model, _, _, collect_expressionUnit (isTaken_start {} (by decide)) rfl, single,
      visited_expressionUnit, rfl, single.forall_parent above rfl, ?_, failed _⟩
    rw [resolve, Environment.resolve_eq]
    exact typed _

end Session

end Pascal
