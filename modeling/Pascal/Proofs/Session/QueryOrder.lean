import Pascal.Proofs.Foresight
import Pascal.Proofs.Session.Collected
import Pascal.Proofs.Session.Repetition

/-!
# The order of questions

The type of a node may be asked for before or after the types of other nodes. The answer is the same
with two exceptions. A name that may be the beginning of a dotted unit name is left open, and when it
was asked for by itself that is forgotten; then the unit that a longer dotted name names is not found
any more. And the name of a routine that is called has the type of the first routine of the name, but
once the call has been typed, that of the routine which the call has chosen.

## Main results

- `Session.typeOf_after_queries`: when an answer does not depend on the questions before.
-/

namespace Pascal

open Environment

namespace SyntaxTree

variable {tree : SyntaxTree} {n k m : NodeId}

/-- Operands of a node inside another one are inside it as well. -/
theorem OneParent.mem_ancestors_operand (single : tree.OneParent)
    (inside : k = n ∨ n ∈ tree.ancestors k) {b : Below k} (hb : b ∈ tree.operands k) :
    n ∈ tree.ancestors b.1 := by
  have around : n ∈ k :: tree.ancestors k := List.mem_cons.2 (inside.imp_left Eq.symm)
  obtain hchild | ⟨c, hc, hchild⟩ := mem_operands hb
  · rwa [single.ancestors hchild]
  · rw [single.ancestors hchild, single.ancestors hc.mem]
    exact List.mem_cons_of_mem _ around

/-- The nodes that have to be typed for a node to be typed. -/
def Needs (tree : SyntaxTree) : NodeId → NodeId → Prop :=
  Relation.ReflTransGen fun n m => ∃ b ∈ tree.operands n, b.1 = m

theorem missing?_of_not_isExpression (h : (tree.kind n).isExpression = false) :
    tree.missing? n = none := by
  unfold missing?
  generalize tree.kind n = kind at h
  cases kind <;> first | rfl | cases h

end SyntaxTree

namespace Typing

variable {ctx : TypingContext} {scope : ScopeId} {n m : NodeId} {s : TypingState}

/-! ## What a run leaves open -/

/-- What observing operands leaves open. -/
theorem mem_deferred_survey
    (typing : ∀ b ∈ ctx.tree.operands n, ∀ s,
      let after := ((typeOf ctx scope b.1).run s).2
      ∀ m ∈ after.deferred, m ∈ s.deferred ∨ m = b.1 ∨ Enclosed ctx.tree after.annotations m)
    (l : List (Below n)) (hl : ∀ b ∈ l, b ∈ ctx.tree.operands n) (s : TypingState) :
    let after := ((l.mapM (observe fun b : Below n => typeOf ctx scope b.1)).run s).2
    ∀ m ∈ after.deferred, m ∈ s.deferred ∨ (∃ b ∈ l, m = b.1) ∨
      Enclosed ctx.tree after.annotations m := by
  induction l generalizing s with
  | nil => exact fun m hm => .inl hm
  | cons b rest ih =>
    rw [List.forall_mem_cons] at hl
    simp only [run_mapM_cons, run_observe_typeOf]
    have first := typing b hl.1 s
    generalize ((typeOf ctx scope b.1).run s).2 = mid at first
    have before : ∀ b ∈ ctx.tree.operands n, ∀ s,
        Steps ctx (fun _ m => True ∧ m < n) s ((typeOf ctx scope b.1).run s).2 :=
      fun b _ s => reaches_typeOf
        (fun _ _ hm inner _ => ⟨trivial, Nat.lt_trans inner.2 hm.2⟩) ⟨trivial, b.2⟩ s
    obtain ⟨later, -⟩ := reaches_survey before rest hl.2 mid
    intro m hm
    obtain hm | ⟨b', hb', rfl⟩ | hm := ih hl.2 mid m hm
    · obtain hm | rfl | enclosed := first m hm
      · exact .inl hm
      · exact .inr (.inl ⟨b, List.mem_cons_self, rfl⟩)
      · exact .inr (.inr (enclosed.mono fun _ => Steps.isSome_type? later))
    · exact .inr (.inl ⟨b', List.mem_cons_of_mem _ hb', rfl⟩)
    · exact .inr (.inr hm)

/-- What a run leaves open is the node that is asked for, or the node around it has been typed. -/
theorem mem_deferred_typeOf (ctx : TypingContext) (scope : ScopeId) (n : NodeId) (s : TypingState) :
    let after := ((typeOf ctx scope n).run s).2
    ∀ m ∈ after.deferred, m ∈ s.deferred ∨ m = n ∨ Enclosed ctx.tree after.annotations m := by
  induction hi : n.index using Nat.strong_induction_on generalizing n s with
  | _ index ih =>
    cases ht : s.annotations.type? n with
    | some ty =>
      rw [run_typeOf_of_some ht]
      exact fun m hm => .inl hm
    | none =>
      have typing : ∀ b ∈ ctx.tree.operands n, ∀ s,
          let after := ((typeOf ctx scope b.1).run s).2
          ∀ m ∈ after.deferred, m ∈ s.deferred ∨ m = b.1 ∨ Enclosed ctx.tree after.annotations m :=
        fun b _ s => ih b.1.index (hi ▸ b.2) b.1 s rfl
      have surveyed := mem_deferred_survey typing _ (fun _ => id) s
      rw [run_typeOf_of_none ht]
      dsimp only [survey]
      generalize ((ctx.tree.operands n).mapM (observe fun b => typeOf ctx scope b.1)).run s = seen
        at surveyed
      have sound := ctx.sound_conclude scope n seen.1
      generalize ctx.conclude scope n seen.1 = finding at sound
      have taken : ((finding.enter ctx.tree n seen.2).annotations.type? n).isSome := by
        simp [Finding.type?_enter]
      intro m hm
      rw [Finding.deferred_enter, List.mem_append, Option.mem_toList] at hm
      obtain pending | hm := hm
      · obtain rfl | hc := (sound.pending m pending).2
        · exact .inr (.inl rfl)
        · exact .inr (.inr ⟨n, hc.mem, taken⟩)
      obtain hm | ⟨b, hb, rfl⟩ | enclosed := surveyed m hm
      · exact .inl hm
      · -- The node around an operand is the node itself or the member that it calls.
        obtain hchild | ⟨c, hc, hchild⟩ := SyntaxTree.mem_operands hb
        · exact .inr (.inr ⟨n, hchild, taken⟩)
        · obtain ⟨⟨ty, hty⟩, -⟩ := sound.called c hc
          refine .inr (.inr ⟨c, hchild, ?_⟩)
          simp [Finding.type?_enter, hc.ne.symm, hty]
      · exact .inr (.inr (enclosed.mono fun _ => isSome_type?_enter _ _))

/-! ## Complaints about the layout -/

/-- A run does not complain if nothing is missing of the nodes that have to be typed. -/
theorem violation_typeOf (ctx : TypingContext) (scope : ScopeId) (s : TypingState)
    (fine : ∀ m, ctx.tree.Needs n m → ctx.tree.missing? m = none) :
    ((typeOf ctx scope n).run s).2.violation = s.violation := by
  have steps : Steps ctx (fun _ m => ctx.tree.Needs n m) s ((typeOf ctx scope n).run s).2 :=
    reaches_typeOf (fun _ m hm b hb => hm.tail ⟨b, hb, rfl⟩) .refl s
  refine steps.keeps (P := fun now => now.violation = s.violation) rfl ?_
  rintro now _ ih ⟨needed, fresh, ready, seen⟩
  rw [Finding.violation_enter, fine _ needed, ih]
  cases s.violation <;> rfl

/-- As long as the layout is not broken, nothing is missing of the nodes that a typed node needs. -/
theorem AllCovered.missing? {tree : SyntaxTree} (covered : AllCovered tree s)
    (fine : s.violation = none) (typed : (s.annotations.type? n).isSome)
    (needed : tree.Needs n m) : tree.missing? m = none := by
  have typed : (s.annotations.type? m).isSome := by
    induction needed with
    | refl => exact typed
    | tail _ operand ih =>
      obtain ⟨b, hb, rfl⟩ := operand
      exact (covered fine _ (SyntaxTree.isExpression_of_mem_operands hb) ih).operands b hb
  cases hm : (tree.kind m).isExpression with
  | false => exact SyntaxTree.missing?_of_not_isExpression hm
  | true => exact (covered fine m hm typed).missing

/-- If a run that starts from nothing does not complain, nothing is missing of the nodes that have to
be typed. -/
theorem missing?_of_violation (blank : ∀ m, (ctx.tree.kind m).isExpression = true →
      s.annotations.type? m = none)
    (fine : ((typeOf ctx scope n).run s).2.violation = none) (needed : ctx.tree.Needs n m) :
    ctx.tree.missing? m = none := by
  have covered : AllCovered ctx.tree ((typeOf ctx scope n).run s).2 := by
    refine (steps_typeOf ctx scope n s).keeps (P := AllCovered ctx.tree) ?_
      fun _ _ h step => step.allCovered h
    intro _ m hm typed
    rw [blank m hm] at typed
    cases typed
  refine covered.missing? fine ?_ needed
  rw [type?_typeOf]
  rfl

end Typing

/-! ## Questions -/

namespace Environment

variable {env : Environment} {model : Model} {a : Annotations} {n m q : NodeId}

/-- Asking for a node of a unit about which something is known. -/
def asking (env : Environment) (model : Model) (a : Annotations) (n : NodeId) : Ty × TypingState :=
  (Typing.typeOf ⟨env, model.tree⟩ (model.scopeOf n) n).run { annotations := a }

/-- An answer that is known is given again, and otherwise it is found. -/
theorem typeOf_eq (scopes : ∀ m, a.scope? m = model.annotations.scope? m) (n : NodeId) :
    env.typeOf { model with annotations := a } n =
      (match (env.asking model a n).2.violation with
        | some cause => .error (.malformedTree cause)
        | none => .ok (env.asking model a n).1,
      { model with annotations := (env.asking model a n).2.annotations }) := by
  have place : Model.scopeOf { model with annotations := a } n = model.scopeOf n := by
    simp only [Model.scopeOf, funext scopes]
  unfold typeOf asking
  cases ht : a.type? n with
  | some ty => rw [Typing.run_typeOf_of_some ht]
  | none =>
    dsimp only
    rw [place]
    rfl

/-- What the answer leaves is what is remembered. -/
theorem type?_asking (env : Environment) (model : Model) (a : Annotations) (n : NodeId) :
    (env.asking model a n).2.annotations.type? n = some (env.asking model a n).1 :=
  Typing.type?_typeOf _ _ _ _

/-- A question leaves the nodes behind the one that is asked for as they are. -/
theorem type?_asking_of_lt (h : n < m) :
    (env.asking model a n).2.annotations.type? m = a.type? m := by
  have steps : Typing.Steps ⟨env, model.tree⟩ (fun _ k => k.index ≤ n.index) { annotations := a }
      (env.asking model a n).2 :=
    Typing.reaches_typeOf (fun _ _ hk b _ => Nat.le_trans (Nat.le_of_lt b.2) hk) (Nat.le_refl _) _
  refine steps.type?_eq fun _ k hk => ⟨?_, fun hc => ?_⟩
  · rintro rfl
    exact Nat.lt_irrefl _ (Nat.lt_of_lt_of_le h hk)
  · have hm := model.tree.lt_of_mem_childIds hc.mem
    exact Nat.lt_asymm h (Nat.lt_of_lt_of_le hm hk)

section Collected

variable (units : env.UnitsUntyped) (single : model.tree.OneParent)
  (declarative : model.annotations.Declarative model.tree)

include single declarative in
/-- A question is a sequence of steps inside the node that is asked for. -/
theorem steps_asking (env : Environment) (a : Annotations) (q : NodeId) :
    Typing.Steps ⟨env, model.tree⟩
      (fun scope m => Typing.Placed model scope m ∧ (m = q ∨ q ∈ model.tree.ancestors m))
      { annotations := a } (env.asking model a q).2 := by
  refine Typing.reaches_typeOf (fun scope k hk b hb => ⟨?_, .inr ?_⟩) ⟨fun _ => rfl, .inl rfl⟩ _
  · exact hk.1.operand single declarative hb
  · exact single.mem_ancestors_operand hk.2 hb

include units single declarative in
theorem foreseen_asking (hn : (model.tree.kind n).isExpression = true)
    (h : Typing.Foreseen env model n { annotations := a }) (q : NodeId) :
    Typing.Foreseen env model n (env.asking model a q).2 := by
  have steps := Typing.Steps.mono (fun _ _ hm => hm.1) (steps_asking single declarative env a q)
  exact steps.keeps h fun _ _ h step => step.foreseen units single declarative hn h

include units single declarative in
/-- If a node inside `n` will be left open, either it is left open when it is asked for first, or it
makes no difference. -/
theorem mem_deferred_asking (hn : (model.tree.kind n).isExpression = true)
    (inside : n ∈ model.tree.ancestors q) (h : env.foresight model q = .undecided) :
    q ∈ (env.asking model model.annotations q).2.deferred ∨ env.Undotted model n q := by
  obtain ⟨p, name, hk, hhead⟩ := Typing.exists_memberAccess_of_undecided h
  have hq := List.mem_of_head? hhead
  have he : (model.tree.kind q).isExpression = true := by
    by_contra hne
    rw [foresight_of_not_isExpression (Bool.eq_false_of_not_eq_true hne)] at h
    simp [Sight.undecided] at h
  have foreseen := foreseen_asking units single declarative hn
    (Typing.foreseen_collected declarative env hn) q
  have typed : ((env.asking model model.annotations q).2.annotations.type? q).isSome := by
    rw [type?_asking]
    rfl
  have uncalled : ∀ caller, ¬model.tree.Calls caller q := by
    intro caller hc
    have hcaller := hc.kind_eq
    rw [single.eq hq hc.mem, hk] at hcaller
    cases hcaller
  obtain same | ⟨-, -, ⟨p', hp', known⟩ | undotted⟩ :=
    foreseen.inner q inside he typed fun caller hc => absurd hc (uncalled caller)
  · left
    have opened := congrArg Sight.isOpen (same.trans h)
    simpa [TypingState.sight, Sight.undecided] using opened
  · -- The member access stands behind the node and is not typed on the way.
    have untyped : model.annotations.type? p = none := declarative.types p (by rw [hk]; rfl)
    rw [single.eq hq hp', type?_asking_of_lt (model.tree.lt_of_mem_childIds hq), untyped] at known
    cases known
  · exact .inr undotted

include units single declarative in
/-- What is known after a question is what was foreseen. -/
theorem foreseen_asked (hn : (model.tree.kind n).isExpression = true)
    (settled : q ∈ (env.asking model model.annotations q).2.deferred → env.Undotted model n q)
    (h : Typing.Foreseen env model n { annotations := a }) :
    Typing.Foreseen env model n { annotations := (env.asking model a q).2.annotations } := by
  refine (foreseen_asking units single declarative hn h q).forget fun m hm inside undecided => ?_
  obtain hm | rfl | around := Typing.mem_deferred_typeOf _ _ _ _ m hm
  · cases hm
  · right
    obtain opened | undotted := mem_deferred_asking units single declarative hn inside undecided
    · exact settled opened
    · exact undotted
  · exact .inl around

end Collected

end Environment

namespace Session

/-- A node that is left open, as the beginning of a dotted unit name, when it is asked for first. -/
def LeavesOpen (host : Session) (model : Model) (n : NodeId) : Prop :=
  n ∈ (host.env.asking model model.annotations n).2.deferred

/-- A node that refers to a routine when it is asked for first. -/
def NamesRoutine (host : Session) (model : Model) (n : NodeId) : Prop :=
  ∃ id, ((host.typeOf model n).2.annotations.occurrence? n).bind (·.declaration) = some id ∧
    (host.env.declaration id).isRoutine = true

section Questions

variable {host : Session} {model : Model} {n : NodeId} (units : host.env.UnitsUntyped)
  (single : model.tree.OneParent) (declarative : model.annotations.Declarative model.tree)
include units single declarative

/-- What is known after several questions is what was foreseen, and invocations around which nothing
was asked for are not typed. -/
theorem foreseen_askAll (hn : (model.tree.kind n).isExpression = true) {queries : List NodeId}
    (settled : ∀ q ∈ queries, host.LeavesOpen model q → host.env.Undotted model n q)
    {a : Annotations} (scopes : ∀ m, a.scope? m = model.annotations.scope? m)
    (h : Typing.Foreseen host.env model n { annotations := a }) :
    ∃ a', host.askAll { model with annotations := a } (queries.map .typeOf) =
        { model with annotations := a' } ∧
      (∀ m, a'.scope? m = model.annotations.scope? m) ∧
      Typing.Foreseen host.env model n { annotations := a' } ∧
      ∀ p, model.tree.Calls p n → (∀ q ∈ queries, q ∉ model.tree.ancestors n) →
        a'.type? p = a.type? p := by
  induction queries generalizing a with
  | nil => exact ⟨a, rfl, scopes, h, fun _ _ _ => rfl⟩
  | cons q rest ih =>
    rw [List.forall_mem_cons] at settled
    let mid := (host.env.asking model a q).2.annotations
    have steps := steps_asking single declarative host.env a q
    have asked : host.ask { model with annotations := a } (.typeOf q) =
        { model with annotations := mid } := by
      simp only [ask, typeOf, typeOf_eq scopes, mid]
    have scopes' : ∀ m, mid.scope? m = model.annotations.scope? m := fun m =>
      (steps.scope?_eq m).trans (scopes m)
    have foreseen := foreseen_asked units single declarative hn settled.1 h
    obtain ⟨a', hall, hscopes, known, untyped⟩ := ih settled.2 scopes' foreseen
    refine ⟨a', ?_, hscopes, known, fun p hp around => ?_⟩
    · rw [← hall, ← asked]
      rfl
    · rw [List.forall_mem_cons] at around
      rw [untyped p hp around.2]
      -- The question is asked inside of neither the invocation nor anything around it.
      rw [single.ancestors hp.mem, List.mem_cons, not_or] at around
      refine steps.type?_eq fun _ k hk => ⟨?_, fun hc => ?_⟩
      · rintro rfl
        exact hk.2.elim (fun heq => around.1.1 heq.symm) around.1.2
      · exact hc.not_calls hp

/-- What is called refers to a routine when it is asked for first, or it will not do so at all. -/
theorem namesRoutine_of_foresight {p : NodeId} (hp : model.tree.Calls p n)
    (h : host.env.foreseesRoutine model n = true) : host.NamesRoutine model n := by
  have caller := hp.isExpression
  have inside : p ∈ model.tree.ancestors n := by
    rw [single.ancestors hp.mem]
    exact List.mem_cons_self
  have foreseen := foreseen_asking units single declarative caller
    (Typing.foreseen_collected declarative host.env caller) n
  have typed := type?_asking host.env model model.annotations n
  obtain same | ⟨undecided, -⟩ := foreseen.inner n inside
    hp.isExpression_callee (by rw [typed]; rfl) fun p' hp' => by
      rw [type?_asking_of_lt (model.tree.lt_of_mem_childIds hp'.mem)]
      exact declarative.types p' hp'.isExpression
  · unfold foreseesRoutine at h
    cases hid : (host.env.foresight model n).declaration with
    | none => simp [hid] at h
    | some id =>
      have declaration := (congrArg Sight.declaration same).trans hid
      have ran : host.env.typeOf model n = _ :=
        @typeOf_eq host.env model model.annotations (fun _ => rfl) n
      refine ⟨id, ?_, by simpa [hid] using h⟩
      rw [typeOf, ran]
      exact declaration
  · rw [foreseesRoutine, undecided] at h
    cases h

end Questions

/-- The type of an expression of a collected unit is the same whether it is asked for first or after
any other questions, and an answer stays an answer, with two exceptions: a name inside it was asked
for and left open, and a dotted name around that name and inside the expression names a unit; or the
expression is the name of a routine that is called, and something around it was asked for. -/
theorem typeOf_after_queries (settings : Settings) (past : List Operation) (session : Session)
    (tree : SyntaxTree) (model : Model) (collected : (session.collect tree).1 = .ok model)
    (single : tree.OneParent) (n : NodeId) (hn : (tree.kind n).isExpression = true)
    (queries : List NodeId) :
    let host := (start settings).run past
    (∀ q ∈ queries, host.LeavesOpen model q → ∀ m ∈ tree.ancestors q, n ∈ tree.ancestors m →
      ¬host.env.NamesUnit model m) →
    (host.NamesRoutine model n → ∀ p, tree.Calls p n → ∀ q ∈ queries, q ∉ tree.ancestors n) →
    let first := host.typeOf model n
    let later := host.typeOf (host.askAll model (queries.map .typeOf)) n
    later.2.typeOf n = first.2.typeOf n ∧ ∀ ty, first.1 = .ok ty → later.1 = .ok ty := by
  intro host dotted called first later
  obtain ⟨rfl, declarative⟩ := declarative_of_collect collected
  have units : host.env.UnitsUntyped := unitsUntyped_run settings past
  have start := Typing.foreseen_collected declarative host.env hn
  obtain ⟨a, asked, scopes, known, untyped⟩ :=
    foreseen_askAll units single declarative hn dotted (fun _ => rfl) start
  have callers : ∀ p, model.tree.Calls p n → n < p ∧ model.annotations.type? p = none :=
    fun p hp => ⟨model.tree.lt_of_mem_childIds hp.mem,
      declarative.types p hp.isExpression⟩
  have before : (host.env.asking model model.annotations n).1 = (host.env.foreseen model n).ty := by
    refine (Environment.foreseen_asking units single declarative hn start n).top _
      (Environment.type?_asking ..) (.inl fun p hp => ?_)
    rw [Environment.type?_asking_of_lt (callers p hp).1, (callers p hp).2]
  have after : (host.env.asking model a n).1 = (host.env.foreseen model n).ty := by
    refine (Environment.foreseen_asking units single declarative hn known n).top _
      (Environment.type?_asking ..) ?_
    by_cases routine : host.NamesRoutine model n
    · refine .inl fun p hp => ?_
      rw [Environment.type?_asking_of_lt (callers p hp).1, untyped p hp (called routine p hp),
        (callers p hp).2]
    by_cases caller : ∃ p, model.tree.Calls p n
    · obtain ⟨p, hp⟩ := caller
      refine .inr (Bool.eq_false_of_not_eq_true fun h => routine ?_)
      exact namesRoutine_of_foresight units single declarative hp h
    · exact .inl fun p hp => absurd ⟨p, hp⟩ caller
  have ran : first = _ := @Environment.typeOf_eq host.env model model.annotations (fun _ => rfl) n
  have ranLater : later = _ :=
    (congrArg (host.typeOf · n) asked).trans (Environment.typeOf_eq scopes n)
  rw [ran, ranLater]
  refine ⟨?_, fun ty hty => ?_⟩
  · simp only [Model.typeOf, Environment.type?_asking, before, after]
  · -- An answer to the first question shows that no child is missing.
    cases hv : (host.env.asking model model.annotations n).2.violation with
    | some cause => simp [hv] at hty
    | none =>
      have complete := fun m => @Typing.missing?_of_violation ⟨host.env, model.tree⟩
        (model.scopeOf n) n m { annotations := model.annotations } declarative.types hv
      have fine : (host.env.asking model a n).2.violation = none :=
        Typing.violation_typeOf _ _ _ complete
      simp only [hv, fine, before, after] at hty ⊢
      exact hty

/-- A unit whose only expression is `Missing.Name`. -/
def memberUnit : SyntaxTree where
  nodes := #[{ kind := .nameReference "Missing" },
    { kind := .memberAccess "Name", children := [⟨0⟩] },
    { kind := .unit "Sample", children := [⟨1⟩] }]
  root := ⟨2⟩
  ordered := by decide

/-- In the unit, the member access has the same type whether its receiver was asked for before or
not. -/
theorem memberUnit_asked_inside_out :
    let host := (start {}).run [.collect memberUnit]
    ∃ model, ((start {}).collect memberUnit).1 = .ok model ∧ memberUnit.OneParent ∧
      ∃ ty, (host.typeOf model ⟨1⟩).1 = .ok ty ∧
        (host.typeOf (host.askAll model [.typeOf ⟨0⟩]) ⟨1⟩).1 = .ok ty := by
  intro host
  have free : (start {}).isTaken "Sample" = false := isTaken_start {} (by decide)
  let model := bareModel "Sample" memberUnit (start {}).nextFile
  have collected : ((start {}).collect memberUnit).1 = .ok model :=
    congrArg Prod.fst (collect_bare free rfl (by decide))
  have single : memberUnit.OneParent := by decide
  have root : memberUnit.ancestors ⟨2⟩ = [] := by
    rw [SyntaxTree.ancestors]
    rfl
  have top : memberUnit.ancestors ⟨1⟩ = [⟨2⟩] := by
    rw [single.ancestors (n := ⟨2⟩) (by decide), root]
  have innermost : ∀ m ∈ memberUnit.ancestors ⟨0⟩, ⟨1⟩ ∉ memberUnit.ancestors m := by
    rw [single.ancestors (n := ⟨1⟩) (by decide), top]
    simp [top, root]
  have uncalled : ∀ p, ¬memberUnit.Calls p ⟨1⟩ := by
    intro p hp
    have hk := hp.kind_eq
    obtain ⟨_ | _ | _ | _⟩ := p <;> cases hk
  have complete : ∀ m, memberUnit.missing? m = none := by
    rintro ⟨_ | _ | _ | _⟩ <;> rfl
  obtain ⟨-, answered⟩ := typeOf_after_queries {} [.collect memberUnit] (start {}) memberUnit model
    collected single ⟨1⟩ rfl [⟨0⟩]
    (fun q hq _ m hm hin => absurd hin (innermost m (List.mem_singleton.1 hq ▸ hm)))
    (fun _ p hp => absurd hp (uncalled p))
  have ran : (host.typeOf model ⟨1⟩).1 = .ok (host.env.asking model model.annotations ⟨1⟩).1 := by
    have fine : (host.env.asking model model.annotations ⟨1⟩).2.violation = none :=
      Typing.violation_typeOf _ _ _ fun m _ => complete m
    have ran := @Environment.typeOf_eq host.env model model.annotations (fun _ => rfl) ⟨1⟩
    rw [fine] at ran
    exact congrArg Prod.fst ran
  exact ⟨model, collected, single, _, ran, answered _ ran⟩

end Session

end Pascal
