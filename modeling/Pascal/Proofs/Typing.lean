import Pascal.Proofs.Overloading
import Pascal.Proofs.Pass

/-!
# Typing within a world

Typing reads the tables and writes annotations. Two runs over the same tree, against environments
that agree on a world, from annotations that agree and stay inside the world, go the same way: they
give the same types and end in annotations that agree and stay inside again.

The second run may start with more: it may remember the type `unknown` for nodes that are no
expressions, because an earlier run has met them. This makes no difference, and it is what lets a
pass be repeated.

## Main results

- `Typing.sim_typeOf`, `Typing.sim_resolveNode`: typing a node and passing over a subtree go the
  same way in environments that agree.
-/

namespace Pascal

open Annotations

/-- What a pass does to annotations: it opens no scopes, adds issues behind the others, and finds no
types for nodes that are no expressions. -/
structure Annotations.Resolves (tree : SyntaxTree) (start now : Annotations) : Prop where
  scopes : now.scopes = start.scopes
  sealed : now.sealed = start.sealed
  issues : start.issues.toList <+: now.issues.toList
  types : ∀ n, (tree.kind n).isExpression = false →
    now.type? n = start.type? n ∨ start.type? n = none ∧ now.type? n = some .unknown

namespace Annotations

variable (a : Annotations) (n m : NodeId)

theorem type?_setType (ty : Ty) :
    (a.setType n ty).type? m = if n = m then some ty else a.type? m := by
  simp [setType, type?, Std.HashMap.getElem?_insert]

theorem scope?_setScope (scope : ScopeId) :
    (a.setScope n scope).scope? m = if n = m then some scope else a.scope? m := by
  simp [setScope, scope?, Std.HashMap.getElem?_insert]

theorem occurrence?_setOccurrence (occurrence : Occurrence) :
    (a.setOccurrence n occurrence).occurrence? m =
      if n = m then some occurrence else a.occurrence? m := by
  simp [setOccurrence, occurrence?, Std.HashMap.getElem?_insert]

theorem invocation?_setInvocation (invocable : Invocable) :
    (a.setInvocation n invocable).invocation? m =
      if n = m then some invocable else a.invocation? m := by
  simp [setInvocation, invocation?, Std.HashMap.getElem?_insert]

end Annotations

namespace Typing

/-- Two states of typing agree, apart from what the second one may know about nodes that are no
expressions, and everything in them belongs to a world. -/
structure Alike (W : Set Entity) (tree : SyntaxTree) (start : Annotations)
    (known : NodeId → Option Ty) (s s' : TypingState) : Prop where
  resolves : start.Resolves tree s.annotations
  void : ∀ n ty, known n = some ty → (tree.kind n).isExpression = false ∧ ty = .unknown
  types : ∀ n, s'.annotations.type? n = (s.annotations.type? n <|> known n)
  scopes : ∀ n, s'.annotations.scope? n = s.annotations.scope? n
  occurrences : ∀ n, s'.annotations.occurrence? n = s.annotations.occurrence? n
  invocations : ∀ n, s'.annotations.invocation? n = s.annotations.invocation? n
  issues : s'.annotations.issues = s.annotations.issues
  deferred : s'.deferred = s.deferred
  violation : s'.violation = s.violation
  within : ∀ n ty, s.annotations.type? n = some ty → ty.Within W
  opened : ∀ n scope, s.annotations.scope? n = some scope → .scope scope ∈ W
  named : ∀ n occurrence d, s.annotations.occurrence? n = some occurrence →
    occurrence.declaration = some d → .decl d ∈ W

/-- From related states, two computations give the same value, which has a property, and end in
related states. -/
def Sim {α : Type} (R : TypingState → TypingState → Prop) (Q : α → Prop) (m m' : Typing α) : Prop :=
  ∀ s s', R s s' → (m'.run s').1 = (m.run s).1 ∧ Q (m.run s).1 ∧ R (m.run s).2 (m'.run s').2

section Rules

variable {R : TypingState → TypingState → Prop} {α β : Type}

theorem run_bind (m : Typing α) (k : α → Typing β) (s : TypingState) :
    (m >>= k).run s = (k (m.run s).1).run (m.run s).2 := rfl

theorem run_get_bind (k : TypingState → Typing α) (s : TypingState) :
    (get >>= k : Typing α).run s = (k s).run s := rfl

theorem run_discard (m : Typing α) (s : TypingState) :
    ((discard m).run s).2 = (m.run s).2 := rfl

theorem Sim.pure {Q : α → Prop} {a : α} (h : Q a) : Sim R Q (pure a) (Pure.pure a) :=
  fun _ _ hr => ⟨rfl, h, hr⟩

theorem Sim.bind {P : α → Prop} {Q : β → Prop} {m m' : Typing α} {k k' : α → Typing β}
    (h : Sim R P m m') (hk : ∀ a, P a → Sim R Q (k a) (k' a)) : Sim R Q (m >>= k) (m' >>= k') := by
  intro s s' hr
  obtain ⟨hv, hp, hr⟩ := h s s' hr
  rw [run_bind, run_bind, hv]
  exact hk _ hp _ _ hr

theorem Sim.get {Q : β → Prop} {k k' : TypingState → Typing β}
    (h : ∀ s s', R s s' → (k' s' |>.run s').1 = (k s |>.run s).1 ∧ Q (k s |>.run s).1 ∧
      R (k s |>.run s).2 (k' s' |>.run s').2) :
    Sim R Q (MonadState.get >>= k) (MonadState.get >>= k') :=
  fun s s' hr => h s s' hr

theorem Sim.modify {f f' : TypingState → TypingState} (h : ∀ s s', R s s' → R (f s) (f' s')) :
    Sim R (fun _ => True) (modify f) (modify f') :=
  fun s s' hr => ⟨rfl, trivial, h s s' hr⟩

theorem Sim.ite {Q : α → Prop} {c : Prop} [Decidable c] {m m' k k' : Typing α}
    (h : c → Sim R Q m m') (g : ¬c → Sim R Q k k') :
    Sim R Q (if c then m else k) (if c then m' else k') := by
  split_ifs with hc
  · exact h hc
  · exact g hc

theorem Sim.mapM {A : Type} {Q : α → Prop} {l : List A} {f f' : A → Typing α}
    (h : ∀ x ∈ l, Sim R Q (f x) (f' x)) :
    Sim R (fun values => ∀ value ∈ values, Q value) (l.mapM f) (l.mapM f') := by
  induction l with
  | nil => exact Sim.pure (by simp)
  | cons x rest ih =>
    simp only [List.forall_mem_cons] at h
    simp only [List.mapM_cons]
    refine Sim.bind h.1 fun a ha => Sim.bind (ih h.2) fun as has => Sim.pure ?_
    exact List.forall_mem_cons.2 ⟨ha, has⟩

theorem Sim.forM {A : Type} {Q : Unit → Prop} (hQ : Q ()) {l : List A} {f f' : A → Typing Unit}
    (h : ∀ x ∈ l, Sim R Q (f x) (f' x)) : Sim R Q (l.forM f) (l.forM f') := by
  induction l with
  | nil => exact Sim.pure hQ
  | cons x rest ih =>
    simp only [List.forall_mem_cons] at h
    exact Sim.bind h.1 fun _ _ => ih h.2

/-- A pass descends into the scope that it is in, or into one that the node opens. -/
theorem duty_eq_descend {kind : NodeKind} {opened : Option ScopeId} {scope inner : ScopeId}
    (h : duty kind opened scope = .descend inner) : scope = inner ∨ opened = some inner := by
  unfold duty at h
  split_ifs at h
  cases opened with
  | none => split at h <;> grind
  | some body => split at h <;> grind

/-- A pass over a subtree goes the same way from related states if typing does. -/
theorem Sim.resolveNode {tree : SyntaxTree} {env env' : Environment} {P : ScopeId → Prop}
    {Q : Ty → Prop}
    (scopes : ∀ s s', R s s' → ∀ n, s'.annotations.scope? n = s.annotations.scope? n)
    (opened : ∀ s s', R s s' → ∀ n inner, s.annotations.scope? n = some inner → P inner)
    (typed : ∀ scope n, P scope →
      Sim R Q (typeOf ⟨env, tree⟩ scope n) (typeOf ⟨env', tree⟩ scope n))
    {scope : ScopeId} (hs : P scope) (n : NodeId) :
    Sim R (fun _ => True) (Typing.resolveNode ⟨env, tree⟩ scope n)
      (Typing.resolveNode ⟨env', tree⟩ scope n) := by
  induction hi : n.index using Nat.strong_induction_on generalizing n scope with
  | _ index ih =>
    rw [resolveNode_eq, resolveNode_eq]
    refine Sim.get fun s s' h => ?_
    rw [scopes s s' h n]
    cases hd : duty (tree.kind n) (s.annotations.scope? n) scope with
    | ignore => exact ⟨rfl, trivial, h⟩
    | type =>
      have discarded : Sim R (fun _ => True) (discard (typeOf ⟨env, tree⟩ scope n))
          (discard (typeOf ⟨env', tree⟩ scope n)) :=
        Sim.bind (typed scope n hs) fun _ _ => Sim.pure trivial
      exact discarded s s' h
    | descend inner =>
      have hinner : P inner := by
        obtain rfl | hopened := duty_eq_descend hd
        · exact hs
        · exact opened s s' h n inner hopened
      have passed : Sim R (fun _ => True)
          ((tree.children n).forM fun b => Typing.resolveNode ⟨env, tree⟩ inner b.1)
          ((tree.children n).forM fun b => Typing.resolveNode ⟨env', tree⟩ inner b.1) :=
        Sim.forM trivial fun b _ => ih b.1.index (hi ▸ b.2) hinner b.1 rfl
      exact passed s s' h

end Rules

section Steps

variable {W : Set Entity} {tree : SyntaxTree} {start : Annotations} {known : NodeId → Option Ty}
  {env env' : Environment} {s s' : TypingState} {n : NodeId}

/-! ## Steps -/

theorem Alike.pushIssue (h : Alike W tree start known s s') (issue : Issue) :
    Alike W tree start known { s with annotations := s.annotations.pushIssue issue }
      { s' with annotations := s'.annotations.pushIssue issue } :=
  { h with
    resolves := { h.resolves with
      issues := h.resolves.issues.trans (by simp [Annotations.pushIssue]) }
    issues := by simp only [Annotations.pushIssue, h.issues] }

theorem Alike.setOccurrence (h : Alike W tree start known s s') (occurrence : Occurrence)
    (hd : ∀ d, occurrence.declaration = some d → .decl d ∈ W) :
    Alike W tree start known { s with annotations := s.annotations.setOccurrence n occurrence }
      { s' with annotations := s'.annotations.setOccurrence n occurrence } :=
  { h with
    resolves := { h.resolves with }
    occurrences := fun m => by
      simp only [occurrence?_setOccurrence, h.occurrences]
    named := fun m o d => by
      simp only [occurrence?_setOccurrence]
      split_ifs
      · rintro ⟨⟩
        exact hd d
      · exact h.named m o d }

theorem Alike.setInvocation (h : Alike W tree start known s s') (invocable : Invocable) :
    Alike W tree start known { s with annotations := s.annotations.setInvocation n invocable }
      { s' with annotations := s'.annotations.setInvocation n invocable } :=
  { h with
    resolves := { h.resolves with }
    invocations := fun m => by
      simp only [invocation?_setInvocation, h.invocations] }

theorem resolves_setType {a : Annotations} (h : start.Resolves tree a) {ty : Ty}
    (hn : (tree.kind n).isExpression = true ∨ a.type? n = none ∧ ty = .unknown) :
    start.Resolves tree (a.setType n ty) :=
  { h with
    types := fun m hm => by
      simp only [type?_setType]
      split_ifs with heq
      · subst heq
        obtain hn | ⟨ha, rfl⟩ := hn
        · simp [hn] at hm
        · obtain hs | ⟨hs, -⟩ := h.types n hm
          · exact .inr ⟨hs.symm.trans ha, rfl⟩
          · exact .inr ⟨hs, rfl⟩
      · exact h.types m hm }

theorem Alike.setType (h : Alike W tree start known s s') {ty : Ty} (ht : ty.Within W)
    (hn : (tree.kind n).isExpression = true ∨ s.annotations.type? n = none ∧ ty = .unknown) :
    Alike W tree start known { s with annotations := s.annotations.setType n ty }
      { s' with annotations := s'.annotations.setType n ty } :=
  { h with
    resolves := resolves_setType h.resolves hn
    types := fun m => by
      simp only [type?_setType, h.types]
      split_ifs <;> rfl
    within := fun m t => by
      simp only [type?_setType]
      split_ifs
      · rintro ⟨⟩
        exact ht
      · exact h.within m t }

/-- The first run catches up on a node whose type the second one knows already. -/
theorem Alike.catchUp (h : Alike W tree start known s s') (hk : known n = some .unknown)
    (hn : s.annotations.type? n = none) :
    Alike W tree start known { s with annotations := s.annotations.setType n .unknown } s' :=
  { h with
    resolves := resolves_setType h.resolves (.inr ⟨hn, rfl⟩)
    types := fun m => by
      simp only [type?_setType, h.types]
      split_ifs with heq
      · subst heq
        rw [hn, hk]
        rfl
      · rfl
    within := fun m t => by
      simp only [type?_setType]
      split_ifs
      · rintro ⟨⟩
        simp [Ty.Within, Ty.refs]
      · exact h.within m t }

theorem sim_issue (kind : IssueKind) :
    Sim (Alike W tree start known) (fun _ => True) (issue ⟨env, tree⟩ n kind)
      (issue ⟨env', tree⟩ n kind) :=
  Sim.modify fun _ _ h => h.pushIssue _

theorem sim_recordOccurrence (name : String) {declaration : Option DeclId}
    (hd : ∀ d, declaration = some d → .decl d ∈ W) :
    Sim (Alike W tree start known) (fun _ => True) (recordOccurrence n name declaration)
      (recordOccurrence n name declaration) :=
  Sim.modify fun _ _ h => h.setOccurrence _ hd

theorem sim_setInvocation (invocable : Invocable) :
    Sim (Alike W tree start known) (fun _ => True) (annotate (·.setInvocation n invocable))
      (annotate (·.setInvocation n invocable)) :=
  Sim.modify fun _ _ h => h.setInvocation _

theorem sim_setType {ty : Ty} (ht : ty.Within W) (hn : (tree.kind n).isExpression = true) :
    Sim (Alike W tree start known) (fun _ => True) (annotate (·.setType n ty))
      (annotate (·.setType n ty)) :=
  Sim.modify fun _ _ h => h.setType ht (.inl hn)

theorem sim_child (index : Nat) :
    Sim (Alike W tree start known) (fun _ => True) (child ⟨env, tree⟩ n index)
      (child ⟨env', tree⟩ n index) := by
  simp only [child]
  split
  · exact Sim.pure trivial
  · refine Sim.bind (Sim.modify fun s s' h => ?_) fun _ _ => Sim.pure trivial
    exact { h with
      resolves := { h.resolves with }
      violation := by simp only [h.violation] }

/-! ## References -/

theorem sim_unresolved (name : String) :
    Sim (Alike W tree start known) (fun _ => True) (unresolved ⟨env, tree⟩ n name)
      (unresolved ⟨env', tree⟩ n name) := by
  refine Sim.ite (fun _ => Sim.modify fun s s' h => ?_) fun _ => sim_issue _
  exact { h with
    resolves := { h.resolves with }
    deferred := by simp only [h.deferred] }

variable {scope : ScopeId} (ha : Environment.Agree W env env')

include ha

theorem sim_resolveName (hs : .scope scope ∈ W) (name : String) :
    Sim (Alike W tree start known) (DeclsWithin W) (resolveName ⟨env, tree⟩ scope n name)
      (resolveName ⟨env', tree⟩ scope n name) := by
  obtain ⟨hf, hfound⟩ := ha.find hs name
  simp only [resolveName, hf]
  exact Sim.ite (fun _ => Sim.bind (sim_unresolved name) fun _ _ => Sim.pure hfound)
    fun _ => Sim.pure hfound

theorem sim_unitOf :
    Sim (Alike W tree start known) (fun unit => ∀ u, unit = some u → .scope u ∈ W)
      (unitOf ⟨env, tree⟩ n) (unitOf ⟨env', tree⟩ n) := by
  refine Sim.get fun s s' h => ?_
  rw [h.occurrences n]
  cases ho : s.annotations.occurrence? n with
  | none => exact ⟨rfl, by rintro _ ⟨⟩, h⟩
  | some occurrence =>
    obtain ⟨name, declaration⟩ := occurrence
    cases declaration with
    | none => exact ⟨rfl, by rintro _ ⟨⟩, h⟩
    | some d =>
      have hd := h.named n _ d ho rfl
      have unit : ∀ u, (env.declaration d).unitScope = some u → .scope u ∈ W := by
        intro u hu
        refine ha.closed _ hd _ (.mentioned ?_)
        simp [DeclarationSpec.refs, hu]
      simp only [ha.decl d hd]
      cases (env.declaration d).kind with
      | unit | unitImport => exact ⟨rfl, unit, h⟩
      | _ => exact ⟨rfl, by rintro _ ⟨⟩, h⟩

omit ha in
theorem dottedName?_congr (env env' : Environment) (tree : SyntaxTree) (n : NodeId) :
    TypingContext.dottedName? ⟨env', tree⟩ n = TypingContext.dottedName? ⟨env, tree⟩ n := by
  induction hi : n.index using Nat.strong_induction_on generalizing n with
  | _ index ih =>
    rw [TypingContext.dottedName?, TypingContext.dottedName?]
    cases tree.kind n with
    | memberAccess name =>
      cases tree.child? n 0 with
      | none => rfl
      | some receiver =>
        exact congrArg (Option.map _) (ih receiver.1.index (hi ▸ receiver.2) receiver.1 rfl)
    | _ => rfl

theorem sim_resolveDotted (hs : .scope scope ∈ W) :
    Sim (Alike W tree start known) (DeclsWithin W) (resolveDotted ⟨env, tree⟩ scope n)
      (resolveDotted ⟨env', tree⟩ scope n) := by
  simp only [resolveDotted, dottedName?_congr env env' tree]
  cases TypingContext.dottedName? ⟨env, tree⟩ n with
  | none => exact Sim.pure (DeclsWithin.nil W)
  | some dotted =>
    obtain ⟨hf, hfound⟩ := ha.find hs dotted
    have units : (env.find scope dotted).filter (fun id => (env'.declaration id).unitScope.isSome) =
        (env.find scope dotted).filter fun id => (env.declaration id).unitScope.isSome :=
      List.filter_congr fun d hd => by rw [ha.decl d (hfound d hd)]
    have within : DeclsWithin W
        ((env.find scope dotted).filter fun id => (env.declaration id).unitScope.isSome) :=
      fun d hd => hfound d (List.mem_filter.1 hd).1
    simp only [hf, units]
    exact Sim.ite (fun _ => Sim.bind (sim_unresolved dotted) fun _ _ => Sim.pure within)
      fun _ => Sim.pure within

theorem sim_resolveValueMember (hs : .scope scope ∈ W)
    {receiver : Ty} (hr : receiver.Within W) (name : String) :
    Sim (Alike W tree start known) (DeclsWithin W)
      (resolveValueMember ⟨env, tree⟩ scope n receiver name)
      (resolveValueMember ⟨env', tree⟩ scope n receiver name) := by
  obtain ⟨hf, hfound⟩ := ha.findMember hs hr name
  simp only [resolveValueMember, hf, ha.image hr]
  refine Sim.ite (fun _ => Sim.pure (DeclsWithin.nil W)) fun _ => ?_
  exact Sim.ite (fun _ => Sim.bind (sim_issue _) fun _ _ => Sim.pure hfound)
    fun _ => Sim.pure hfound

theorem sim_resolveMember (hs : .scope scope ∈ W)
    (name : String) {typeOf typeOf' : Below n → Typing Ty}
    (ht : ∀ b, Sim (Alike W tree start known) (Ty.Within W) (typeOf b) (typeOf' b)) :
    Sim (Alike W tree start known) (DeclsWithin W) (resolveMember ⟨env, tree⟩ scope n name typeOf)
      (resolveMember ⟨env', tree⟩ scope n name typeOf') := by
  refine Sim.bind (sim_child 0) fun child _ => ?_
  cases child with
  | none => exact Sim.pure (DeclsWithin.nil W)
  | some receiver =>
    refine Sim.bind (ht receiver) fun ty hty => Sim.bind (sim_unitOf ha) fun unit hu => ?_
    have inUnit : unit.elim [] (env'.findInUnit scope · name) =
          unit.elim [] (env.findInUnit scope · name) ∧
        DeclsWithin W (unit.elim [] (env.findInUnit scope · name)) := by
      cases unit with
      | none => exact ⟨rfl, DeclsWithin.nil W⟩
      | some u => exact ha.findInUnit hs (hu u rfl) name
    obtain ⟨hf, hfound⟩ := inUnit
    simp only [hf]
    refine Sim.ite (fun _ => Sim.pure hfound) fun _ => Sim.get fun s s' h => ?_
    rw [h.deferred]
    exact Sim.ite (fun _ => sim_resolveDotted ha hs)
      (fun _ => sim_resolveValueMember ha hs hty name) s s' h

/-! ## Calls -/

theorem routines_congr (tree : SyntaxTree) {found : List DeclId} (hf : DeclsWithin W found) :
    TypingContext.routines ⟨env', tree⟩ found = TypingContext.routines ⟨env, tree⟩ found ∧
      ∀ c ∈ TypingContext.routines ⟨env, tree⟩ found, c.Within W := by
  constructor
  · exact List.filterMap_congr fun d hd => by simp only [ha.decl d (hf d hd)]
  · intro c hc
    obtain ⟨d, hd, hc⟩ := List.mem_filterMap.1 hc
    exact ha.ofDeclaration? (hf d hd) hc

omit ha in
/-- The routine that a mention calls without arguments. -/
theorem sim_called {called : Option Invocable} (hc : ∀ c, called = some c → c.Within W)
    (name : String) {first : DeclId} (hf : .decl first ∈ W) {ty : Ty} (ht : ty.Within W) :
    let reference : Typing Ty := do
      match called with
      | some chosen =>
        recordOccurrence n name chosen.declaration
        annotate (·.setInvocation n chosen)
        Pure.pure chosen.result
      | none =>
        recordOccurrence n name (some first)
        Pure.pure ty
    Sim (Alike W tree start known) (Ty.Within W) reference reference := by
  cases called with
  | some chosen =>
    have hw := hc chosen rfl
    exact Sim.bind (sim_recordOccurrence name hw.declaration) fun _ _ =>
      Sim.bind (sim_setInvocation chosen) fun _ _ => Sim.pure hw.result
  | none =>
    exact Sim.bind (sim_recordOccurrence name (by rintro _ ⟨⟩; exact hf)) fun _ _ => Sim.pure ht

theorem sim_referenceType (name : String) {found : List DeclId} (hf : DeclsWithin W found) :
    Sim (Alike W tree start known) (Ty.Within W) (referenceType ⟨env, tree⟩ n name found)
      (referenceType ⟨env', tree⟩ n name found) := by
  cases found with
  | nil =>
    exact Sim.bind (sim_recordOccurrence name (by rintro _ ⟨⟩)) fun _ _ =>
      Sim.pure (Ty.within_of_refs_nil rfl)
  | cons first others =>
    have hfirst : .decl first ∈ W := hf first List.mem_cons_self
    obtain ⟨hr, hroutines⟩ := routines_congr ha tree hf
    have none : ∀ ty ∈ ([] : List Ty), ty.Within W := by simp
    obtain ⟨hc, hchoice⟩ := ha.choose hroutines none
    simp only [referenceType, ha.decl first hfirst, hr, hc]
    refine sim_called ?_ name hfirst (ha.declared hfirst)
    intro c hcalled
    split_ifs at hcalled
    exact hchoice.chosen hcalled

theorem sim_settle (name : String) {resolution : Resolution}
    (hr : resolution.Within W) {arguments : List Ty} (hargs : ∀ ty ∈ arguments, ty.Within W) :
    Sim (Alike W tree start known) (fun chosen => ∀ c, chosen = some c → c.Within W)
      (settle ⟨env, tree⟩ n name resolution arguments)
      (settle ⟨env', tree⟩ n name resolution arguments) := by
  cases resolution with
  | resolved chosen =>
    apply Sim.pure
    rintro _ ⟨⟩
    exact hr.chosen rfl
  | ambiguous chosen others =>
    have signatures : (chosen :: others).map env'.types.signature =
        (chosen :: others).map env.types.signature :=
      List.map_congr_left fun c hc => ha.signature (hr c hc)
    simp only [settle, ha.signature (hr chosen List.mem_cons_self), signatures]
    refine Sim.bind (sim_issue _) fun _ _ => Sim.pure ?_
    rintro _ ⟨⟩
    exact hr.chosen rfl
  | noApplicable =>
    have images : arguments.map env'.types.image = arguments.map env.types.image :=
      List.map_congr_left fun ty hty => ha.image (hargs ty hty)
    simp only [settle, images]
    exact Sim.bind (sim_issue _) fun _ _ => Sim.pure (by rintro _ ⟨⟩)

theorem sim_operation (operator : Operator)
    {operands : List Ty} (ho : ∀ ty ∈ operands, ty.Within W) :
    Sim (Alike W tree start known) (Ty.Within W) (operation ⟨env, tree⟩ n operator operands)
      (operation ⟨env', tree⟩ n operator operands) := by
  obtain ⟨hr, hresolution⟩ := ha.resolveOperator operator ho
  simp only [operation, hr]
  refine Sim.ite (fun _ => Sim.pure (Ty.within_of_refs_nil rfl)) fun _ => ?_
  refine Sim.bind (sim_settle ha _ hresolution ho) fun chosen hc => ?_
  cases chosen with
  | none => exact Sim.pure (Ty.within_of_refs_nil rfl)
  | some c => exact Sim.bind (sim_setInvocation c) fun _ _ => Sim.pure (hc c rfl).result

theorem sim_call {callee : NodeId}
    (hk : (tree.kind callee).isExpression = true) (name : String) {found : List DeclId}
    (hf : DeclsWithin W found) {arguments : List Ty} (hargs : ∀ ty ∈ arguments, ty.Within W) :
    Sim (Alike W tree start known) (Ty.Within W) (call ⟨env, tree⟩ n callee name found arguments)
      (call ⟨env', tree⟩ n callee name found arguments) := by
  have unknown : Ty.unknown.Within W := Ty.within_of_refs_nil rfl
  have refused : Sim (Alike W tree start known) (Ty.Within W)
      (do
        recordOccurrence callee name none
        annotate (·.setType callee .unknown)
        Pure.pure .unknown)
      (do
        recordOccurrence callee name none
        annotate (·.setType callee .unknown)
        Pure.pure .unknown) :=
    Sim.bind (sim_recordOccurrence name (by rintro _ ⟨⟩)) fun _ _ =>
      Sim.bind (sim_setType unknown hk) fun _ _ => Sim.pure unknown
  cases found with
  | nil => exact refused
  | cons first others =>
    have hfirst : .decl first ∈ W := hf first List.mem_cons_self
    have hty := ha.declared hfirst
    obtain ⟨hr, hroutines⟩ := routines_congr ha tree hf
    obtain ⟨hc, hchoice⟩ := ha.choose hroutines hargs
    simp only [call, ha.decl first hfirst, hr, hc]
    refine Sim.ite (fun _ => ?_) fun _ => ?_
    · refine Sim.bind (sim_settle ha name hchoice hargs) fun chosen hchosen => ?_
      cases chosen with
      | none => exact refused
      | some c =>
        have hw := hchosen c rfl
        refine Sim.bind (sim_recordOccurrence name hw.declaration) fun _ _ => ?_
        have finish : Sim (Alike W tree start known) (Ty.Within W)
            (do annotate (·.setInvocation n c); Pure.pure c.result)
            (do annotate (·.setInvocation n c); Pure.pure c.result) :=
          Sim.bind (sim_setInvocation c) fun _ _ => Sim.pure hw.result
        cases hd : c.declaration with
        | none => exact finish
        | some d =>
          have hin := hw.declaration d hd
          simp only [ha.decl d hin]
          exact Sim.bind (sim_setType (ha.declared hin) hk) fun _ _ => finish
    · refine Sim.bind (sim_recordOccurrence name (by rintro _ ⟨⟩; exact hfirst)) fun _ _ => ?_
      refine Sim.bind (sim_setType hty hk) fun _ _ => ?_
      exact Sim.ite (fun _ => Sim.pure hty) fun _ => Sim.pure hty.callResult

/-! ## Expressions -/

section Compound

variable {typeOf typeOf' : Below n → Typing Ty}
  (ht : ∀ b, Sim (Alike W tree start known) (Ty.Within W) (typeOf b) (typeOf' b))

include ht

theorem sim_binary (operator : BinaryOperator) :
    Sim (Alike W tree start known) (Ty.Within W) (binary ⟨env, tree⟩ n operator typeOf)
      (binary ⟨env', tree⟩ n operator typeOf') := by
  refine Sim.bind (sim_child 0) fun left _ => Sim.bind (sim_child 1) fun right _ => ?_
  have unknown : Ty.unknown.Within W := Ty.within_of_refs_nil rfl
  cases left with
  | none => exact Sim.pure unknown
  | some left =>
    cases right with
    | none => exact Sim.pure unknown
    | some right =>
      refine Sim.bind (ht left) fun l hl => Sim.bind (ht right) fun r hr => ?_
      have operands : ∀ ty ∈ [l, r], ty.Within W := by simp [hl, hr]
      have target : ∀ ty, r = .classRef ty → ty.Within W := by
        rintro ty rfl
        exact hr
      cases operator with
      | is => exact Sim.pure (Ty.within_of_refs_nil rfl)
      | as =>
        cases r with
        | classRef ty => exact Sim.pure (target ty rfl)
        | _ => exact Sim.pure hr
      | _ => exact sim_operation ha _ operands

theorem sim_unary (operator : UnaryOperator) :
    Sim (Alike W tree start known) (Ty.Within W) (unary ⟨env, tree⟩ n operator typeOf)
      (unary ⟨env', tree⟩ n operator typeOf') := by
  refine Sim.bind (sim_child 0) fun operand _ => ?_
  cases operand with
  | none => exact Sim.pure (Ty.within_of_refs_nil rfl)
  | some operand =>
    exact Sim.bind (ht operand) fun ty hty => sim_operation ha _ (by simpa using hty)

theorem sim_invocation (hs : .scope scope ∈ W) :
    Sim (Alike W tree start known) (Ty.Within W) (invocation ⟨env, tree⟩ scope n typeOf)
      (invocation ⟨env', tree⟩ scope n typeOf') := by
  refine Sim.bind (sim_child 0) fun callee _ => ?_
  cases callee with
  | none => exact Sim.pure (Ty.within_of_refs_nil rfl)
  | some callee =>
    refine Sim.bind (Sim.mapM fun b _ => ht b) fun arguments hargs => ?_
    cases hk : tree.kind callee.1 with
    | nameReference name =>
      exact Sim.bind (sim_resolveName ha hs name) fun found hf =>
        sim_call ha (by rw [hk]; rfl) name hf hargs
    | memberAccess name =>
      exact Sim.bind (sim_resolveMember ha hs name fun b => ht (callee.lift b)) fun found hf =>
        sim_call ha (by rw [hk]; rfl) name hf hargs
    | _ => exact Sim.bind (ht callee) fun ty hty => Sim.pure hty.callResult

theorem sim_dereference :
    Sim (Alike W tree start known) (Ty.Within W) (dereference ⟨env, tree⟩ n typeOf)
      (dereference ⟨env', tree⟩ n typeOf') := by
  have unknown : Ty.unknown.Within W := Ty.within_of_refs_nil rfl
  refine Sim.bind (sim_child 0) fun pointer _ => ?_
  cases pointer with
  | none => exact Sim.pure unknown
  | some pointer =>
    refine Sim.bind (ht pointer) fun ty hty => ?_
    have hu := hty.unaliased
    simp only [ha.image hty]
    generalize ty.unaliased = bare at hu
    cases bare with
    | unknown => exact Sim.pure unknown
    | pointer target isNil math =>
      exact Sim.ite (fun _ => Sim.bind (sim_issue _) fun _ _ => Sim.pure unknown)
        fun _ => Sim.pure hu
    | _ => exact Sim.bind (sim_issue _) fun _ _ => Sim.pure unknown

theorem sim_addressOf :
    Sim (Alike W tree start known) (Ty.Within W) (addressOf ⟨env, tree⟩ n typeOf)
      (addressOf ⟨env', tree⟩ n typeOf') := by
  refine Sim.bind (sim_child 0) fun operand _ => ?_
  cases operand with
  | none => exact Sim.pure (Ty.within_of_refs_nil rfl)
  | some operand =>
    refine Sim.bind (ht operand) fun ty hty => Sim.get fun s s' h => ?_
    have named : (((s.annotations.occurrence? operand.1).bind (·.declaration)).any fun id =>
          (env'.declaration id).isRoutine) =
        ((s.annotations.occurrence? operand.1).bind (·.declaration)).any fun id =>
          (env.declaration id).isRoutine := by
      cases ho : s.annotations.occurrence? operand.1 with
      | none => rfl
      | some occurrence =>
        cases hd : occurrence.declaration with
        | none => simp [hd]
        | some d => simp [hd, ha.decl d (h.named _ _ d ho hd)]
    simp only [h.occurrences, named]
    split_ifs <;> exact ⟨rfl, hty, h⟩

/-- The type of a node is found in the same way. -/
theorem sim_compute (hs : .scope scope ∈ W) :
    Sim (Alike W tree start known) (Ty.Within W) (compute ⟨env, tree⟩ scope n typeOf)
      (compute ⟨env', tree⟩ scope n typeOf') := by
  have closed : ∀ ty : Ty, ty.refs = [] → ty.Within W := fun _ => Ty.within_of_refs_nil
  unfold compute
  rw [ha.target]
  cases tree.kind n with
  | integerLiteral value => exact Sim.pure (closed _ rfl)
  | realLiteral value => exact Sim.pure (closed _ rfl)
  | textLiteral value =>
    refine Sim.pure (closed _ ?_)
    split_ifs <;> rfl
  | nilLiteral => exact Sim.pure (closed _ rfl)
  | nameReference name =>
    exact Sim.bind (sim_resolveName ha hs name) fun found hf => sim_referenceType ha name hf
  | memberAccess name =>
    exact Sim.bind (sim_resolveMember ha hs name ht) fun found hf => sim_referenceType ha name hf
  | invocation => exact sim_invocation ha ht hs
  | binaryExpression operator => exact sim_binary ha ht operator
  | unaryExpression operator => exact sim_unary ha ht operator
  | parenthesized =>
    refine Sim.bind (sim_child 0) fun inner _ => ?_
    cases inner with
    | none => exact Sim.pure (closed _ rfl)
    | some inner => exact ht inner
  | arrayConstructor =>
    exact Sim.bind (Sim.mapM fun b _ => ht b) fun elements he => Sim.pure (Ty.within_bracket.2 he)
  | dereference => exact sim_dereference ha ht
  | addressOf => exact sim_addressOf ha ht
  | _ => exact Sim.pure (closed _ rfl)

end Compound

/-! ## Nodes -/

omit ha in
theorem compute_of_not_isExpression {ctx : TypingContext} {typeOf : Below n → Typing Ty}
    (h : (ctx.tree.kind n).isExpression = false) :
    compute ctx scope n typeOf = pure .unknown := by
  unfold compute
  generalize ctx.tree.kind n = kind at h
  cases kind with
  | integerLiteral | realLiteral | textLiteral | nilLiteral | nameReference | memberAccess
  | invocation | binaryExpression | unaryExpression | parenthesized | arrayConstructor
  | dereference | addressOf => cases h
  | _ => rfl

/-- The type of a node is found in the same way, or remembered. -/
theorem sim_typeOf (hs : .scope scope ∈ W) (n : NodeId) :
    Sim (Alike W tree start known) (Ty.Within W) (Typing.typeOf ⟨env, tree⟩ scope n)
      (Typing.typeOf ⟨env', tree⟩ scope n) := by
  induction hi : n.index using Nat.strong_induction_on generalizing n with
  | _ index ih =>
    rw [Typing.typeOf, Typing.typeOf]
    refine Sim.get fun s s' h => ?_
    simp only [h.types n]
    cases ht : s.annotations.type? n with
    | some ty => exact ⟨rfl, h.within n ty ht, h⟩
    | none =>
      cases hn : (tree.kind n).isExpression with
      | true =>
        have hk : known n = none := by
          refine Option.eq_none_iff_forall_ne_some.2 fun ty hk => ?_
          have := (h.void n ty hk).1
          simp [hn] at this
        rw [hk]
        exact Sim.bind (sim_compute ha (fun b => ih b.1.index (hi ▸ b.2) b.1 rfl) hs)
          (fun ty hty => Sim.bind (sim_setType hty hn) fun _ _ => Sim.pure hty) s s' h
      | false =>
        rw [compute_of_not_isExpression hn, compute_of_not_isExpression hn]
        have unknown : Ty.unknown.Within W := Ty.within_of_refs_nil rfl
        cases hk : known n with
        | none => exact ⟨rfl, unknown, h.setType unknown (.inr ⟨ht, rfl⟩)⟩
        | some ty =>
          obtain ⟨-, rfl⟩ := h.void n ty hk
          exact ⟨rfl, unknown, h.catchUp hk ht⟩

/-- A pass over a subtree goes the same way. -/
theorem sim_resolveNode (hs : .scope scope ∈ W) (n : NodeId) :
    Sim (Alike W tree start known) (fun _ => True) (resolveNode ⟨env, tree⟩ scope n)
      (resolveNode ⟨env', tree⟩ scope n) :=
  Sim.resolveNode (P := fun s => .scope s ∈ W) (fun _ _ h => h.scopes) (fun _ _ h => h.opened)
    (fun _ n hs => sim_typeOf ha hs n) hs n

end Steps

end Typing

end Pascal
