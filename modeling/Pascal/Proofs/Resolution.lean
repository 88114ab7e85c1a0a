import Pascal.Proofs.Collection.Basic
import Pascal.Proofs.Typing

/-!
# Resolving a unit again

A pass over a unit forgets what an earlier one found out, apart from the types of nodes that are no
expressions. Those are unknown unless collection set them, so a second pass finds out the same as
the first if it meets the same declarations and types.
-/

namespace Pascal

namespace Annotations

/-- Two passes found out the same. -/
structure SameFindings (a b : Annotations) : Prop where
  types : ∀ n, b.type? n = a.type? n
  occurrences : ∀ n, b.occurrence? n = a.occurrence? n
  invocations : ∀ n, b.invocation? n = a.invocation? n
  issues : b.issues = a.issues

/-- The types that a pass sets for nodes that are no expressions and had none. -/
def lateTypes (tree : SyntaxTree) (start now : Annotations) (n : NodeId) : Option Ty :=
  if (tree.kind n).isExpression || (start.type? n).isSome then none else now.type? n

section Reset

variable (a : Annotations) (tree : SyntaxTree) (n : NodeId)

@[simp] theorem type?_resetResolution : (a.resetResolution tree).type? n =
    if (tree.kind n).isExpression then none else a.type? n := by
  simp only [resetResolution, type?, Std.HashMap.getElem?_filter']
  cases (tree.kind n).isExpression <;> cases a.types[n]? <;> simp

@[simp] theorem scope?_resetResolution : (a.resetResolution tree).scope? n = a.scope? n := rfl

@[simp] theorem occurrence?_resetResolution : (a.resetResolution tree).occurrence? n = none := by
  simp [resetResolution, occurrence?]

@[simp] theorem invocation?_resetResolution : (a.resetResolution tree).invocation? n = none := by
  simp [resetResolution, invocation?]

end Reset

variable {W : Set Entity} {tree : SyntaxTree} {a now : Annotations}

theorem Within.resetResolution (h : a.Within W) (tree : SyntaxTree) :
    (a.resetResolution tree).Within W where
  types n ty ht := by
    rw [type?_resetResolution] at ht
    split_ifs at ht
    exact h.types n ty ht
  scopes := h.scopes
  named := by simp

theorem Resolves.refl (tree : SyntaxTree) (a : Annotations) : a.Resolves tree a :=
  ⟨rfl, rfl, List.prefix_refl _, fun _ _ => .inl rfl⟩

/-- Forgetting what a pass found out leads back to the issues that it started with. -/
theorem Resolves.issues_resetResolution (h : (a.resetResolution tree).Resolves tree now)
    (sealed : a.sealed ≤ a.issues.size) :
    (now.resetResolution tree).issues = (a.resetResolution tree).issues := by
  have hsealed : now.sealed = a.sealed := h.sealed
  obtain ⟨rest, hrest⟩ := h.issues
  apply Array.toList_inj.1
  rw [toList_issues_resetResolution] at hrest
  rw [toList_issues_resetResolution, toList_issues_resetResolution, hsealed, ← hrest,
    List.take_append_of_le_length, List.take_take, Nat.min_self]
  simpa using sealed

theorem Resolves.lateTypes_eq_some {start : Annotations} {n : NodeId} {ty : Ty}
    (h : start.Resolves tree now) (hn : lateTypes tree start now n = some ty) :
    (tree.kind n).isExpression = false ∧ ty = .unknown := by
  unfold lateTypes at hn
  split_ifs at hn with hskip
  simp only [Bool.or_eq_true, not_or, Bool.not_eq_true, Option.isSome_eq_false_iff,
    Option.isNone_iff_eq_none] at hskip
  obtain ⟨hkind, hnone⟩ := hskip
  refine ⟨hkind, ?_⟩
  obtain hsame | ⟨-, hunknown⟩ := h.types n hkind
  · rw [hn, hnone] at hsame
    cases hsame
  · rw [hn] at hunknown
    exact Option.some.inj hunknown

/-- What is left of the types after a pass. -/
theorem Resolves.types_resetResolution (h : (a.resetResolution tree).Resolves tree now)
    (n : NodeId) :
    (now.resetResolution tree).type? n = ((a.resetResolution tree).type? n <|>
      lateTypes tree (a.resetResolution tree) now n) := by
  cases hkind : (tree.kind n).isExpression with
  | true => simp [lateTypes, hkind]
  | false =>
    have htypes := h.types n hkind
    simp only [type?_resetResolution, lateTypes, hkind] at htypes ⊢
    cases hty : a.type? n with
    | none => simp
    | some ty => simpa [hty] using htypes

end Annotations

namespace Typing

variable {W : Set Entity} {tree : SyntaxTree} {a now : Annotations}

/-- A pass agrees with itself. -/
theorem alike_self (h : a.Within W) :
    Alike W tree a (fun _ => none) { annotations := a } { annotations := a } where
  resolves := .refl tree a
  void := by simp
  types n := by simp
  scopes _ := rfl
  occurrences _ := rfl
  invocations _ := rfl
  issues := rfl
  deferred := rfl
  violation := rfl
  within := h.types
  opened := h.scopes
  named := h.named

/-- A second pass starts like the first one. -/
theorem alike_resetResolution (h : a.Within W) (sealed : a.sealed ≤ a.issues.size)
    (hr : (a.resetResolution tree).Resolves tree now) :
    Alike W tree (a.resetResolution tree) (Annotations.lateTypes tree (a.resetResolution tree) now)
      { annotations := a.resetResolution tree } { annotations := now.resetResolution tree } where
  resolves := .refl tree _
  void _ _ := hr.lateTypes_eq_some
  types := hr.types_resetResolution
  scopes n := by
    rw [Annotations.scope?_resetResolution, Annotations.scope?, hr.scopes]
    rfl
  occurrences n := by simp
  invocations n := by simp
  issues := hr.issues_resetResolution sealed
  deferred := rfl
  violation := rfl
  within := (h.resetResolution tree).types
  opened := (h.resetResolution tree).scopes
  named := (h.resetResolution tree).named

end Typing

namespace Environment

variable {W : Set Entity} {env env' : Environment}

/-- The state that a pass over a unit ends in. -/
def resolved (env : Environment) (model : Model) : TypingState :=
  ((Typing.resolveNode ⟨env, model.tree⟩ model.scope model.tree.root).run
    { annotations := model.annotations.resetResolution model.tree }).2

theorem resolve_eq (env : Environment) (model : Model) :
    env.resolve model =
      (match (env.resolved model).violation with
        | some cause => .error (.malformedTree cause)
        | none => .ok (),
      { model with annotations := (env.resolved model).annotations }) := rfl

theorem Agree.self (h : Agree W env env') : Agree W env env := by
  constructor
  case closed => exact h.closed
  case has => exact h.has
  all_goals intros
  all_goals rfl

/-- A pass can be repeated in any environment that agrees on what it may meet. -/
theorem Agree.resolve_again (h : Agree W env env') {model found : Model}
    (hs : .scope model.scope ∈ W) (within : model.annotations.Within W)
    (sealed : model.annotations.sealed ≤ model.annotations.issues.size)
    (ran : env.resolve model = (.ok (), found)) :
    ∃ again, env'.resolve found = (.ok (), again) ∧
      found.annotations.SameFindings again.annotations := by
  rw [resolve_eq] at ran
  obtain ⟨houtcome, rfl⟩ := Prod.mk.inj ran
  have fine : (env.resolved model).violation = none := by
    cases hv : (env.resolved model).violation with
    | none => rfl
    | some cause => simp [hv] at houtcome
  let found := { model with annotations := (env.resolved model).annotations }
  -- The pass against itself: only what it does to the annotations is of interest.
  have itself : (model.annotations.resetResolution model.tree).Resolves model.tree
      found.annotations :=
    (Typing.sim_resolveNode h.self hs model.tree.root _ _
      (Typing.alike_self (within.resetResolution model.tree))).2.2.resolves
  have alike : Typing.Alike W model.tree _ _ (env.resolved model) (env'.resolved found) :=
    (Typing.sim_resolveNode h hs model.tree.root _ _
      (Typing.alike_resetResolution within sealed itself)).2.2
  refine ⟨{ found with annotations := (env'.resolved found).annotations }, ?_, ?_⟩
  · rw [resolve_eq, alike.violation, fine]
  · refine ⟨fun n => ?_, alike.occurrences, alike.invocations, alike.issues⟩
    apply (alike.types n).trans
    cases hty : (env.resolved model).annotations.type? n with
    | some ty => rfl
    | none => simp [Annotations.lateTypes, found, hty]

end Environment

end Pascal
