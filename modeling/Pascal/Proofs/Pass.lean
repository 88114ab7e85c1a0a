import Pascal.Typing.Pass

/-!
# How a pass goes through a unit

The pass over a unit is a walk with a visitor. Every visit hands on the scope that it was given, so
siblings are met in the same scope, whatever has been met in front of them. A pass over a node is
therefore what the node asks for, and for most nodes that is a pass over each of the children.
-/

namespace Pascal

/-- What a pass does with a node. -/
inductive NodeDuty where
  /-- Nothing in the node is typed. -/
  | ignore
  /-- The node is an expression and is typed as a whole. -/
  | type
  /-- The children are passed over in a scope. -/
  | descend (scope : ScopeId)
  deriving Repr, DecidableEq

namespace Typing

/-- What a pass does with a node that it meets in a scope. Declared types and assembly are left
alone, and so is a routine without a body; any other node may open a scope for its children. -/
def duty (kind : NodeKind) (opened : Option ScopeId) (scope : ScopeId) : NodeDuty :=
  if kind.isExpression then .type
  else
    match kind with
    | .typeDeclaration _ | .asmBlock _ => .ignore
    | .routineDeclaration _ _ | .routineImplementation _ _ =>
      match opened with
      | some body => .descend body
      | none => .ignore
    | _ => .descend (opened.getD scope)

/-- The duty by the category that a visitor is told. -/
theorem duty_eq_category (kind : NodeKind) (opened : Option ScopeId) (scope : ScopeId) :
    duty kind opened scope =
      match kind.category with
      | .unit => .descend (opened.getD scope)
      | .typeDeclaration | .asmBlock => .ignore
      | .routine => opened.elim .ignore .descend
      | .nameReference | .invocation | .binaryExpression | .unaryExpression => .type
      | .other => if kind.isExpression then .type else .descend (opened.getD scope) := by
  cases kind <;> cases opened <;> rfl

section Walks

variable {ctx : TypingContext} {scope : ScopeId} {n : NodeId} {bound : Nat}

/-- What a pass does at a node. -/
def passNode (ctx : TypingContext) (scope : ScopeId) (n : NodeId) : Typing Unit := do
  match duty (ctx.tree.kind n) ((← get).annotations.scope? n) scope with
  | .ignore => pure ()
  | .type => discard (typeOf ctx scope n)
  | .descend inner => (ctx.tree.children n).forM fun child => resolveNode ctx inner child.1

/-- Where every walk hands on the scope it was given, the siblings are all walked over from it. -/
theorem foldlM_of_handsOn {A : Type} {step : ScopeId → A → Typing ScopeId} {pass : A → Typing Unit}
    {l : List A} (h : ∀ x ∈ l, step scope x = (do pass x; pure scope)) :
    l.foldlM step scope = (do l.forM pass; pure scope) := by
  induction l with
  | nil => rfl
  | cons x rest ih =>
    rw [List.forall_mem_cons] at h
    rw [List.foldlM_cons, h.1, List.forM, bind_assoc, bind_assoc]
    simp only [pure_bind, ih h.2]

theorem discard_handsOn (pass : Typing Unit) : discard (do pass; pure scope) = pass := rfl

/-- A walk with the visitor of the pass does what the node asks for and hands on the scope that it
was given. -/
theorem walk_visitBefore (h : n.index < bound) :
    walk ctx.tree ⟨visitBefore ctx bound⟩ n scope = (do passNode ctx scope n; pure scope) := by
  induction hi : n.index using Nat.strongRecOn generalizing n scope bound with
  | ind index ih =>
    subst hi
    have below : ∀ (child : Below n) bound inner, child.1.index < bound →
        walk ctx.tree ⟨visitBefore ctx bound⟩ child.1 inner =
          (do resolveNode ctx inner child.1; pure inner) := by
      intro child bound inner hb
      rw [ih child.1.index child.2 hb rfl, resolveNode, resolver,
        ih child.1.index child.2 (Nat.lt_succ_self _) rfl, discard_handsOn]
    have entered : (fun inner => (ctx.tree.children n).forM fun child =>
        discard (walk ctx.tree ⟨visitBefore ctx n.index⟩ child.1 inner)) =
          fun inner => (ctx.tree.children n).forM fun child => resolveNode ctx inner child.1 := by
      funext inner
      refine congrArg _ (funext fun child => ?_)
      rw [below child _ inner child.2, discard_handsOn]
    have visited : (⟨visitBefore ctx bound⟩ : Visitor Typing ScopeId).visit
        (ctx.tree.kind n).category n scope = visitNode ctx (fun inner => (ctx.tree.children n).forM fun child =>
          resolveNode ctx inner child.1) (ctx.tree.kind n).category n scope := by
      change visitBefore ctx bound _ n scope = _
      rw [visitBefore, dif_pos h]
      exact congrArg (visitNode ctx · _ n scope) entered
    have siblings : (ctx.tree.children n).foldlM (fun inner child =>
        walk ctx.tree ⟨visitBefore ctx bound⟩ child.1 inner) scope =
          (do (ctx.tree.children n).forM fun child => resolveNode ctx scope child.1; pure scope) :=
      foldlM_of_handsOn fun child _ => below child bound scope (Nat.lt_trans child.2 h)
    rw [walk, visited, visitNode, passNode]
    simp only [bind_assoc, duty_eq_category]
    congr 1
    funext s
    generalize ctx.tree.kind n = kind
    cases kind.category with
    | other =>
      cases kind.isExpression with
      | true => rfl
      | false =>
        cases s.annotations.scope? n with
        | some inner => rfl
        | none => exact siblings
    | routine => cases s.annotations.scope? n <;> rfl
    | _ => rfl

/-- What a pass over a subtree comes down to. -/
theorem resolveNode_eq (ctx : TypingContext) (scope : ScopeId) (n : NodeId) :
    resolveNode ctx scope n = passNode ctx scope n := by
  rw [resolveNode, resolver, walk_visitBefore (Nat.lt_succ_self _), discard_handsOn]

end Walks

end Typing

end Pascal
