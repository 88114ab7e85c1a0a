import Pascal.Proofs.Collection.Trace
import Pascal.Proofs.Completeness
import Pascal.Proofs.FoundTypes
import Pascal.Proofs.Session.Collected
import Pascal.Proofs.Session.Invariants

/-!
# What is remembered about a unit

Whatever has been asked about a unit that a session gave out, a new pass over it starts from what its
collection left: nothing is known about expressions, no choice among signatures has been complained
about, and the types of nodes inside expressions that are no expressions themselves are unknown.
-/

namespace Pascal

theorem mem_of_mem_take {α : Type} {xs : Array α} {k : Nat} {x : α} (h : x ∈ xs.take k) :
    x ∈ xs := by
  obtain ⟨i, hi, rfl⟩ := Array.mem_extract_iff_getElem.1 h
  exact Array.getElem_mem _

namespace Annotations

variable {tree : SyntaxTree} {a : Annotations}

/-- What is known about a unit of which nothing has been asked: scopes and types stand at its
declarations, and no choice among signatures has been complained about. -/
structure Collected (tree : SyntaxTree) (a : Annotations) : Prop where
  scopes : ∀ n, (tree.kind n).isExpression = true → a.scope? n = none
  types : ∀ n ty, (tree.kind n).isExpression = false → a.type? n = some ty →
    ty = .unknown ∨ tree.Placed n
  sealed : a.sealed ≤ a.issues.size
  issues : ∀ issue ∈ a.issues, issue.kind.isOverload = false

/-- What is known about a unit whatever has been asked about it. -/
structure Restorable (tree : SyntaxTree) (a : Annotations) : Prop where
  scopes : ∀ n, (tree.kind n).isExpression = true → a.scope? n = none
  types : ∀ n ty, (tree.kind n).isExpression = false → a.type? n = some ty →
    ty = .unknown ∨ tree.Placed n
  sealed : a.sealed ≤ a.issues.size
  issues : ∀ issue ∈ a.issues.take a.sealed, issue.kind.isOverload = false

theorem Collected.restorable (h : a.Collected tree) : a.Restorable tree :=
  { h with issues := fun issue hi => h.issues issue (mem_of_mem_take hi) }

/-- What a new pass starts from. -/
theorem Restorable.declarative (h : a.Restorable tree) :
    (a.resetResolution tree).Declarative tree where
  types n hn := by simp [hn]
  scopes := h.scopes
  occurrences := by simp
  invocations := by simp
  issues := h.issues

theorem Restorable.resetResolution (h : a.Restorable tree) :
    (a.resetResolution tree).Restorable tree where
  scopes := h.scopes
  types n ty hn ht := by
    rw [type?_resetResolution, hn] at ht
    exact h.types n ty hn ht
  sealed := by simp [Annotations.resetResolution, h.sealed]
  issues issue hi := h.issues issue (mem_of_mem_take hi)

theorem collected_blank (tree : SyntaxTree) : ({} : Annotations).Collected tree where
  scopes n _ := by simp [scope?]
  types n ty _ ht := by simp [type?] at ht
  sealed := Nat.le_refl 0
  issues issue hi := absurd hi (Array.not_mem_empty issue)

theorem Collected.setType (h : a.Collected tree) {n : NodeId} (placed : tree.Placed n) (ty : Ty) :
    (a.setType n ty).Collected tree where
  scopes := h.scopes
  types m ty' hm ht := by
    rw [type?_setType] at ht
    split_ifs at ht with heq
    · exact .inr (heq ▸ placed)
    · exact h.types m ty' hm ht
  sealed := h.sealed
  issues := h.issues

theorem Collected.setScope (h : a.Collected tree) {n : NodeId}
    (hn : (tree.kind n).isExpression = false) (scope : ScopeId) :
    (a.setScope n scope).Collected tree where
  scopes m hm := by
    have hne : n ≠ m := by
      rintro rfl
      simp [hn] at hm
    have same : (a.setScope n scope).scope? m = a.scope? m := by
      simp [scope?, Annotations.setScope, Std.HashMap.getElem?_insert, hne]
    rw [same, h.scopes m hm]
  types := h.types
  sealed := h.sealed
  issues := h.issues

theorem Collected.pushIssue (h : a.Collected tree) {issue : Issue}
    (hi : issue.kind.isOverload = false) : (a.pushIssue issue).Collected tree where
  scopes := h.scopes
  types := h.types
  sealed := by simpa [Annotations.pushIssue] using Nat.le_succ_of_le h.sealed
  issues other ho := by
    obtain ho | rfl := Array.mem_push.1 ho
    · exact h.issues other ho
    · exact hi

theorem Collected.retainIssues (h : a.Collected tree) (keep : Issue → Bool) :
    (a.retainIssues keep).Collected tree where
  scopes := h.scopes
  types := h.types
  sealed := Nat.min_le_right _ _
  issues issue hi := h.issues issue (Array.mem_filter.1 hi).1

/-- What typing finds out leaves what is known about declarations. -/
theorem Restorable.enter {ctx : TypingContext} {s : TypingState} {scope : ScopeId} {n : NodeId}
    {sights : List Sight} (h : s.annotations.Restorable ctx.tree) :
    ((ctx.conclude scope n sights).enter ctx.tree n s).annotations.Restorable ctx.tree := by
  have sound := ctx.sound_conclude scope n sights
  have plain : (ctx.tree.kind n).isExpression = false → ctx.conclude scope n sights = {} :=
    TypingContext.conclude_of_not_isExpression
  generalize ctx.conclude scope n sights = finding at sound plain
  constructor
  case scopes =>
    intro m hm
    rw [scope?, Finding.scopes_enter]
    exact h.scopes m hm
  case types =>
    intro m ty hm ht
    by_cases hn : n = m
    · subst hn
      rw [Finding.type?_enter, if_pos rfl, plain hm] at ht
      cases ht
      exact .inl rfl
    · have uncalled : ¬ctx.tree.Calls n m := fun hc => by simp [hc.isExpression_callee] at hm
      rw [Typing.type?_enter_of_ne sound hn uncalled] at ht
      exact h.types m ty hm ht
  case sealed =>
    rw [Finding.sealed_enter, Finding.issues_enter]
    have := h.sealed
    cases finding.issue with
    | none => exact this
    | some found => simpa using Nat.le_succ_of_le this
  case issues =>
    rw [Finding.sealed_enter, Finding.issues_enter]
    cases finding.issue with
    | none => exact h.issues
    | some found =>
      have kept : ∀ issue, (s.annotations.issues.push issue).take s.annotations.sealed =
          s.annotations.issues.take s.annotations.sealed := by
        have := h.sealed
        grind
      simp only [Option.elim_some, kept]
      exact h.issues

end Annotations

namespace Typing

variable {ctx : TypingContext} {s : TypingState} (h : s.annotations.Restorable ctx.tree)
  (scope : ScopeId) (n : NodeId)
include h

theorem restorable_typeOf : ((typeOf ctx scope n).run s).2.annotations.Restorable ctx.tree :=
  keeps_typeOf (I := fun s => s.annotations.Restorable ctx.tree) (Q := fun _ => True)
    (fun _ _ _ => trivial) (fun _ _ _ _ hs _ => hs.enter) scope n h

theorem restorable_resolveNode :
    ((resolveNode ctx scope n).run s).2.annotations.Restorable ctx.tree :=
  keeps_resolveNode (I := fun s => s.annotations.Restorable ctx.tree) (Q := fun _ => True)
    (fun _ _ _ => trivial) (fun _ _ _ _ hs _ => hs.enter) scope n h

end Typing

namespace Session

/-- What a collection keeps as long as nothing is asked about its unit. -/
theorem collection_collected (ctx : CollectionContext) :
    Collecting.UseInvariant ctx (fun _ => True) fun σ =>
      True ∧ σ.annotations.Collected ctx.tree ∧ σ.constants.Restorable ctx.tree where
  formative := by constructor <;> simp
  declared _ _ := trivial
  results _ _ _ _ := trivial
  recorded _ _ _ _ := trivial
  constant {σ} hσ n scope := ⟨trivial, trivial, hσ.2.1, @Typing.restorable_typeOf
    ⟨σ.env, ctx.tree⟩ { annotations := σ.constants } hσ.2.2 scope n⟩
  setType hσ _ ty _ placed _ := ⟨trivial, hσ.2.1.setType placed ty, hσ.2.2⟩
  setScope hσ _ scope hn _ := ⟨trivial, hσ.2.1.setScope hn scope, hσ.2.2⟩
  setDeclaration hσ _ _ _ := ⟨trivial, { hσ.2.1 with }, hσ.2.2⟩
  issue hσ _ _ h := ⟨trivial, hσ.2.1.pushIssue h, hσ.2.2⟩
  notes hσ _ _ := hσ
  attach hσ _ _ _ := ⟨trivial, { hσ.2.1 with }, hσ.2.2⟩
  declare hσ _ _ _ := hσ
  createScope hσ _ _ _ _ := hσ
  setDeclaring hσ _ _ := hσ
  registerHelper hσ _ _ _ _ := hσ
  declareStruct hσ _ _ _ _ := hσ
  completeStruct hσ _ _ _ _ _ := hσ
  declareEnum hσ _ _ := hσ
  addElement hσ _ _ := hσ
  use hσ _ _ := hσ
  declareUse hσ _ _ _ _ := hσ
  setUse hσ _ _ := ⟨trivial, { hσ.2.1 with }, hσ.2.2⟩
  missing hσ _ h := ⟨trivial, hσ.2.1.pushIssue h, hσ.2.2⟩
  retain hσ keep := ⟨trivial, hσ.2.1.retainIssues keep, hσ.2.2⟩

theorem invariant_restorable : Invariant (fun _ => True) (fun _ => True) Annotations.Collected
    Annotations.Restorable where
  openUnit _ _ _ := trivial
  freezeScope _ _ := trivial
  discardScope _ _ := trivial
  collection := collection_collected
  blank := Annotations.collected_blank
  sealIssues h := { h with sealed := Nat.le_refl _ }
  given h := h.restorable
  resetResolution h := h.resetResolution
  typed _ h scope n := Typing.restorable_typeOf h scope n
  passed _ h scope n := Typing.restorable_resolveNode h scope n

/-- A new pass over a unit that a session gave out starts from what its collection left. -/
theorem Holds.restorable {settings : Settings} {session : Session} {model : Model}
    (h : Holds settings session model) : model.annotations.Restorable model.tree :=
  (invariant_restorable.holds trivial h).2

/-! ## Units with nothing but complete expressions -/

/-- A session gives out a unit with nothing but expressions. -/
theorem holds_bare {settings : Settings} {name : String} {tree : SyntaxTree}
    (free : (start settings).isTaken name = false) (hroot : tree.kind tree.root = .unit name)
    (hchildren : ∀ child ∈ tree.childIds tree.root, (tree.kind child).isExpression = true) :
    Holds settings ((start settings).collect tree).2
      (bareModel name tree (start settings).nextFile) := by
  refine .given [] (.collect tree) ?_
  change _ ∈ ((start settings).collect tree).1.toOption.toList
  rw [collect_bare free hroot hchildren]
  exact List.mem_singleton_self _

end Session

namespace SyntaxTree

/-- Expressions have exactly the children that they need, and these are expressions. -/
structure Complete (tree : SyntaxTree) : Prop where
  laid : tree.WellLaid
  full : ∀ n, (tree.kind n).required ≤ (tree.childIds n).length

instance (tree : SyntaxTree) : Decidable tree.Complete :=
  decidable_of_iff (∀ i < tree.size, let n : NodeId := ⟨i⟩
      ((tree.kind n).isExpression = true →
        (∀ limit ∈ (tree.kind n).limit?, (tree.childIds n).length ≤ limit) ∧
          ∀ child ∈ tree.childIds n, (tree.kind child).isExpression = true) ∧
        (tree.kind n).required ≤ (tree.childIds n).length) <| by
    constructor
    · intro h
      have outside : ∀ n : NodeId, ¬n.index < tree.size → tree.node n = default := by
        intro n hn
        have hn : ¬n.index < tree.nodes.size := hn
        simp only [node, Array.getD, dif_neg hn]
      refine ⟨fun n => ?_, fun n => ?_⟩ <;> by_cases hn : n.index < tree.size
      · exact (h n.index hn).1
      · rw [kind, childIds, outside n hn]
        rintro ⟨⟩
      · exact (h n.index hn).2
      · rw [kind, childIds, outside n hn]
        exact Nat.le_refl 0
    · exact fun h i _ => ⟨h.laid ⟨i⟩, h.full ⟨i⟩⟩

end SyntaxTree

/-- A pass over complete expressions types everything that it visits. -/
theorem Environment.isSome_type?_of_complete {env : Environment} {model : Model} {n : NodeId}
    (complete : model.tree.Complete) (visited : model.Visited n)
    (hn : (model.tree.kind n).isExpression = true) :
    ((env.resolved model).annotations.type? n).isSome := by
  refine isSome_type?_of_visited complete.laid ?_ visited hn
  by_contra h
  obtain ⟨cause, hv⟩ := Option.ne_none_iff_exists'.1 h
  obtain ⟨m, index, -, -, ⟨needed, short⟩, -⟩ := lacks_of_violation hv
  have := complete.full m
  omega

end Pascal
