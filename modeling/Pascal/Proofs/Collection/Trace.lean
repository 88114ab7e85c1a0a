import Mathlib.Logic.Relation
import Pascal.Proofs.Collection.Invariants

/-!
# Collection as a sequence of steps

A collection records types and scopes at nodes that are no expressions, complains about names and
forms of types, and lets the tables grow: it makes declarations of which only the uses of units
stand for file scopes, creates scopes other than file scopes, and uses units that are known. That is
all: it finds out nothing about expressions. Whatever every such step keeps holds after every
collection, whether it succeeds or fails.

## Main results

- `Collecting.steps_unit`, `Collecting.steps_retryImports`: a collection is a sequence of steps.
- `Collecting.Steps.tables`: what it does to the tables.
- `Collecting.Steps.declarative`, `Environment.Step.unitsUntyped`, `Environment.Steps.filed`: what
  follows for its outcome.
- `Environment.Steps.declaration`: declarations stay as they were made.
-/

namespace Pascal

/-- A declaration that stands for a file scope is that of a unit, or its use, and has no type. -/
def DeclarationSpec.UnitUntyped (spec : DeclarationSpec) : Prop :=
  spec.unitScope.isSome → (spec.kind = .unit ∨ spec.kind = .unitImport) ∧ spec.ty = .unknown

theorem DeclarationSpec.unitUntyped_of_none {spec : DeclarationSpec} (h : spec.unitScope = none) :
    spec.UnitUntyped := by
  simp [UnitUntyped, h]

namespace Environment

/-- One step by which the tables grow while a unit is collected: `file` is its file scope, `known`
are the units that it can use. -/
inductive Step (file : ScopeId) (known : ScopeId → Prop) (env : Environment) : Environment → Prop
  | declare (scope : ScopeId) (spec : DeclarationSpec) (h : spec.UnitUntyped) :
    Step file known env (env.add scope spec).2
  | types (types : TypeTable) : Step file known env (env.withTypes types)
  | create (kind : ScopeKind) (parent : ScopeId) (name : String) (h : kind ≠ .file) :
    Step file known env (env.createScope kind parent name)
  /-- A scope comes to belong to a structured type, or gets a helper. -/
  | adapt (s : ScopeId) (declaring : Scope → Option StructId)
      (helpers : Scope → List (Ty × StructId)) :
    Step file known env (env.modifyScope s fun scope =>
      { scope with declaring := declaring scope, helpers := helpers scope })
  | use (used : ScopeId) (h : known used) :
    Step file known env (env.modifyScope file fun scope =>
      { scope with imports := scope.imports ++ [used] })

/-- A sequence of such steps. -/
abbrev Steps (file : ScopeId) (known : ScopeId → Prop) : Environment → Environment → Prop :=
  Relation.ReflTransGen (Step file known)

theorem Steps.keeps {P : Environment → Prop} {file : ScopeId} {known : ScopeId → Prop}
    {env env' : Environment} (steps : env.Steps file known env')
    (step : ∀ {env env' : Environment}, env.Step file known env' → P env → P env') (h : P env) :
    P env' := by
  induction steps with
  | refl => exact h
  | tail _ taken ih => exact step taken ih

end Environment

/-- The units that the collected unit can use. -/
def CollectionContext.Known (ctx : CollectionContext) (used : ScopeId) : Prop :=
  ∃ name, ctx.unitScope name = some used

namespace Collecting

/-- One step of a collection. -/
inductive Step (ctx : CollectionContext) (σ : CollectionState) : CollectionState → Prop
  | type (n : NodeId) (ty : Ty) (h : (ctx.tree.kind n).isExpression = false)
      (placed : ctx.tree.Placed n) :
    Step ctx σ { σ with annotations := σ.annotations.setType n ty }
  | scope (n : NodeId) (scope : ScopeId) (h : (ctx.tree.kind n).isExpression = false)
      (opens : (ctx.tree.kind n).opensScope = true ∨ scope = ctx.file) :
    Step ctx σ { σ with annotations := σ.annotations.setScope n scope }
  | declaration (n : NodeId) (id : DeclId) :
    Step ctx σ { σ with annotations := σ.annotations.setDeclaration n id }
  | issue (issue : Issue) (h : issue.kind.isOverload = false) :
    Step ctx σ { σ with annotations := σ.annotations.pushIssue issue }
  | retain (keep : Issue → Bool) :
    Step ctx σ { σ with annotations := σ.annotations.retainIssues keep }
  | tables (env : Environment) (h : σ.env.Step ctx.file ctx.Known env) : Step ctx σ { σ with env }
  /-- What a collection keeps for itself changes. -/
  | notes (part : Section) (implemented : List DeclId) (constants : Annotations) :
    Step ctx σ { σ with part, implemented, constants }

/-- A sequence of steps. -/
abbrev Steps (ctx : CollectionContext) : CollectionState → CollectionState → Prop :=
  Relation.ReflTransGen (Step ctx)

/-- Whatever a collection does is a step, so what it has done so far is a sequence of steps. -/
theorem useInvariant_steps (ctx : CollectionContext) (σ₀ : CollectionState) :
    UseInvariant ctx (fun _ => True) (Steps ctx σ₀) where
  formative := by constructor <;> intros <;> trivial
  declared _ _ := trivial
  results _ _ _ _ := trivial
  recorded _ _ _ _ := trivial
  constant {σ} steps _ _ := ⟨trivial, steps.tail (.notes σ.part σ.implemented _)⟩
  setType steps n ty hn placed _ := steps.tail (.type n ty hn placed)
  setScope steps n scope hn opens := steps.tail (.scope n scope hn opens)
  setDeclaration steps n id _ := steps.tail (.declaration n id)
  issue steps issue _ h := steps.tail (.issue issue h)
  notes {σ} steps part implemented := steps.tail (.notes part implemented σ.constants)
  attach steps n id _ := steps.tail (.declaration n id)
  declare steps scope spec plain :=
    have untyped := DeclarationSpec.unitUntyped_of_none plain.unitScope
    steps.tail (.tables _ (.declare scope spec untyped))
  createScope steps kind parent name hk := steps.tail (.tables _ (.create kind parent name hk))
  setDeclaring steps scope declaring :=
    steps.tail (.tables _ (.adapt scope (fun _ => declaring) Scope.helpers))
  registerHelper steps scope _ _ _ := steps.tail (.tables _ (.adapt scope Scope.declaring _))
  declareStruct steps _ _ _ _ := steps.tail (.tables _ (.types _))
  completeStruct steps _ _ _ _ _ := steps.tail (.tables _ (.types _))
  declareEnum steps _ _ := steps.tail (.tables _ (.types _))
  addElement steps _ _ := steps.tail (.tables _ (.types _))
  use steps unit known := steps.tail (.tables _ (.use unit known))
  declareUse steps spec kind ty _ :=
    steps.tail (.tables _ (.declare ctx.file spec fun _ => ⟨.inr kind, ty⟩))
  setUse steps n id := steps.tail (.declaration n id)
  missing steps issue h := steps.tail (.issue issue h)
  retain steps keep := steps.tail (.retain keep)

/-- The collection of a unit is a sequence of steps. -/
theorem steps_unit (ctx : CollectionContext) {root : NodeId}
    (h : (ctx.tree.kind root).isExpression = false) (σ : CollectionState) :
    Steps ctx σ ((unit ctx root).run.run σ).2 :=
  ((useInvariant_steps ctx σ).unit h σ .refl).1

theorem steps_retryImports (ctx : CollectionContext) (σ : CollectionState) :
    Steps ctx σ ((retryImports ctx).run.run σ).2 :=
  ((useInvariant_steps ctx σ).retryImports σ .refl).1

end Collecting

/-! ## What steps keep -/

/-- Annotations that say nothing about expressions. -/
structure Annotations.Declarative (tree : SyntaxTree) (a : Annotations) : Prop where
  types : ∀ n, (tree.kind n).isExpression = true → a.type? n = none
  scopes : ∀ n, (tree.kind n).isExpression = true → a.scope? n = none
  occurrences : ∀ n, a.occurrence? n = none
  invocations : ∀ n, a.invocation? n = none
  issues : ∀ issue ∈ a.issues, issue.kind.isOverload = false

/-- Declarations that stand for file scopes are units or their uses, and have no type. -/
def Environment.UnitsUntyped (env : Environment) : Prop :=
  ∀ d, (env.declaration d).UnitUntyped

theorem Environment.UnitsUntyped.add {env : Environment} (h : env.UnitsUntyped) (scope : ScopeId)
    {spec : DeclarationSpec} (hspec : spec.UnitUntyped) : (env.add scope spec).2.UnitsUntyped := by
  intro d
  obtain hlt | heq | hgt := Nat.lt_trichotomy d.index env.symbols.size
  · have same : (env.add scope spec).2.declaration d = env.declaration d :=
      SymbolTable.get_add_of_lt hlt
    rw [same]
    exact h d
  · obtain rfl : d = ⟨env.symbols.size⟩ := DeclId.index_inj.1 heq
    rw [(declaration_add_new (s := scope)).2]
    exact hspec
  · have beyond : (env.add scope spec).2.symbols.get d = default := by
      have size : ¬d.index < (env.add scope spec).2.symbols.declarations.size := by
        simp only [Environment.add, SymbolTable.add, Array.size_push]
        simp only [SymbolTable.size] at hgt
        omega
      simp only [SymbolTable.get, Array.getD, dif_neg size]
    rw [declaration, beyond]
    exact DeclarationSpec.unitUntyped_of_none rfl

theorem Environment.Step.unitsUntyped {file : ScopeId} {known : ScopeId → Prop}
    {env env' : Environment} (step : env.Step file known env') (h : env.UnitsUntyped) :
    env'.UnitsUntyped := by
  cases step with
  | declare scope spec hspec => exact h.add scope hspec
  | types | create | adapt | use => exact h

namespace Environment

/-- What is found under a name in a scope was declared in that scope, under that name. -/
def Filed (env : Environment) : Prop :=
  ∀ s n d, d ∈ env.symbols.findFolded s n →
    env.Has (.decl d) ∧ (env.declaration d).scope = s ∧ Name.fold (env.declaration d).name = n

variable {env env' : Environment} {file : ScopeId} {known : ScopeId → Prop}

theorem Filed.add (h : env.Filed) (scope : ScopeId) (spec : DeclarationSpec) :
    (env.add scope spec).2.Filed := by
  have later := extends_add env scope spec
  intro s n d hd
  rw [show (env.add scope spec).2.symbols.findFolded s n = _ from SymbolTable.findFolded_add n,
    List.mem_append] at hd
  obtain old | new := hd
  · obtain ⟨has, place, name⟩ := h s n d old
    rw [later.decl d has]
    exact ⟨later.has _ has, place, name⟩
  · split_ifs at new with here
    · obtain ⟨rfl, rfl⟩ := here
      cases List.mem_singleton.1 new
      obtain ⟨place, spelled⟩ := @declaration_add_new env s spec
      have name := congrArg DeclarationSpec.name spelled
      exact ⟨has_add.2 (.inr rfl), place, by rw [name]⟩
    · cases new

theorem Step.filed (step : env.Step file known env') (h : env.Filed) : env'.Filed := by
  cases step with
  | declare scope spec => exact h.add scope spec
  | types | create | adapt | use => exact h

theorem Steps.filed (steps : env.Steps file known env') (h : env.Filed) : env'.Filed :=
  steps.keeps (fun step h => step.filed h) h

/-- What a unit shows of a name was declared in the unit, under that name. -/
theorem Filed.findInUnit (h : env.Filed) {context unit : ScopeId} {name : String} {d : DeclId}
    (hd : d ∈ env.findInUnit context unit name) :
    (env.declaration d).scope = unit ∧ Name.same (env.declaration d).name name = true := by
  have found : d ∈ env.symbols.findFolded unit (Name.fold name) := by
    unfold Environment.findInUnit at hd
    split_ifs at hd
    · exact hd
    · exact (List.mem_filter.1 hd).1
  obtain ⟨-, place, spelled⟩ := h unit _ d found
  exact ⟨place, by simp [Name.same, spelled]⟩

theorem Step.declaration (step : env.Step file known env') {d : DeclId} (hd : env.Has (.decl d)) :
    env'.Has (.decl d) ∧ env'.declaration d = env.declaration d := by
  cases step with
  | declare scope spec =>
    have later := extends_add env scope spec
    exact ⟨later.has _ hd, later.decl d hd⟩
  | types | create | adapt | use => exact ⟨hd, rfl⟩

/-- Declarations stay as they were made. -/
theorem Steps.declaration (steps : env.Steps file known env') {d : DeclId}
    (hd : env.Has (.decl d)) : env'.Has (.decl d) ∧ env'.declaration d = env.declaration d := by
  induction steps with
  | refl => exact ⟨hd, rfl⟩
  | tail _ step ih =>
    obtain ⟨has, same⟩ := step.declaration ih.1
    exact ⟨has, same.trans ih.2⟩

end Environment

namespace Collecting

variable {ctx : CollectionContext} {σ σ' : CollectionState}

theorem Step.declarative (step : Step ctx σ σ') (h : σ.annotations.Declarative ctx.tree) :
    σ'.annotations.Declarative ctx.tree := by
  cases step with
  | type n ty hn _ =>
    refine { h with types := fun m hm => ?_ }
    rw [Annotations.type?_setType, if_neg, h.types m hm]
    rintro rfl
    simp [hn] at hm
  | scope n scope hn _ =>
    refine { h with scopes := fun m hm => ?_ }
    rw [Annotations.scope?_setScope, if_neg, h.scopes m hm]
    rintro rfl
    simp [hn] at hm
  | issue issue hk =>
    refine { h with issues := fun other hother => ?_ }
    obtain hother | rfl := Array.mem_push.1 hother
    · exact h.issues other hother
    · exact hk
  | retain keep =>
    exact { h with issues := fun other hother => h.issues other (Array.mem_filter.1 hother).1 }
  | _ => exact { h with }

theorem Steps.declarative (steps : Steps ctx σ σ') (h : σ.annotations.Declarative ctx.tree) :
    σ'.annotations.Declarative ctx.tree := by
  induction steps with
  | refl => exact h
  | tail _ step ih => exact step.declarative ih

/-- A node that opens no scope inside a unit keeps the file scope. -/
theorem Step.scope?_eq_file (step : Step ctx σ σ') {n : NodeId}
    (hn : (ctx.tree.kind n).opensScope = false) (h : σ.annotations.scope? n = some ctx.file) :
    σ'.annotations.scope? n = some ctx.file := by
  cases step with
  | scope m scope _ opens =>
    rw [Annotations.scope?_setScope]
    split_ifs with heq
    · subst heq
      exact congrArg some (opens.resolve_left (by simp [hn]))
    · exact h
  | _ => exact h

theorem Steps.scope?_eq_file (steps : Steps ctx σ σ') {n : NodeId}
    (hn : (ctx.tree.kind n).opensScope = false) (h : σ.annotations.scope? n = some ctx.file) :
    σ'.annotations.scope? n = some ctx.file := by
  induction steps with
  | refl => exact h
  | tail _ step ih => exact step.scope?_eq_file hn ih

/-- The root of a unit opens its file scope. -/
theorem scope?_unit (ctx : CollectionContext) {root : NodeId}
    (h : (ctx.tree.kind root).opensScope = false) (σ : CollectionState) :
    ((unit ctx root).run.run σ).2.annotations.scope? root = some ctx.file := by
  let opened : CollectionState := { σ with annotations := σ.annotations.setScope root ctx.file }
  have steps : Steps ctx opened
      (((ctx.tree.childIds root).forM (unitPart ctx)).run.run opened).2 :=
    (Keeps.forM (fun n _ => (useInvariant_steps ctx opened).unitPart n) opened .refl).1
  exact steps.scope?_eq_file h (by simp [opened, Annotations.scope?_setScope])

/-- What a collection does to the tables. -/
theorem Steps.tables (steps : Steps ctx σ σ') : σ.env.Steps ctx.file ctx.Known σ'.env := by
  induction steps with
  | refl => exact .refl
  | tail _ step ih =>
    cases step with
    | tables env step => exact ih.tail step
    | type | scope | declaration | issue | retain | notes => exact ih

end Collecting

end Pascal
