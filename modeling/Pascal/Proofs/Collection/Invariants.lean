import Pascal.Proofs.Collection.Basic
import Pascal.Proofs.Trees

/-!
# Invariants of a collection

Everything that a collection does is one of a few things: it records types, scopes and declarations
at nodes, complains, makes declarations, creates scopes and describes types. The types it writes down
are made of types that it finds. What each of these keeps, the whole collection keeps, whether it
succeeds or fails.

## Main results

- `Collecting.Invariant.item`: a section or a routine keeps an invariant.
- `Collecting.UseInvariant.unit`, `Collecting.UseInvariant.retryImports`: a whole collection does.
-/

namespace Pascal

open SyntaxTree

/-- The unit that a node of a uses clause names. -/
def NodeKind.usedUnit? : NodeKind → Option String
  | .unitReference name => some name
  | _ => none

/-- Kinds of nodes that declare something where they stand. A routine with a body is not among them,
because it may complete a declaration that stands elsewhere. -/
def NodeKind.isDeclaration : NodeKind → Bool
  | .typeDeclaration _ | .enumElement _ | .varDeclaration _ | .constDeclaration _ _
  | .fieldDeclaration _ | .propertyDeclaration _ | .routineDeclaration _ _ | .parameter _ _ => true
  | _ => false

theorem NodeKind.usedUnit?_of_isDeclaration {kind : NodeKind} (h : kind.isDeclaration = true) :
    kind.usedUnit? = none := by
  cases kind <;> first | rfl | cases h

/-- Routines with a body. -/
def NodeKind.isBody : NodeKind → Bool
  | .routineImplementation _ _ => true
  | _ => false

theorem NodeKind.isBody_iff {kind : NodeKind} :
    kind.isBody = true ↔ ∃ name routine, kind = .routineImplementation name routine := by
  cases kind <;> simp [isBody]

theorem NodeKind.isBody_of_isDeclaration {kind : NodeKind} (h : kind.isDeclaration = true) :
    kind.isBody = false := by
  cases kind <;> first | rfl | cases h

/-- Kinds of nodes that open a scope inside a unit: structured types, enumerations and routines with a
body. -/
def NodeKind.opensScope : NodeKind → Bool
  | .structType _ | .enumType | .routineImplementation _ _ => true
  | _ => false

theorem NodeKind.isExpression_of_opensScope {kind : NodeKind} (h : kind.opensScope = true) :
    kind.isExpression = false := by
  cases kind <;> first | rfl | cases h

/-- A child of a node that is no expression. -/
def SyntaxTree.Placed (tree : SyntaxTree) (n : NodeId) : Prop :=
  ∃ outer, (tree.kind outer).isExpression = false ∧ n ∈ tree.childIds outer

/-- Issues about the choice among signatures. -/
def IssueKind.isOverload : IssueKind → Bool
  | ambiguousOverload _ _ _ | noApplicableOverload _ _ => true
  | _ => false

/-- A property that types have if the types they are made of have it. -/
structure Ty.Formative (T : Ty → Prop) : Prop where
  unknown : T .unknown
  untyped : T .untyped
  void : T .void
  struct (id : StructId) : T (.struct id)
  enum (id : EnumId) : T (.enum id)
  pointer {target : Ty} (math : Bool) (h : T target) : T (.pointerTo target math)
  array {element : Ty} (kind : ArrayKind) (h : T element) : T (.array kind element)
  set {element : Ty} (h : T element) : T (.set element)
  procedural {params : List Ty} {result : Ty} (kind : ProceduralKind) (hp : ∀ p ∈ params, T p)
    (hr : T result) : T (.procedural kind params result)
  classRef {target : Ty} (h : T target) : T (.classRef target)
  distinct {target : Ty} (name : String) (h : T target) : T (.distinct name target)

/-- What a routine takes and gives has a property. -/
structure RoutineSignature.Made (T : Ty → Prop) (signature : RoutineSignature) : Prop where
  params : ∀ p ∈ signature.params, T p
  result : T signature.result

/-- A declaration that is no unit; its types have a property, and a routine has a signature and its
type. -/
structure DeclarationSpec.Plain (T : Ty → Prop) (spec : DeclarationSpec) : Prop where
  unitScope : spec.unitScope = none
  kind : spec.kind ≠ .unit ∧ spec.kind ≠ .unitImport
  signed : spec.kind = .routine → spec.routine.isSome = true
  ty : T spec.ty
  routine : ∀ signature, spec.routine = some signature →
    signature.Made T ∧ spec.ty = signature.ty

namespace Collecting

/-- A computation keeps an invariant, whether it succeeds or fails, and what it gives has a
property. -/
def Keeps {α : Type} (I : CollectionState → Prop) (Q : α → Prop) (m : Collecting α) : Prop :=
  ∀ σ, I σ → I (m.run.run σ).2 ∧ ∀ a, (m.run.run σ).1 = .ok a → Q a

/-! ## Rules -/

section Rules

variable {I : CollectionState → Prop} {α β : Type} {P : α → Prop} {Q : β → Prop}

theorem Keeps.pure {a : α} (h : P a) : Keeps I P (pure a) := by
  refine fun σ hσ => ⟨hσ, ?_⟩
  rintro _ ⟨⟩
  exact h

theorem Keeps.throw (cause : AnalysisError) : Keeps I P (throw cause) :=
  fun _ hσ => ⟨hσ, by rintro _ ⟨⟩⟩

theorem Keeps.malformed (cause : TreeError) : Keeps I P (malformed cause) :=
  Keeps.throw _

theorem Keeps.mono {P' : α → Prop} {m : Collecting α} (h : Keeps I P m) (hp : ∀ a, P a → P' a) :
    Keeps I P' m :=
  fun σ hσ => ⟨(h σ hσ).1, fun a ha => hp a ((h σ hσ).2 a ha)⟩

theorem Keeps.bind {m : Collecting α} {k : α → Collecting β} (h : Keeps I P m)
    (hk : ∀ a, P a → Keeps I Q (k a)) : Keeps I Q (m >>= k) := by
  intro σ hσ
  obtain ⟨first, given⟩ := h σ hσ
  simp only [run_bind]
  generalize m.run.run σ = ran at first given
  obtain ⟨outcome, σ'⟩ := ran
  cases outcome with
  | error cause => exact ⟨first, by rintro _ ⟨⟩⟩
  | ok a => exact hk a (given a rfl) σ' first

/-- What follows a computation that fails does not matter. -/
theorem Keeps.malformed_bind {k : α → Collecting β} (cause : TreeError) :
    Keeps I Q (Collecting.malformed cause >>= k) :=
  Keeps.bind (P := fun _ => False) (Keeps.malformed cause) fun _ => False.elim

theorem Keeps.discard {m : Collecting α} (h : Keeps I P m) :
    Keeps I (fun _ => True) (discard m) := by
  rw [discard_eq]
  exact h.bind fun _ _ => Keeps.pure trivial

theorem Keeps.get {k : CollectionState → Collecting β} (h : ∀ σ, I σ → Keeps I Q (k σ)) :
    Keeps I Q (MonadState.get >>= k) :=
  fun σ hσ => h σ hσ σ hσ

theorem Keeps.getEnv {k : Environment → Collecting β}
    (h : ∀ σ, I σ → Keeps I Q (k σ.env)) : Keeps I Q (Collecting.getEnv >>= k) :=
  fun σ hσ => h σ hσ σ hσ

theorem Keeps.modify {f : CollectionState → CollectionState} (h : ∀ σ, I σ → I (f σ)) :
    Keeps I (fun _ => True) (modify f) :=
  fun σ hσ => ⟨h σ hσ, fun _ _ => trivial⟩

/-- Going on from another state. -/
theorem Keeps.get_set {f : CollectionState → CollectionState} {k : CollectionState → Collecting β}
    (h : ∀ σ, I σ → I (f σ)) (hk : ∀ σ, I σ → Keeps I Q (k σ)) :
    Keeps I Q (do
      let σ ← MonadState.get
      MonadStateOf.set (f σ)
      k σ) :=
  fun σ hσ => hk σ hσ (f σ) (h σ hσ)

theorem Keeps.forIn {A : Type} {l : List A} {init : β} {f : A → β → Collecting (ForInStep β)}
    (start : Q init) (step : ∀ x ∈ l, ∀ b, Q b → Keeps I (fun r => Q r.value) (f x b)) :
    Keeps I Q (ForIn.forIn l init f) := by
  induction l generalizing init with
  | nil => exact Keeps.pure start
  | cons x rest ih =>
    simp only [List.forall_mem_cons] at step
    simp only [List.forIn_cons]
    refine Keeps.bind (step.1 init start) fun r hr => ?_
    cases r with
    | done b => exact Keeps.pure hr
    | yield b => exact ih hr step.2

/-- A loop without variables, followed by nothing. -/
theorem Keeps.each {A : Type} {l : List A} {f : A → PUnit → Collecting (ForInStep PUnit)}
    (step : ∀ x ∈ l, Keeps I (fun _ => True) (f x PUnit.unit)) :
    Keeps I (fun _ => True) (do
      ForIn.forIn l PUnit.unit f
      Pure.pure ()) :=
  Keeps.bind (Keeps.forIn (Q := fun _ => True) trivial fun x hx _ _ => step x hx) fun _ _ =>
    Keeps.pure trivial

/-- A round of a loop without variables. -/
theorem Keeps.next {m : Collecting α} (h : Keeps I P m) :
    Keeps I (fun _ => True) (m >>= fun _ => Pure.pure (ForInStep.yield PUnit.unit)) :=
  h.bind fun _ _ => Keeps.pure trivial

theorem Keeps.forM {A : Type} {l : List A} {f : A → Collecting Unit}
    (step : ∀ x ∈ l, Keeps I (fun _ => True) (f x)) : Keeps I (fun _ => True) (l.forM f) := by
  induction l with
  | nil => exact Keeps.pure trivial
  | cons x rest ih =>
    simp only [List.forall_mem_cons] at step
    exact step.1.bind fun _ _ => ih step.2

theorem Keeps.ite {c : Prop} [Decidable c] {m m' : Collecting β} (h : c → Keeps I Q m)
    (h' : ¬c → Keeps I Q m') : Keeps I Q (if c then m else m') := by
  split_ifs with hc
  · exact h hc
  · exact h' hc

end Rules

/-! ## Routines with a body -/

/-- What is read of a routine with a body before its declaration is sought. -/
structure BodyReading where
  /-- The structured type that the qualifier of its name denotes. -/
  owner : Option StructId
  /-- The scope that its declaration is sought in. -/
  members : ScopeId
  /-- What it takes and gives by itself. -/
  signature : RoutineSignature

/-- Reads a routine with a body. -/
def readBody (ctx : CollectionContext) (n : NodeId) (scope : ScopeId) (name : String)
    (kind : RoutineKind) : Collecting BodyReading := do
  let owner ← methodOwner ctx n scope ((Name.splitLast name).map (·.1))
  let members := owner.elim scope (← getEnv).membersOf
  let signature ← signature ctx (fun (inner : Below n) scope => resolveType ctx inner.1 scope)
    members kind owner
  pure { owner, members, signature }

/-- The declaration of a routine with a body, once the routine is read. -/
def seekDeclaration (ctx : CollectionContext) (n : NodeId) (scope : ScopeId) (name : String)
    (reading : BodyReading) : Collecting (Option DeclId) :=
  let split := Name.splitLast name
  bodyDeclaration ctx n scope reading.members name (split.elim name (·.2)) split.isSome
    reading.signature

/-- Records that a routine has its body at a node. -/
def attachBody (n : NodeId) : Option DeclId → Collecting Unit
  | some id => do
    modify fun s => { s with implemented := id :: s.implemented }
    annotate (·.setDeclaration n id)
  | none => pure ()

/-- Opens the scope of a body. -/
def openBody (ctx : CollectionContext) (n : NodeId) (scope : ScopeId) (name : String)
    (reading : BodyReading) (declaration : Option DeclId) : Collecting ScopeId := do
  let body ← createScope .routine scope ((Name.splitLast name).elim name (·.2))
  setDeclaring body reading.owner
  annotate (·.setScope n body)
  declareParameters ctx n body
  let env ← getEnv
  let completed := declaration.bind fun id => (env.declaration id).routine
  declareImplicit body reading.owner (completed.getD reading.signature)
  pure body

/-- A routine with a body is read, its declaration is sought and recorded, and the scope of its body
is opened. -/
theorem routineHead_eq (ctx : CollectionContext) (n : NodeId) (scope : ScopeId) (name : String)
    (kind : RoutineKind) : routineHead ctx n scope name kind = (do
      let reading ← readBody ctx n scope name kind
      let declaration ← seekDeclaration ctx n scope name reading
      attachBody n declaration
      openBody ctx n scope name reading declaration) := by
  simp only [routineHead, readBody, seekDeclaration, openBody, bind_assoc, pure_bind]
  refine bind_congr fun owner => bind_congr fun env => bind_congr fun own => bind_congr
    fun declaration => ?_
  cases declaration <;> simp [attachBody]

/-! ## What may happen -/

/-- An invariant that declarations keep, and everything else that a collection does apart from the use
of units and the completion of routines. The types that it writes down have the property `T`, because
those that it finds have it. -/
structure SectionInvariant (ctx : CollectionContext) (T : Ty → Prop) (I : CollectionState → Prop) :
    Prop where
  formative : Ty.Formative T
  declared {σ : CollectionState} (hσ : I σ) (d : DeclId) : T (σ.env.declaration d).ty
  results {σ : CollectionState} (hσ : I σ) (d : DeclId) (signature : RoutineSignature)
    (h : (σ.env.declaration d).routine = some signature) : T signature.result
  recorded {σ : CollectionState} (hσ : I σ) (n : NodeId) (ty : Ty)
    (h : σ.annotations.type? n = some ty) : T ty
  constant {σ : CollectionState} (hσ : I σ) (n : NodeId) (scope : ScopeId) :
    let ran := (Typing.typeOf { env := σ.env, tree := ctx.tree } scope n).run
      { annotations := σ.constants }
    T ran.1 ∧ I { σ with constants := ran.2.annotations }
  setType {σ : CollectionState} (hσ : I σ) (n : NodeId) (ty : Ty)
    (hn : (ctx.tree.kind n).isExpression = false) (placed : ctx.tree.Placed n) (ht : T ty) :
    I { σ with annotations := σ.annotations.setType n ty }
  setScope {σ : CollectionState} (hσ : I σ) (n : NodeId) (scope : ScopeId)
    (hn : (ctx.tree.kind n).isExpression = false)
    (opens : (ctx.tree.kind n).opensScope = true ∨ scope = ctx.file) :
    I { σ with annotations := σ.annotations.setScope n scope }
  setDeclaration {σ : CollectionState} (hσ : I σ) (n : NodeId) (id : DeclId)
    (hn : (ctx.tree.kind n).isDeclaration = true) :
    I { σ with annotations := σ.annotations.setDeclaration n id }
  issue {σ : CollectionState} (hσ : I σ) (issue : Issue)
    (hn : (ctx.tree.kind issue.node).usedUnit? = none) (h : issue.kind.isOverload = false) :
    I { σ with annotations := σ.annotations.pushIssue issue }
  declare {σ : CollectionState} (hσ : I σ) (scope : ScopeId) (spec : DeclarationSpec)
    (plain : spec.Plain T) : I { σ with env := (σ.env.add scope spec).2 }
  createScope {σ : CollectionState} (hσ : I σ) (kind : ScopeKind) (parent : ScopeId)
    (name : String) (hk : kind ≠ .file) : I { σ with env := σ.env.createScope kind parent name }
  setDeclaring {σ : CollectionState} (hσ : I σ) (scope : ScopeId) (declaring : Option StructId) :
    I { σ with env := σ.env.modifyScope scope ({ · with declaring }) }
  registerHelper {σ : CollectionState} (hσ : I σ) (scope : ScopeId) (target : Ty)
    (helper : StructId) (ht : T target) :
    I { σ with env := { σ.env with scopes := σ.env.scopes.registerHelper scope target helper } }
  declareStruct {σ : CollectionState} (hσ : I σ) (name : String) (kind : StructKind)
    (members : ScopeId) (forward : Bool) :
    I { σ with env := σ.env.withTypes (σ.env.types.declareStruct name kind members forward).2 }
  completeStruct {σ : CollectionState} (hσ : I σ) (struct : StructId) (parents : List Ty)
    (helped : Option Ty) (hp : ∀ p ∈ parents, T p) (hh : ∀ t ∈ helped, T t) :
    I { σ with env := σ.env.withTypes (σ.env.types.completeStruct struct parents helped) }
  declareEnum {σ : CollectionState} (hσ : I σ) (name : String) (elements : ScopeId) :
    I { σ with env := σ.env.withTypes (σ.env.types.declareEnum name elements none).2 }
  addElement {σ : CollectionState} (hσ : I σ) (id : EnumId) (element : String) :
    I { σ with env := σ.env.withTypes (σ.env.types.addElement id element) }

/-- An invariant that everything keeps that a collection does, apart from the use of units. -/
structure Invariant (ctx : CollectionContext) (T : Ty → Prop) (I : CollectionState → Prop) : Prop
    extends SectionInvariant ctx T I where
  notes {σ : CollectionState} (hσ : I σ) (part : Section) (implemented : List DeclId) :
    I { σ with part, implemented }
  attach {σ : CollectionState} (hσ : I σ) (n : NodeId) (id : DeclId)
    (hn : (ctx.tree.kind n).usedUnit? = none) :
    I { σ with annotations := σ.annotations.setDeclaration n id }

/-- An invariant that the use of units keeps as well. -/
structure UseInvariant (ctx : CollectionContext) (T : Ty → Prop) (I : CollectionState → Prop) : Prop
    extends Invariant ctx T I where
  use {σ : CollectionState} (hσ : I σ) (unit : ScopeId) (known : ∃ name, ctx.unitScope name = some unit) :
    I { σ with env := { σ.env with scopes := σ.env.scopes.addImport ctx.file unit } }
  declareUse {σ : CollectionState} (hσ : I σ) (spec : DeclarationSpec) (kind : spec.kind = .unitImport)
    (ty : spec.ty = .unknown) (routine : spec.routine = none) :
    I { σ with env := (σ.env.add ctx.file spec).2 }
  setUse {σ : CollectionState} (hσ : I σ) (n : NodeId) (id : DeclId) :
    I { σ with annotations := σ.annotations.setDeclaration n id }
  missing {σ : CollectionState} (hσ : I σ) (issue : Issue) (h : issue.kind.isOverload = false) :
    I { σ with annotations := σ.annotations.pushIssue issue }
  retain {σ : CollectionState} (hσ : I σ) (keep : Issue → Bool) :
    I { σ with annotations := σ.annotations.retainIssues keep }

variable {ctx : CollectionContext} {T : Ty → Prop} {I : CollectionState → Prop} {n : NodeId}

theorem keeps_child (ctx : CollectionContext) (n : NodeId) (index : Nat) :
    Keeps I (fun b => b.1 ∈ ctx.tree.childIds n) (child ctx n index) := by
  unfold child
  cases hc : ctx.tree.child? n index with
  | none =>
    simp only [SyntaxTree.child, hc]
    exact Keeps.malformed _
  | some b =>
    simp only [SyntaxTree.child, hc]
    exact Keeps.pure (mem_childIds (mem_children_of_child? hc))

/-- A declaration is made, or refused because the scope is frozen. -/
theorem keeps_declare {scope : ScopeId} {spec : DeclarationSpec}
    (h : ∀ σ, I σ → I { σ with env := (σ.env.add scope { spec with part := σ.part }).2 }) :
    Keeps I (fun _ => True) (declare scope spec) := by
  refine fun σ hσ => ⟨?_, fun _ _ => trivial⟩
  cases hf : (σ.env.scopes.get scope).frozen with
  | false =>
    rw [run_declare hf]
    exact h σ hσ
  | true =>
    have refused : σ.env.declare scope { spec with part := σ.part } =
        .error (.frozenScope (σ.env.scopes.get scope).name) := by
      simp only [Environment.declare, SymbolTable.declare, hf, if_true]
    rw [declare, run_get_bind, refused]
    exact hσ

namespace SectionInvariant

/-! ## Steps -/

section Steps

variable (inv : SectionInvariant ctx T I)

include inv

theorem annotateType (hn : (ctx.tree.kind n).isExpression = false) (placed : ctx.tree.Placed n)
    {ty : Ty} (ht : T ty) : Keeps I (fun _ => True) (annotate (·.setType n ty)) :=
  Keeps.modify fun _ hσ => inv.setType hσ n ty hn placed ht

theorem annotateScope (hn : (ctx.tree.kind n).isExpression = false) {scope : ScopeId}
    (opens : (ctx.tree.kind n).opensScope = true ∨ scope = ctx.file) :
    Keeps I (fun _ => True) (annotate (·.setScope n scope)) :=
  Keeps.modify fun _ hσ => inv.setScope hσ n scope hn opens

theorem annotateDeclaration (hn : (ctx.tree.kind n).isDeclaration = true) (id : DeclId) :
    Keeps I (fun _ => True) (annotate (·.setDeclaration n id)) :=
  Keeps.modify fun _ hσ => inv.setDeclaration hσ n id hn

theorem complain (hn : (ctx.tree.kind n).usedUnit? = none) {kind : IssueKind}
    (h : kind.isOverload = false) : Keeps I (fun _ => True) (Collecting.issue ctx n kind) :=
  Keeps.modify fun _ hσ => inv.issue hσ _ hn h

theorem makeDeclaration (scope : ScopeId) {spec : DeclarationSpec} (plain : spec.Plain T) :
    Keeps I (fun _ => True) (Collecting.declare scope spec) :=
  keeps_declare fun _ hσ => inv.declare hσ scope _ { plain with }

theorem declareAt (hn : (ctx.tree.kind n).isDeclaration = true) (scope : ScopeId)
    {spec : DeclarationSpec} (plain : spec.Plain T) :
    Keeps I (fun _ => True) (discard (Collecting.declareAt n scope spec)) := by
  have plain : ({ spec with node := some n } : DeclarationSpec).Plain T := { plain with }
  exact Keeps.discard <| (inv.makeDeclaration scope plain).bind fun id _ =>
    (inv.annotateDeclaration hn id).bind fun _ _ => Keeps.pure (P := fun _ => True) trivial

theorem newScope {kind : ScopeKind} (hk : kind ≠ .file) (parent : ScopeId) (name : String) :
    Keeps I (fun _ => True) (Collecting.createScope kind parent name) :=
  Keeps.get_set (fun _ hσ => inv.createScope hσ kind parent name hk) fun _ _ => Keeps.pure trivial

theorem declaring (scope : ScopeId) (declaring : Option StructId) :
    Keeps I (fun _ => True) (Collecting.setDeclaring scope declaring) :=
  Keeps.modify fun _ hσ => inv.setDeclaring hσ scope declaring

theorem newStruct (name : String) (kind : StructKind) (scope : ScopeId) (forward : Bool) :
    Keeps I (fun _ => True) (Collecting.declareStruct name kind scope forward) :=
  (inv.newScope (by simp) scope name).bind fun members _ =>
    Keeps.get_set (fun _ hσ => inv.declareStruct hσ name kind members forward) fun _ _ =>
      (inv.declaring members _).bind fun _ _ => Keeps.pure trivial

theorem newEnum (name : String) (scope : ScopeId) :
    Keeps I (fun _ => True) (Collecting.declareEnum name scope) :=
  (inv.newScope (by simp) scope name).bind fun elements _ =>
    Keeps.get_set (fun _ hσ => inv.declareEnum hσ name elements) fun _ _ => Keeps.pure trivial

theorem constantType (n : NodeId) (scope : ScopeId) :
    Keeps I T (Collecting.constantType ctx n scope) := by
  refine Keeps.get_set (fun σ hσ => (inv.constant hσ n scope).2) fun σ hσ => ?_
  split
  · exact Keeps.malformed _
  · exact Keeps.pure (inv.constant hσ n scope).1

end Steps

/-! ## Types -/

section Types

variable (inv : SectionInvariant ctx T I) {resolve : Below n → ScopeId → Collecting Ty}
  {body : Below n → StructId → Collecting Unit}

/-- The types of the parameters that a list of names declares. -/
theorem mem_addParams {names : List String} {ty : Ty} {params : List Ty} (hasDefault : Bool)
    (required : Nat) (hp : ∀ p ∈ params, T p) (ht : T ty) :
    ∀ p ∈ (addParams names hasDefault ty params required).1, T p := by
  intro p hmem
  obtain hmem | hmem := List.mem_append.1 hmem
  · exact hp p hmem
  · obtain ⟨_, -, rfl⟩ := List.mem_map.1 hmem
    exact ht

/-- A declaration without a signature. -/
theorem plain {spec : DeclarationSpec} (unitScope : spec.unitScope = none)
    (kind : spec.kind ≠ .unit ∧ spec.kind ≠ .unitImport ∧ spec.kind ≠ .routine) (ty : T spec.ty)
    (routine : spec.routine = none) : spec.Plain T :=
  ⟨unitScope, ⟨kind.1, kind.2.1⟩, fun h => absurd h kind.2.2, ty, by simp [routine]⟩

include inv

theorem typeNamed {σ : CollectionState} (hσ : I σ) {found : List DeclId} {ty : Ty}
    (h : σ.env.typeNamed? found = some ty) : T ty := by
  obtain ⟨d, -, hd⟩ := List.exists_of_findSome?_eq_some h
  dsimp only at hd
  split_ifs at hd
  cases hd
  exact inv.declared hσ d

theorem namedType? {σ : CollectionState} (hσ : I σ) {scope : ScopeId} {name : String} {ty : Ty}
    (h : σ.env.namedType? scope name = some ty) : T ty := by
  unfold Environment.namedType? at h
  split at h
  · rename_i found
    cases h
    exact inv.typeNamed hσ found
  · obtain ⟨⟨qualifier, member⟩, -, h⟩ := Option.bind_eq_some_iff.1 h
    unfold Environment.qualifiedType? at h
    dsimp only at h
    split at h
    · exact inv.typeNamed hσ h
    · obtain ⟨owner, -, h⟩ := Option.bind_eq_some_iff.1 h
      obtain ⟨struct, -, h⟩ := Option.bind_eq_some_iff.1 h
      exact inv.typeNamed hσ h

theorem namedType (hn : (ctx.tree.kind n).usedUnit? = none) (scope : ScopeId) (name : String) :
    Keeps I T (Collecting.namedType ctx n scope name) := by
  refine Keeps.getEnv fun σ hσ => ?_
  split
  · rename_i ty hty
    exact Keeps.pure (inv.namedType? hσ hty)
  · exact (inv.complain hn rfl).bind fun _ _ => Keeps.pure inv.formative.unknown

theorem structIdentity (hn : (ctx.tree.kind n).isDeclaration = true) (scope : ScopeId) (name : String)
    (kind : StructKind) (forward : Bool) :
    Keeps I (fun _ => True) (Collecting.structIdentity scope name kind n forward) := by
  refine Keeps.getEnv fun σ hσ => ?_
  split
  · exact (inv.annotateDeclaration hn _).bind fun _ _ => Keeps.pure trivial
  · exact (inv.newStruct name kind scope forward).bind fun struct _ =>
      (inv.declareAt hn scope (plain rfl (by simp) (inv.formative.struct struct) rfl)).bind
        fun _ _ => Keeps.pure trivial

theorem enumeration (opens : (ctx.tree.kind n).opensScope = true) (placed : ctx.tree.Placed n)
    (scope : ScopeId) (name : String) : Keeps I T (Collecting.enumeration ctx scope name n) := by
  have hn := NodeKind.isExpression_of_opensScope opens
  refine (inv.newEnum name scope).bind fun id _ => Keeps.getEnv fun σ₀ _ => ?_
  have enumerated := inv.formative.enum id
  have recorded : Keeps I (fun _ => True)
      (annotate fun a => (a.setType n (.enum id)).setScope n (σ₀.env.types.enumInfo id).scope) :=
    Keeps.modify fun σ hσ =>
      inv.setScope (inv.setType hσ n _ hn placed enumerated) n _ hn (.inl opens)
  refine recorded.bind fun _ _ => Keeps.bind (P := fun _ => True)
    (Keeps.forIn trivial fun node _ _ _ => ?_) fun _ _ => Keeps.pure enumerated
  split
  · rename_i element hk
    have hn : (ctx.tree.kind node).isDeclaration = true := by rw [hk]; rfl
    have spec : ({ name := element, kind := .enumElement, ty := .enum id } :
        DeclarationSpec).Plain T := plain rfl (by simp) enumerated rfl
    have made := fun s => inv.declareAt hn s spec
    exact Keeps.bind (Keeps.modify fun σ hσ => inv.addElement hσ id element) fun _ _ =>
      (made _).bind fun _ _ => (made _).next
  · exact Keeps.malformed_bind _

/-- The declaration of a routine with its signature. -/
theorem routinePlain (name : String) {signature : RoutineSignature} (made : signature.Made T) :
    ({ name, kind := .routine, ty := signature.ty, routine := some signature } :
      DeclarationSpec).Plain T where
  unitScope := rfl
  kind := by simp
  signed _ := rfl
  ty := inv.formative.procedural _ made.params made.result
  routine := by
    rintro _ ⟨⟩
    exact ⟨made, rfl⟩

/-- One declaration for each of several names. -/
theorem declareNames (hn : (ctx.tree.kind n).isDeclaration = true) (scope : ScopeId)
    (names : List String) {kind : DeclarationKind}
    (hk : kind ≠ .unit ∧ kind ≠ .unitImport ∧ kind ≠ .routine)
    {ty : Ty} (ht : T ty) :
    Keeps I (fun _ => True) (ForIn.forIn names PUnit.unit fun name _ => do
      discard (Collecting.declareAt n scope { name, kind, ty })
      Pure.pure (ForInStep.yield PUnit.unit)) :=
  Keeps.forIn trivial fun _ _ _ _ => (inv.declareAt hn scope (plain rfl hk ht rfl)).next

theorem inheritedPropertyType {σ : CollectionState} (hσ : I σ) (struct : StructId) (name : String) :
    T (σ.env.inheritedPropertyType struct name) := by
  unfold Environment.inheritedPropertyType
  cases List.find? _ _ with
  | none => exact inv.formative.unknown
  | some d => exact inv.declared hσ d

theorem implicitParents (env : Environment) (struct : StructId) :
    ∀ p ∈ Collecting.implicitParents ctx env struct, T p := by
  have derived : ∀ root : StructId, ∀ p ∈ (if root = struct then [] else [Ty.struct root]), T p := by
    intro root p hp
    split_ifs at hp
    · cases hp
    · rw [List.mem_singleton.1 hp]
      exact inv.formative.struct root
  unfold Collecting.implicitParents
  dsimp only
  split
  · exact derived _
  · exact derived _
  · simp

section Resolvers

variable (hr : ∀ (b : Below n) scope, ctx.tree.Placed b.1 → Keeps I T (resolve b scope))

include hr

theorem signature (scope : ScopeId) (kind : RoutineKind) (declaring : Option StructId) :
    Keeps I (RoutineSignature.Made T) (Collecting.signature ctx resolve scope kind declaring) := by
  refine Keeps.bind (P := fun b => (∀ p ∈ b.1, T p) ∧ T b.2.2)
    (Keeps.forIn ⟨by simp, inv.formative.void⟩ fun part _ b hb => ?_) fun b hb => ?_
  · dsimp only
    split
    · rename_i names hasDefault hk
      have placed : ∀ m ∈ ctx.tree.childIds part.1, ctx.tree.Placed m := fun m hm =>
        ⟨part.1, by rw [hk]; rfl, hm⟩
      have next : ∀ ty, T ty → Keeps I (fun r => (∀ p ∈ r.value.1, T p) ∧ T r.value.2.2)
          (Pure.pure (ForInStep.yield ((addParams names hasDefault ty b.1 b.2.1).1,
            (addParams names hasDefault ty b.1 b.2.1).2, b.2.2)) : Collecting (ForInStep _)) :=
        fun ty ht => Keeps.pure ⟨mem_addParams hasDefault b.2.1 hb.1 ht, hb.2⟩
      split
      · rename_i type htype
        have hmem := mem_childIds (mem_children_of_child? htype)
        exact (hr _ _ (placed _ hmem)).bind fun ty ht => next ty ht
      · exact next .untyped inv.formative.untyped
    · rename_i hk
      refine (keeps_child ctx part.1 0).bind fun type hmem => ?_
      exact (hr _ _ ⟨part.1, by rw [hk]; rfl, hmem⟩).bind fun ty ht => Keeps.pure ⟨hb.1, ht⟩
    · exact Keeps.pure hb
  · dsimp only
    split
    · exact Keeps.pure ⟨hb.1, inv.formative.struct _⟩
    · exact Keeps.pure ⟨hb.1, hb.2⟩

theorem routineDeclaration (hn : (ctx.tree.kind n).isDeclaration = true)
    (name : String) (kind : RoutineKind) (scope : ScopeId) (declaring : Option StructId) :
    Keeps I (fun _ => True)
      (Collecting.routineDeclaration ctx name kind resolve scope declaring) :=
  (inv.signature hr scope kind declaring).bind fun _ made =>
    inv.declareAt hn scope (inv.routinePlain name made)

theorem varSection (scope : ScopeId) {kind : DeclarationKind}
    (hkind : kind ≠ .unit ∧ kind ≠ .unitImport ∧ kind ≠ .routine) :
    Keeps I (fun _ => True) (Collecting.varSection ctx resolve scope kind) := by
  refine Keeps.each fun declaration _ => ?_
  split
  · rename_i names hk
    have hn : (ctx.tree.kind declaration.1).isDeclaration = true := by rw [hk]; rfl
    refine (keeps_child ctx declaration.1 0).bind fun type hmem => ?_
    exact (hr _ _ ⟨declaration.1, by rw [hk]; rfl, hmem⟩).bind fun ty ht =>
      (inv.declareNames hn scope names hkind ht).next
  · exact Keeps.malformed_bind _

theorem constSection (scope : ScopeId) :
    Keeps I (fun _ => True) (Collecting.constSection ctx resolve scope) := by
  refine Keeps.each fun declaration _ => ?_
  split
  · rename_i name typed hk
    have hn : (ctx.tree.kind declaration.1).isDeclaration = true := by rw [hk]; rfl
    have made : ∀ ty, T ty → Keeps I (fun _ => True) (do
        discard (Collecting.declareAt declaration.1 scope { name, kind := .constant, ty })
        Pure.pure (ForInStep.yield PUnit.unit)) := fun ty ht =>
      (inv.declareAt hn scope (plain rfl (by simp) ht rfl)).next
    refine (keeps_child ctx declaration.1 0).bind fun first hmem => ?_
    split
    · exact (hr _ _ ⟨declaration.1, by rw [hk]; rfl, hmem⟩).bind made
    · exact (inv.constantType _ _).bind made
  · exact Keeps.malformed_bind _

theorem otherType {declaration : NodeId} (hn : (ctx.tree.kind declaration).isDeclaration = true)
    (scope : ScopeId) (name : String) {type : Below n} (placed : ctx.tree.Placed type.1) :
    Keeps I (fun _ => True) (Collecting.otherType ctx resolve scope declaration name type) := by
  refine (hr type scope placed).bind fun ty ht => inv.declareAt hn scope (plain rfl (by simp) ?_ rfl)
  dsimp only
  split_ifs
  · exact inv.formative.distinct name ht
  · exact ht

theorem typeSection (hb : ∀ (b : Below n) struct, (ctx.tree.kind b.1).opensScope = true →
      Keeps I (fun _ => True) (body b struct))
    (scope : ScopeId) : Keeps I (fun _ => True) (Collecting.typeSection ctx resolve body scope) := by
  -- What is still to come is declared by type declarations and described at their children.
  let Described (b : Array (Below n × StructId) × Array (NodeId × String × Below n)) : Prop :=
    (∀ entry ∈ b.1, (ctx.tree.kind entry.1.1).opensScope = true) ∧
      ∀ entry ∈ b.2, (ctx.tree.kind entry.1).isDeclaration = true ∧ ctx.tree.Placed entry.2.2.1
  refine Keeps.bind (P := Described) (Keeps.forIn (by simp [Described]) ?_) fun b hd => ?_
  · intro declaration _ b hd
    split
    · rename_i name hk
      have hn : (ctx.tree.kind declaration.1).isDeclaration = true := by rw [hk]; rfl
      refine (keeps_child ctx declaration.1 0).bind fun type hmem => ?_
      have placed : ctx.tree.Placed (declaration.lift type).1 :=
        ⟨declaration.1, by rw [hk]; rfl, hmem⟩
      dsimp only
      split
      · rename_i kind hk
        have htype : (ctx.tree.kind (declaration.lift type).1).isExpression = false := by
          rw [hk]; rfl
        refine (inv.structIdentity hn scope name kind false).bind fun struct _ => ?_
        refine (inv.annotateType htype placed (inv.formative.struct struct)).bind fun _ _ =>
          Keeps.pure ⟨fun entry hentry => ?_, hd.2⟩
        obtain hentry | rfl := Array.mem_push.1 hentry
        · exact hd.1 entry hentry
        · rw [hk]
          rfl
      · rename_i kind hk
        have htype : (ctx.tree.kind (declaration.lift type).1).isExpression = false := by
          rw [hk]; rfl
        exact (inv.structIdentity hn scope name kind true).bind fun struct _ =>
          (inv.annotateType htype placed (inv.formative.struct struct)).bind fun _ _ =>
            Keeps.pure hd
      · rename_i hk
        have opens : (ctx.tree.kind (declaration.lift type).1).opensScope = true := by
          rw [hk]; rfl
        exact (inv.enumeration opens placed scope name).bind fun ty ht =>
          (inv.declareAt hn scope (plain rfl (by simp) ht rfl)).bind fun _ _ => Keeps.pure hd
      · refine Keeps.pure ⟨hd.1, fun entry hentry => ?_⟩
        obtain hentry | rfl := Array.mem_push.1 hentry
        · exact hd.2 entry hentry
        · exact ⟨hn, placed⟩
    · exact Keeps.malformed_bind _
  · simp only [← Array.forIn_toList]
    refine Keeps.bind (P := fun _ => True) (Keeps.forIn trivial fun other hother _ _ => ?_)
      fun _ _ => Keeps.each fun entry hentry => ?_
    · obtain ⟨hn, placed⟩ := hd.2 other (Array.mem_toList_iff.1 hother)
      exact (inv.otherType hr hn scope other.2.1 placed).next
    · exact (hb _ _ (hd.1 entry (Array.mem_toList_iff.1 hentry))).next

omit inv in
theorem heritage (enclosing : ScopeId) :
    Keeps I (fun found => (∀ p ∈ found.1, T p) ∧ ∀ t ∈ found.2, T t)
      (Collecting.heritage ctx resolve enclosing) := by
  refine Keeps.bind (P := fun b => (∀ p ∈ b.1, T p) ∧ ∀ t ∈ b.2, T t)
    (Keeps.forIn (by simp) fun part _ b hb => ?_) fun b hb => Keeps.pure ⟨by simpa using hb.1, hb.2⟩
  dsimp only
  split
  · rename_i hk
    refine Keeps.bind (P := fun parents => ∀ p ∈ parents, T p)
      (Keeps.forIn hb.1 fun ancestor hmem parents hp => ?_) fun parents hp => Keeps.pure ⟨hp, hb.2⟩
    refine (hr _ _ ⟨part.1, by rw [hk]; rfl, mem_childIds hmem⟩).bind fun ty ht =>
      Keeps.pure fun p hmem => ?_
    obtain hmem | rfl := Array.mem_push.1 hmem
    · exact hp p hmem
    · exact ht
  · rename_i hk
    refine (keeps_child ctx part.1 0).bind fun type hmem => ?_
    refine (hr _ _ ⟨part.1, by rw [hk]; rfl, hmem⟩).bind fun ty ht => Keeps.pure ⟨hb.1, ?_⟩
    rintro _ ⟨⟩
    exact ht
  · exact Keeps.pure hb

theorem member (hb : ∀ (b : Below n) struct, (ctx.tree.kind b.1).opensScope = true →
      Keeps I (fun _ => True) (body b struct))
    (scope : ScopeId) (struct : StructId) (part : Below n) :
    Keeps I (fun _ => True) (Collecting.member ctx resolve body scope struct part) := by
  have inner : ∀ (b : Below part.1) scope, ctx.tree.Placed b.1 →
      Keeps I T (resolve (part.lift b) scope) := fun b => hr (part.lift b)
  unfold Collecting.member
  dsimp only
  split
  · rename_i names hk
    have hn : (ctx.tree.kind part.1).isDeclaration = true := by rw [hk]; rfl
    refine (keeps_child ctx part.1 0).bind fun type hmem => ?_
    exact (inner _ _ ⟨part.1, by rw [hk]; rfl, hmem⟩).bind fun ty ht =>
      (inv.declareNames hn scope names (by simp) ht).bind fun _ _ => Keeps.pure trivial
  · rename_i name hk
    have hn : (ctx.tree.kind part.1).isDeclaration = true := by rw [hk]; rfl
    have made : ∀ ty, T ty → Keeps I (fun _ => True)
        (discard (Collecting.declareAt part.1 scope { name, kind := .property, ty })) :=
      fun ty ht => inv.declareAt hn scope (plain rfl (by simp) ht rfl)
    split
    · rename_i type htype
      have hmem := mem_childIds (mem_children_of_child? htype)
      exact (inner _ _ ⟨part.1, by rw [hk]; rfl, hmem⟩).bind made
    · exact Keeps.getEnv fun σ hσ => made _ (inv.inheritedPropertyType hσ struct name)
  · rename_i name kind hk
    exact inv.routineDeclaration inner (by rw [hk]; rfl) name kind scope (some struct)
  · exact inv.typeSection inner (fun b => hb (part.lift b)) scope
  · exact inv.varSection inner scope (by simp)
  · exact inv.constSection inner scope
  · exact Keeps.pure trivial

theorem structMembers (opens : (ctx.tree.kind n).opensScope = true)
    (hb : ∀ (b : Below n) struct, (ctx.tree.kind b.1).opensScope = true →
      Keeps I (fun _ => True) (body b struct))
    (struct : StructId) :
    Keeps I (fun _ => True) (Collecting.structMembers ctx resolve body struct) := by
  have hn := NodeKind.isExpression_of_opensScope opens
  refine Keeps.getEnv fun σ₀ _ => (inv.annotateScope hn (.inl opens)).bind fun _ _ => ?_
  refine (heritage hr _).bind fun found hfound => ?_
  dsimp only
  have parents : ∀ p ∈ (if found.1.isEmpty then Collecting.implicitParents ctx σ₀.env struct
      else found.1), T p := by
    split_ifs
    · exact inv.implicitParents σ₀.env struct
    · exact hfound.1
  refine Keeps.bind (Keeps.modify fun σ hσ =>
    inv.completeStruct hσ struct _ found.2 parents hfound.2) fun _ _ => ?_
  have members : Keeps I (fun _ => True) (do
      ForIn.forIn (ctx.tree.children n) PUnit.unit fun part _ => do
        Collecting.member ctx resolve body (σ₀.env.membersOf struct) struct part
        Pure.pure (ForInStep.yield PUnit.unit)
      Pure.pure ()) :=
    Keeps.each fun part _ => (inv.member hr hb _ struct part).next
  split
  · rename_i target helped
    exact Keeps.bind (Keeps.modify fun σ hσ =>
      inv.registerHelper hσ _ target struct (hfound.2 target helped)) fun _ _ => members
  · exact members

/-- A node that denotes a type is no expression. -/
theorem typeAt
    {members : StructId → Collecting Unit}
    (hm : (ctx.tree.kind n).opensScope = true → ∀ struct,
      Keeps I (fun _ => True) (members struct))
    (placed : ctx.tree.Placed n) (scope : ScopeId) :
    Keeps I (fun ty => T ty ∧ (ctx.tree.kind n).isExpression = false)
      (Collecting.typeAt ctx resolve members scope) := by
  cases hn : (ctx.tree.kind n).isExpression with
  | true =>
    have refused : Collecting.typeAt ctx resolve members scope =
        Collecting.malformed (ctx.tree.unexpected n "type node") := by
      unfold Collecting.typeAt
      generalize ctx.tree.kind n = kind at hn
      cases kind <;> first | rfl | cases hn
    rw [refused]
    exact Keeps.malformed _
  | false =>
    have below : ∀ b : Below n, b.1 ∈ ctx.tree.childIds n → ctx.tree.Placed b.1 :=
      fun b hmem => ⟨n, hn, hmem⟩
    have built : ∀ make : Ty → Ty, (∀ ty, T ty → T (make ty)) → Keeps I T (do
        Pure.pure (make (← resolve (← child ctx n 0) scope))) := fun make hmake =>
      (keeps_child ctx n 0).bind fun b hb => (hr b scope (below b hb)).bind fun ty ht =>
        Keeps.pure (hmake ty ht)
    have described : Keeps I T (Collecting.typeAt ctx resolve members scope) := by
      unfold Collecting.typeAt
      split
      · rename_i hk
        exact inv.namedType (by rw [hk]; rfl) scope _
      · exact built _ fun ty ht => inv.formative.pointer _ ht
      · split
        · rename_i element helement
          have hmem := mem_childIds (mem_children_of_child? helement)
          exact (hr _ _ (below _ hmem)).bind fun ty ht => Keeps.pure (inv.formative.array _ ht)
        · exact Keeps.pure (inv.formative.array _ inv.formative.untyped)
      · exact built _ fun ty ht => inv.formative.set ht
      · exact (inv.signature hr _ _ _).bind fun _ made =>
          Keeps.pure (inv.formative.procedural _ made.params made.result)
      · exact built _ fun ty ht => inv.formative.classRef ht
      · exact (keeps_child ctx n 0).bind fun b hb => hr b scope (below b hb)
      · rename_i hk
        exact inv.enumeration (by rw [hk]; rfl) placed scope ""
      · rename_i hk
        exact (inv.newStruct _ _ _ _).bind fun struct _ => (hm (by rw [hk]; rfl) struct).bind
          fun _ _ => Keeps.pure (inv.formative.struct struct)
      · rename_i hk
        exact (inv.complain (by rw [hk]; rfl) rfl).bind fun _ _ =>
          Keeps.pure inv.formative.unknown
      · exact Keeps.malformed _
    exact described.mono fun ty ht => ⟨ht, rfl⟩

end Resolvers

/-- Types and structured types at a node, by induction on its number: nodes below come before. -/
theorem types (n : NodeId) :
    (∀ scope, ctx.tree.Placed n → Keeps I T (resolveType ctx n scope)) ∧
      ∀ struct, (ctx.tree.kind n).opensScope = true →
        Keeps I (fun _ => True) (structBody ctx n struct) := by
  induction hi : n.index using Nat.strong_induction_on generalizing n with
  | _ index ih =>
    have resolver : ∀ (b : Below n) scope, ctx.tree.Placed b.1 →
        Keeps I T (resolveType ctx b.1 scope) := fun b => (ih b.1.index (hi ▸ b.2) b.1 rfl).1
    have body : ∀ struct, (ctx.tree.kind n).opensScope = true →
        Keeps I (fun _ => True) (structBody ctx n struct) := by
      intro struct opens
      rw [structBody]
      exact inv.structMembers resolver opens (fun b => (ih b.1.index (hi ▸ b.2) b.1 rfl).2) struct
    refine ⟨fun scope placed => ?_, body⟩
    rw [resolveType]
    refine (inv.typeAt resolver (fun opens struct => body struct opens) placed scope).bind
      fun ty ⟨ht, hn⟩ => ?_
    exact (inv.annotateType hn placed ht).bind fun _ _ => Keeps.pure ht

end Types

/-! ## Routines and sections -/

section Items

variable (inv : SectionInvariant ctx T I)

include inv

theorem methodOwner (hn : (ctx.tree.kind n).usedUnit? = none) (scope : ScopeId)
    (owner : Option String) : Keeps I (fun _ => True) (Collecting.methodOwner ctx n scope owner) := by
  cases owner with
  | none => exact Keeps.pure trivial
  | some owner =>
    refine Keeps.getEnv fun σ hσ => ?_
    split
    · exact Keeps.pure trivial
    · exact (inv.complain hn rfl).bind fun _ _ => Keeps.pure trivial

theorem bodyDeclaration (hn : (ctx.tree.kind n).usedUnit? = none) (scope members : ScopeId)
    (name simpleName : String) (qualified : Bool) {signature : RoutineSignature}
    (made : signature.Made T) :
    Keeps I (fun _ => True)
      (Collecting.bodyDeclaration ctx n scope members name simpleName qualified signature) := by
  refine Keeps.get fun σ hσ => ?_
  split
  · exact Keeps.pure trivial
  · split
    · split
      · exact (inv.complain hn rfl).bind fun _ _ => Keeps.pure trivial
      · exact Keeps.pure trivial
    · have plain : ({ name := simpleName, kind := .routine, ty := signature.ty, node := some n
                      routine := some signature } : DeclarationSpec).Plain T :=
        { inv.routinePlain simpleName made with }
      exact (inv.makeDeclaration scope plain).bind fun _ _ => Keeps.pure trivial

theorem declareParameters (n : NodeId) (scope : ScopeId) :
    Keeps I (fun _ => True) (Collecting.declareParameters ctx n scope) := by
  refine Keeps.each fun part _ => ?_
  split
  · rename_i names _ hk
    refine Keeps.get fun σ hσ => ?_
    have recorded : T (((ctx.tree.child? part 0).bind fun type =>
        σ.annotations.type? type.1).getD .untyped) := by
      cases hty : (ctx.tree.child? part 0).bind fun type => σ.annotations.type? type.1 with
      | none => exact inv.formative.untyped
      | some ty =>
        obtain ⟨type, -, hty⟩ := Option.bind_eq_some_iff.1 hty
        exact inv.recorded hσ type.1 ty hty
    exact (inv.declareNames (by rw [hk]; rfl) scope names (by simp) recorded).next
  · exact Keeps.pure trivial

theorem declareImplicit (scope : ScopeId) (declaring : Option StructId)
    {signature : RoutineSignature} (hr : T signature.result) :
    Keeps I (fun _ => True) (Collecting.declareImplicit scope declaring signature) := by
  have made : ∀ {spec : DeclarationSpec}, spec.Plain T →
      Keeps I (fun _ => True) (discard (Collecting.declare scope spec)) := fun h =>
    (inv.makeDeclaration scope h).discard
  have result : Keeps I (fun _ => True) (do
      if (signature.kind = .function || signature.kind = .operator) && !signature.result.isVoid then
        discard (Collecting.declare scope
          { name := "Result", kind := .var, ty := signature.result })) :=
    Keeps.ite (fun _ => made (plain rfl (by simp) hr rfl)) fun _ => Keeps.pure trivial
  unfold Collecting.declareImplicit
  cases declaring with
  | none => exact result
  | some struct =>
    exact (made (plain rfl (by simp) (inv.formative.struct struct) rfl)).bind fun _ _ => result

/-- A section, or a routine without a body. -/
theorem sectionItem (hn : ctx.tree.kind n ≠ .usesClause) (hb : (ctx.tree.kind n).isBody = false)
    (scope : ScopeId) : Keeps I (fun _ => True) (Collecting.item ctx n scope) := by
  have resolver : ∀ (b : Below n) scope, ctx.tree.Placed b.1 →
      Keeps I T (resolveType ctx b.1 scope) := fun b => (inv.types b.1).1
  rw [Collecting.item]
  split
  · rename_i hk
    exact absurd hk hn
  · exact inv.typeSection resolver (fun b => (inv.types b.1).2) scope
  · exact inv.varSection resolver scope (by simp)
  · exact inv.constSection resolver scope
  · rename_i hk
    exact inv.routineDeclaration resolver (by rw [hk]; rfl) _ _ _ _
  · rename_i hk
    rw [hk] at hb
    cases hb
  · exact Keeps.pure trivial

theorem readBody (hn : (ctx.tree.kind n).usedUnit? = none) (scope : ScopeId) (name : String)
    (kind : RoutineKind) :
    Keeps I (fun reading => reading.signature.Made T)
      (Collecting.readBody ctx n scope name kind) := by
  refine (inv.methodOwner hn scope _).bind fun owner _ => Keeps.getEnv fun σ _ => ?_
  exact (inv.signature (fun b => (inv.types b.1).1) _ _ _).bind fun own made => Keeps.pure made

theorem openBody (opens : (ctx.tree.kind n).opensScope = true) (scope : ScopeId) (name : String)
    {reading : BodyReading} (made : reading.signature.Made T) (declaration : Option DeclId) :
    Keeps I (fun _ => True) (Collecting.openBody ctx n scope name reading declaration) := by
  have hn := NodeKind.isExpression_of_opensScope opens
  refine (inv.newScope (by simp) _ _).bind fun body _ => (inv.declaring _ _).bind fun _ _ =>
    (inv.annotateScope hn (.inl opens)).bind fun _ _ => (inv.declareParameters n body).bind fun _ _ =>
      Keeps.getEnv fun σ hσ => (inv.declareImplicit body reading.owner ?_).bind fun _ _ =>
        Keeps.pure trivial
  cases hc : declaration.bind fun id => (σ.env.declaration id).routine with
  | none => exact made.result
  | some signature =>
    obtain ⟨d, -, hd⟩ := Option.bind_eq_some_iff.1 hc
    exact inv.results hσ d signature hd

end Items

end SectionInvariant

namespace Invariant

variable (inv : Invariant ctx T I)

include inv

theorem routineHead (name : String) (kind : RoutineKind)
    (hk : ctx.tree.kind n = .routineImplementation name kind) (scope : ScopeId) :
    Keeps I (fun _ => True) (Collecting.routineHead ctx n scope name kind) := by
  have opens : (ctx.tree.kind n).opensScope = true := by rw [hk]; rfl
  have hu : (ctx.tree.kind n).usedUnit? = none := by rw [hk]; rfl
  have attached : ∀ declaration, Keeps I (fun _ => True) (attachBody n declaration) := by
    rintro (_ | id)
    · exact Keeps.pure trivial
    · exact Keeps.bind (Keeps.modify fun σ hσ => inv.notes hσ σ.part _) fun _ _ =>
        Keeps.modify fun σ hσ => inv.attach hσ n id hu
  rw [routineHead_eq]
  refine (inv.readBody hu scope name kind).bind fun reading made => ?_
  refine (inv.bodyDeclaration hu _ _ _ _ _ made).bind fun declaration _ => ?_
  exact (attached declaration).bind fun _ _ => inv.openBody opens scope name made declaration

/-- A section or a routine other than a uses clause, by induction on the number of its node: local
routines come before. -/
theorem item (n : NodeId) (hn : ctx.tree.kind n ≠ .usesClause) (scope : ScopeId) :
    Keeps I (fun _ => True) (Collecting.item ctx n scope) := by
  induction hi : n.index using Nat.strong_induction_on generalizing n scope with
  | _ index ih =>
    cases hb : (ctx.tree.kind n).isBody with
    | false => exact inv.sectionItem hn hb scope
    | true =>
      obtain ⟨name, kind, hk⟩ := NodeKind.isBody_iff.1 hb
      rw [Collecting.item]
      simp only [hk]
      refine (inv.routineHead name kind hk scope).bind fun body _ => Keeps.forM fun part _ => ?_
      refine Keeps.ite (fun hlocal => ?_) fun _ => Keeps.pure trivial
      refine ih part.1.index (hi ▸ part.2) part.1 ?_ body rfl
      intro hk
      simp [hk, isLocal] at hlocal

end Invariant

/-! ## Units -/

namespace UseInvariant

variable (inv : UseInvariant ctx T I)

include inv

theorem importUnit (reference : NodeId) (name : String) :
    Keeps I (fun _ => True) (Collecting.importUnit ctx reference name) := by
  unfold Collecting.importUnit
  split
  · rename_i unit known
    refine Keeps.bind (Keeps.modify fun σ hσ => inv.use hσ unit ⟨name, known⟩) fun _ _ => ?_
    refine Keeps.discard (P := fun _ => True) ?_
    refine (keeps_declare fun σ hσ => inv.declareUse hσ _ rfl rfl rfl).bind fun id _ => ?_
    exact Keeps.bind (Keeps.modify fun σ hσ => inv.setUse hσ reference id) fun _ _ =>
      Keeps.pure trivial
  · exact Keeps.pure trivial

theorem usesClause (n : NodeId) : Keeps I (fun _ => True) (Collecting.usesClause ctx n) := by
  refine Keeps.each fun reference _ => ?_
  split
  · split
    · exact (inv.importUnit _ _).next
    · exact Keeps.next (P := fun _ => True) (Keeps.modify fun σ hσ => inv.missing hσ _ rfl)
  · exact Keeps.malformed_bind _

theorem unitPart (n : NodeId) : Keeps I (fun _ => True) (Collecting.unitPart ctx n) := by
  have item : ∀ m, Keeps I (fun _ => True) (Collecting.item ctx m ctx.file) := by
    intro m
    by_cases hk : ctx.tree.kind m = .usesClause
    · rw [Collecting.item, hk]
      exact inv.usesClause m
    · exact inv.toInvariant.item m hk ctx.file
  have enter : ∀ part : Section, Keeps I (fun _ => True) (do
      modify fun s => { s with part }
      (ctx.tree.childIds n).forM fun child => Collecting.item ctx child ctx.file) := fun part =>
    Keeps.bind (Keeps.modify fun σ hσ => inv.notes hσ part σ.implemented) fun _ _ =>
      Keeps.forM fun child _ => item child
  unfold Collecting.unitPart
  split
  · exact enter .interface
  · exact enter .implementation
  · exact item n

/-- The collection of a unit keeps an invariant. -/
theorem unit {root : NodeId} (h : (ctx.tree.kind root).isExpression = false) :
    Keeps I (fun _ => True) (Collecting.unit ctx root) :=
  (inv.annotateScope h (.inr rfl)).bind fun _ _ => Keeps.forM fun n _ => inv.unitPart n

/-- Looking up the used units again keeps an invariant. -/
theorem retryImports : Keeps I (fun _ => True) (Collecting.retryImports ctx) := by
  refine Keeps.get fun σ _ => Keeps.each fun entry _ => Keeps.ite (fun _ => ?_) fun _ =>
    Keeps.pure trivial
  refine Keeps.bind (Keeps.modify fun σ hσ => inv.notes hσ _ σ.implemented) fun _ _ => ?_
  exact (inv.importUnit _ _).bind fun _ _ =>
    Keeps.next (P := fun _ => True) (Keeps.modify fun σ hσ => inv.retain hσ _)

end UseInvariant

end Collecting

end Pascal
