import Pascal.Proofs.Collection.Calm
import Pascal.Proofs.Regions

/-!
# The course of a collection

What a collection does that is of note: it looks up the references to types, records the types that
nodes denote, gives structured types their identity, declares other types, describes structured types
and opens the scopes of bodies. Between two such deeds the types that are recorded stay as they are,
no type is declared and none is described. So the course of a collection is a list of moments.
-/

namespace Pascal

open Environment

/-- Whether a node may share its declaration with another: a type is announced before it is
described, and a routine is declared before it gets its body. -/
def NodeKind.sharesDeclaration : NodeKind → Bool
  | .typeDeclaration _ | .routineImplementation _ _ => true
  | _ => false

theorem NodeKind.sharesDeclaration_of_isBody {kind : NodeKind} (h : kind.isBody = true) :
    kind.sharesDeclaration = true := by
  cases kind <;> first | rfl | cases h

namespace Environment

/-- The types of the parameters declared in a scope, in order. -/
def paramTypes (env : Environment) (s : ScopeId) : List Ty :=
  (env.symbols.declarationsIn s).filterMap fun d =>
    if (env.declaration d).kind = .parameter then some (env.declaration d).ty else none

variable {env : Environment} {s : ScopeId}

theorem paramTypes_add (has : ∀ d ∈ env.symbols.declarationsIn s, env.Has (.decl d))
    (spec : DeclarationSpec) : (env.add s spec).2.paramTypes s =
      env.paramTypes s ++ if spec.kind = .parameter then [spec.ty] else [] := by
  have later := extends_add env s spec
  have spelled := (@declaration_add_new env s spec).2
  have listed : (env.add s spec).2.symbols.declarationsIn s =
      env.symbols.declarationsIn s ++ [⟨env.symbols.size⟩] := by
    refine SymbolTable.declarationsIn_add.trans ?_
    rw [if_pos rfl]
  rw [paramTypes, listed, List.filterMap_append]
  congr 1
  · refine List.filterMap_congr fun d hd => ?_
    rw [later.decl d (has d hd)]
  · simp only [List.filterMap_cons, List.filterMap_nil, congrArg DeclarationSpec.kind spelled,
      congrArg DeclarationSpec.ty spelled]
    split_ifs <;> rfl

end Environment

/-- A scope keeps its parameters. -/
theorem Collecting.Onward.paramTypes {ctx : CollectionContext} {base env : Environment}
    (h : Onward ctx base env) {s : ScopeId} (hs : base.Has (.scope s))
    (has : ∀ d ∈ base.symbols.declarationsIn s, base.Has (.decl d)) :
    env.paramTypes s = base.paramTypes s := by
  obtain ⟨new, listed, plain⟩ := h.listed s hs
  have none : (new.filterMap fun d => if (env.declaration d).kind = .parameter then
      some (env.declaration d).ty else none) = [] := by
    refine List.filterMap_eq_nil_iff.2 fun d hd => ?_
    rw [if_neg (plain d hd).2]
  rw [Environment.paramTypes, listed, List.filterMap_append, none, List.append_nil]
  refine List.filterMap_congr fun d hd => ?_
  rw [h.grows.decl d (has d hd)]

namespace SyntaxTree

/-- The types of the parameters that a part of a routine writes, as they are recorded. -/
def partParams (tree : SyntaxTree) (a : Annotations) (part : NodeId) : List Ty :=
  match tree.kind part with
  | .parameter names _ =>
    names.map fun _ => ((tree.child? part 0).bind fun type => a.type? type.1).getD .untyped
  | _ => []

/-- The types of the parameters that a routine writes, as they are recorded. -/
def recordedParams (tree : SyntaxTree) (a : Annotations) (n : NodeId) : List Ty :=
  (tree.childIds n).flatMap (tree.partParams a)

variable {tree : SyntaxTree} {a b : Annotations}

theorem partParams_of_parameter {part : NodeId} {names : List String} {hasDefault : Bool}
    (h : tree.kind part = .parameter names hasDefault) :
    tree.partParams a part = names.map fun _ =>
      ((tree.child? part 0).bind fun type => a.type? type.1).getD .untyped := by
  rw [partParams, h]

theorem partParams_of_ne {part : NodeId}
    (h : ∀ names hasDefault, tree.kind part ≠ .parameter names hasDefault) :
    tree.partParams a part = [] := by
  unfold partParams
  split
  · exact absurd ‹_› (h _ _)
  · rfl

theorem partParams_congr {part : NodeId}
    (same : ∀ type, tree.child? part 0 = some type → b.type? type.1 = a.type? type.1) :
    tree.partParams b part = tree.partParams a part := by
  unfold partParams
  split
  · cases hc : tree.child? part 0 with
    | none => rfl
    | some type => simp only [Option.bind_some, same type hc]
  · rfl

theorem recordedParams_congr (same : ∀ m, b.type? m = a.type? m) (n : NodeId) :
    tree.recordedParams b n = tree.recordedParams a n :=
  List.flatMap_congr fun _ _ => partParams_congr fun type _ => same type.1

end SyntaxTree

namespace Collecting

variable {ctx : CollectionContext} {σ mid τ : CollectionState} {n : NodeId} {scope : ScopeId}
  {name : String}

/-! ## References -/

/-- The outcome of a reference to a type, once it is known what the name denotes: the type is
recorded, and a name that denotes none is complained about. -/
def referred (ctx : CollectionContext) (n : NodeId) (name : String) (σ : CollectionState) :
    Option Ty → Except AnalysisError Ty × CollectionState
  | some ty => (.ok ty, { σ with annotations := σ.annotations.setType n ty })
  | none =>
    let issue : Issue :=
      { node := n, position := ctx.tree.position n, kind := .unresolvedReference name }
    (.ok .unknown, { σ with annotations := (σ.annotations.pushIssue issue).setType n .unknown })

theorem run_namedType : (namedType ctx n scope name).run.run σ =
    match σ.env.namedType? scope name with
    | some ty => (.ok ty, σ)
    | none =>
      let issue : Issue :=
        { node := n, position := ctx.tree.position n, kind := .unresolvedReference name }
      (.ok .unknown, { σ with annotations := σ.annotations.pushIssue issue }) := by
  rw [namedType, run_getEnv_bind]
  cases σ.env.namedType? scope name <;> rfl

theorem run_resolveType_reference (hk : ctx.tree.kind n = .typeReference name) :
    (resolveType ctx n scope).run.run σ = referred ctx n name σ (σ.env.namedType? scope name) := by
  rw [resolveType, typeAt, hk]
  dsimp only
  rw [run_bind, run_namedType]
  cases σ.env.namedType? scope name <;> rfl

/-! ## Deeds -/

/-- Something of note that a collection does. -/
inductive Deed
  /-- A reference to a type is looked up in a scope. -/
  | refer (n : NodeId) (scope : ScopeId) (name : String)
  /-- The type that another node denotes is recorded. -/
  | record (n : NodeId) (ty : Ty)
  /-- A structured type that is declared in a scope gets its identity, at a type declaration and at
  the node that announces or describes it. -/
  | identify (n type : NodeId) (scope : ScopeId) (name : String) (announces : Bool)
      (struct : StructId)
  /-- Another type is declared in a scope. -/
  | declare (n : NodeId) (scope : ScopeId) (name : String)
  /-- A structured type is described at a node. -/
  | describe (n : NodeId) (struct : StructId)
  /-- A routine gets its body, with a scope of its own. -/
  | body (visit : BodyVisit) (body : ScopeId)

namespace Deed

/-- The nodes at which something is recorded. -/
def marks : Deed → List NodeId
  | refer n _ _ | record n _ | declare n _ _ => [n]
  | identify n type _ _ _ _ => [n, type]
  | describe _ _ => []
  | body visit _ => [visit.node]

/-- The scope and the name of a type declaration. -/
def declares? : Deed → Option (ScopeId × FoldedName)
  | identify _ _ scope name _ _ | declare _ scope name => some (scope, Name.fold name)
  | _ => none

/-- The structured type that is described. -/
def describes? : Deed → Option StructId
  | describe _ struct => some struct
  | _ => none

/-- The routine that gets its body. -/
def visit? : Deed → Option BodyVisit
  | body visit _ => some visit
  | _ => none

end Deed

/-- What becomes of the state by something that a collection does. -/
inductive Does (ctx : CollectionContext) : CollectionState → Deed → CollectionState → Prop
  | refer {σ : CollectionState} {n : NodeId} {scope : ScopeId} {name : String}
      (kind : ctx.tree.kind n = .typeReference name) :
    Does ctx σ (.refer n scope name) (referred ctx n name σ (σ.env.namedType? scope name)).2
  | record {σ : CollectionState} {n : NodeId} (other : ∀ name, ctx.tree.kind n ≠ .typeReference name)
      (ty : Ty) :
    Does ctx σ (.record n ty) { σ with annotations := σ.annotations.setType n ty }
  | identify {σ τ : CollectionState} {n type : NodeId} {scope : ScopeId} {name : String}
      {kind : StructKind} {announces : Bool} {struct : StructId}
      (declares : ctx.tree.kind n = .typeDeclaration name)
      (first : (ctx.tree.childIds n)[0]? = some type)
      (announced : ctx.tree.kind type =
        if announces then .forwardStructType kind else .structType kind)
      (run : (structIdentity scope name kind n announces).run.run σ = (.ok struct, τ)) :
    Does ctx σ (.identify n type scope name announces struct)
      { τ with annotations := τ.annotations.setType type (.struct struct) }
  | declare {σ τ : CollectionState} {n : NodeId} {scope : ScopeId} {name : String} {ty : Ty}
      {d : DeclId} (declares : ctx.tree.kind n = .typeDeclaration name)
      (run : (declareAt n scope { name, kind := .type, ty }).run.run σ = (.ok d, τ)) :
    Does ctx σ (.declare n scope name) τ
  | describe {σ : CollectionState} (n : NodeId) (struct : StructId) (parents : List Ty)
      (helped : Option Ty) :
    Does ctx σ (.describe n struct)
      { σ with env := σ.env.withTypes (σ.env.types.completeStruct struct parents helped) }
  | body {arrival σ found attached τ : CollectionState} {n : NodeId} {scope body : ScopeId}
      {name : String} {kind : RoutineKind} {reading : BodyReading} {declaration : Option DeclId}
      {u : Unit} (implements : ctx.tree.kind n = .routineImplementation name kind)
      (blank : σ.env.symbols.namesOf ⟨σ.env.scopes.size⟩ = {}) (place : σ.env.Has (.scope scope))
      (read : (readBody ctx n scope name kind).run.run arrival = (.ok reading, σ))
      (params : ctx.tree.ListedOnce →
        reading.signature.params = ctx.tree.recordedParams σ.annotations n)
      (seek : (seekDeclaration ctx n scope name reading).run.run σ = (.ok declaration, found))
      (attach : (attachBody n declaration).run.run found = (.ok u, attached))
      (opens : (openBody ctx n scope name reading declaration).run.run attached = (.ok body, τ)) :
    Does ctx σ
      (.body ⟨n, scope, name, arrival.env, reading, σ, declaration, found.env⟩ body) τ

/-- A deed with the states around it. -/
structure Moment where
  before : CollectionState
  deed : Deed
  after : CollectionState

/-- The nodes that moments mark. -/
def marks (moments : List Moment) : List NodeId := moments.flatMap fun moment => moment.deed.marks

@[simp] theorem marks_nil : marks [] = [] := rfl

@[simp] theorem marks_cons (moment : Moment) (moments : List Moment) :
    marks (moment :: moments) = moment.deed.marks ++ marks moments := rfl

@[simp] theorem marks_append (first second : List Moment) :
    marks (first ++ second) = marks first ++ marks second := List.flatMap_append

/-- The routines that get their body at some of the moments, in order. -/
def visited (moments : List Moment) : List BodyVisit :=
  moments.filterMap fun moment => moment.deed.visit?

@[simp] theorem visited_nil : visited [] = [] := rfl

theorem visited_cons (moment : Moment) (moments : List Moment) :
    visited (moment :: moments) = moment.deed.visit?.toList ++ visited moments := by
  cases hv : moment.deed.visit? <;> simp [visited, hv]

@[simp] theorem visited_append (first second : List Moment) :
    visited (first ++ second) = visited first ++ visited second := List.filterMap_append

/-! ## Stretches -/

/-- A stretch of a collection in which nothing of note happens. -/
structure Pause (ctx : CollectionContext) (σ τ : CollectionState) : Prop where
  tables : Calm ctx σ.env τ.env
  types : ∀ m, τ.annotations.type? m = σ.annotations.type? m
  attached : ∀ m, (ctx.tree.kind m).sharesDeclaration = true →
    τ.annotations.declaration? m = σ.annotations.declaration? m
  opened : ∀ m, (ctx.tree.kind m).isBody = true →
    τ.annotations.scope? m = σ.annotations.scope? m

theorem Pause.refl (ctx : CollectionContext) (σ : CollectionState) : Pause ctx σ σ :=
  ⟨.refl ctx σ.env, fun _ => rfl, fun _ _ => rfl, fun _ _ => rfl⟩

theorem Pause.trans (h : Pause ctx σ mid) (g : Pause ctx mid τ) : Pause ctx σ τ where
  tables := h.tables.trans g.tables
  types m := (g.types m).trans (h.types m)
  attached m hm := (g.attached m hm).trans (h.attached m hm)
  opened m hm := (g.opened m hm).trans (h.opened m hm)

namespace Pause

variable (h : Pause ctx σ τ)

include h

/-- The tables change without anything of note. -/
theorem env {env : Environment} (calm : Calm ctx σ.env env) : Pause ctx σ { τ with env } :=
  { h with tables := calm }

theorem issue (issue : Issue) :
    Pause ctx σ { τ with annotations := τ.annotations.pushIssue issue } := { h with }

/-- A declaration is recorded at a node that shares it with no other. -/
theorem setDeclaration (hn : (ctx.tree.kind n).sharesDeclaration = false) (d : DeclId) :
    Pause ctx σ { τ with annotations := τ.annotations.setDeclaration n d } := by
  refine { h with attached := fun m hm => ?_ }
  rw [Annotations.declaration?_setDeclaration, if_neg, h.attached m hm]
  rintro rfl
  simp [hn] at hm

/-- A scope is recorded at a node that is no routine with a body. -/
theorem setScope (hn : (ctx.tree.kind n).isBody = false) (scope : ScopeId) :
    Pause ctx σ { τ with annotations := τ.annotations.setScope n scope } := by
  refine { h with opened := fun m hm => ?_ }
  rw [Annotations.scope?_setScope, if_neg, h.opened m hm]
  rintro rfl
  simp [hn] at hm

/-- A type is recorded once more. -/
theorem setType {ty : Ty} (again : τ.annotations.type? n = some ty) :
    Pause ctx σ { τ with annotations := τ.annotations.setType n ty } := by
  refine { h with types := fun m => ?_ }
  rw [Annotations.type?_setType, ← h.types m]
  split_ifs with hm
  · rw [← hm, again]
  · rfl

/-- Something is declared that is neither a type nor a parameter. -/
theorem declare (scope : ScopeId) {spec : DeclarationSpec} (unit : spec.UnitUntyped)
    (kind : spec.kind ≠ .type ∧ spec.kind ≠ .parameter) :
    Pause ctx σ { τ with env := (τ.env.add scope spec).2 } :=
  h.env (h.tables.add scope unit (fun hk => absurd hk kind.2) (decide_eq_false kind.1))

end Pause

/-- What a stretch of a collection leaves as it is, except at some nodes. -/
structure Spares (ctx : CollectionContext) (marks : List NodeId) (σ τ : CollectionState) :
    Prop where
  tables : Onward ctx σ.env τ.env
  types : ∀ m, m ∉ marks → τ.annotations.type? m = σ.annotations.type? m
  attached : ∀ m, m ∉ marks → (ctx.tree.kind m).sharesDeclaration = true →
    τ.annotations.declaration? m = σ.annotations.declaration? m
  opened : ∀ m, m ∉ marks → (ctx.tree.kind m).isBody = true →
    τ.annotations.scope? m = σ.annotations.scope? m

theorem Pause.spares (h : Pause ctx σ τ) : Spares ctx [] σ τ :=
  ⟨h.tables.toOnward, fun m _ => h.types m, fun m _ => h.attached m, fun m _ => h.opened m⟩

theorem Spares.trans {first second : List NodeId} (h : Spares ctx first σ mid)
    (g : Spares ctx second mid τ) : Spares ctx (first ++ second) σ τ := by
  refine ⟨h.tables.trans g.tables, fun m hm => ?_, fun m hm hk => ?_, fun m hm hk => ?_⟩
  all_goals obtain ⟨hfirst, hsecond⟩ := not_or.1 (fun h => hm (List.mem_append.2 h))
  · exact (g.types m hsecond).trans (h.types m hfirst)
  · exact (g.attached m hsecond hk).trans (h.attached m hfirst hk)
  · exact (g.opened m hsecond hk).trans (h.opened m hfirst hk)

/-- The moments of a stretch of a collection, in order. -/
inductive Course (ctx : CollectionContext) : CollectionState → List Moment → CollectionState → Prop
  | pause {σ τ : CollectionState} (h : Pause ctx σ τ) : Course ctx σ [] τ
  | moment {σ τ : CollectionState} {moment : Moment} {rest : List Moment}
      (before : Pause ctx σ moment.before) (does : Does ctx moment.before moment.deed moment.after)
      (after : Course ctx moment.after rest τ) : Course ctx σ (moment :: rest) τ

namespace Course

variable {first second : List Moment}

theorem trans (h : Course ctx σ first mid) (g : Course ctx mid second τ) :
    Course ctx σ (first ++ second) τ := by
  induction h with
  | pause h =>
    cases g with
    | pause g => exact .pause (h.trans g)
    | moment before does after => exact .moment (h.trans before) does after
  | moment before does _ ih => exact .moment before does (ih g)

/-- The course of a collection up to a moment, and from it on. -/
theorem split {moment : Moment} (h : Course ctx σ (first ++ moment :: second) τ) :
    Course ctx σ first moment.before ∧ Does ctx moment.before moment.deed moment.after ∧
      Course ctx moment.after second τ := by
  induction first generalizing σ with
  | nil =>
    obtain _ | ⟨before, does, after⟩ := h
    exact ⟨.pause before, does, after⟩
  | cons head rest ih =>
    obtain _ | ⟨before, does, after⟩ := h
    obtain ⟨inner, last⟩ := ih after
    exact ⟨.moment before does inner, last⟩

end Course

/-! ## Runs of the steps -/

theorem eq_of_run_declareAt {spec : DeclarationSpec} {d : DeclId}
    (h : (declareAt n scope spec).run.run σ = (.ok d, τ)) :
    d = ⟨σ.env.symbols.size⟩ ∧ τ = { σ with
      env := (σ.env.add scope { spec with node := some n, part := σ.part }).2
      annotations := σ.annotations.setDeclaration n d } := by
  obtain ⟨id, mid, made, h⟩ := exists_of_run_bind h
  obtain ⟨rfl, rfl⟩ := eq_of_run_declare made
  obtain ⟨_, _, annotated, h⟩ := exists_of_run_bind h
  obtain ⟨-, rfl⟩ := Prod.mk.inj annotated
  obtain ⟨⟨⟩, rfl⟩ := Prod.mk.inj h
  exact ⟨rfl, rfl⟩

theorem run_declareStruct (kind : StructKind) (forward : Bool) :
    (declareStruct name kind scope forward).run.run σ = (.ok ⟨σ.env.types.structs.size⟩,
      { σ with env := σ.env.announce name kind scope forward }) := rfl

/-- A structured type that is declared in a scope has the identity it was announced with there. If
there is none, it gets a new one and is declared. -/
theorem run_structIdentity {kind : StructKind} {forward : Bool} {struct : StructId}
    (h : (structIdentity scope name kind n forward).run.run σ = (.ok struct, τ)) :
    (∃ d, σ.env.placeholder? scope name = some (d, struct) ∧
      τ = { σ with annotations := σ.annotations.setDeclaration n d }) ∨
    σ.env.placeholder? scope name = none ∧ struct = ⟨σ.env.types.structs.size⟩ ∧
      τ = { σ with
        env := ((σ.env.announce name kind scope forward).add scope
          { name, kind := .type, ty := .struct struct, node := some n, part := σ.part }).2
        annotations := σ.annotations.setDeclaration n ⟨σ.env.symbols.size⟩ } := by
  rw [structIdentity, run_getEnv_bind] at h
  cases hp : σ.env.placeholder? scope name with
  | some found =>
    simp only [hp] at h
    obtain ⟨_, _, annotated, h⟩ := exists_of_run_bind h
    obtain ⟨-, rfl⟩ := Prod.mk.inj annotated
    obtain ⟨⟨⟩, rfl⟩ := Prod.mk.inj h
    exact .inl ⟨found.1, rfl, rfl⟩
  | none =>
    simp only [hp, discard_eq, bind_assoc] at h
    obtain ⟨_, _, announced, h⟩ := exists_of_run_bind h
    rw [run_declareStruct] at announced
    obtain ⟨⟨⟩, rfl⟩ := Prod.mk.inj announced
    obtain ⟨d, _, declared, h⟩ := exists_of_run_bind h
    obtain ⟨rfl, rfl⟩ := eq_of_run_declareAt declared
    obtain ⟨⟨⟩, rfl⟩ := Prod.mk.inj h
    exact .inr ⟨rfl, rfl, rfl⟩

/-- What the rounds of a loop keep that runs to its end; `done` are the elements behind it. -/
theorem forIn_induction {A β : Type} {l : List A} {f : A → β → Collecting (ForInStep β)}
    {P : List A → β → CollectionState → Prop} {init b : β}
    (round : ∀ done x rest b σ r τ, l = done ++ x :: rest → P done b σ →
      (f x b).run.run σ = (.ok r, τ) → ∃ b', r = .yield b' ∧ P (done ++ [x]) b' τ)
    (start : P [] init σ) (h : (forIn l init f).run.run σ = (.ok b, τ)) : P l b τ := by
  have go : ∀ rest done init σ, l = done ++ rest → P done init σ →
      (forIn rest init f).run.run σ = (.ok b, τ) → P l b τ := by
    intro rest
    induction rest with
    | nil =>
      intro done init σ hl hdone h
      obtain ⟨⟨⟩, rfl⟩ := Prod.mk.inj h
      rwa [hl, List.append_nil]
    | cons x rest ih =>
      intro done init σ hl hdone h
      rw [List.forIn_cons] at h
      obtain ⟨r, mid, hr, h⟩ := exists_of_run_bind h
      obtain ⟨b', rfl, hdone⟩ := round done x rest init σ r mid hl hdone hr
      exact ih (done ++ [x]) b' mid (by simpa using hl) hdone h
  exact go l [] init σ rfl start h

/-! ## The scope of a body -/

/-- The scope of a body while it is filled with what the body can name; `start` is the state in which
the body is come to, and `params` are the types of the parameters declared so far. -/
structure Filling (ctx : CollectionContext) (start : CollectionState) (n : NodeId)
    (scope body : ScopeId) (owner : Option StructId) (params : List Ty) (σ : CollectionState) :
    Prop where
  tables : Calm ctx start.env σ.env
  fresh : ¬start.env.Has (.scope body)
  has : σ.env.Has (.scope body)
  kind : (σ.env.scopes.get body).kind = .routine
  parent : (σ.env.scopes.get body).parent = some scope
  declaring : (σ.env.scopes.get body).declaring = owner
  types : ∀ m, σ.annotations.type? m = start.annotations.type? m
  attached : ∀ m, (ctx.tree.kind m).sharesDeclaration = true →
    σ.annotations.declaration? m = start.annotations.declaration? m
  opened : ∀ m, σ.annotations.scope? m =
    if n = m then some body else start.annotations.scope? m
  listed : ∀ d ∈ σ.env.symbols.declarationsIn body, σ.env.Has (.decl d)
  params : σ.env.paramTypes body = params

namespace Filling

variable {start : CollectionState} {body : ScopeId} {owner : Option StructId} {params : List Ty}

theorem declare (h : Filling ctx start n scope body owner params σ) (spec : DeclarationSpec)
    (unit : spec.unitScope = none) (isType : spec.isType = false) :
    Filling ctx start n scope body owner
      (params ++ if spec.kind = .parameter then [spec.ty] else [])
      { σ with env := (σ.env.add body spec).2 } where
  tables := h.tables.add body (DeclarationSpec.unitUntyped_of_none unit) (fun _ => h.fresh) isType
  fresh := h.fresh
  has := h.has
  kind := h.kind
  parent := h.parent
  declaring := h.declaring
  types := h.types
  attached := h.attached
  opened := h.opened
  listed d hd := by
    rw [show (σ.env.add body spec).2.symbols.declarationsIn body = _ from
      SymbolTable.declarationsIn_add, if_pos rfl, List.mem_append, List.mem_singleton] at hd
    exact has_add.2 (hd.imp_left (h.listed d))
  params := by rw [paramTypes_add h.listed, h.params]

theorem setDeclaration (h : Filling ctx start n scope body owner params σ) {m : NodeId}
    (hm : (ctx.tree.kind m).sharesDeclaration = false) (d : DeclId) :
    Filling ctx start n scope body owner params
      { σ with annotations := σ.annotations.setDeclaration m d } := by
  refine { h with attached := fun other hother => ?_ }
  rw [Annotations.declaration?_setDeclaration, if_neg, h.attached other hother]
  rintro rfl
  simp [hm] at hother

/-- A scope for a body, with nothing in it. -/
theorem opening (blank : start.env.symbols.namesOf ⟨start.env.scopes.size⟩ = {})
    (place : start.env.Has (.scope scope)) (simpleName : String) (owner : Option StructId) :
    let body : ScopeId := ⟨start.env.scopes.size⟩
    Filling ctx start n scope body owner []
      { start with
        env := (start.env.createScope .routine scope simpleName).modifyScope body
          ({ · with declaring := owner })
        annotations := start.annotations.setScope n body } := by
  intro body
  have fresh : ¬start.env.Has (.scope body) := Nat.lt_irrefl _
  have has : (start.env.createScope .routine scope simpleName).Has (.scope body) :=
    has_createScope.2 (.inr rfl)
  have created := get_createScope_new place .routine simpleName
  have changed : ((start.env.createScope .routine scope simpleName).scopes.modify body
      ({ · with declaring := owner })).get body = _ := ScopeTree.get_modify _ has
  rw [if_pos rfl, show (start.env.createScope .routine scope simpleName).scopes.get body = _
    from created] at changed
  have nothing : start.env.symbols.declarationsIn body = [] := by
    rw [SymbolTable.declarationsIn, blank]
  have calm := ((Calm.refl ctx start.env).createScope (by simp : ScopeKind.routine ≠ .file) scope
    simpleName).setDeclaring fresh (fun id new has => absurd has new) owner
  refine ⟨calm, fresh, (extends_setDeclaring _ _ _).has _ has, ?_, ?_, ?_, fun _ => rfl,
    fun _ _ => rfl, fun m => Annotations.scope?_setScope .., fun d hd => ?_, ?_⟩
  · exact congrArg Scope.kind changed
  · exact congrArg Scope.parent changed
  · exact congrArg Scope.declaring changed
  · change d ∈ start.env.symbols.declarationsIn body at hd
    rw [nothing] at hd
    cases hd
  · change (start.env.symbols.declarationsIn body).filterMap _ = []
    rw [nothing]
    rfl

/-- One parameter for each of several names. -/
theorem declareNames (h : Filling ctx start n scope body owner params σ) {part : NodeId}
    {names : List String} {hasDefault : Bool} (hk : ctx.tree.kind part = .parameter names hasDefault)
    {ty : Ty} {u : PUnit}
    (run : (forIn names PUnit.unit fun name _ => do
      discard (declareAt part body { name, kind := .parameter, ty })
      pure (ForInStep.yield PUnit.unit) : Collecting PUnit).run.run σ = (.ok u, τ)) :
    Filling ctx start n scope body owner (params ++ names.map fun _ => ty) τ := by
  refine forIn_induction (P := fun done _ σ =>
    Filling ctx start n scope body owner (params ++ done.map fun _ => ty) σ)
    (fun done name rest _ σ r τ _ filling run => ?_) (by simpa using h) run
  rw [discard_eq, bind_assoc] at run
  obtain ⟨d, _, declared, run⟩ := exists_of_run_bind run
  obtain ⟨rfl, rfl⟩ := eq_of_run_declareAt declared
  obtain ⟨⟨⟩, rfl⟩ := Prod.mk.inj run
  have plain : (ctx.tree.kind part).sharesDeclaration = false := by rw [hk]; rfl
  refine ⟨_, rfl, ?_⟩
  rw [List.map_append, ← List.append_assoc]
  exact (filling.declare { name, kind := .parameter, ty, node := some part, part := σ.part } rfl
    rfl).setDeclaration plain _

theorem declareParameters (h : Filling ctx start n scope body owner [] σ) {u : Unit}
    (run : (declareParameters ctx n body).run.run σ = (.ok u, τ)) :
    Filling ctx start n scope body owner (ctx.tree.recordedParams start.annotations n) τ := by
  unfold Collecting.declareParameters at run
  obtain ⟨_, _, loop, last⟩ := exists_of_run_bind run
  obtain ⟨-, rfl⟩ := Prod.mk.inj last
  rw [SyntaxTree.recordedParams]
  refine forIn_induction (P := fun done _ σ => Filling ctx start n scope body owner
    (done.flatMap _) σ) (fun done part rest _ σ r τ _ filling run => ?_) h loop
  rw [List.flatMap_append, List.flatMap_singleton]
  split at run
  · rename_i names hasDefault hk
    rw [run_get_bind] at run
    obtain ⟨_, _, declared, run⟩ := exists_of_run_bind run
    obtain ⟨⟨⟩, rfl⟩ := Prod.mk.inj run
    refine ⟨_, rfl, ?_⟩
    have same := filling.declareNames hk declared
    rw [SyntaxTree.partParams_of_parameter hk]
    simpa only [filling.types] using same
  · rename_i other
    obtain ⟨⟨⟩, rfl⟩ := Prod.mk.inj run
    refine ⟨_, rfl, ?_⟩
    rw [SyntaxTree.partParams_of_ne other, List.append_nil]
    exact filling

/-- The receiver of a method and the result of a function are no parameters. -/
theorem declareImplicit (h : Filling ctx start n scope body owner params σ)
    {declaring : Option StructId} {signature : RoutineSignature} {u : Unit}
    (run : (declareImplicit body declaring signature).run.run σ = (.ok u, τ)) :
    Filling ctx start n scope body owner params τ := by
  have var : ∀ {σ τ : CollectionState} {name : String} {ty : Ty} {u : Unit},
      Filling ctx start n scope body owner params σ →
      (discard (Collecting.declare body { name, kind := .var, ty })).run.run σ = (.ok u, τ) →
      Filling ctx start n scope body owner params τ := by
    intro σ τ name ty u filling run
    rw [discard_eq] at run
    obtain ⟨d, _, declared, run⟩ := exists_of_run_bind run
    obtain ⟨rfl, rfl⟩ := eq_of_run_declare declared
    obtain ⟨-, rfl⟩ := Prod.mk.inj run
    have filled := filling.declare { name, kind := .var, ty, part := σ.part } rfl rfl
    rwa [if_neg (by simp), List.append_nil] at filled
  have result : ∀ {σ : CollectionState}, Filling ctx start n scope body owner params σ →
      (do if (signature.kind = .function || signature.kind = .operator) &&
          !signature.result.isVoid then
        discard (Collecting.declare body
          { name := "Result", kind := .var, ty := signature.result }) :
        Collecting Unit).run.run σ = (.ok u, τ) →
      Filling ctx start n scope body owner params τ := by
    intro σ filling run
    split_ifs at run
    · exact var filling run
    · obtain ⟨-, rfl⟩ := Prod.mk.inj run
      exact filling
  unfold Collecting.declareImplicit at run
  cases declaring with
  | none => exact result h run
  | some struct =>
    obtain ⟨_, _, self, run⟩ := exists_of_run_bind run
    exact result (var h self) run

end Filling

/-- The scope of a body is new. It stands in the scope around the body, belongs to the owner of the
method, and its parameters are those that the body writes. -/
theorem run_openBody {reading : BodyReading} {declaration : Option DeclId} {body : ScopeId}
    (blank : σ.env.symbols.namesOf ⟨σ.env.scopes.size⟩ = {}) (place : σ.env.Has (.scope scope))
    (h : (openBody ctx n scope name reading declaration).run.run σ = (.ok body, τ)) :
    Filling ctx σ n scope body reading.owner (ctx.tree.recordedParams σ.annotations n) τ := by
  obtain ⟨_, _, created, h⟩ := exists_of_run_bind h
  obtain ⟨⟨⟩, rfl⟩ := Prod.mk.inj created
  obtain ⟨_, _, belongs, h⟩ := exists_of_run_bind h
  obtain ⟨-, rfl⟩ := Prod.mk.inj belongs
  obtain ⟨_, _, recorded, h⟩ := exists_of_run_bind h
  obtain ⟨-, rfl⟩ := Prod.mk.inj recorded
  obtain ⟨_, _, declared, h⟩ := exists_of_run_bind h
  have filled := (Filling.opening blank place _ reading.owner).declareParameters declared
  rw [run_getEnv_bind] at h
  obtain ⟨_, _, implicit, h⟩ := exists_of_run_bind h
  obtain ⟨⟨⟩, rfl⟩ := Prod.mk.inj h
  exact filled.declareImplicit implicit

theorem pause_seekDeclaration {reading : BodyReading} {declaration : Option DeclId}
    (h : (seekDeclaration ctx n scope name reading).run.run σ = (.ok declaration, τ)) :
    Pause ctx σ τ ∧ (τ.env = σ.env ∨ ∃ spec, τ.env = (σ.env.add scope spec).2) := by
  unfold seekDeclaration bodyDeclaration at h
  dsimp only at h
  rw [run_get_bind] at h
  split at h
  · obtain ⟨-, rfl⟩ := Prod.mk.inj h
    exact ⟨.refl ctx σ, .inl rfl⟩
  · split_ifs at h
    · obtain ⟨_, _, complained, h⟩ := exists_of_run_bind h
      obtain ⟨-, rfl⟩ := Prod.mk.inj complained
      obtain ⟨-, rfl⟩ := Prod.mk.inj h
      exact ⟨(Pause.refl ctx σ).issue _, .inl rfl⟩
    · obtain ⟨-, rfl⟩ := Prod.mk.inj h
      exact ⟨.refl ctx σ, .inl rfl⟩
    · obtain ⟨_, _, declared, h⟩ := exists_of_run_bind h
      obtain ⟨rfl, rfl⟩ := eq_of_run_declare declared
      obtain ⟨-, rfl⟩ := Prod.mk.inj h
      exact ⟨(Pause.refl ctx σ).declare scope (DeclarationSpec.unitUntyped_of_none rfl) (by simp),
        .inr ⟨_, rfl⟩⟩

/-- A routine gets a declaration of a routine with its own parameters, unless it repeats none. -/
theorem routine_of_seekDeclaration (filed : σ.env.Filed) {reading : BodyReading} {d : DeclId}
    (h : (seekDeclaration ctx n scope name reading).run.run σ = (.ok (some d), τ)) :
    τ.env.Has (.decl d) ∧ (τ.env.declaration d).kind = .routine ∧
      ((τ.env.declaration d).routine.any (·.params = reading.signature.params) = true ∨
        reading.signature.params = []) := by
  unfold seekDeclaration bodyDeclaration at h
  dsimp only at h
  rw [run_get_bind] at h
  split at h
  · rename_i linked
    obtain ⟨⟨⟩, rfl⟩ := Prod.mk.inj h
    obtain ⟨mem, isRoutine, -, params⟩ := mem_of_linkedDeclaration? linked
    exact ⟨(filed _ _ _ mem).1, of_decide_eq_true isRoutine, params.imp_right And.left⟩
  · split_ifs at h
    · obtain ⟨_, _, -, h⟩ := exists_of_run_bind h
      cases h
    · cases h
    · obtain ⟨_, _, declared, h⟩ := exists_of_run_bind h
      obtain ⟨rfl, rfl⟩ := eq_of_run_declare declared
      obtain ⟨⟨⟩, rfl⟩ := Prod.mk.inj h
      have made := (@declaration_add_new σ.env scope
        { name := (Name.splitLast name).elim name (·.2), kind := .routine
          ty := reading.signature.ty, node := some n, routine := some reading.signature
          part := σ.part }).2
      refine ⟨has_add.2 (.inr rfl), congrArg DeclarationSpec.kind made, .inl ?_⟩
      rw [show (declaration _ _).routine = _ from congrArg DeclarationSpec.routine made]
      simp

/-- What happens when a routine gets its body. -/
structure Opens (ctx : CollectionContext) (σ : CollectionState) (visit : BodyVisit)
    (body : ScopeId) (τ : CollectionState) : Prop where
  kind : (ctx.tree.kind visit.node).isBody = true
  tables : Calm ctx σ.env τ.env
  fresh : ¬σ.env.Has (.scope body)
  has : τ.env.Has (.scope body)
  scopeKind : (τ.env.scopes.get body).kind = .routine
  parent : (τ.env.scopes.get body).parent = some visit.scope
  declaring : (τ.env.scopes.get body).declaring = visit.owner?
  types : ∀ m, τ.annotations.type? m = σ.annotations.type? m
  attached : ∀ m, (ctx.tree.kind m).sharesDeclaration = true → τ.annotations.declaration? m =
    (σ.annotations.declaration? m).or (if visit.node = m then visit.declaration else none)
  opened : ∀ m, (ctx.tree.kind m).isBody = true → τ.annotations.scope? m =
    if visit.node = m then some body else σ.annotations.scope? m
  listed : ∀ d ∈ τ.env.symbols.declarationsIn body, τ.env.Has (.decl d)
  params : τ.env.paramTypes body = ctx.tree.recordedParams σ.annotations visit.node
  signature : ctx.tree.ListedOnce → visit.reading.signature.params = τ.env.paramTypes body
  routine : σ.env.Filed → ∀ d, visit.declaration = some d →
    τ.env.Has (.decl d) ∧ (τ.env.declaration d).kind = .routine ∧
      ((τ.env.declaration d).routine.any (·.params = visit.reading.signature.params) = true ∨
        visit.reading.signature.params = [])

/-- Recording that a routine has its body changes no types and no scopes. -/
theorem annotations_attachBody {declaration : Option DeclId} {u : Unit}
    (h : (attachBody n declaration).run.run σ = (.ok u, τ)) (m : NodeId) :
    τ.annotations.type? m = σ.annotations.type? m ∧
      τ.annotations.scope? m = σ.annotations.scope? m := by
  cases declaration with
  | none =>
    obtain ⟨-, rfl⟩ := Prod.mk.inj h
    exact ⟨rfl, rfl⟩
  | some id =>
    obtain ⟨-, rfl⟩ := Prod.mk.inj h
    exact ⟨rfl, rfl⟩

theorem Does.opens {visit : BodyVisit} {body : ScopeId} (h : Does ctx σ (.body visit body) τ) :
    Opens ctx σ visit body τ := by
  cases h with
  | @body arrival _ found attached _ n scope _ name kind reading declaration u implements blank place
      read params seek attach opens =>
    obtain ⟨pause, grown⟩ := pause_seekDeclaration seek
    obtain ⟨tables, -, attachments⟩ := run_attachBody attach
    have same : ∀ m, attached.annotations.type? m = σ.annotations.type? m := fun m =>
      (annotations_attachBody attach m).1.trans (pause.types m)
    have place' : attached.env.Has (.scope scope) := by
      rw [tables]
      exact pause.tables.grows.has _ place
    have blank' : attached.env.symbols.namesOf ⟨attached.env.scopes.size⟩ = {} := by
      rw [tables]
      obtain same | ⟨spec, added⟩ := grown
      · rw [same, blank]
      · have other : (⟨σ.env.scopes.size⟩ : ScopeId) ≠ scope := by
          rintro rfl
          exact Nat.lt_irrefl _ place
        simp only [added, add, SymbolTable.namesOf_add, if_neg other, blank]
    have filled := run_openBody blank' place' opens
    have owner := (run_readBody read).1
    have calm : Calm ctx σ.env attached.env := by
      rw [tables]
      exact pause.tables
    have written : τ.env.paramTypes body = ctx.tree.recordedParams σ.annotations n :=
      filled.params.trans (SyntaxTree.recordedParams_congr same n)
    constructor
    case kind => simp [implements, NodeKind.isBody]
    case tables => exact calm.trans filled.tables
    case fresh => exact fun has => filled.fresh (calm.grows.has _ has)
    case has => exact filled.has
    case scopeKind => exact filled.kind
    case parent => exact filled.parent
    case declaring => exact filled.declaring.trans owner
    case types => exact fun m => (filled.types m).trans (same m)
    case attached =>
      intro m hm
      rw [filled.attached m hm, attachments, pause.attached m hm]
    case opened =>
      intro m hm
      rw [filled.opened, (annotations_attachBody attach m).2, pause.opened m hm]
    case listed => exact filled.listed
    case params => exact written
    case signature => exact fun once => (params once).trans written.symm
    case routine =>
      rintro filed d rfl
      obtain ⟨has, routine⟩ := routine_of_seekDeclaration filed seek
      rw [← tables] at has routine
      rw [filled.tables.grows.decl d has]
      exact ⟨filled.tables.grows.has _ has, routine⟩

/-! ## What is left as it is -/

/-- Only a structured type that there is can be described. -/
theorem completeStruct_of_not_has {env : Environment} {struct : StructId}
    (h : ¬env.Has (.struct struct)) (parents : List Ty) (helped : Option Ty) :
    env.types.completeStruct struct parents helped = env.types := by
  have outside : ¬struct.index < env.types.structs.size := h
  simp [TypeTable.completeStruct, Array.modify, Array.modifyM, outside]

theorem Does.onward {deed : Deed} (h : Does ctx σ deed τ) : Onward ctx σ.env τ.env := by
  have here := Onward.refl ctx σ.env
  cases h with
  | refer => cases σ.env.namedType? _ _ <;> exact here
  | record => exact here
  | identify _ _ _ run =>
    obtain ⟨d, -, rfl⟩ | ⟨-, -, rfl⟩ := run_structIdentity run
    · exact here
    · exact (here.announce _ _ _ _).add _ (DeclarationSpec.unitUntyped_of_none rfl) (by simp)
  | declare _ run =>
    obtain ⟨-, rfl⟩ := eq_of_run_declareAt run
    exact here.add _ (DeclarationSpec.unitUntyped_of_none rfl) (by simp)
  | describe n struct parents helped =>
    by_cases has : σ.env.Has (.struct struct)
    · exact here.withTypes (extends_completeStruct parents helped has)
        (by simp [TypeTable.completeStruct])
    · rw [completeStruct_of_not_has has]
      exact here
  | body implements blank place read params seek attach opens =>
    exact (Does.body implements blank place read params seek attach opens).opens.tables.toOnward

namespace Spares

variable {marks : List NodeId} (h : Spares ctx marks σ τ)

theorem refl (ctx : CollectionContext) (marks : List NodeId) (σ : CollectionState) :
    Spares ctx marks σ σ :=
  ⟨.refl ctx σ.env, fun _ _ => rfl, fun _ _ _ => rfl, fun _ _ _ => rfl⟩

include h

theorem env {env : Environment} (onward : Onward ctx σ.env env) :
    Spares ctx marks σ { τ with env } := { h with tables := onward }

theorem issue (issue : Issue) :
    Spares ctx marks σ { τ with annotations := τ.annotations.pushIssue issue } := { h with }

theorem setType (hn : n ∈ marks) (ty : Ty) :
    Spares ctx marks σ { τ with annotations := τ.annotations.setType n ty } := by
  refine { h with types := fun m hm => ?_ }
  have other : n ≠ m := ne_of_mem_of_not_mem hn hm
  rw [Annotations.type?_setType, if_neg other, h.types m hm]

theorem setDeclaration (hn : n ∈ marks) (d : DeclId) :
    Spares ctx marks σ { τ with annotations := τ.annotations.setDeclaration n d } := by
  refine { h with attached := fun m hm hk => ?_ }
  have other : n ≠ m := ne_of_mem_of_not_mem hn hm
  rw [Annotations.declaration?_setDeclaration, if_neg other, h.attached m hm hk]

end Spares

theorem Does.spares {deed : Deed} (h : Does ctx σ deed τ) : Spares ctx deed.marks σ τ := by
  have here := Spares.refl ctx deed.marks σ
  have onward := h.onward
  cases h with
  | @refer _ n scope name =>
    have marked : n ∈ (Deed.refer n scope name).marks := List.mem_singleton_self n
    cases σ.env.namedType? scope name with
    | some ty => exact here.setType marked ty
    | none => exact (here.issue _).setType marked .unknown
  | @record _ n _ ty => exact here.setType (List.mem_singleton_self n) ty
  | @identify _ _ n type _ _ _ _ _ _ _ _ run =>
    have identified := here.setDeclaration (n := n) (by simp [Deed.marks])
    obtain ⟨d, -, rfl⟩ | ⟨-, -, rfl⟩ := run_structIdentity run
    · exact (identified d).setType (by simp [Deed.marks]) _
    · exact ((identified _).env onward).setType (by simp [Deed.marks]) _
  | declare _ run =>
    obtain ⟨-, rfl⟩ := eq_of_run_declareAt run
    exact (here.setDeclaration (List.mem_singleton_self _) _).env onward
  | describe => exact here.env onward
  | @body arrival _ _ _ _ n scope body name _ reading declaration _ implements blank place read params
      seek attach opens =>
    have opens := (Does.body implements blank place read params seek attach opens).opens
    have marked : n ∈ [n] := List.mem_singleton_self n
    refine ⟨onward, fun m _ => opens.types m, fun m hm hk => ?_, fun m hm hk => ?_⟩
    · rw [opens.attached m hk, if_neg (ne_of_mem_of_not_mem marked hm), Option.or_none]
    · rw [opens.opened m hk, if_neg (ne_of_mem_of_not_mem marked hm)]

/-- A node that no moment marks keeps what is recorded at it. -/
theorem Course.spares {moments : List Moment} (h : Course ctx σ moments τ) :
    Spares ctx (marks moments) σ τ := by
  induction h with
  | pause h => exact h.spares
  | moment before does _ ih => exact before.spares.trans (does.spares.trans ih)

/-! ## The body of a routine -/

section Bodies

variable {m : NodeId} {moments : List Moment}

/-- A routine keeps its declaration and its scope unless it gets its body. -/
theorem Does.keeps_body {deed : Deed} (h : Does ctx σ deed τ) (hm : (ctx.tree.kind m).isBody = true)
    (other : ∀ visit ∈ deed.visit?, visit.node ≠ m) :
    τ.annotations.declaration? m = σ.annotations.declaration? m ∧
      τ.annotations.scope? m = σ.annotations.scope? m := by
  have elsewhere : ∀ {n name}, ctx.tree.kind n = .typeDeclaration name → ∀ d,
      (σ.annotations.setDeclaration n d).declaration? m = σ.annotations.declaration? m := by
    intro n name hn d
    rw [Annotations.declaration?_setDeclaration, if_neg]
    rintro rfl
    simp [hn, NodeKind.isBody] at hm
  cases h with
  | refer => cases σ.env.namedType? _ _ <;> exact ⟨rfl, rfl⟩
  | record => exact ⟨rfl, rfl⟩
  | identify declares _ _ run =>
    obtain ⟨d, -, rfl⟩ | ⟨-, -, rfl⟩ := run_structIdentity run
    · exact ⟨elsewhere declares d, rfl⟩
    · exact ⟨elsewhere declares _, rfl⟩
  | declare declares run =>
    obtain ⟨-, rfl⟩ := eq_of_run_declareAt run
    exact ⟨elsewhere declares _, rfl⟩
  | describe => exact ⟨rfl, rfl⟩
  | body implements blank place read params seek attach opens =>
    have opens := (Does.body implements blank place read params seek attach opens).opens
    have hne := other _ rfl
    rw [opens.attached m (NodeKind.sharesDeclaration_of_isBody hm), opens.opened m hm, if_neg hne,
      if_neg hne, Option.or_none]
    exact ⟨rfl, rfl⟩

theorem Course.keeps_body (h : Course ctx σ moments τ) (hm : (ctx.tree.kind m).isBody = true)
    (other : ∀ visit ∈ visited moments, visit.node ≠ m) :
    τ.annotations.declaration? m = σ.annotations.declaration? m ∧
      τ.annotations.scope? m = σ.annotations.scope? m := by
  have shares := NodeKind.sharesDeclaration_of_isBody hm
  induction h with
  | pause h => exact ⟨h.attached m shares, h.opened m hm⟩
  | @moment _ _ moment rest before does _ ih =>
    rw [visited_cons, List.forall_mem_append] at other
    have later := ih other.2
    have kept := does.keeps_body hm fun visit hv => other.1 visit (Option.mem_toList.2 hv)
    exact ⟨(later.1.trans kept.1).trans (before.attached m shares),
      (later.2.trans kept.2).trans (before.opened m hm)⟩

/-- Among moments at which a routine gets its body there is a last one. -/
theorem exists_last_body (h : ∃ visit ∈ visited moments, visit.node = m) :
    ∃ earlier moment later visit body, moments = earlier ++ moment :: later ∧
      moment.deed = .body visit body ∧ visit.node = m ∧
      ∀ other ∈ visited later, other.node ≠ m := by
  induction moments with
  | nil => simp at h
  | cons moment rest ih =>
    by_cases more : ∃ visit ∈ visited rest, visit.node = m
    · obtain ⟨earlier, found, later, visit, body, rfl, split⟩ := ih more
      exact ⟨moment :: earlier, found, later, visit, body, rfl, split⟩
    · obtain ⟨visit, hvisit, node⟩ := h
      rw [visited_cons, List.mem_append, Option.mem_toList] at hvisit
      obtain hvisit | hvisit := hvisit
      · cases hd : moment.deed with
        | body other body =>
          rw [hd] at hvisit
          cases hvisit
          exact ⟨[], moment, rest, _, body, rfl, hd, node, fun other hother hnode =>
            more ⟨other, hother, hnode⟩⟩
        | _ => simp [hd, Deed.visit?] at hvisit
      · exact absurd ⟨visit, hvisit, node⟩ more

end Bodies

end Collecting

end Pascal
