import Pascal.Proofs.Collection.Stretches
import Pascal.Proofs.Collection.Unit

/-!
# How a collection unfolds

A collection that succeeds follows a course: what it does at a node marks only nodes at or below it,
each of them once where the tree lists every node once, and a structured type that gets its identity
where its members are written is described later on.

## Main results

- `Collecting.unfolds_signature`: the parameters of a routine are those that are recorded at its parts.
- `Collecting.unfolds_typeSection`: the three steps of a section of types.
- `Collecting.unfolds_types`: types and structured types at a node.
- `Collecting.unfolds_unit`: the collection of a whole unit.
-/

namespace Pascal

open SyntaxTree

namespace Collecting

variable {ctx : CollectionContext} {σ mid τ : CollectionState} {n : NodeId} {scope : ScopeId}

/-! ## Steps without note -/

section Rest

theorem rests_issue (n : NodeId) (kind : IssueKind) : Rests ctx (issue ctx n kind) := by
  rintro σ _ _ ⟨⟩
  exact (Pause.refl ctx σ).issue _

theorem rests_declareAt (hn : (ctx.tree.kind n).sharesDeclaration = false) (scope : ScopeId)
    {spec : DeclarationSpec} (unit : spec.UnitUntyped)
    (kind : spec.kind ≠ .type ∧ spec.kind ≠ .parameter) : Rests ctx (declareAt n scope spec) := by
  intro σ d τ ran
  obtain ⟨-, rfl⟩ := eq_of_run_declareAt ran
  have declared : Pause ctx σ
      { σ with env := (σ.env.add scope { spec with node := some n, part := σ.part }).2 } :=
    (Pause.refl ctx σ).declare scope unit kind
  exact declared.setDeclaration hn _

/-- One declaration for each of several names. -/
theorem rests_declareNames (hn : (ctx.tree.kind n).sharesDeclaration = false) (scope : ScopeId)
    (names : List String) {kind : DeclarationKind} (hk : kind ≠ .type ∧ kind ≠ .parameter) (ty : Ty) :
    Rests ctx (ForIn.forIn names PUnit.unit fun name _ => do
      discard (declareAt n scope { name, kind, ty })
      Pure.pure (ForInStep.yield PUnit.unit)) :=
  .each fun _ _ => (rests_declareAt hn scope (DeclarationSpec.unitUntyped_of_none rfl) hk).discard.next

theorem rests_constantType (n : NodeId) (scope : ScopeId) : Rests ctx (constantType ctx n scope) := by
  intro σ ty τ ran
  unfold constantType at ran
  rw [run_get_bind] at ran
  obtain ⟨_, _, noted, ran⟩ := exists_of_run_bind ran
  obtain ⟨-, rfl⟩ := Prod.mk.inj noted
  split at ran
  · cases ran
  · obtain ⟨-, rfl⟩ := Prod.mk.inj ran
    exact { Pause.refl ctx σ with }

theorem rests_declareStruct (name : String) (kind : StructKind) (scope : ScopeId) (forward : Bool) :
    Rests ctx (declareStruct name kind scope forward) := by
  intro σ struct τ ran
  rw [run_declareStruct] at ran
  obtain ⟨-, rfl⟩ := Prod.mk.inj ran
  exact (Pause.refl ctx σ).env ((Calm.refl ctx σ.env).announce name kind scope forward)

theorem rests_declareEnum (name : String) (scope : ScopeId) : Rests ctx (declareEnum name scope) := by
  intro σ enum τ ran
  obtain ⟨-, rfl⟩ := Prod.mk.inj ran
  have created := (Calm.refl ctx σ.env).createScope (by simp : ScopeKind.enum ≠ .file) scope name
  exact (Pause.refl ctx σ).env
    (created.withTypes (Environment.extends_declareEnum _ name ⟨σ.env.scopes.size⟩) rfl)

theorem rests_addElement (enum : EnumId) (name : String) : Rests ctx
    (updateEnv fun env => { env with types := env.types.addElement enum name }) := by
  intro σ u τ ran
  obtain ⟨-, rfl⟩ := Prod.mk.inj ran
  exact (Pause.refl ctx σ).env
    ((Calm.refl ctx σ.env).withTypes (Environment.extends_addElement _ enum name) rfl)

theorem rests_registerHelper (scope : ScopeId) (target : Ty) (struct : StructId) : Rests ctx
    (updateEnv fun env => { env with scopes := env.scopes.registerHelper scope target struct }) := by
  intro σ u τ ran
  obtain ⟨-, rfl⟩ := Prod.mk.inj ran
  exact (Pause.refl ctx σ).env ((Calm.refl ctx σ.env).modifyScope scope
    (.adapt scope Scope.declaring _) (Environment.extends_registerHelper _ scope target struct)
    fun _ => rfl)

theorem rests_setScope (hn : (ctx.tree.kind n).isBody = false) (scope : ScopeId) :
    Rests ctx (annotate (·.setScope n scope)) := by
  intro σ u τ ran
  obtain ⟨-, rfl⟩ := Prod.mk.inj ran
  exact (Pause.refl ctx σ).setScope hn scope

theorem rests_importUnit (hn : (ctx.tree.kind n).sharesDeclaration = false) (name : String) :
    Rests ctx (importUnit ctx n name) := by
  unfold importUnit
  split
  · rename_i unit known
    refine .bind ?_ fun _ => .discard ?_
    · intro σ u τ ran
      obtain ⟨-, rfl⟩ := Prod.mk.inj ran
      exact (Pause.refl ctx σ).env ((Calm.refl ctx σ.env).modifyScope ctx.file
        (.use unit ⟨name, known⟩) (Environment.extends_modifyScope _ _ (fun _ => rfl) (fun _ => rfl)
          fun _ => List.prefix_append _ _) fun _ => rfl)
    · exact rests_declareAt hn ctx.file (fun _ => ⟨.inr rfl, rfl⟩) (by simp)
  · exact .pure _

theorem rests_usesClause (n : NodeId) : Rests ctx (usesClause ctx n) := by
  refine .bind (.each fun reference _ => ?_) fun _ => .pure _
  split
  · rename_i name hk
    have plain : (ctx.tree.kind reference).sharesDeclaration = false := by rw [hk]; rfl
    split_ifs
    · exact (rests_importUnit plain name).next
    · exact (rests_issue _ _).next
  · exact .bind (.malformed _) fun _ => .pure _

end Rest

/-! ## Types -/

section Types

variable {resolve : Below n → ScopeId → Collecting Ty} {body : Below n → StructId → Collecting Unit}

/-- What is asked of the types below a node: their stretches stay there, and record them. -/
def Resolves (ctx : CollectionContext) {n : NodeId} (resolve : Below n → ScopeId → Collecting Ty) :
    Prop :=
  ∀ b scope σ ty τ, (resolve b scope).run.run σ = (.ok ty, τ) →
    Unfolds ctx (ctx.tree.under b.1) [] σ τ ∧ τ.annotations.type? b.1 = some ty

/-- In a stretch below a node, a structured type is described at the node. -/
def Described (ctx : CollectionContext) (n : NodeId) (struct : StructId) (σ τ : CollectionState) :
    Prop :=
  ∃ moments, Story ctx (ctx.tree.inside n) σ moments τ ∧ Fulfils [] moments ∧
    visited moments = [] ∧ ∃ moment ∈ moments, moment.deed = .describe n struct

/-- What is asked of the structured types described below a node. -/
def Describes (ctx : CollectionContext) {n : NodeId}
    (body : Below n → StructId → Collecting Unit) : Prop :=
  ∀ b struct σ u τ, (ctx.tree.kind b.1).isBody = false →
    (body b struct).run.run σ = (.ok u, τ) → Described ctx b.1 struct σ τ

theorem Described.unfolds {struct : StructId} (h : Described ctx n struct σ τ) :
    Unfolds ctx (ctx.tree.inside n) [] σ τ := by
  obtain ⟨moments, story, fulfils, silent, -⟩ := h
  exact ⟨moments, story, fulfils, silent⟩

theorem Resolves.lift (h : Resolves ctx resolve) (part : Below n) :
    Resolves ctx fun (inner : Below part.1) scope => resolve (part.lift inner) scope :=
  fun b => h (part.lift b)

theorem Resolves.stays (h : Resolves ctx resolve) (b : Below n) (scope : ScopeId) :
    Stays ctx (ctx.tree.under b.1) (resolve b scope) :=
  fun σ ty τ ran => (h b scope σ ty τ ran).1

/-- The type of a child of a child. -/
theorem Resolves.stays_part (h : Resolves ctx resolve) {part : Below n} {type : Below part.1}
    {index : Nat} (hc : ctx.tree.child? part.1 index = some type) (scope : ScopeId) :
    Stays ctx (ctx.tree.under part.1) (resolve (part.lift type) scope) :=
  (h.stays (part.lift type) scope).mono
    (under_subset (mem_childIds (mem_children_of_child? hc)))

/-- Whether a child of a routine tells what it takes or gives. -/
def isSignature : NodeKind → Prop
  | .parameter _ _ | .returnType => True
  | _ => False

theorem not_isLocal_of_isSignature {kind : NodeKind} (signs : isSignature kind) :
    ¬isLocal kind = true := by
  unfold isSignature at signs
  split at signs
  · exact Bool.false_ne_true
  · exact Bool.false_ne_true
  · exact signs.elim

/-- Whether a child of a structured type tells what it is derived from or helps. -/
def isHeritage : NodeKind → Prop
  | .ancestorList | .helperTarget => True
  | _ => False

/-- The parameters so far are those that are recorded at the parts so far. -/
def Recorded (ctx : CollectionContext) (done : List (Below n)) (params : List Ty)
    (σ : CollectionState) : Prop :=
  ctx.tree.ListedOnce → params = done.flatMap fun c => ctx.tree.partParams σ.annotations c.1

/-- What is read at a part leaves the parts before it as they are. -/
theorem Recorded.next {done rest : List (Below n)} {part : Below n} {params params' : List Ty}
    (h : Recorded ctx done params σ) (hl : ctx.tree.children n = done ++ part :: rest)
    (unfolds : Unfolds ctx (ctx.tree.part isSignature part) [] σ τ)
    (hparams : params' = params ++ ctx.tree.partParams τ.annotations part.1) :
    Recorded ctx (done ++ [part]) params' τ := by
  intro listed
  rw [List.flatMap_append, List.flatMap_singleton]
  refine hparams.trans (congrArg (· ++ _) ((h listed).trans ?_))
  refine List.flatMap_congr fun c hc => (partParams_congr fun type htype => ?_).symm
  have pairwise := listed.pairwise_children n
  rw [hl, List.pairwise_append] at pairwise
  have apart := pairwise.2.2 c hc part List.mem_cons_self
  have inside := under_subset
    (mem_childIds (mem_children_of_child? htype))
    (mem_under_self ctx.tree type.1)
  exact unfolds.type?_eq fun hm =>
    Set.disjoint_left.1 apart inside (part_subset part hm)

/-- The parameters of a signature are those that are recorded at its parts. -/
theorem unfolds_signature (h : Resolves ctx resolve) {kind : RoutineKind}
    {declaring : Option StructId} {read : RoutineSignature}
    (ran : (signature ctx resolve scope kind declaring).run.run σ = (.ok read, τ)) :
    Unfolds ctx (ctx.tree.among n isSignature) [] σ τ ∧
      (ctx.tree.ListedOnce → read.params = ctx.tree.recordedParams τ.annotations n) := by
  let region : Below n → Set NodeId := ctx.tree.part isSignature
  unfold signature at ran
  obtain ⟨⟨params, required, result⟩, last, loop, ran⟩ := exists_of_run_bind ran
  have params_eq : read.params = params ∧ τ = last := by
    split at ran
    all_goals
      obtain ⟨⟨⟩, rfl⟩ := Prod.mk.inj ran
      exact ⟨rfl, rfl⟩
  obtain ⟨hparams, rfl⟩ := params_eq
  have told := Unfolds.forIn region (P := fun done b σ => Recorded ctx done b.1 σ)
    (fun listed => listed.pairwise_part isSignature n)
    (fun done part rest b σ r τ hl recorded ran => ?_) (fun _ => rfl) loop
  · obtain ⟨unfolds, recorded⟩ := told
    refine ⟨unfolds.mono iUnion_part_subset, fun listed => ?_⟩
    rw [hparams, recordedParams, ← map_val_children, List.flatMap_map]
    exact recorded listed
  · have nothing : Unfolds ctx (region part) [] σ σ := .of_pause (.refl ctx σ)
    dsimp only at ran
    split at ran
    · rename_i names hasDefault hk
      have written : ctx.tree.under part.1 ⊆ region part := fun m hm => ⟨by rw [hk]; trivial, hm⟩
      cases hc : ctx.tree.child? part.1 0 with
      | some type =>
        simp only [hc] at ran
        obtain ⟨ty, mid, resolved, ran⟩ := exists_of_run_bind ran
        obtain ⟨⟨⟩, rfl⟩ := Prod.mk.inj ran
        have unfolds := (h.stays_part hc scope _ _ _ resolved).mono written
        have typed : mid.annotations.type? type.1 = some ty := (h _ _ _ _ _ resolved).2
        refine ⟨_, rfl, unfolds, recorded.next hl unfolds ?_⟩
        simp [addParams, partParams, hk, hc, typed]
      | none =>
        simp only [hc] at ran
        obtain ⟨⟨⟩, rfl⟩ := Prod.mk.inj ran
        refine ⟨_, rfl, nothing, recorded.next hl nothing ?_⟩
        simp [addParams, partParams, hk, hc]
    · rename_i hk
      have written : ctx.tree.under part.1 ⊆ region part := fun m hm => ⟨by rw [hk]; trivial, hm⟩
      obtain ⟨type, _, found, typed⟩ := exists_of_run_bind ran
      obtain ⟨hc, rfl⟩ := eq_of_run_child found
      obtain ⟨ty, mid, resolved, last⟩ := exists_of_run_bind typed
      obtain ⟨⟨⟩, rfl⟩ := Prod.mk.inj last
      have unfolds := (h.stays_part hc scope _ _ _ resolved).mono written
      refine ⟨_, rfl, unfolds, recorded.next hl unfolds ?_⟩
      rw [partParams_of_ne (by simp [hk]), List.append_nil]
    · rename_i other _
      obtain ⟨⟨⟩, rfl⟩ := Prod.mk.inj ran
      refine ⟨_, rfl, nothing, recorded.next hl nothing ?_⟩
      rw [partParams_of_ne other, List.append_nil]

theorem stays_routineDeclaration (h : Resolves ctx resolve)
    (hn : (ctx.tree.kind n).sharesDeclaration = false) (name : String) (kind : RoutineKind)
    (scope : ScopeId) (declaring : Option StructId) :
    Stays ctx (ctx.tree.inside n) (routineDeclaration ctx name kind resolve scope declaring) := by
  refine Stays.bind_pause (fun σ read τ ran => ?_) fun read =>
    (rests_declareAt hn scope (DeclarationSpec.unitUntyped_of_none rfl) (by simp)).discard
  exact (unfolds_signature h ran).1.mono among_subset_inside

theorem stays_varSection (h : Resolves ctx resolve) (scope : ScopeId) {kind : DeclarationKind}
    (plain : kind ≠ .type ∧ kind ≠ .parameter) :
    Stays ctx (ctx.tree.inside n) (varSection ctx resolve scope kind) := by
  refine Stays.bind_pause (Stays.eachInside (fun c hc _ => ?_) _) fun _ => .pure _
  split
  · rename_i names hk
    have own : (ctx.tree.kind c.1).sharesDeclaration = false := by rw [hk]; rfl
    refine Stays.child fun type hc => (h.stays_part hc scope).bind_pause fun ty => ?_
    exact (rests_declareNames own scope names plain ty).next
  · exact ((Rests.malformed _).bind fun _ => .pure _).stays

theorem stays_constSection (h : Resolves ctx resolve) (scope : ScopeId) :
    Stays ctx (ctx.tree.inside n) (constSection ctx resolve scope) := by
  refine Stays.bind_pause (Stays.eachInside (fun c hc _ => ?_) _) fun _ => .pure _
  split
  · rename_i name typed hk
    have own : (ctx.tree.kind c.1).sharesDeclaration = false := by rw [hk]; rfl
    have declared : ∀ ty, Rests ctx (do
        discard (declareAt c.1 scope { name, kind := .constant, ty })
        Pure.pure (ForInStep.yield PUnit.unit)) := fun ty =>
      (rests_declareAt own scope (DeclarationSpec.unitUntyped_of_none rfl) (by simp)).discard.next
    refine Stays.child fun first hc => ?_
    split
    · exact (h.stays_part hc scope).bind_pause declared
    · exact ((rests_constantType first.1 scope).bind declared).stays
  · exact ((Rests.malformed _).bind fun _ => .pure _).stays

theorem stays_heritage (h : Resolves ctx resolve) (enclosing : ScopeId) :
    Stays ctx (ctx.tree.among n isHeritage) (heritage ctx resolve enclosing) := by
  refine Stays.bind_pause (Stays.eachChild (fun c hc _ _ => ?_) (fun c hc hk _ => ?_) _)
    fun _ => .pure _
  · dsimp only
    split
    · refine Stays.bind_pause (Stays.mono (Stays.eachInside (fun ancestor hc _ => ?_) _)
        inside_subset_under) fun _ => .pure _
      exact (h.stays (c.lift ancestor) enclosing).bind_pause fun _ => .pure _
    · exact Stays.child fun type hc => (h.stays_part hc enclosing).bind_pause fun _ => .pure _
    · exact (Rests.pure _).stays
  · dsimp only
    split
    · rename_i heq
      exact absurd (by rw [heq]; trivial) hk
    · rename_i heq
      exact absurd (by rw [heq]; trivial) hk
    · exact .pure _

theorem stays_otherType (h : Resolves ctx resolve) (scope : ScopeId) {declaration : NodeId}
    {name : String} (hk : ctx.tree.kind declaration = .typeDeclaration name) {type : Below n}
    (hc : (ctx.tree.childIds declaration)[0]? = some type.1) :
    Stays ctx (ctx.tree.under declaration) (otherType ctx resolve scope declaration name type) := by
  intro σ u τ ran
  obtain ⟨ty, mid, resolved, ran⟩ := exists_of_run_bind ran
  rw [discard_eq] at ran
  obtain ⟨d, _, declared, last⟩ := exists_of_run_bind ran
  obtain ⟨-, rfl⟩ := Prod.mk.inj last
  have below := under_subset_inside (List.mem_of_getElem? hc)
  exact ((h _ _ _ _ _ resolved).1.mono below).own (.declare hk declared) rfl rfl

theorem rests_elements (n : NodeId) (scope members : ScopeId) (enum : EnumId) :
    Rests ctx (ForIn.forIn (ctx.tree.childIds n) PUnit.unit fun element _ =>
      match ctx.tree.kind element with
      | .enumElement name => do
        updateEnv fun env => { env with types := env.types.addElement enum name }
        discard <| declareAt element scope { name, kind := .enumElement, ty := .enum enum }
        discard <| declareAt element members { name, kind := .enumElement, ty := .enum enum }
        Pure.pure (ForInStep.yield PUnit.unit)
      | _ => do
        malformed (ctx.tree.unexpected element "enum_element")
        Pure.pure (ForInStep.yield PUnit.unit)) := by
  refine .each fun element _ => ?_
  split
  · rename_i name hk
    have own : (ctx.tree.kind element).sharesDeclaration = false := by rw [hk]; rfl
    have declared : ∀ scope, Rests ctx
        (discard (declareAt element scope { name, kind := .enumElement, ty := .enum enum })) :=
      fun scope => (rests_declareAt own scope (DeclarationSpec.unitUntyped_of_none rfl)
        (by simp)).discard
    exact (rests_addElement enum name).bind fun _ => (declared scope).bind fun _ =>
      (declared members).next
  · exact (Rests.malformed _).bind fun _ => .pure _

/-- An enumeration is recorded at its node. -/
theorem unfolds_enumeration (hk : ctx.tree.kind n = .enumType) {name : String} {ty : Ty}
    (ran : (enumeration ctx scope name n).run.run σ = (.ok ty, τ)) :
    (∃ made noted, Story ctx {n} σ [⟨made, .record n ty, noted⟩] τ) ∧
      τ.annotations.type? n = some ty := by
  have plain : (ctx.tree.kind n).isBody = false := by rw [hk]; rfl
  obtain ⟨enum, made, declared, ran⟩ := exists_of_run_bind ran
  rw [run_getEnv_bind] at ran
  obtain ⟨_, _, annotated, ran⟩ := exists_of_run_bind ran
  obtain ⟨-, rfl⟩ := Prod.mk.inj annotated
  obtain ⟨_, last, loop, ran⟩ := exists_of_run_bind ran
  obtain ⟨⟨⟩, rfl⟩ := Prod.mk.inj ran
  let noted : CollectionState :=
    { made with annotations := made.annotations.setType n (.enum enum) }
  have before : Pause ctx σ made := rests_declareEnum name scope _ _ _ declared
  have recorded : Does ctx made (.record n (.enum enum)) noted := .record (by simp [hk]) _
  have opened : Pause ctx noted last := ((Pause.refl ctx noted).setScope plain _).trans
    (rests_elements n scope _ enum _ _ _ loop)
  refine ⟨⟨made, noted, ((Story.of_does recorded (by simp [Deed.marks])
    (by simp [Deed.marks])).pause_left before).pause_right opened⟩, ?_⟩
  rw [opened.types, Annotations.type?_setType, if_pos rfl]

/-! ### Sections of types -/

/-- The structured types of a section, with their identities, and the types that are neither
structured nor enumerations. -/
abbrev Found (n : NodeId) : Type :=
  Array (Below n × StructId) × Array (NodeId × String × Below n)

/-- The first step of a section at one declaration. -/
def typeHead (ctx : CollectionContext) (scope : ScopeId) (declaration : Below n) (found : Found n) :
    Collecting (ForInStep (Found n)) := do
  match ctx.tree.kind declaration.1 with
  | .typeDeclaration name =>
    let type := declaration.lift (← child ctx declaration.1 0)
    match ctx.tree.kind type.1 with
    | .structType kind =>
      let struct ← structIdentity scope name kind declaration.1 false
      annotate (·.setType type.1 (.struct struct))
      pure (.yield (found.1.push (type, struct), found.2))
    | .forwardStructType kind =>
      let struct ← structIdentity scope name kind declaration.1 true
      annotate (·.setType type.1 (.struct struct))
      pure (.yield found)
    | .enumType =>
      let ty ← enumeration ctx scope name type.1
      discard <| declareAt declaration.1 scope { name, kind := .type, ty }
      pure (.yield found)
    | _ => pure (.yield (found.1, found.2.push (declaration.1, name, type)))
  | _ =>
    malformed (ctx.tree.unexpected declaration.1 "type_declaration")
    pure (.yield found)

theorem typeSection_eq : typeSection ctx resolve body scope = (do
    let found ← forIn (ctx.tree.children n) (#[], #[]) (typeHead ctx scope)
    for other in found.2.toList do
      otherType ctx resolve scope other.1 other.2.1 other.2.2
    for entry in found.1.toList do
      body entry.1 entry.2) := by
  unfold typeSection
  simp only [← Array.forIn_toList]
  rfl

/-- The structured type that a declaration describes. -/
def structOf? (tree : SyntaxTree) (c : Below n) : Option (Below n) :=
  (tree.child? c.1 0).bind fun type =>
    match tree.kind type.1 with
    | .structType _ => some (c.lift type)
    | _ => none

/-- A declaration of a type that is neither structured nor an enumeration, with its name and the
node of the type. -/
def otherOf? (tree : SyntaxTree) (c : Below n) : Option (NodeId × String × Below n) :=
  match tree.kind c.1 with
  | .typeDeclaration name => (tree.child? c.1 0).bind fun type =>
    match tree.kind type.1 with
    | .structType _ | .forwardStructType _ | .enumType => none
    | _ => some (c.1, name, c.lift type)
  | _ => none

theorem of_structOf? {tree : SyntaxTree} {c type : Below n} (h : structOf? tree c = some type) :
    (tree.childIds c.1)[0]? = some type.1 ∧ (tree.kind type.1).isBody = false ∧
      otherOf? tree c = none := by
  obtain ⟨first, hc, h⟩ := Option.bind_eq_some_iff.1 h
  split at h
  · cases h
    rename_i hk
    refine ⟨by rw [← val_child?, hc]; rfl, by simp [Below.lift, hk, NodeKind.isBody], ?_⟩
    simp only [otherOf?, hc, Option.bind_some, hk]
    split <;> rfl
  · cases h

theorem inside_subset_of_structOf? {tree : SyntaxTree} {c type : Below n}
    (h : structOf? tree c = some type) : tree.inside type.1 ⊆ tree.under c.1 :=
  inside_subset_under.trans
    (under_subset (List.mem_of_getElem? (of_structOf? h).1))

theorem of_otherOf? {tree : SyntaxTree} {c : Below n} {other : NodeId × String × Below n}
    (h : otherOf? tree c = some other) : other.1 = c.1 ∧
      tree.kind other.1 = .typeDeclaration other.2.1 ∧
      (tree.childIds other.1)[0]? = some other.2.2.1 := by
  unfold otherOf? at h
  split at h
  · rename_i name hk
    obtain ⟨first, hc, h⟩ := Option.bind_eq_some_iff.1 h
    split at h
    · cases h
    · cases h
    · cases h
    · cases h
      exact ⟨rfl, hk, by rw [← val_child?, hc]; rfl⟩
  · cases h

/-- The nodes that the first step marks at one declaration. -/
def heads (tree : SyntaxTree) (c : Below n) : Set NodeId :=
  { m | otherOf? tree c = none ∧ (m = c.1 ∨ (tree.childIds c.1)[0]? = some m) }

/-- What is found when the first step has gone over some declarations; `moments` are its moments. -/
structure Headed (tree : SyntaxTree) (done : List (Below n)) (found : Found n)
    (moments : List Moment) : Prop where
  structs : found.1.toList.map (·.1) = done.filterMap (structOf? tree)
  others : found.2.toList = done.filterMap (otherOf? tree)
  /-- What is left to be described is among the structured types that are found. -/
  promised : ∀ moment ∈ moments, ∀ promise ∈ moment.deed.promises?,
    ∃ entry ∈ found.1.toList, (entry.1.1, entry.2) = promise
  silent : visited moments = []

/-- What the first step finds at one more declaration. -/
theorem Headed.next {tree : SyntaxTree} {done : List (Below n)} {found found' : Found n}
    {moments new : List Moment} (h : Headed tree done found moments) {c : Below n}
    (structs : List (Below n × StructId)) (struct : found'.1.toList = found.1.toList ++ structs)
    (is : structs.map (·.1) = [c].filterMap (structOf? tree))
    (other : found'.2.toList = found.2.toList ++ [c].filterMap (otherOf? tree))
    (promised : ∀ moment ∈ new, ∀ promise ∈ moment.deed.promises?,
      ∃ entry ∈ structs, (entry.1.1, entry.2) = promise) (silent : visited new = []) :
    Headed tree (done ++ [c]) found' (moments ++ new) where
  structs := by rw [struct, List.map_append, h.structs, is, List.filterMap_append]
  others := by rw [other, h.others, List.filterMap_append]
  promised := by
    rw [struct]
    refine List.forall_mem_append.2 ⟨fun moment hm promise hp => ?_, fun moment hm promise hp => ?_⟩
    · obtain ⟨entry, hentry, same⟩ := h.promised moment hm promise hp
      exact ⟨entry, List.mem_append_left _ hentry, same⟩
    · obtain ⟨entry, hentry, same⟩ := promised moment hm promise hp
      exact ⟨entry, List.mem_append_right _ hentry, same⟩
  silent := by rw [visited_append, h.silent, silent, List.append_nil]

section Head

variable {c : Below n} {type : NodeId} {name : String}
  (hk : ctx.tree.kind c.1 = .typeDeclaration name)
  (first : (ctx.tree.childIds c.1)[0]? = some type) (other : otherOf? ctx.tree c = none)
include hk first other

/-- A structured type that is announced or described gets its identity. -/
theorem story_identity {kind : StructKind} {announces : Bool} {α : Type} {f : StructId → α} {a : α}
    (ran : (do
      let struct ← structIdentity scope name kind c.1 announces
      annotate (·.setType type (.struct struct))
      pure (f struct) : Collecting α).run.run σ = (.ok a, τ))
    (written : ctx.tree.kind type =
      if announces then .forwardStructType kind else .structType kind) :
    ∃ struct, a = f struct ∧ Story ctx (heads ctx.tree c) σ
      [⟨σ, .identify c.1 type scope name announces struct, τ⟩] τ := by
  obtain ⟨struct, _, identity, ran⟩ := exists_of_run_bind ran
  obtain ⟨_, _, annotated, ran⟩ := exists_of_run_bind ran
  obtain ⟨-, rfl⟩ := Prod.mk.inj annotated
  obtain ⟨⟨⟩, rfl⟩ := Prod.mk.inj ran
  refine ⟨struct, rfl, .of_does (.identify hk first written identity) ?_ ?_⟩
  · simp [Deed.marks, heads, other, first]
  · have below := ctx.tree.lt_of_mem_childIds (List.mem_of_getElem? first)
    simpa [Deed.marks] using fun same : c.1 = type => Nat.lt_irrefl _ (same ▸ below)

/-- An enumeration is recorded, and then declared. -/
theorem story_enumeration (written : ctx.tree.kind type = .enumType) {α : Type} {a b : α}
    (ran : (do
      let ty ← enumeration ctx scope name type
      discard <| declareAt c.1 scope { name, kind := .type, ty }
      pure a : Collecting α).run.run σ = (.ok b, τ)) :
    b = a ∧ ∃ moments, Story ctx (heads ctx.tree c) σ moments τ ∧
      (∀ moment ∈ moments, moment.deed.promises? = none) ∧ visited moments = [] := by
  obtain ⟨ty, mid, made, ran⟩ := exists_of_run_bind ran
  rw [discard_eq, bind_assoc] at ran
  obtain ⟨d, _, declared, ran⟩ := exists_of_run_bind ran
  obtain ⟨⟨⟩, rfl⟩ := Prod.mk.inj ran
  obtain ⟨⟨_, _, story⟩, -⟩ := unfolds_enumeration written made
  have own : Story ctx {c.1} mid _ _ :=
    .of_does (.declare hk declared) (by simp [Deed.marks]) (by simp [Deed.marks])
  have below := ctx.tree.lt_of_mem_childIds (List.mem_of_getElem? first)
  refine ⟨rfl, _, (story.trans own fun _ => ?_).mono ?_, by simp [Deed.promises?], rfl⟩
  · exact Set.disjoint_singleton.2 fun same => Nat.lt_irrefl _ (same ▸ below)
  · rintro m (rfl | rfl)
    · exact ⟨other, .inr first⟩
    · exact ⟨other, .inl rfl⟩

end Head

theorem unfolds_typeHead {c : Below n} {done : List (Below n)} {found : Found n}
    {moments : List Moment} {r : ForInStep (Found n)} (headed : Headed ctx.tree done found moments)
    (ran : (typeHead ctx scope c found).run.run σ = (.ok r, τ)) :
    ∃ found' new, r = .yield found' ∧ Story ctx (heads ctx.tree c) σ new τ ∧
      Headed ctx.tree (done ++ [c]) found' (moments ++ new) := by
  unfold typeHead at ran
  split at ran
  · rename_i name hk
    obtain ⟨type, _, first, typed⟩ := exists_of_run_bind ran
    obtain ⟨hc, rfl⟩ := eq_of_run_child first
    have listed : (ctx.tree.childIds c.1)[0]? = some type.1 := by
      rw [← val_child?, hc]
      rfl
    dsimp only at typed
    split at typed
    · rename_i kind written
      replace written : ctx.tree.kind type.1 = .structType kind := written
      have other : otherOf? ctx.tree c = none := by simp [otherOf?, hk, hc, written]
      have struct : structOf? ctx.tree c = some (c.lift type) := by simp [structOf?, hc, written]
      obtain ⟨id, rfl, story⟩ := story_identity hk listed other typed written
      exact ⟨_, _, rfl, story, headed.next [(c.lift type, id)] (by simp) (by simp [struct])
        (by simp [other]) (by simp [Deed.promises?, Below.lift]) rfl⟩
    · rename_i kind written
      replace written : ctx.tree.kind type.1 = .forwardStructType kind := written
      have other : otherOf? ctx.tree c = none := by simp [otherOf?, hk, hc, written]
      have struct : structOf? ctx.tree c = none := by simp [structOf?, hc, written]
      obtain ⟨id, rfl, story⟩ := story_identity hk listed other typed written
      exact ⟨_, _, rfl, story, headed.next [] (by simp) (by simp [struct])
        (by simp [other]) (by simp [Deed.promises?]) rfl⟩
    · rename_i written
      replace written : ctx.tree.kind type.1 = .enumType := written
      have other : otherOf? ctx.tree c = none := by simp [otherOf?, hk, hc, written]
      have struct : structOf? ctx.tree c = none := by simp [structOf?, hc, written]
      obtain ⟨rfl, new, story, settled, silent⟩ := story_enumeration hk listed other written typed
      refine ⟨_, new, rfl, story, headed.next [] (by simp) (by simp [struct])
        (by simp [other]) (fun moment hm promise hp => ?_) silent⟩
      simp [settled moment hm] at hp
    · rename_i plain announced enum
      have other : otherOf? ctx.tree c = some (c.1, name, c.lift type) := by
        simp only [otherOf?, hk, hc, Option.bind_some]
        split
        · exact absurd ‹_› (plain _)
        · exact absurd ‹_› (announced _)
        · exact absurd ‹_› enum
        · rfl
      have struct : structOf? ctx.tree c = none := by
        simp only [structOf?, hc, Option.bind_some]
        split
        · exact absurd ‹_› (plain _)
        · rfl
      obtain ⟨⟨⟩, rfl⟩ := Prod.mk.inj typed
      exact ⟨_, [], rfl, .of_pause (.refl ctx _), headed.next [] (by simp)
        (by simp [struct]) (by simp [other]) (by simp) rfl⟩
  · obtain ⟨_, _, failed, -⟩ := exists_of_run_bind ran
    cases failed

theorem heads_subset {tree : SyntaxTree} (c : Below n) : heads tree c ⊆ tree.under c.1 := by
  rintro m ⟨-, rfl | first⟩
  · exact mem_under_self tree _
  · exact under_subset (List.mem_of_getElem? first) (mem_under_self tree m)

section Steps

variable {found : Found n}

theorem exists_structOf? {entry : Below n × StructId}
    (structs : found.1.toList.map (·.1) = (ctx.tree.children n).filterMap (structOf? ctx.tree))
    (h : entry ∈ found.1.toList) :
    ∃ c ∈ ctx.tree.children n, structOf? ctx.tree c = some entry.1 := by
  have mem := List.mem_map_of_mem (f := Prod.fst) h
  rw [structs] at mem
  exact List.mem_filterMap.1 mem

theorem stays_otherTypes (h : Resolves ctx resolve) (scope : ScopeId)
    (others : found.2.toList = (ctx.tree.children n).filterMap (otherOf? ctx.tree)) :
    Stays ctx (⋃ other ∈ found.2.toList, ctx.tree.under other.1)
      (forIn found.2.toList PUnit.unit fun other _ => do
        otherType ctx resolve scope other.1 other.2.1 other.2.2
        pure (ForInStep.yield PUnit.unit)) := by
  refine Stays.each (fun other : NodeId × String × Below n => ctx.tree.under other.1)
    (fun listed => ?_) (fun other hother _ => ?_) _
  · rw [others, List.pairwise_filterMap]
    refine (listed.pairwise_children n).imp fun apart other hother other' hother' => ?_
    rw [(of_otherOf? hother).1, (of_otherOf? hother').1]
    exact apart
  · rw [others] at hother
    obtain ⟨c, -, hc⟩ := List.mem_filterMap.1 hother
    obtain ⟨-, hk, first⟩ := of_otherOf? hc
    exact (stays_otherType h scope hk first).bind_pause fun _ => .pure _

theorem story_bodies (hb : Describes ctx body) {u : PUnit}
    (structs : found.1.toList.map (·.1) = (ctx.tree.children n).filterMap (structOf? ctx.tree))
    (ran : (forIn found.1.toList PUnit.unit fun entry _ => do
      body entry.1 entry.2
      pure (ForInStep.yield PUnit.unit) : Collecting PUnit).run.run σ = (.ok u, τ)) :
    ∃ moments, Story ctx (⋃ entry ∈ found.1.toList, ctx.tree.inside entry.1.1) σ moments τ ∧
      Fulfils [] moments ∧ visited moments = [] ∧ ∀ entry ∈ found.1.toList,
        ∃ moment ∈ moments, moment.deed = .describe entry.1.1 entry.2 := by
  refine Story.forIn (fun entry : Below n × StructId => ctx.tree.inside entry.1.1)
    (P := fun done _ moments _ => Fulfils [] moments ∧ visited moments = [] ∧ ∀ entry ∈ done,
      ∃ moment ∈ moments, moment.deed = .describe entry.1.1 entry.2) (fun listed => ?_)
    (fun done entry rest _ moments σ r τ hl known ran => ?_) ⟨trivial, rfl, by simp⟩ ran
  · rw [← List.pairwise_map (f := Prod.fst) (R := fun type type' : Below n =>
      Disjoint (ctx.tree.inside type.1) (ctx.tree.inside type'.1)), structs, List.pairwise_filterMap]
    refine (listed.pairwise_children n).imp ?_
    intro c c' apart type hc type' hc'
    exact apart.mono (inside_subset_of_structOf? hc) (inside_subset_of_structOf? hc')
  · obtain ⟨_, _, described, ran⟩ := exists_of_run_bind ran
    obtain ⟨⟨⟩, rfl⟩ := Prod.mk.inj ran
    obtain ⟨c, -, is⟩ := exists_structOf? structs (hl ▸ List.mem_append_right done List.mem_cons_self)
    obtain ⟨fulfils, silent, known⟩ := known
    obtain ⟨new, story, fulfils', silent', own⟩ := hb _ _ _ _ _ (of_structOf? is).2.1 described
    refine ⟨_, new, rfl, story, fulfils_append.2 ⟨fulfils.mono (List.nil_subset _), fulfils'⟩,
      by simp [silent, silent'], ?_⟩
    refine List.forall_mem_append.2 ⟨fun entry hentry => ?_, ?_⟩
    · obtain ⟨moment, hmoment, deed⟩ := known entry hentry
      exact ⟨moment, List.mem_append_left _ hmoment, deed⟩
    · obtain ⟨moment, hmoment, deed⟩ := own
      simpa using ⟨moment, .inr hmoment, deed⟩

/-- The steps of a section mark different nodes: the first the declarations, the second what is below
those of other types, the third what is below the structured types. -/
theorem disjoint_steps (listed : ctx.tree.ListedOnce)
    (structs : found.1.toList.map (·.1) = (ctx.tree.children n).filterMap (structOf? ctx.tree))
    (others : found.2.toList = (ctx.tree.children n).filterMap (otherOf? ctx.tree)) :
    Disjoint (⋃ c ∈ ctx.tree.children n, heads ctx.tree c)
      ((⋃ other ∈ found.2.toList, ctx.tree.under other.1) ∪
        ⋃ entry ∈ found.1.toList, ctx.tree.inside entry.1.1) ∧
    Disjoint (⋃ other ∈ found.2.toList, ctx.tree.under other.1)
      (⋃ entry ∈ found.1.toList, ctx.tree.inside entry.1.1) := by
  have other : ∀ {m}, m ∈ ⋃ other ∈ found.2.toList, ctx.tree.under other.1 →
      ∃ c ∈ ctx.tree.children n, otherOf? ctx.tree c ≠ none ∧ m ∈ ctx.tree.under c.1 := by
    intro m hm
    obtain ⟨other, hother, hm⟩ := Set.mem_iUnion₂.1 hm
    rw [others] at hother
    obtain ⟨c, hc, is⟩ := List.mem_filterMap.1 hother
    exact ⟨c, hc, by simp [is], (of_otherOf? is).1 ▸ hm⟩
  have struct : ∀ {m}, m ∈ ⋃ entry ∈ found.1.toList, ctx.tree.inside entry.1.1 →
      ∃ c ∈ ctx.tree.children n, otherOf? ctx.tree c = none ∧ m ∈ ctx.tree.under c.1 ∧
        ∃ type, (ctx.tree.childIds c.1)[0]? = some type ∧ m ∈ ctx.tree.inside type := by
    intro m hm
    obtain ⟨entry, hentry, hm⟩ := Set.mem_iUnion₂.1 hm
    obtain ⟨c, hc, is⟩ := exists_structOf? structs hentry
    obtain ⟨first, -, none⟩ := of_structOf? is
    exact ⟨c, hc, none, inside_subset_of_structOf? is hm, entry.1.1, first, hm⟩
  refine ⟨Set.disjoint_left.2 fun m hm hm' => ?_, Set.disjoint_left.2 fun m hm hm' => ?_⟩
  · obtain ⟨c, hc, none, marked⟩ := Set.mem_iUnion₂.1 hm
    have under := heads_subset c ⟨none, marked⟩
    obtain hm' | hm' := hm'
    · obtain ⟨c', hc', some, under'⟩ := other hm'
      rw [← listed.eq_of_mem_under hc hc' under under'] at some
      exact some none
    · obtain ⟨c', hc', -, under', type, first, inside⟩ := struct hm'
      rw [← listed.eq_of_mem_under hc hc' under under'] at first
      have below := lt_of_mem_inside inside
      have := ctx.tree.lt_of_mem_childIds (List.mem_of_getElem? first)
      obtain rfl | marked := marked
      · exact Nat.lt_asymm below this
      · rw [Option.some.inj (marked.symm.trans first)] at below
        exact Nat.lt_irrefl _ below
  · obtain ⟨c, hc, some, under⟩ := other hm
    obtain ⟨c', hc', none, under', -⟩ := struct hm'
    rw [listed.eq_of_mem_under hc hc' under under'] at some
    exact some none

end Steps

theorem unfolds_typeSection (h : Resolves ctx resolve) (hb : Describes ctx body) {u : Unit}
    (ran : (typeSection ctx resolve body scope).run.run σ = (.ok u, τ)) :
    Unfolds ctx (ctx.tree.inside n) [] σ τ := by
  rw [typeSection_eq] at ran
  obtain ⟨found, headed, heading, ran⟩ := exists_of_run_bind ran
  obtain ⟨first, story₁, known⟩ := Story.forIn (heads ctx.tree)
    (P := fun done found moments _ => Headed ctx.tree done found moments)
    (fun listed => (listed.pairwise_children n).imp fun apart =>
      apart.mono (heads_subset _) (heads_subset _))
    (fun done c rest found moments σ r τ _ known ran => unfolds_typeHead known ran)
    ⟨rfl, rfl, by simp, rfl⟩ heading
  obtain ⟨_, resolved, resolving, ran⟩ := exists_of_run_bind ran
  obtain ⟨second, story₂, fulfils₂, silent₂⟩ := stays_otherTypes h scope known.others _ _ _ resolving
  obtain ⟨_, last, describing, ran⟩ := exists_of_run_bind ran
  obtain ⟨-, rfl⟩ := Prod.mk.inj ran
  obtain ⟨third, story₃, fulfils₃, silent₃, described⟩ := story_bodies hb known.structs describing
  have apart := fun listed => disjoint_steps listed known.structs known.others
  refine ⟨first ++ (second ++ third), Story.mono (story₁.trans
    (story₂.trans story₃ fun listed => (apart listed).2) fun listed => (apart listed).1) ?_, ?_,
    by simp [known.silent, silent₂, silent₃]⟩
  · refine Set.union_subset (Set.iUnion₂_subset fun c hc => ?_)
      (Set.union_subset (Set.iUnion₂_subset fun other hother => ?_)
        (Set.iUnion₂_subset fun entry hentry => ?_))
    · exact (heads_subset c).trans (under_subset_inside (mem_childIds hc))
    · rw [known.others] at hother
      obtain ⟨c, hc, is⟩ := List.mem_filterMap.1 hother
      rw [(of_otherOf? is).1]
      exact under_subset_inside (mem_childIds hc)
    · obtain ⟨c, hc, is⟩ := exists_structOf? known.structs hentry
      exact (inside_subset_of_structOf? is).trans
        (under_subset_inside (mem_childIds hc))
  · have promised : ∀ moment ∈ first, ∀ promise ∈ moment.deed.promises?,
        ∃ other ∈ second ++ third, other.deed = .describe promise.1 promise.2 := by
      intro moment hmoment promise hpromise
      obtain ⟨entry, hentry, rfl⟩ := known.promised moment hmoment promise hpromise
      obtain ⟨other, hother, deed⟩ := described entry hentry
      exact ⟨other, List.mem_append_right _ hother, deed⟩
    refine fulfils_append.2 ⟨?_, fulfils_append.2 ⟨fulfils₂.mono (List.nil_subset _), fulfils₃⟩⟩
    rw [List.append_nil]
    exact fulfils_of_forall promised

/-! ### Structured types -/

/-- A member of a structured type. -/
theorem stays_member (h : Resolves ctx resolve) (hb : Describes ctx body) (scope : ScopeId)
    (struct : StructId) (part : Below n) :
    Stays ctx (ctx.tree.under part.1) (member ctx resolve body scope struct part) := by
  have below : ∀ {m : Collecting Unit}, Stays ctx (ctx.tree.inside part.1) m →
      Stays ctx (ctx.tree.under part.1) m := fun hm => hm.mono inside_subset_under
  unfold member
  split
  · rename_i names hk
    have own : (ctx.tree.kind part.1).sharesDeclaration = false := by rw [hk]; rfl
    refine Stays.child fun type hc => (h.stays_part hc scope).bind_pause fun ty => ?_
    exact (rests_declareNames own scope names (by simp) ty).bind fun _ => .pure _
  · rename_i name hk
    have own : (ctx.tree.kind part.1).sharesDeclaration = false := by rw [hk]; rfl
    have declared : ∀ ty, Rests ctx
        (discard (declareAt part.1 scope { name, kind := .property, ty })) := fun ty =>
      (rests_declareAt own scope (DeclarationSpec.unitUntyped_of_none rfl) (by simp)).discard
    cases hc : ctx.tree.child? part.1 0 with
    | some type => exact (h.stays_part hc scope).bind_pause declared
    | none => exact Stays.getEnv fun env => ((Rests.pure _).bind declared).stays
  · rename_i name kind hk
    have own : (ctx.tree.kind part.1).sharesDeclaration = false := by rw [hk]; rfl
    exact below (stays_routineDeclaration (h.lift part) own name kind scope (some struct))
  · exact below fun σ u τ ran => unfolds_typeSection (h.lift part) (fun b => hb (part.lift b)) ran
  · exact below (stays_varSection (h.lift part) scope (by simp))
  · exact below (stays_constSection (h.lift part) scope)
  · exact (Rests.pure _).stays

theorem rests_member {struct : StructId} {part : Below n}
    (hk : isHeritage (ctx.tree.kind part.1)) :
    Rests ctx (member ctx resolve body scope struct part) := by
  unfold member
  split
  case h_7 => exact .pure _
  all_goals
    rename_i heq
    rw [heq] at hk
    cases hk

theorem stays_members (h : Resolves ctx resolve) (hb : Describes ctx body) (scope : ScopeId)
    (struct : StructId) : Stays ctx (ctx.tree.among n fun kind => ¬isHeritage kind) (do
      for part in ctx.tree.children n do
        member ctx resolve body scope struct part) := by
  refine Stays.bind_pause (Stays.eachChild (fun part _ _ _ => ?_) (fun part _ hk _ => ?_) _)
    fun _ => .pure _
  · exact (stays_member h hb scope struct part).bind_pause fun _ => .pure _
  · exact (rests_member (not_not.1 hk)).next

/-- The heritage of a structured type is read first, then the type is described, and then its members
are collected. -/
theorem described_structMembers (h : Resolves ctx resolve) (hb : Describes ctx body)
    (hn : (ctx.tree.kind n).isBody = false) {struct : StructId} {u : Unit}
    (ran : (structMembers ctx resolve body struct).run.run σ = (.ok u, τ)) :
    Described ctx n struct σ τ := by
  unfold structMembers at ran
  rw [run_getEnv_bind] at ran
  obtain ⟨_, opened, opening, ran⟩ := exists_of_run_bind ran
  obtain ⟨⟨written, helped⟩, read, reading, ran⟩ := exists_of_run_bind ran
  obtain ⟨_, _, completing, ran⟩ := exists_of_run_bind ran
  obtain ⟨-, rfl⟩ := Prod.mk.inj completing
  obtain ⟨first, story₁, fulfils₁, silent₁⟩ := stays_heritage h _ _ _ _ reading
  have members := stays_members h hb (σ.env.membersOf struct) struct
  let parents := if written.isEmpty then implicitParents ctx σ.env struct else written
  let described : CollectionState := { read with
    env := read.env.withTypes (read.env.types.completeStruct struct parents helped) }
  have rest : Unfolds ctx (ctx.tree.among n fun kind => ¬isHeritage kind) [] described τ := by
    split at ran
    · exact Stays.pause_bind (rests_registerHelper _ _ _) (fun _ => members) _ _ _ ran
    · exact members _ _ _ ran
  obtain ⟨second, story₂, fulfils₂, silent₂⟩ := rest
  have describing : Story ctx ∅ read [⟨read, .describe n struct, described⟩] described :=
    .of_does (.describe n struct parents helped) (by simp [Deed.marks]) (by simp [Deed.marks])
  refine ⟨first ++ (_ ++ second), ((story₁.trans (describing.trans story₂ fun _ => ?_)
    fun listed => ?_).pause_left (rests_setScope hn _ _ _ _ opening)).mono ?_, ?_, ?_, ?_⟩
  · exact Set.empty_disjoint _
  · rw [Set.empty_union]
    exact listed.disjoint_among fun _ heritage not => not heritage
  · rw [Set.empty_union]
    exact Set.union_subset among_subset_inside among_subset_inside
  · refine fulfils_append.2 ⟨fulfils₁.mono (List.nil_subset _), ?_, fulfils₂⟩
    simp [Deed.promises?]
  · rw [visited_append, visited_append, silent₁, silent₂]
    rfl
  · exact ⟨_, List.mem_append_right _ List.mem_cons_self, rfl⟩

/-! ### Types at a node -/

/-- A type that is neither a reference nor an enumeration is made below its node. -/
theorem stays_typeAt (h : Resolves ctx resolve) {members : StructId → Collecting Unit}
    (hm : (ctx.tree.kind n).isBody = false → ∀ struct, Stays ctx (ctx.tree.inside n) (members struct))
    (plain : ∀ name, ctx.tree.kind n ≠ .typeReference name) (distinct : ctx.tree.kind n ≠ .enumType)
    (scope : ScopeId) : Stays ctx (ctx.tree.inside n) (typeAt ctx resolve members scope) := by
  have below : ∀ {type : Below n}, ctx.tree.child? n 0 = some type →
      Stays ctx (ctx.tree.inside n) (resolve type scope) := fun {type} hc =>
    (h.stays type scope).mono
      (under_subset_inside (mem_childIds (mem_children_of_child? hc)))
  unfold typeAt
  split
  · exact absurd ‹_› (plain _)
  · exact Stays.child fun type hc => (below hc).bind_pause fun _ => .pure _
  · cases hc : ctx.tree.child? n 0 with
    | some element => exact (below hc).bind_pause fun _ => .pure _
    | none => exact (Rests.pure _).stays
  · exact Stays.child fun type hc => (below hc).bind_pause fun _ => .pure _
  · refine Stays.bind_pause (fun σ read τ ran => ?_) fun _ => .pure _
    exact (unfolds_signature h ran).1.mono among_subset_inside
  · exact Stays.child fun type hc => (below hc).bind_pause fun _ => .pure _
  · exact Stays.child fun type hc => below hc
  · exact absurd ‹_› distinct
  · rename_i kind hk
    exact Stays.pause_bind (rests_declareStruct "" kind scope false) fun struct =>
      (hm (by rw [hk]; rfl) struct).bind_pause fun _ => .pure _
  · exact ((rests_issue n _).bind fun _ => .pure _).stays
  · exact (Rests.malformed _).stays

end Types

/-- A reference to a type is looked up and recorded. -/
theorem unfolds_reference {name : String} (hk : ctx.tree.kind n = .typeReference name) {ty : Ty}
    (ran : (resolveType ctx n scope).run.run σ = (.ok ty, τ)) :
    Unfolds ctx (ctx.tree.under n) [] σ τ ∧ τ.annotations.type? n = some ty := by
  rw [run_resolveType_reference hk] at ran
  have does : Does ctx σ (.refer n scope name) _ := .refer hk
  rw [ran] at does
  refine ⟨.of_does does ?_ (by simp [Deed.marks]) rfl, ?_⟩
  · simpa [Deed.marks] using mem_under_self ctx.tree n
  · cases hn : σ.env.namedType? scope name with
    | some found =>
      rw [hn] at ran
      cases ran
      simp [Annotations.type?_setType]
    | none =>
      rw [hn] at ran
      cases ran
      simp [Annotations.type?_setType]

/-- Types and structured types at a node, by induction on its number: nodes below come before. -/
theorem unfolds_types (n : NodeId) :
    (∀ scope σ ty τ, (resolveType ctx n scope).run.run σ = (.ok ty, τ) →
      Unfolds ctx (ctx.tree.under n) [] σ τ ∧ τ.annotations.type? n = some ty) ∧
    ∀ struct σ u τ, (ctx.tree.kind n).isBody = false →
      (structBody ctx n struct).run.run σ = (.ok u, τ) → Described ctx n struct σ τ := by
  induction hi : n.index using Nat.strong_induction_on generalizing n with
  | _ index ih =>
    have resolves : Resolves ctx fun (inner : Below n) scope => resolveType ctx inner.1 scope :=
      fun b => (ih b.1.index (hi ▸ b.2) b.1 rfl).1
    have describes : Describes ctx fun (inner : Below n) struct => structBody ctx inner.1 struct :=
      fun b => (ih b.1.index (hi ▸ b.2) b.1 rfl).2
    have body : ∀ struct σ u τ, (ctx.tree.kind n).isBody = false →
        (structBody ctx n struct).run.run σ = (.ok u, τ) → Described ctx n struct σ τ := by
      intro struct σ u τ hn ran
      rw [structBody] at ran
      exact described_structMembers resolves describes hn ran
    refine ⟨fun scope σ ty τ ran => ?_, body⟩
    by_cases href : ∃ name, ctx.tree.kind n = .typeReference name
    · obtain ⟨name, hk⟩ := href
      exact unfolds_reference hk ran
    · rw [resolveType] at ran
      obtain ⟨_, mid, made, ran⟩ := exists_of_run_bind ran
      obtain ⟨_, _, recorded, ran⟩ := exists_of_run_bind ran
      obtain ⟨-, rfl⟩ := Prod.mk.inj recorded
      obtain ⟨⟨⟩, rfl⟩ := Prod.mk.inj ran
      refine ⟨?_, by simp [Annotations.type?_setType]⟩
      by_cases henum : ctx.tree.kind n = .enumType
      · -- an enumeration is recorded when it is made, and once more at the end
        simp only [typeAt, henum] at made
        obtain ⟨⟨_, _, story⟩, typed⟩ := unfolds_enumeration henum made
        have again := (Pause.refl ctx mid).setType typed
        refine ⟨_, (story.pause_right again).mono ?_, ⟨by simp [Deed.promises?], trivial⟩, rfl⟩
        exact Set.singleton_subset_iff.2 (mem_under_self ctx.tree n)
      · have stays := stays_typeAt resolves (fun hn struct σ u τ ran =>
          (body struct σ u τ hn ran).unfolds) (not_exists.1 href) henum scope
        exact (stays _ _ _ made).own (.record (not_exists.1 href) _) rfl rfl

theorem resolves (ctx : CollectionContext) (n : NodeId) :
    Resolves ctx fun (inner : Below n) scope => resolveType ctx inner.1 scope :=
  fun b => (unfolds_types b.1).1

theorem describes (ctx : CollectionContext) (n : NodeId) :
    Describes ctx fun (inner : Below n) struct => structBody ctx inner.1 struct :=
  fun b => (unfolds_types b.1).2

/-! ## Routines and units -/

section Units

variable {base : Environment} {name : String}

theorem rests_methodOwner (n : NodeId) (scope : ScopeId) (owner : Option String) :
    Rests ctx (methodOwner ctx n scope owner) := by
  cases owner with
  | none => exact .pure _
  | some owner =>
    refine .getEnv fun env => ?_
    cases env.ownerStruct? scope owner with
    | some struct => exact .pure _
    | none => exact (rests_issue n _).bind fun _ => .pure _

theorem unfolds_readBody {kind : RoutineKind} {reading : BodyReading}
    (ran : (readBody ctx n scope name kind).run.run σ = (.ok reading, τ)) :
    Unfolds ctx (ctx.tree.among n isSignature) [] σ τ ∧ (ctx.tree.ListedOnce →
      reading.signature.params = ctx.tree.recordedParams τ.annotations n) := by
  obtain ⟨owner, mid, owned, ran⟩ := exists_of_run_bind ran
  rw [run_getEnv_bind] at ran
  obtain ⟨read, _, signed, last⟩ := exists_of_run_bind ran
  obtain ⟨⟨⟩, rfl⟩ := Prod.mk.inj last
  obtain ⟨unfolds, params⟩ := unfolds_signature (resolves ctx n) signed
  exact ⟨unfolds.pause_left (rests_methodOwner n scope _ _ _ _ owned), params⟩

theorem sound_readBody (g : Grounds ctx base) {env : Environment} (wf : env.WellFormed)
    (hp : Place ctx env scope) (hr : base.Reaches ctx.file ctx.tree env scope) {kind : RoutineKind}
    (hk : ctx.tree.kind n = .routineImplementation name kind) :
    Sound ctx base env (fun _ _ => True) (readBody ctx n scope name kind) := by
  refine Sound.bind (sound_methodOwner hp.has hr hk) fun env₁ owner he₁ wf₁ howner => ?_
  refine Sound.getEnv fun σ hg he => ?_
  have hext := he₁.trans he
  obtain ⟨place, -, reached, owned⟩ := (hp.mono wf hext).signature hg.wellFormed (hr.mono hext)
    fun id hid => (howner id hid).mono wf₁ (he₁.has _ hp.has) he
  refine Sound.bind (sound_signature (resolver g n) hg.wellFormed place reached kind owned)
    fun _ _ _ _ _ => Sound.pure fun _ _ _ => trivial

/-- A routine with a body is read, and then it gets its body. -/
theorem unfolds_routineHead (g : Grounds ctx base) (good : Good ctx base σ)
    (home : Home ctx σ.env scope) (reached : base.Reaches ctx.file ctx.tree σ.env scope)
    {kind : RoutineKind} (hk : ctx.tree.kind n = .routineImplementation name kind) {body : ScopeId}
    (ran : (routineHead ctx n scope name kind).run.run σ = (.ok body, τ)) :
    Unfolds ctx ({n} ∪ ctx.tree.among n isSignature) (visit? ctx n scope name kind σ).toList σ τ := by
  rw [routineHead_eq] at ran
  obtain ⟨reading, mid, read, ran⟩ := exists_of_run_bind ran
  obtain ⟨declaration, found, seek, ran⟩ := exists_of_run_bind ran
  obtain ⟨u, attached, attach, opens⟩ := exists_of_run_bind ran
  obtain ⟨unfolds, params⟩ := unfolds_readBody read
  have sound := sound_readBody g good.wellFormed home.toPlace reached hk σ good (.refl _)
  rw [Holds, read] at sound
  obtain ⟨good', grows, -⟩ := sound
  have blank := good'.wellFormed.coherent.blank ⟨mid.env.scopes.size⟩ (Nat.le_refl _)
  have does := Does.body hk blank (grows.has _ home.has) read params seek attach opens
  have own : Unfolds ctx {n} _ mid τ :=
    .of_does does (by simp [Deed.marks]) (by simp [Deed.marks]) rfl
  rw [Set.union_comm]
  simp only [visit?, read, seek]
  refine unfolds.trans own fun _ => Set.disjoint_singleton_right.2 fun hm => ?_
  exact not_mem_inside_self ctx.tree n (among_subset_inside hm)

/-- A section, or a routine without a body. -/
theorem unfolds_section (hn : (ctx.tree.kind n).isBody = false) {u : Unit}
    (ran : (item ctx n scope).run.run σ = (.ok u, τ)) :
    Unfolds ctx (ctx.tree.under n) [] σ τ := by
  have below : ∀ {m : Collecting Unit}, Stays ctx (ctx.tree.inside n) m →
      m.run.run σ = (.ok u, τ) → Unfolds ctx (ctx.tree.under n) [] σ τ := fun stays ran =>
    (stays _ _ _ ran).mono inside_subset_under
  rw [item] at ran
  split at ran
  · exact .of_pause (rests_usesClause n _ _ _ ran)
  · exact below (fun _ _ _ => unfolds_typeSection (resolves ctx n) (describes ctx n)) ran
  · exact below (stays_varSection (resolves ctx n) scope (by simp)) ran
  · exact below (stays_constSection (resolves ctx n) scope) ran
  · rename_i name kind hk
    have own : (ctx.tree.kind n).sharesDeclaration = false := by rw [hk]; rfl
    exact below (stays_routineDeclaration (resolves ctx n) own name kind scope none) ran
  · rename_i name kind hk
    simp [hk, NodeKind.isBody] at hn
  · obtain ⟨-, rfl⟩ := Prod.mk.inj ran
    exact .of_pause (.refl ctx σ)

/-- A section or a routine, by induction on the number of its node: local routines come before. -/
theorem unfolds_item (g : Grounds ctx base) (n : NodeId) (good : Good ctx base σ)
    (home : Home ctx σ.env scope) (reached : base.Reaches ctx.file ctx.tree σ.env scope) {u : Unit}
    (ran : (item ctx n scope).run.run σ = (.ok u, τ)) :
    Unfolds ctx (ctx.tree.under n) (itemBodies ctx n scope σ) σ τ := by
  induction hi : n.index using Nat.strong_induction_on generalizing n scope σ τ u with
  | _ index ih =>
    cases hb : (ctx.tree.kind n).isBody with
    | false =>
      rw [itemBodies_of_not_isBody hb]
      exact unfolds_section hb ran
    | true =>
      obtain ⟨name, kind, hk⟩ := NodeKind.isBody_iff.1 hb
      rw [item] at ran
      rw [itemBodies]
      simp only [hk] at ran ⊢
      obtain ⟨body, mid, head, ran⟩ := exists_of_run_bind ran
      have sound := sound_routineHead g good.wellFormed home reached hk σ good (.refl _)
      rw [Holds, head] at sound
      obtain ⟨good', grows, fresh⟩ := sound
      replace fresh := fresh body rfl
      have inner := fresh.home (by simp) (home.mono good.wellFormed grows)
      simp only [head]
      have locals := Unfolds.forM (ctx.tree.part fun kind => isLocal kind = true) (fun part σ =>
        if isLocal (ctx.tree.kind part.1) then itemBodies ctx part.1 body σ else [])
        (I := fun σ => Good ctx base σ ∧ mid.env.Extends σ.env)
        (fun listed => listed.pairwise_part _ n) (fun part _ σ u τ hσ ran => ?_) ⟨good', .refl _⟩ ran
      · refine Unfolds.mono ((unfolds_routineHead g good home reached hk head).trans
          (locals.mono iUnion_part_subset) fun listed => ?_) ?_
        · rw [Set.disjoint_union_left, Set.disjoint_singleton_left]
          refine ⟨fun hm => ?_, listed.disjoint_among fun _ => not_isLocal_of_isSignature⟩
          exact not_mem_inside_self ctx.tree n (among_subset_inside hm)
        · refine Set.union_subset (Set.union_subset ?_ ?_) ?_
          · exact Set.singleton_subset_iff.2 (mem_under_self ctx.tree n)
          · exact among_subset_inside.trans inside_subset_under
          · exact among_subset_inside.trans inside_subset_under
      · obtain ⟨good, grown⟩ := hσ
        split_ifs at ran ⊢ with hlocal
        · have home := inner.mono good'.wellFormed grown
          have sound := sound_item g part.1 good.wellFormed home (fresh.reached g) σ good (.refl _)
          rw [Holds, ran] at sound
          refine ⟨Unfolds.mono (ih part.1.index (hi ▸ part.2) part.1 good home (fresh.reached g) ran
            rfl) fun m hm => ⟨hlocal, hm⟩, sound.1, grown.trans sound.2.1⟩
        · obtain ⟨-, rfl⟩ := Prod.mk.inj ran
          exact ⟨.of_pause (.refl ctx σ), good, grown⟩

/-- The items of a section, or of a unit without sections. -/
theorem unfolds_unitPart (g : Grounds ctx base) (n : NodeId) (good : Good ctx base σ) {u : Unit}
    (ran : (unitPart ctx n).run.run σ = (.ok u, τ)) :
    Unfolds ctx (ctx.tree.under n) (partBodies ctx n σ) σ τ := by
  have own : ∀ env, base.Reaches ctx.file ctx.tree env ctx.file := fun _ => .own (Nat.le_refl _)
  have enter : ∀ part, (do
      modify fun s => { s with part }
      (ctx.tree.childIds n).forM fun child => item ctx child ctx.file :
        Collecting Unit).run.run σ = (.ok u, τ) → Unfolds ctx (ctx.tree.under n)
      (along (fun child => item ctx child ctx.file) (fun child => itemBodies ctx child ctx.file)
        (ctx.tree.childIds n) { σ with part }) σ τ := by
    intro part ran
    obtain ⟨_, _, entered, items⟩ := exists_of_run_bind ran
    obtain ⟨-, rfl⟩ := Prod.mk.inj entered
    have pause : Pause ctx σ { σ with part } := { Pause.refl ctx σ with }
    refine Unfolds.pause_left pause (Unfolds.mono (Unfolds.forM ctx.tree.under _
      (I := Good ctx base) (fun listed => listed.pairwise_childIds n)
      (fun child _ σ u τ good ran => ?_) { good with } items)
      (iUnion_under_subset.trans inside_subset_under))
    have home := home_file g good.since
    have sound := sound_item g child good.wellFormed home (own _) σ good (.refl _)
    rw [Holds, ran] at sound
    exact ⟨unfolds_item g child good home (own _) ran, sound.1⟩
  unfold unitPart at ran
  unfold partBodies
  dsimp only at ran ⊢
  generalize ctx.tree.kind n = kind at ran
  cases kind with
  | interfaceSection => exact enter .interface ran
  | implementationSection => exact enter .implementation ran
  | _ => exact unfolds_item g n good (home_file g good.since) (own _) ran

/-- The collection of a whole unit. -/
theorem unfolds_unit (g : Grounds ctx base) {root : NodeId}
    (hroot : (ctx.tree.kind root).isBody = false) (good : Good ctx base σ) {u : Unit}
    (ran : (unit ctx root).run.run σ = (.ok u, τ)) :
    Unfolds ctx (ctx.tree.inside root) (unitBodies ctx root σ) σ τ := by
  obtain ⟨_, _, opened, parts⟩ := exists_of_run_bind ran
  have pause := rests_setScope hroot ctx.file _ _ _ opened
  obtain ⟨-, rfl⟩ := Prod.mk.inj opened
  have start : Good ctx base
      { σ with annotations := σ.annotations.setScope root ctx.file } :=
    { good with annotations := good.annotations.setScope root (home_file g good.since).mem_seen }
  refine (Unfolds.mono (Unfolds.forM ctx.tree.under (partBodies ctx) (I := Good ctx base)
    (fun listed => listed.pairwise_childIds root) (fun n _ σ u τ good ran => ?_) start parts)
    iUnion_under_subset).pause_left pause
  have sound := sound_unitPart g good.since good.wellFormed n σ good (.refl _)
  rw [Holds, ran] at sound
  exact ⟨unfolds_unitPart g n good ran, sound.1⟩

end Units

end Collecting

end Pascal
