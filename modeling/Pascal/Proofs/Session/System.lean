import Pascal.Proofs.WellFormed

/-!
# The tables of the System unit

Every session starts from well-formed tables in which nothing can be declared any more.
-/

namespace Pascal

theorem Intrinsic.refs_ty (target : Target) (intrinsic : Intrinsic) :
    (intrinsic.ty target).refs = [] := by
  cases intrinsic <;> rfl

namespace Environment

/-- Tables with a System scope that still takes declarations. -/
structure Opening (env : Environment) : Prop where
  wellFormed : env.WellFormed
  has : env.Has (.scope ⟨0⟩)
  kind : (env.scopes.get ⟨0⟩).kind = .system
  parent : (env.scopes.get ⟨0⟩).parent = none
  frozen : (env.scopes.get ⟨0⟩).frozen = false

variable {env : Environment}

theorem Opening.unitOf (h : env.Opening) : env.unitOf (.scope ⟨0⟩) = none :=
  ScopeTree.fileScopeOf?_of_root h.parent (by simp [h.kind])

/-- Tables with no names and no types, whose scopes stand in no other and hold nothing. -/
theorem wellFormed_of_blank (symbols : env.symbols = {}) (structs : env.types.structs = #[])
    (enums : env.types.enums = #[]) (size : env.scopes.size = 1)
    (plain : ∀ s, ∃ kind name, env.scopes.get s = { kind, name }) : env.WellFormed := by
  have noNames : ∀ s, env.symbols.namesOf s = {} := by simp [symbols, SymbolTable.namesOf]
  have noStruct : ∀ id, ¬env.Has (.struct id) := by simp [Has, structs]
  have noEnum : ∀ id, ¬env.Has (.enum id) := by simp [Has, enums]
  have noDecl : ∀ d, ¬env.Has (.decl d) := by simp [Has, symbols, SymbolTable.size]
  have noFound : ∀ s n, env.symbols.findFolded s n = [] := by
    simp [SymbolTable.findFolded, noNames]
  have noReference : ∀ x y, env.Has x → ¬env.References x y := by
    intro x y hx hr
    cases hr with
    | @parent s p hp => obtain ⟨_, _, hs⟩ := plain s; simp [hs] at hp
    | @used s u hu => obtain ⟨_, _, hs⟩ := plain s; simp [hs] at hu
    | @declaring s id hd => obtain ⟨_, _, hs⟩ := plain s; simp [hs] at hd
    | @helper s ty id hm => obtain ⟨_, _, hs⟩ := plain s; simp [hs] at hm
    | listed hd => simp [SymbolTable.declarationsIn, noNames] at hd
    | named hd => simp [noFound] at hd
    | mentioned => exact noDecl _ hx
    | members => exact noStruct _ hx
    | heritage => exact noStruct _ hx
    | elements => exact noEnum _ hx
    | base => exact noEnum _ hx
  have noParent : ∀ s p, (env.scopes.get s).parent ≠ some p := by
    intro s p hp
    obtain ⟨_, _, hs⟩ := plain s
    simp [hs] at hp
  refine ⟨⟨?_, ?_, ?_, ?_, ?_, ?_, ?_⟩, ⟨?_, ?_, ?_, ?_, ?_⟩⟩
  · simp [noFound]
  · exact fun id hid => absurd hid (noStruct id)
  · exact fun id hid => absurd hid (noStruct id)
  · intro s c hc
    obtain ⟨_, _, hs⟩ := plain s
    simp [hs] at hc
  · exact fun c p hp => absurd hp (noParent c p)
  · exact fun c p hp => absurd hp (noParent c p)
  · intro s hs _
    rw [← ScopeId.index_inj]
    simpa [Has, size] using hs
  · exact fun s p hp => absurd hp (noParent s p)
  · exact fun d hd => absurd hd (noDecl d)
  · exact fun s _ => noNames s
  · exact fun x y hx hr => absurd hr (noReference x y hx)
  · exact fun x y hx hr => absurd hr (noReference x y hx)

/-- The tables with nothing but an empty System scope. -/
theorem opening_first (target : Target) (name : String) :
    ({ scopes := (({} : ScopeTree).create .system none name).2, types := { target } } :
      Environment).Opening := by
  have root := @ScopeTree.get_create_new {} .system none name (by simp)
  refine ⟨wellFormed_of_blank rfl rfl rfl rfl fun s => ?_, Nat.zero_lt_one, ?_, ?_, ?_⟩
  · by_cases hs : s.index = 0
    · rw [ScopeId.index_inj.1 (hs : s.index = (⟨0⟩ : ScopeId).index)]
      exact ⟨_, _, root⟩
    · exact ⟨_, _, ScopeTree.get_eq_default (Nat.one_le_iff_ne_zero.2 hs)⟩
  · exact congrArg Scope.kind root
  · exact congrArg Scope.parent root
  · exact congrArg Scope.frozen root

theorem Opening.extend {env' : Environment} (h : env.Opening) (wf : env'.WellFormed)
    (he : env.Extends env')
    (frozen : (env'.scopes.get ⟨0⟩).frozen = (env.scopes.get ⟨0⟩).frozen) : env'.Opening where
  wellFormed := wf
  has := he.has _ h.has
  kind := (he.kind _ h.has).trans h.kind
  parent := (he.parent _ h.has).trans h.parent
  frozen := frozen.trans h.frozen

end Environment

namespace SystemUnit

open Environment

variable {env : Environment}

theorem opening_addAll (h : env.Opening) {s : ScopeId} (hs : env.Has (.scope s))
    (specs : List DeclarationSpec) 
    (hspecs : ∀ spec ∈ specs, ∀ y ∈ spec.refs, env.Has y ∧ env.unitOf y = none) :
    (addAll env s specs).Opening ∧ env.Extends (addAll env s specs) := by
  induction specs generalizing env with
  | nil => exact ⟨h, .refl _⟩
  | cons spec rest ih =>
    simp only [List.forall_mem_cons] at hspecs
    have hext := extends_add env s spec
    have declarable : env.Declarable s spec := fun y hy =>
      .inl (mem_seen_of_system (hspecs.1 y hy).1 (hspecs.1 y hy).2 _)
    have first := h.extend (h.wellFormed.add hs declarable) hext rfl
    obtain ⟨opening, more⟩ := ih first (hext.has _ hs) fun other hother y hy => by
      obtain ⟨hin, hunit⟩ := hspecs.2 other hother y hy
      exact ⟨hext.has y hin, (h.wellFormed.coherent.unitOf_eq hext hin).trans hunit⟩
    exact ⟨opening, hext.trans more⟩

/-- A structured type of the System unit. -/
theorem opening_addStruct (h : env.Opening) (name : String) (kind : StructKind) :
    (addStruct env ⟨0⟩ name kind).2.Opening ∧ env.Extends (addStruct env ⟨0⟩ name kind).2 ∧
      (addStruct env ⟨0⟩ name kind).2.Has (.struct (addStruct env ⟨0⟩ name kind).1) ∧
      (addStruct env ⟨0⟩ name kind).2.unitOf (.struct (addStruct env ⟨0⟩ name kind).1) = none := by
  let members : ScopeId := ⟨env.scopes.size⟩
  let id : StructId := ⟨env.types.structs.size⟩
  let env₁ := env.createScope .type ⟨0⟩ name
  let env₂ := env₁.withTypes (env₁.types.declareStruct name kind members false).2
  let env₃ := env₂.modifyScope members ({ · with declaring := some id })
  have hext₁ : env.Extends env₁ := extends_createScope env .type ⟨0⟩ name
  have hext₂ : env₁.Extends env₂ := extends_declareStruct env₁ name kind members false
  have hext₃ : env₂.Extends env₃ := extends_setDeclaring env₂ members (some id)
  have hext₄ := extends_add env₃ ⟨0⟩ (typeSpec name (.struct id))
  have hnew : env₁.scopes.get members = _ := get_createScope_new h.has .type name
  have hmembers : env₁.Has (.scope members) := has_createScope.2 (.inr rfl)
  have opening₁ : env₁.Opening := by
    refine h.extend (h.wellFormed.create h.has (.inl (by simp)) ?_ name) hext₁ ?_
    · simp [h.frozen]
    · simp only [env₁, createScope, ScopeTree.get_create _ _ _ h.has]
  have opening₂ : env₂.Opening := by
    refine opening₁.extend (opening₁.wellFormed.declareStruct name kind hmembers ?_ ?_) hext₂ rfl
    · rw [hnew]
    · simp
  have has₂ : env₂.Has (.struct id) := by
    simp [env₂, id, env₁, Has, Environment.withTypes, createScope, TypeTable.declareStruct]
  have unit₂ : env₂.unitOf (.struct id) = none := by
    have hscope : env₂.membersOf id = members := congrArg StructInfo.scope
      (env₁.types.structInfo_declareStruct_new name kind members false)
    have hunit : env₁.unitOf (.scope members) = none := by
      rw [unitOf_createScope_new h.wellFormed.coherent h.has (by simp) name, h.unitOf]
    rw [← hunit, ← opening₁.wellFormed.coherent.unitOf_eq hext₂ hmembers]
    simp only [Environment.unitOf, hscope]
  have opening₃ : env₃.Opening := by
    refine opening₂.extend (opening₂.wellFormed.setDeclaring ?_) hext₃
      (ScopeTree.get_modify_field Scope.frozen _ fun _ => rfl)
    rintro _ ⟨⟩
    refine ⟨has₂, ?_⟩
    rw [unit₂]
    exact sees_system _
  have unit₃ : env₃.unitOf (.struct id) = none :=
    (opening₂.wellFormed.coherent.unitOf_eq hext₃ has₂).trans unit₂
  have refs : env₃.Declarable ⟨0⟩ (typeSpec name (.struct id)) := by
    simpa [Declarable, typeSpec, DeclarationSpec.refs, Ty.refs] using
      .inl (mem_seen_of_system (hext₃.has _ has₂) unit₃ _)
  refine ⟨opening₃.extend (opening₃.wellFormed.add opening₃.has refs) hext₄ rfl,
    hext₁.trans (hext₂.trans (hext₃.trans hext₄)), hext₄.has _ (hext₃.has _ has₂), ?_⟩
  exact (opening₂.wellFormed.coherent.unitOf_eq (hext₃.trans hext₄) has₂).trans unit₂

/-- Tables with a finished System unit. -/
structure Founded (system : SystemUnit) (env : Environment) : Prop where
  wellFormed : env.WellFormed
  scope : system.scope = ⟨0⟩
  has : env.Has (.scope ⟨0⟩)
  kind : (env.scopes.get ⟨0⟩).kind = .system
  parent : (env.scopes.get ⟨0⟩).parent = none
  frozen : (env.scopes.get ⟨0⟩).frozen
  rootClass : env.Has (.struct system.rootClass) ∧ env.unitOf (.struct system.rootClass) = none
  rootInterface : env.Has (.struct system.rootInterface) ∧
    env.unitOf (.struct system.rootInterface) = none

theorem refs_leadingSpecs (settings : Settings) (scope : ScopeId) :
    ∀ spec ∈ leadingSpecs settings scope, ∀ y ∈ spec.refs, y = .scope scope := by
  intro spec hspec y hy
  simp only [leadingSpecs, List.cons_append, List.mem_cons, List.mem_append, List.mem_map] at hspec
  obtain rfl | (⟨_, -, rfl⟩ | ⟨_, -, rfl⟩) | ⟨_, -, rfl⟩ := hspec
  · simpa [DeclarationSpec.refs, Ty.refs] using hy
  all_goals simp [typeSpec, DeclarationSpec.refs, Intrinsic.refs_ty, Ty.refs, Ty.bool] at hy

theorem refs_classMethods (id : StructId) :
    ∀ spec ∈ classMethods id, ∀ y ∈ spec.refs, y = .struct id := by
  simp [classMethods, methodSpec, routineSpec, DeclarationSpec.refs, RoutineSignature.ty, Ty.refs,
    Ty.refsAll, Ty.bool, Ty.string]

theorem refs_interfaceMethods (id : StructId) :
    ∀ spec ∈ interfaceMethods id, ∀ y ∈ spec.refs, y = .struct id := by
  simp [interfaceMethods, methodSpec, routineSpec, DeclarationSpec.refs, RoutineSignature.ty,
    Ty.refs,
    Ty.refsAll, Ty.int]

theorem refs_routines : ∀ r ∈ routines, r.result.refs = [] ∧ Ty.refsAll r.params = [] := by
  decide

/-- The tables after a root of heritage is declared, with its methods. -/
def addRoot (env : Environment) (name : String) (kind : StructKind)
    (methods : StructId → List DeclarationSpec) : Environment :=
  let made := addStruct env ⟨0⟩ name kind
  addAll made.2 (made.2.membersOf made.1) (methods made.1)

theorem opening_addRoot (h : env.Opening) (name : String) (kind : StructKind)
    {methods : StructId → List DeclarationSpec}
    (hmethods : ∀ id, ∀ spec ∈ methods id, ∀ y ∈ spec.refs, y = .struct id) :
    (addRoot env name kind methods).Opening ∧ env.Extends (addRoot env name kind methods) ∧
      (addRoot env name kind methods).Has (.struct (addStruct env ⟨0⟩ name kind).1) ∧
      (addRoot env name kind methods).unitOf (.struct (addStruct env ⟨0⟩ name kind).1) = none := by
  obtain ⟨opening, hext, hid, unit⟩ := opening_addStruct h name kind
  have hmembers := opening.wellFormed.coherent.exist _ _ hid .members
  obtain ⟨opening', hext'⟩ := opening_addAll opening hmembers (methods _) fun spec hspec y hy =>
    hmethods _ spec hspec y hy ▸ ⟨hid, unit⟩
  exact ⟨opening', hext.trans hext', hext'.has _ hid,
    (opening.wellFormed.coherent.unitOf_eq hext' hid).trans unit⟩

/-- The System unit is finished once its scope is closed. -/
theorem Founded.of_opening (h : env.Opening) {rootClass rootInterface : StructId}
    (hclass : env.Has (.struct rootClass) ∧ env.unitOf (.struct rootClass) = none)
    (hinterface : env.Has (.struct rootInterface) ∧ env.unitOf (.struct rootInterface) = none) :
    Founded ⟨⟨0⟩, rootClass, rootInterface⟩ (env.freezeScope ⟨0⟩) := by
  have hext := extends_freezeScope env ⟨0⟩
  obtain ⟨flag, hget, hflag⟩ := get_freezeScope env ⟨0⟩ ⟨0⟩
  have unit : ∀ {id}, env.Has (.struct id) ∧ env.unitOf (.struct id) = none →
      (env.freezeScope ⟨0⟩).Has (.struct id) ∧ (env.freezeScope ⟨0⟩).unitOf (.struct id) = none :=
    fun hid => ⟨hext.has _ hid.1, (h.wellFormed.coherent.unitOf_eq hext hid.1).trans hid.2⟩
  exact
    { wellFormed := h.wellFormed.freezeScope ⟨0⟩
      scope := rfl
      has := hext.has _ h.has
      kind := (hext.kind _ h.has).trans h.kind
      parent := (hext.parent _ h.has).trans h.parent
      frozen := by simpa [hget] using hflag.2 (.inr ⟨h.has, ScopeTree.mem_subtree_self⟩)
      rootClass := unit hclass
      rootInterface := unit hinterface }

/-- The tables that a session starts from. -/
theorem founded_build (settings : Settings) : (build settings).1.Founded (build settings).2 := by
  have opening := opening_first settings.target systemName
  obtain ⟨opening₁, -⟩ := opening_addAll opening opening.has (leadingSpecs settings ⟨0⟩)
    fun spec hspec y hy => refs_leadingSpecs settings ⟨0⟩ spec hspec y hy ▸ ⟨opening.has, opening.unitOf⟩
  obtain ⟨opening₂, -, hclass, classUnit⟩ :=
    opening_addRoot opening₁ "TObject" .classType refs_classMethods
  obtain ⟨opening₃, hext₃⟩ := opening_addAll opening₂ opening₂.has
    [typeSpec "TClass" (.classRef (.struct _))]
    (by simpa [typeSpec, DeclarationSpec.refs, Ty.refs] using ⟨hclass, classUnit⟩)
  obtain ⟨opening₄, hext₄, hinterface, interfaceUnit⟩ :=
    opening_addRoot opening₃ "IInterface" .interface refs_interfaceMethods
  obtain ⟨opening₅, hext₅⟩ := opening_addAll opening₄ opening₄.has
    (routines.map fun r => routineSpec r.name
      { kind := r.kind, params := r.params, required := r.required, result := r.result })
    (by
      intro spec hspec y hy
      obtain ⟨r, hr, rfl⟩ := List.mem_map.1 hspec
      obtain ⟨hresult, hparams⟩ := refs_routines r hr
      simp [routineSpec, DeclarationSpec.refs, RoutineSignature.ty, Ty.refs, Ty.refsAll, hresult,
        hparams] at hy)
  have hext := hext₃.trans (hext₄.trans hext₅)
  exact Founded.of_opening opening₅
    ⟨hext.has _ hclass, (opening₂.wellFormed.coherent.unitOf_eq hext hclass).trans classUnit⟩
    ⟨hext₅.has _ hinterface,
      (opening₄.wellFormed.coherent.unitOf_eq hext₅ hinterface).trans interfaceUnit⟩

end SystemUnit

end Pascal
