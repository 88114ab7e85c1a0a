import Pascal.Proofs.Collection.Bodies

/-!
# Tables as a collection goes on

What becomes of the tables between two moments of a collection. Scopes stay with the structured type
that they belong to, and only the scope of a body gets parameters, when it is opened. As long as no
type is declared and none is described, a stretch is calm.
-/

namespace Pascal

open Environment ScopeTree

namespace Environment

/-- The tables with a new structured type, which the scope of its members belongs to. -/
def announce (env : Environment) (name : String) (kind : StructKind) (scope : ScopeId)
    (forward : Bool) : Environment :=
  ((env.createScope .type scope name).withTypes
    (env.types.declareStruct name kind ⟨env.scopes.size⟩ forward).2).modifyScope ⟨env.scopes.size⟩
      ({ · with declaring := some ⟨env.types.structs.size⟩ })

variable {env : Environment} {name : String} {kind : StructKind} {scope : ScopeId} {forward : Bool}

theorem extends_announce (env : Environment) (name : String) (kind : StructKind) (scope : ScopeId)
    (forward : Bool) : env.Extends (env.announce name kind scope forward) :=
  ((extends_createScope env .type scope name).trans
    (extends_declareStruct (env.createScope .type scope name) name kind _ forward)).trans
      (extends_setDeclaring _ _ _)

theorem structInfo_announce {id : StructId} (h : env.Has (.struct id)) :
    (env.announce name kind scope forward).types.structInfo id = env.types.structInfo id :=
  TypeTable.structInfo_declareStruct_of_lt _ _ _ _ h

theorem structInfo_announce_new :
    (env.announce name kind scope forward).types.structInfo ⟨env.types.structs.size⟩ =
      { image := name, kind, scope := ⟨env.scopes.size⟩, forward } :=
  TypeTable.structInfo_declareStruct_new _ _ _ _

theorem has_announce {id : StructId} (h : (env.announce name kind scope forward).Has (.struct id)) :
    env.Has (.struct id) ∨ id = ⟨env.types.structs.size⟩ :=
  @has_declareStruct (env.createScope .type scope name) _ _ _ _ _ h

theorem declaring_announce (s : ScopeId) :
    ((env.announce name kind scope forward).scopes.get s).declaring =
      if s = ⟨env.scopes.size⟩ then some ⟨env.types.structs.size⟩
      else (env.scopes.get s).declaring := by
  have created : (⟨env.scopes.size⟩ : ScopeId).index < (env.createScope .type scope name).scopes.size :=
    (lt_size_create ..).2 (.inr rfl)
  change ((((env.createScope .type scope name).scopes.modify ⟨env.scopes.size⟩ _).get s).declaring) = _
  rw [get_modify _ created]
  split_ifs with hs
  · rfl
  · rw [createScope, get_create_field Scope.declaring (fun _ _ => rfl), if_neg hs]

/-- A list that grows twice by declarations of a kind has grown by them. -/
theorem Extends.grown {mid env : Environment} (h : mid.Extends env) (P : Declaration → Prop)
    {first second third : List DeclId}
    (before : ∃ new, second = first ++ new ∧ ∀ d ∈ new, mid.Has (.decl d) ∧ P (mid.declaration d))
    (after : ∃ new, third = second ++ new ∧ ∀ d ∈ new, env.Has (.decl d) ∧ P (env.declaration d)) :
    ∃ new, third = first ++ new ∧ ∀ d ∈ new, env.Has (.decl d) ∧ P (env.declaration d) := by
  obtain ⟨new, rfl, plain⟩ := before
  obtain ⟨new', rfl, plain'⟩ := after
  refine ⟨new ++ new', List.append_assoc .., List.forall_mem_append.2 ⟨fun d hd => ?_, plain'⟩⟩
  obtain ⟨has, kind⟩ := plain d hd
  exact ⟨h.has _ has, by rwa [h.decl d has]⟩

end Environment

namespace Collecting

variable {ctx : CollectionContext} {base mid env : Environment}

/-- The tables at two moments of a collection. -/
structure Onward (ctx : CollectionContext) (base env : Environment) : Prop where
  steps : base.Steps ctx.file ctx.Known env
  grows : base.Extends env
  declaring : ∀ s, base.Has (.scope s) →
    (env.scopes.get s).declaring = (base.scopes.get s).declaring
  /-- The scope of the members of a new structured type belongs to it. -/
  owned : ∀ id, ¬base.Has (.struct id) → env.Has (.struct id) →
    env.Has (.scope (env.membersOf id)) ∧
      (env.scopes.get (env.membersOf id)).declaring = some id
  /-- A scope gets no parameters later on. -/
  listed : ∀ s, base.Has (.scope s) → ∃ new,
    env.symbols.declarationsIn s = base.symbols.declarationsIn s ++ new ∧
      ∀ d ∈ new, env.Has (.decl d) ∧ (env.declaration d).kind ≠ .parameter

namespace Onward

theorem refl (ctx : CollectionContext) (env : Environment) : Onward ctx env env where
  steps := .refl
  grows := .refl env
  declaring _ _ := rfl
  owned _ fresh has := absurd has fresh
  listed _ _ := ⟨[], by simp⟩

theorem trans (h : Onward ctx base mid) (g : Onward ctx mid env) : Onward ctx base env where
  steps := h.steps.trans g.steps
  grows := h.grows.trans g.grows
  declaring s hs := (g.declaring s (h.grows.has _ hs)).trans (h.declaring s hs)
  owned id fresh has := by
    by_cases between : mid.Has (.struct id)
    · obtain ⟨scope, own⟩ := h.owned id fresh between
      rw [g.grows.members id between]
      exact ⟨g.grows.has _ scope, (g.declaring _ scope).trans own⟩
    · exact g.owned id between has
  listed s hs := g.grows.grown (·.kind ≠ .parameter) (h.listed s hs) (g.listed s (h.grows.has _ hs))

variable (h : Onward ctx base env)

include h

theorem add (scope : ScopeId) {spec : DeclarationSpec} (untyped : spec.UnitUntyped)
    (plain : spec.kind = .parameter → ¬base.Has (.scope scope)) :
    Onward ctx base (env.add scope spec).2 where
  steps := h.steps.tail (.declare scope spec untyped)
  grows := h.grows.trans (extends_add env scope spec)
  declaring := h.declaring
  owned := h.owned
  listed s hs := by
    refine (extends_add env scope spec).grown (·.kind ≠ .parameter) (h.listed s hs)
      ⟨_, SymbolTable.declarationsIn_add, fun d hd => ?_⟩
    split_ifs at hd with here
    · rw [List.mem_singleton.1 hd]
      have kind := congrArg DeclarationSpec.kind (@declaration_add_new env scope spec).2
      exact ⟨has_add.2 (.inr rfl), fun hk => plain (kind ▸ hk) (here ▸ hs)⟩
    · cases hd

theorem createScope {kind : ScopeKind} (hk : kind ≠ .file) (parent : ScopeId) (name : String) :
    Onward ctx base (env.createScope kind parent name) where
  steps := h.steps.tail (.create kind parent name hk)
  grows := h.grows.trans (extends_createScope env kind parent name)
  declaring s hs := by
    rw [← h.declaring s hs, Environment.createScope, get_create _ _ _ (h.grows.has _ hs)]
  owned id fresh has := by
    obtain ⟨scope, own⟩ := h.owned id fresh has
    refine ⟨(extends_createScope env kind parent name).has _ scope, ?_⟩
    exact (congrArg Scope.declaring (get_create _ _ _ scope)).trans own
  listed := h.listed

/-- A change of one scope that leaves it where it belongs. -/
theorem modifyScope (s : ScopeId) {change : Scope → Scope}
    (step : env.Step ctx.file ctx.Known (env.modifyScope s change))
    (grows : env.Extends (env.modifyScope s change))
    (declaring : ∀ scope, (change scope).declaring = scope.declaring) :
    Onward ctx base (env.modifyScope s change) where
  steps := h.steps.tail step
  grows := h.grows.trans grows
  declaring t ht := (get_modify_field Scope.declaring change declaring).trans
    (h.declaring t ht)
  owned id fresh has := by
    obtain ⟨scope, own⟩ := h.owned id fresh has
    exact ⟨grows.has _ scope, (get_modify_field Scope.declaring change declaring).trans own⟩
  listed := h.listed

/-- A scope that is new comes to belong to a structured type. -/
theorem setDeclaring {s : ScopeId} (fresh : ¬base.Has (.scope s))
    (free : ∀ id, ¬base.Has (.struct id) → env.Has (.struct id) → env.membersOf id ≠ s)
    (declaring : Option StructId) :
    Onward ctx base (env.modifyScope s ({ · with declaring })) where
  steps := h.steps.tail (.adapt s (fun _ => declaring) Scope.helpers)
  grows := h.grows.trans (extends_setDeclaring env s declaring)
  declaring t ht := by
    have other : t ≠ s := by
      rintro rfl
      exact fresh ht
    rw [← h.declaring t ht, Environment.modifyScope, get_modify_of_ne _ other]
  owned id new has := by
    obtain ⟨scope, own⟩ := h.owned id new has
    refine ⟨(extends_setDeclaring env s declaring).has _ scope, ?_⟩
    exact (congrArg Scope.declaring (get_modify_of_ne _ (free id new has))).trans own
  listed := h.listed

theorem announce (name : String) (kind : StructKind) (scope : ScopeId) (forward : Bool) :
    Onward ctx base (env.announce name kind scope forward) where
  steps := ((h.steps.tail (.create .type scope name (by simp))).tail (.types _)).tail
    (.adapt _ (fun _ => some ⟨env.types.structs.size⟩) Scope.helpers)
  grows := h.grows.trans (extends_announce env name kind scope forward)
  declaring s hs := by
    have other : s ≠ ⟨env.scopes.size⟩ := by
      rintro rfl
      exact Nat.lt_irrefl _ (h.grows.has _ hs)
    rw [declaring_announce, if_neg other, h.declaring s hs]
  owned id fresh has := by
    have later := extends_announce env name kind scope forward
    obtain old | rfl := has_announce has
    · obtain ⟨place, own⟩ := h.owned id fresh old
      have other : env.membersOf id ≠ ⟨env.scopes.size⟩ := by
        intro heq
        rw [heq] at place
        exact Nat.lt_irrefl _ place
      rw [later.members id old]
      exact ⟨later.has _ place, by rw [declaring_announce, if_neg other, own]⟩
    · rw [membersOf, structInfo_announce_new]
      refine ⟨?_, by rw [declaring_announce, if_pos rfl]⟩
      exact (extends_setDeclaring _ _ _).has (.scope _)
        ((lt_size_create ..).2 (.inr rfl))
  listed := h.listed

/-- A change of the type table that brings no new structured type. -/
theorem withTypes {types : TypeTable} (grows : env.Extends (env.withTypes types))
    (size : types.structs.size = env.types.structs.size) :
    Onward ctx base (env.withTypes types) where
  steps := h.steps.tail (.types types)
  grows := h.grows.trans grows
  declaring := h.declaring
  owned id fresh has := by
    have old : env.Has (.struct id) := by
      change id.index < types.structs.size at has
      rwa [size] at has
    obtain ⟨scope, own⟩ := h.owned id fresh old
    rw [grows.members id old]
    exact ⟨scope, own⟩
  listed := h.listed

end Onward

/-- The tables at two moments of a collection between which no type is declared or described. -/
structure Calm (ctx : CollectionContext) (base env : Environment) : Prop
    extends Onward ctx base env where
  untyped : ∀ s n, ∃ new, env.symbols.findFolded s n = base.symbols.findFolded s n ++ new ∧
    ∀ d ∈ new, env.Has (.decl d) ∧ (env.declaration d).isType = false
  structs : ∀ id, base.Has (.struct id) → env.types.structInfo id = base.types.structInfo id

namespace Calm

theorem refl (ctx : CollectionContext) (env : Environment) : Calm ctx env env where
  toOnward := .refl ctx env
  untyped _ _ := ⟨[], by simp⟩
  structs _ _ := rfl

theorem trans (h : Calm ctx base mid) (g : Calm ctx mid env) : Calm ctx base env where
  toOnward := h.toOnward.trans g.toOnward
  untyped s n := g.grows.grown (·.isType = false) (h.untyped s n) (g.untyped s n)
  structs id hid := (g.structs id (h.grows.has _ hid)).trans (h.structs id hid)

variable (h : Calm ctx base env)

include h

theorem add (scope : ScopeId) {spec : DeclarationSpec} (unit : spec.UnitUntyped)
    (plain : spec.kind = .parameter → ¬base.Has (.scope scope)) (isType : spec.isType = false) :
    Calm ctx base (env.add scope spec).2 where
  toOnward := h.toOnward.add scope unit plain
  untyped s n := by
    refine (extends_add env scope spec).grown (·.isType = false) (h.untyped s n)
      ⟨_, SymbolTable.findFolded_add n, fun d hd => ?_⟩
    split_ifs at hd
    · rw [List.mem_singleton.1 hd]
      exact ⟨has_add.2 (.inr rfl), by rwa [declaration_add_new.2]⟩
    · cases hd
  structs := h.structs

theorem createScope {kind : ScopeKind} (hk : kind ≠ .file) (parent : ScopeId) (name : String) :
    Calm ctx base (env.createScope kind parent name) where
  toOnward := h.toOnward.createScope hk parent name
  untyped := h.untyped
  structs := h.structs

theorem setDeclaring {s : ScopeId} (fresh : ¬base.Has (.scope s))
    (free : ∀ id, ¬base.Has (.struct id) → env.Has (.struct id) → env.membersOf id ≠ s)
    (declaring : Option StructId) : Calm ctx base (env.modifyScope s ({ · with declaring })) where
  toOnward := h.toOnward.setDeclaring fresh free declaring
  untyped := h.untyped
  structs := h.structs

theorem modifyScope (s : ScopeId) {change : Scope → Scope}
    (step : env.Step ctx.file ctx.Known (env.modifyScope s change))
    (grows : env.Extends (env.modifyScope s change))
    (declaring : ∀ scope, (change scope).declaring = scope.declaring) :
    Calm ctx base (env.modifyScope s change) where
  toOnward := h.toOnward.modifyScope s step grows declaring
  untyped := h.untyped
  structs := h.structs

theorem announce (name : String) (kind : StructKind) (scope : ScopeId) (forward : Bool) :
    Calm ctx base (env.announce name kind scope forward) where
  toOnward := h.toOnward.announce name kind scope forward
  untyped := h.untyped
  structs id hid :=
    (structInfo_announce (h.grows.has _ hid)).trans (h.structs id hid)

/-- A change of the enumerations. -/
theorem withTypes {types : TypeTable} (grows : env.Extends (env.withTypes types))
    (structs : types.structs = env.types.structs) : Calm ctx base (env.withTypes types) where
  toOnward := h.toOnward.withTypes grows (by rw [structs])
  untyped := h.untyped
  structs id hid := by
    rw [← h.structs id hid]
    simp only [Environment.withTypes, TypeTable.structInfo, structs]

end Calm

end Collecting

end Pascal
