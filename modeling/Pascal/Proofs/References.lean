import Pascal.Proofs.Tables

/-!
# References between scopes, declarations and types

What a look-up meets on its way: from a scope to the scopes around it, the units it uses and the
names it holds, from a declaration to the types it mentions, from a type to its members and its
heritage. Every scope, declaration and type belongs to a unit, and a unit sees another one if it
uses it, directly or by way of further units. The types of constants are an exception: a value is
typed once, and a constant with the same value elsewhere has the same type.
-/

namespace Pascal

/-- What look-ups meet. -/
inductive Entity where
  | scope (id : ScopeId)
  | decl (id : DeclId)
  | struct (id : StructId)
  | enum (id : EnumId)
  deriving Repr, DecidableEq

namespace Ty

mutual
/-- The structured types and enumerations that a type is made of. -/
def refs : Ty → List Entity
  | .struct id => [.struct id]
  | .enum id => [.enum id]
  | .pointer target _ _ | .classRef target | .distinct _ target => target.refs
  | .array _ element | .set element => element.refs
  | .procedural _ params result => refsAll params ++ result.refs
  | .bracket elements => refsAll elements
  | _ => []
/-- The structured types and enumerations that several types are made of. -/
def refsAll : List Ty → List Entity
  | [] => []
  | ty :: rest => ty.refs ++ refsAll rest
end

theorem mem_refsAll {tys : List Ty} {x : Entity} : x ∈ refsAll tys ↔ ∃ ty ∈ tys, x ∈ ty.refs := by
  induction tys with
  | nil => simp [refsAll]
  | cons ty rest ih => simp [refsAll, ih]

@[simp] theorem refs_unaliased (ty : Ty) : ty.unaliased.refs = ty.refs := by
  fun_induction unaliased ty with
  | case1 name target ih => simpa [refs] using ih
  | case2 ty h => rfl

theorem struct_mem_refs {ty : Ty} {id : StructId} (h : ty.struct? = some id) :
    .struct id ∈ ty.refs := by
  rw [← refs_unaliased]
  unfold struct? at h
  split at h <;> grind [refs]

end Ty

/-- What a declaration mentions: the types in it and the unit it names. -/
def DeclarationSpec.refs (spec : DeclarationSpec) : List Entity :=
  spec.ty.refs ++
    spec.routine.elim [] (fun routine => Ty.refsAll (routine.result :: routine.params)) ++
    (spec.unitScope.map Entity.scope).toList

/-- What a declaration brings to its unit: the unit that it names, and the types of a constant. The
other types in a declaration are found where it is made. -/
def DeclarationSpec.Brings (spec : DeclarationSpec) (y : Entity) : Prop :=
  y ∈ spec.refs ∧ ((∃ unit, spec.unitScope = some unit ∧ y = .scope unit) ∨ spec.kind = .constant)

namespace Environment

/-- The steps of look-ups. -/
inductive References (env : Environment) : Entity → Entity → Prop
  | parent {s p} : (env.scopes.get s).parent = some p → env.References (.scope s) (.scope p)
  | used {s u} : u ∈ (env.scopes.get s).imports → env.References (.scope s) (.scope u)
  | declaring {s id} : (env.scopes.get s).declaring = some id →
      env.References (.scope s) (.struct id)
  | helper {s ty id} : (ty, id) ∈ (env.scopes.get s).helpers →
      env.References (.scope s) (.struct id)
  | listed {s d} : d ∈ env.symbols.declarationsIn s → env.References (.scope s) (.decl d)
  | named {s n d} : d ∈ env.symbols.findFolded s n → env.References (.scope s) (.decl d)
  | mentioned {d y} : y ∈ (env.declaration d).refs → env.References (.decl d) y
  | members {id} : env.References (.struct id) (.scope (env.membersOf id))
  | heritage {id ty y} : ty ∈ (env.types.structInfo id).parents → y ∈ ty.refs →
      env.References (.struct id) y
  | elements {id} : env.References (.enum id) (.scope (env.types.enumInfo id).scope)
  | base {id ty y} : (env.types.enumInfo id).base = some ty → y ∈ ty.refs →
      env.References (.enum id) y

/-- Whether something has been created. -/
def Has (env : Environment) : Entity → Prop
  | .scope s => s.index < env.scopes.size
  | .decl d => d.index < env.symbols.size
  | .struct id => id.index < env.types.structs.size
  | .enum id => id.index < env.types.enums.size

/-- The file scope of the unit that something belongs to; the System unit has none. -/
def unitOf (env : Environment) : Entity → Option ScopeId
  | .scope s => env.scopes.fileScopeOf? s
  | .decl d => env.scopes.fileScopeOf? (env.declaration d).scope
  | .struct id => env.scopes.fileScopeOf? (env.membersOf id)
  | .enum id => env.scopes.fileScopeOf? (env.types.enumInfo id).scope

/-- One unit draws on another: it is the System unit, or a declaration of the one brings the other
or something of it. -/
def DrawsOn (env : Environment) (unit other : Option ScopeId) : Prop :=
  other = none ∨ ∃ d y, env.Has (.decl d) ∧ env.unitOf (.decl d) = unit ∧
    (env.declaration d).Brings y ∧ env.unitOf y = other

/-- One unit depends on another, directly or by way of further units. -/
def Sees (env : Environment) : Option ScopeId → Option ScopeId → Prop :=
  Relation.ReflTransGen env.DrawsOn

theorem Sees.refl {env : Environment} (unit : Option ScopeId) : env.Sees unit unit :=
  Relation.ReflTransGen.refl

theorem Sees.trans {env : Environment} {a b c : Option ScopeId} (h : env.Sees a b)
    (g : env.Sees b c) : env.Sees a c := Relation.ReflTransGen.trans h g

theorem sees_system {env : Environment} (unit : Option ScopeId) : env.Sees unit none :=
  Relation.ReflTransGen.single (.inl rfl)

/-- Everything in the units that a unit depends on. -/
def seen (env : Environment) (unit : Option ScopeId) : Set Entity :=
  { x | env.Has x ∧ env.Sees unit (env.unitOf x) }

/-- References lead to things there are, in units that are seen. -/
structure Coherent (env : Environment) : Prop where
  nested : ∀ s p, (env.scopes.get s).parent = some p → p.index < s.index
  declared : ∀ d, env.Has (.decl d) → env.Has (.scope (env.declaration d).scope)
  /-- A scope that is still to come has no names. -/
  blank : ∀ s, env.scopes.size ≤ s.index → env.symbols.namesOf s = {}
  exist : ∀ x y, env.Has x → env.References x y → env.Has y
  sight : ∀ x y, env.Has x → env.References x y → env.Sees (env.unitOf x) (env.unitOf y)

theorem Coherent.closed_seen {env : Environment} (h : env.Coherent) {unit : Option ScopeId}
    {x y : Entity} (hx : x ∈ env.seen unit) (hr : env.References x y) : y ∈ env.seen unit :=
  ⟨h.exist x y hx.1 hr, hx.2.trans (h.sight x y hx.1 hr)⟩

theorem mem_seen_of_system {env : Environment} {x : Entity} (h : env.Has x)
    (hx : env.unitOf x = none) (unit : Option ScopeId) : x ∈ env.seen unit :=
  ⟨h, hx ▸ sees_system unit⟩

theorem mem_seen_self {env : Environment} {x : Entity} (h : env.Has x) :
    x ∈ env.seen (env.unitOf x) := ⟨h, Sees.refl _⟩

/-- What can be seen from a scope. -/
def view (env : Environment) (s : ScopeId) : Set Entity := env.seen (env.unitOf (.scope s))

theorem mem_view_self {env : Environment} {s : ScopeId} (h : env.Has (.scope s)) :
    .scope s ∈ env.view s := mem_seen_self h

theorem view_subset_of_mem {env : Environment} {s t : ScopeId} (h : .scope t ∈ env.view s) :
    env.view t ⊆ env.view s :=
  fun _ hx => ⟨hx.1, h.2.trans hx.2⟩

/-- A declaration may be made in a scope if what it mentions is seen from there, or brought by it. -/
def Declarable (env : Environment) (s : ScopeId) (spec : DeclarationSpec) : Prop :=
  ∀ y ∈ spec.refs, y ∈ env.view s ∨ env.Has y ∧ spec.Brings y

/-- Everything there was is still there, in the same place; names and used units are added behind
those there were, and what is described stays so. -/
structure Extends (env env' : Environment) : Prop where
  has : ∀ x, env.Has x → env'.Has x
  parent : ∀ s, env.Has (.scope s) → (env'.scopes.get s).parent = (env.scopes.get s).parent
  kind : ∀ s, env.Has (.scope s) → (env'.scopes.get s).kind = (env.scopes.get s).kind
  decl : ∀ d, env.Has (.decl d) → env'.declaration d = env.declaration d
  members : ∀ id, env.Has (.struct id) → env'.membersOf id = env.membersOf id
  elements : ∀ id, env.Has (.enum id) →
    (env'.types.enumInfo id).scope = (env.types.enumInfo id).scope
  names : ∀ s n, env.Has (.scope s) → env.symbols.findFolded s n <+: env'.symbols.findFolded s n
  imports : ∀ s, env.Has (.scope s) → (env.scopes.get s).imports <+: (env'.scopes.get s).imports
  announced : ∀ id, env.Has (.struct id) → (env'.types.structInfo id).forward = true →
    (env.types.structInfo id).forward = true

theorem Extends.refl (env : Environment) : env.Extends env := by
  constructor
  case names => exact fun _ _ _ => List.prefix_refl _
  case imports => exact fun _ _ => List.prefix_refl _
  all_goals intros
  all_goals first | rfl | assumption

theorem Extends.trans {a b c : Environment} (h : a.Extends b) (g : b.Extends c) : a.Extends c where
  has x hx := g.has x (h.has x hx)
  parent s hs := (g.parent s (h.has _ hs)).trans (h.parent s hs)
  kind s hs := (g.kind s (h.has _ hs)).trans (h.kind s hs)
  decl d hd := (g.decl d (h.has _ hd)).trans (h.decl d hd)
  members id hi := (g.members id (h.has _ hi)).trans (h.members id hi)
  elements id hi := (g.elements id (h.has _ hi)).trans (h.elements id hi)
  names s n hs := (h.names s n hs).trans (g.names s n (h.has _ hs))
  imports s hs := (h.imports s hs).trans (g.imports s (h.has _ hs))
  announced id hi hf := h.announced id hi (g.announced id (h.has _ hi) hf)

section Extension

variable {env env' : Environment} {x y : Entity} {unit other : Option ScopeId}

theorem Coherent.fileScopeOf? (h : env.Coherent) (he : env.Extends env') {s : ScopeId}
    (hs : env.Has (.scope s)) : env'.scopes.fileScopeOf? s = env.scopes.fileScopeOf? s :=
  ScopeTree.fileScopeOf?_congr (fun s p hs hp => Nat.lt_trans (h.nested s p hp) hs)
    he.parent he.kind hs

theorem Coherent.unitOf_eq (h : env.Coherent) (he : env.Extends env') (hx : env.Has x) :
    env'.unitOf x = env.unitOf x := by
  cases x with
  | scope s => exact h.fileScopeOf? he hx
  | decl d =>
    simp only [unitOf, he.decl d hx]
    exact h.fileScopeOf? he (h.declared d hx)
  | struct id =>
    simp only [unitOf, he.members id hx]
    exact h.fileScopeOf? he (h.exist _ _ hx .members)
  | enum id =>
    simp only [unitOf, he.elements id hx]
    exact h.fileScopeOf? he (h.exist _ _ hx .elements)

theorem Coherent.drawsOn (h : env.Coherent) (he : env.Extends env') (hd : env.DrawsOn unit other) :
    env'.DrawsOn unit other := by
  obtain rfl | ⟨d, y, hd, rfl, hy, rfl⟩ := hd
  · exact .inl rfl
  · refine .inr ⟨d, y, he.has _ hd, h.unitOf_eq he hd, ?_,
      h.unitOf_eq he (h.exist _ _ hd (.mentioned hy.1))⟩
    rwa [he.decl d hd]

/-- A unit goes on seeing what it sees. -/
theorem Coherent.sees (h : env.Coherent) (he : env.Extends env') (hs : env.Sees unit other) :
    env'.Sees unit other := Relation.ReflTransGen.mono (fun _ _ => h.drawsOn he) _ _ hs

theorem Coherent.seen_subset (h : env.Coherent) (he : env.Extends env') :
    env.seen unit ⊆ env'.seen unit := by
  rintro x ⟨hx, hs⟩
  refine ⟨he.has x hx, ?_⟩
  rw [h.unitOf_eq he hx]
  exact h.sees he hs

theorem Coherent.view_subset (h : env.Coherent) (he : env.Extends env') {s : ScopeId}
    (hs : env.Has (.scope s)) : env.view s ⊆ env'.view s := by
  simp only [view, h.unitOf_eq he hs]
  exact h.seen_subset he

theorem Coherent.declarable (h : env.Coherent) (he : env.Extends env') {s : ScopeId}
    (hs : env.Has (.scope s)) {spec : DeclarationSpec} (hspec : env.Declarable s spec) :
    env'.Declarable s spec := fun y hy =>
  (hspec y hy).imp (h.view_subset he hs ·) fun hb => ⟨he.has y hb.1, hb.2⟩

/-- Coherence after an extension: only references that are new need to be looked at. -/
theorem Coherent.extend (h : env.Coherent) (he : env.Extends env')
    (nested : ∀ s p, (env'.scopes.get s).parent = some p → p.index < s.index)
    (declared : ∀ d, env'.Has (.decl d) → env'.Has (.scope (env'.declaration d).scope))
    (blank : ∀ s, env'.scopes.size ≤ s.index → env'.symbols.namesOf s = {})
    (new : ∀ x y, env'.Has x → env'.References x y → env.Has x ∧ env.References x y ∨
      env'.Has y ∧ env'.Sees (env'.unitOf x) (env'.unitOf y)) : env'.Coherent where
  nested := nested
  declared := declared
  blank := blank
  exist x y hx hr := by
    obtain ⟨hx, hr⟩ | ⟨hy, -⟩ := new x y hx hr
    · exact he.has y (h.exist x y hx hr)
    · exact hy
  sight x y hx hr := by
    obtain ⟨hx, hr⟩ | ⟨-, hs⟩ := new x y hx hr
    · rw [h.unitOf_eq he hx, h.unitOf_eq he (h.exist x y hx hr)]
      exact h.sees he (h.sight x y hx hr)
    · exact hs

end Extension

end Environment

end Pascal
