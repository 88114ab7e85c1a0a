import Pascal.Proofs.References

/-!
# Coherence of the tables

Every step by which the tables grow keeps them coherent: a new scope, a new declaration, a new type,
a description of a type, a helper, a used unit. So do the steps that take something away.
-/

namespace Pascal.Environment

open TypeTable ScopeTree SymbolTable

variable {env env' : Environment}

/-- The tables after a scope is created below another. -/
def createScope (env : Environment) (kind : ScopeKind) (parent : ScopeId) (name : String) :
    Environment := { env with scopes := (env.scopes.create kind (some parent) name).2 }

/-- The tables after a change of one scope. -/
def modifyScope (env : Environment) (s : ScopeId) (change : Scope → Scope) : Environment :=
  { env with scopes := env.scopes.modify s change }

/-- The tables with another type table. -/
def withTypes (env : Environment) (types : TypeTable) : Environment := { env with types }

/-- An entity refers to the same things in two environments. -/
def SameAt (env env' : Environment) : Entity → Prop
  | .scope s => (env'.scopes.get s).parent = (env.scopes.get s).parent ∧
      (env'.scopes.get s).imports = (env.scopes.get s).imports ∧
      (env'.scopes.get s).declaring = (env.scopes.get s).declaring ∧
      (env'.scopes.get s).helpers = (env.scopes.get s).helpers ∧
      env'.symbols.namesOf s = env.symbols.namesOf s
  | .decl d => env'.declaration d = env.declaration d
  | .struct id => (env'.types.structInfo id).scope = (env.types.structInfo id).scope ∧
      (env'.types.structInfo id).parents = (env.types.structInfo id).parents
  | .enum id => (env'.types.enumInfo id).scope = (env.types.enumInfo id).scope ∧
      (env'.types.enumInfo id).base = (env.types.enumInfo id).base

theorem SameAt.references {x y : Entity} (h : env.SameAt env' x) (hr : env'.References x y) :
    env.References x y := by
  cases hr with
  | parent hp => exact .parent (h.1 ▸ hp)
  | used hu => exact .used (h.2.1 ▸ hu)
  | declaring hd => exact .declaring (h.2.2.1 ▸ hd)
  | helper hm => exact .helper (h.2.2.2.1 ▸ hm)
  | listed hd =>
    refine .listed ?_
    rwa [declarationsIn, ← h.2.2.2.2]
  | @named s n d hd =>
    refine .named (n := n) ?_
    rwa [findFolded, ← h.2.2.2.2]
  | mentioned hy =>
    refine .mentioned ?_
    rwa [← show env'.declaration _ = _ from h]
  | members =>
    rw [membersOf, h.1]
    exact .members
  | heritage hty hy => exact .heritage (h.2 ▸ hty) hy
  | elements =>
    rw [h.1]
    exact .elements
  | base hb hy => exact .base (h.2 ▸ hb) hy

/-- Coherence after an extension, when all that is new stands at some entities. -/
theorem Coherent.extendAt (h : env.Coherent) (he : env.Extends env') (new : Entity → Prop)
    (same : ∀ x, env'.Has x → ¬new x → env.Has x ∧ env.SameAt env' x)
    (nested : ∀ s p, (env'.scopes.get s).parent = some p → p.index < s.index)
    (declared : ∀ d, env'.Has (.decl d) → env'.Has (.scope (env'.declaration d).scope))
    (blank : ∀ s, env'.scopes.size ≤ s.index → env'.symbols.namesOf s = {})
    (sight : ∀ x y, new x → env'.Has x → env'.References x y → env.Has x ∧ env.References x y ∨
      env'.Has y ∧ env'.Sees (env'.unitOf x) (env'.unitOf y)) : env'.Coherent := by
  refine h.extend he nested declared blank fun x y hx hr => ?_
  by_cases hn : new x
  · exact sight x y hn hx hr
  · obtain ⟨hx, hsame⟩ := same x hx hn
    exact .inl ⟨hx, hsame.references hr⟩

/-! ## A new scope -/

theorem extends_createScope (env : Environment) (kind : ScopeKind) (p : ScopeId) (name : String) :
    env.Extends (env.createScope kind p name) where
  has x hx := by
    cases x with
    | scope s => exact (lt_size_create ..).2 (.inl hx)
    | _ => exact hx
  parent s hs := by simp only [createScope, get_create _ _ _ hs]
  kind s hs := by simp only [createScope, get_create _ _ _ hs]
  decl _ _ := rfl
  members _ _ := rfl
  elements _ _ := rfl
  names _ _ _ := List.prefix_refl _
  imports s hs := by
    simp only [createScope, get_create _ _ _ hs]
    exact List.prefix_refl _
  announced _ _ hf := hf

theorem get_createScope_new {p : ScopeId} (hp : env.Has (.scope p)) (kind : ScopeKind)
    (name : String) : (env.createScope kind p name).scopes.get ⟨env.scopes.size⟩ =
      { kind, name, parent := some p, frozen := env.scopes.startsFrozen (some p) } :=
  get_create_new _ _ _ (by rintro _ ⟨⟩; exact hp)

theorem has_createScope {kind : ScopeKind} {p s : ScopeId} {name : String} :
    (env.createScope kind p name).Has (.scope s) ↔ env.Has (.scope s) ∨ s = ⟨env.scopes.size⟩ :=
  lt_size_create ..

theorem unitOf_createScope_new (h : env.Coherent) {p : ScopeId} (hp : env.Has (.scope p))
    {kind : ScopeKind} (hk : kind ≠ .file) (name : String) :
    (env.createScope kind p name).unitOf (.scope ⟨env.scopes.size⟩) = env.unitOf (.scope p) := by
  have hnew := get_createScope_new hp kind name
  have hunit := @fileScopeOf?_of_parent (env.createScope kind p name).scopes
    ⟨env.scopes.size⟩ p (by rw [hnew]) hp (by rw [hnew]; exact hk)
  exact hunit.trans (h.fileScopeOf? (extends_createScope env kind p name) hp)

/-- A new scope sees its parent: it belongs to the same unit, or is a unit of its own below the
System unit. -/
theorem Coherent.create (h : env.Coherent) {p : ScopeId} (hp : env.Has (.scope p))
    {kind : ScopeKind} (hk : kind ≠ .file ∨ env.unitOf (.scope p) = none) (name : String) :
    (env.createScope kind p name).Coherent := by
  have hext := extends_createScope env kind p name
  have hnew := get_createScope_new hp kind name
  have blank := h.blank ⟨env.scopes.size⟩ (Nat.le_refl _)
  refine h.extendAt hext (fun x => x = .scope ⟨env.scopes.size⟩) ?_ ?_
    (fun d hd => hext.has _ (h.declared d hd)) ?_ ?_
  · intro x hx hne
    cases x with
    | scope s =>
      obtain hs | rfl := has_createScope.1 hx
      · refine ⟨hs, ?_⟩
        simp only [SameAt, createScope, get_create _ _ _ hs, and_self]
      · exact absurd rfl hne
    | decl d => exact ⟨hx, rfl⟩
    | struct id => exact ⟨hx, rfl, rfl⟩
    | enum id => exact ⟨hx, rfl, rfl⟩
  · intro s q hq
    by_cases hs : (env.createScope kind p name).Has (.scope s)
    · obtain hs | rfl := has_createScope.1 hs
      · rw [hext.parent s hs] at hq
        exact h.nested s q hq
      · rw [hnew] at hq
        cases hq
        exact hp
    · rw [get_eq_default (Nat.le_of_not_lt hs)] at hq
      cases hq
  · intro s hs
    refine h.blank s (Nat.le_of_succ_le ?_)
    simpa [createScope] using hs
  · rintro _ y rfl - hr
    refine .inr ?_
    cases hr with
    | parent hq =>
      rw [hnew] at hq
      cases hq
      refine ⟨hext.has _ hp, ?_⟩
      rw [h.unitOf_eq hext (x := .scope p) hp]
      obtain hk | hk := hk
      · rw [unitOf_createScope_new h hp hk name]
        exact Sees.refl _
      · rw [hk]
        exact sees_system _
    | used hu => simp [hnew] at hu
    | declaring hd => simp [hnew] at hd
    | helper hm => simp [hnew] at hm
    | listed hd => simp [createScope, declarationsIn, blank] at hd
    | named hd => simp [createScope, findFolded, blank] at hd

/-! ## A new declaration -/

section Add

variable {s : ScopeId} {spec : DeclarationSpec}

theorem extends_add (env : Environment) (s : ScopeId) (spec : DeclarationSpec) :
    env.Extends (env.add s spec).2 where
  has x hx := by
    cases x with
    | decl d =>
      simp only [Has, add, size_add] at hx ⊢
      exact Nat.lt_succ_of_lt hx
    | _ => exact hx
  parent _ _ := rfl
  kind _ _ := rfl
  decl _ hd := get_add_of_lt hd
  members _ _ := rfl
  elements _ _ := rfl
  names t n _ := by
    simp only [add, findFolded_add]
    exact List.prefix_append _ _
  imports _ _ := List.prefix_refl _
  announced _ _ hf := hf

theorem has_add {d : DeclId} :
    (env.add s spec).2.Has (.decl d) ↔ env.Has (.decl d) ∨ d = ⟨env.symbols.size⟩ := by
  simp only [Has, add, size_add, ← DeclId.index_inj]
  exact Nat.lt_succ_iff_lt_or_eq

theorem declaration_add_new : ((env.add s spec).2.declaration ⟨env.symbols.size⟩).scope = s ∧
    ((env.add s spec).2.declaration ⟨env.symbols.size⟩).toDeclarationSpec = spec := by
  simp only [declaration, add]
  rw [get_add_new]
  exact ⟨rfl, rfl⟩

theorem mem_view_add : .decl ⟨env.symbols.size⟩ ∈ (env.add s spec).2.view s := by
  refine ⟨has_add.2 (.inr rfl), ?_⟩
  simp only [unitOf, declaration_add_new.1]
  exact Sees.refl _

/-- What a scope is known to name after a declaration is made in another. -/
theorem names_add {t : ScopeId} (y : Entity) (hr : (env.add s spec).2.References (.scope t) y) :
    env.References (.scope t) y ∨ t = s ∧ y = .decl ⟨env.symbols.size⟩ := by
  cases hr with
  | parent hp => exact .inl (.parent hp)
  | used hu => exact .inl (.used hu)
  | declaring hd => exact .inl (.declaring hd)
  | helper hm => exact .inl (.helper hm)
  | listed hd =>
    simp only [add, declarationsIn_add, List.mem_append] at hd
    obtain hd | hd := hd
    · exact .inl (.listed hd)
    · split_ifs at hd with heq
      · exact .inr ⟨heq, congrArg _ (List.mem_singleton.1 hd)⟩
      · simp at hd
  | named hd =>
    simp only [add, findFolded_add, List.mem_append] at hd
    obtain hd | hd := hd
    · exact .inl (.named hd)
    · split_ifs at hd with heq
      · exact .inr ⟨heq.1, congrArg _ (List.mem_singleton.1 hd)⟩
      · simp at hd

/-- A unit draws on everything that its declarations bring. -/
theorem sees_of_brings {d : DeclId} {y : Entity} (hd : env.Has (.decl d))
    (hy : (env.declaration d).Brings y) : env.Sees (env.unitOf (.decl d)) (env.unitOf y) :=
  Relation.ReflTransGen.single (.inr ⟨d, y, hd, rfl, hy, rfl⟩)

theorem Coherent.add (h : env.Coherent) (hs : env.Has (.scope s)) (hspec : env.Declarable s spec) :
    (env.add s spec).2.Coherent := by
  have hext := extends_add env s spec
  obtain ⟨hscope, hrefs⟩ := @declaration_add_new env s spec
  have hnew : (env.add s spec).2.Has (.decl ⟨env.symbols.size⟩) := has_add.2 (.inr rfl)
  refine h.extend hext h.nested ?_ ?_ ?_
  · intro d hd
    obtain hd | rfl := has_add.1 hd
    · rw [hext.decl d hd]
      exact h.declared d hd
    · rw [hscope]
      exact hs
  · intro t ht
    simp only [Environment.add, namesOf_add]
    split_ifs with heq
    · subst heq
      exact absurd hs (Nat.not_lt.2 ht)
    · exact h.blank t ht
  · intro x y hx hr
    cases x with
    | scope t =>
      obtain hr | ⟨rfl, rfl⟩ := names_add y hr
      · exact .inl ⟨hx, hr⟩
      · refine .inr ⟨hnew, ?_⟩
        simp only [unitOf, hscope]
        exact Sees.refl _
    | decl d =>
      obtain hd | rfl := has_add.1 hx
      · have same : env.SameAt (env.add s spec).2 (.decl d) := hext.decl d hd
        exact .inl ⟨hd, same.references hr⟩
      · cases hr with
        | mentioned hy =>
          rw [hrefs] at hy
          obtain ⟨hin, hsees⟩ | ⟨hin, brings⟩ := hspec y hy
          · have unit : (env.add s spec).2.unitOf (.decl ⟨env.symbols.size⟩) =
                env.unitOf (.scope s) := congrArg env.scopes.fileScopeOf? hscope
            rw [unit, h.unitOf_eq hext hin]
            exact .inr ⟨hext.has y hin, h.sees hext hsees⟩
          · exact .inr ⟨hext.has y hin, sees_of_brings hnew (by rwa [hrefs])⟩
    | struct id =>
      have same : env.SameAt (env.add s spec).2 (.struct id) := ⟨rfl, rfl⟩
      exact .inl ⟨hx, same.references hr⟩
    | enum id =>
      have same : env.SameAt (env.add s spec).2 (.enum id) := ⟨rfl, rfl⟩
      exact .inl ⟨hx, same.references hr⟩

end Add

/-! ## New types -/

theorem extends_withTypes {types : TypeTable}
    (structs : env.types.structs.size ≤ types.structs.size)
    (enums : env.types.enums.size ≤ types.enums.size)
    (members : ∀ id, env.Has (.struct id) →
      (types.structInfo id).scope = (env.types.structInfo id).scope)
    (elements : ∀ id, env.Has (.enum id) →
      (types.enumInfo id).scope = (env.types.enumInfo id).scope)
    (announced : ∀ id, env.Has (.struct id) → (types.structInfo id).forward = true →
      (env.types.structInfo id).forward = true) :
    env.Extends (env.withTypes types) where
  has x hx := by
    cases x with
    | struct id => exact Nat.lt_of_lt_of_le hx structs
    | enum id => exact Nat.lt_of_lt_of_le hx enums
    | _ => exact hx
  parent _ _ := rfl
  kind _ _ := rfl
  decl _ _ := rfl
  members := members
  elements := elements
  names _ _ _ := List.prefix_refl _
  imports _ _ := List.prefix_refl _
  announced := announced

/-- Coherence after a change of the type table. -/
theorem Coherent.withTypes (h : env.Coherent) {types : TypeTable}
    (hext : env.Extends (env.withTypes types)) (new : Entity → Prop)
    (structs : ∀ id, (env.withTypes types).Has (.struct id) → ¬new (.struct id) →
      env.Has (.struct id) ∧ env.SameAt (env.withTypes types) (.struct id))
    (enums : ∀ id, (env.withTypes types).Has (.enum id) → ¬new (.enum id) →
      env.Has (.enum id) ∧ env.SameAt (env.withTypes types) (.enum id))
    (sight : ∀ x y, new x → (env.withTypes types).Has x → (env.withTypes types).References x y →
      env.Has x ∧ env.References x y ∨ (env.withTypes types).Has y ∧
        (env.withTypes types).Sees ((env.withTypes types).unitOf x)
          ((env.withTypes types).unitOf y)) : (env.withTypes types).Coherent := by
  refine h.extendAt hext new (fun x hx hn => ?_) h.nested h.declared h.blank sight
  cases x with
  | scope s => exact ⟨hx, rfl, rfl, rfl, rfl, rfl⟩
  | decl d => exact ⟨hx, rfl⟩
  | struct id => exact structs id hx hn
  | enum id => exact enums id hx hn

theorem extends_declareStruct (env : Environment) (image : String) (kind : StructKind)
    (members : ScopeId) (forward : Bool) :
    env.Extends (env.withTypes (env.types.declareStruct image kind members forward).2) := by
  refine extends_withTypes ?_ (Nat.le_refl _) ?_ (fun _ _ => rfl) ?_
  · simp [TypeTable.declareStruct]
  · intro id hid
    rw [structInfo_declareStruct_of_lt _ _ _ _ hid]
  · intro id hid hf
    rwa [structInfo_declareStruct_of_lt _ _ _ _ hid] at hf

theorem Coherent.declareStruct (h : env.Coherent) (image : String) (kind : StructKind)
    {members : ScopeId} (hm : env.Has (.scope members)) (forward : Bool) :
    (env.withTypes (env.types.declareStruct image kind members forward).2).Coherent := by
  have hnew := env.types.structInfo_declareStruct_new image kind members forward
  refine h.withTypes (extends_declareStruct ..) (fun x => x = .struct ⟨env.types.structs.size⟩)
    (fun id hx hne => ?_) (fun id hx _ => ⟨hx, rfl, rfl⟩) ?_
  · have hid : env.Has (.struct id) := by
      have hle : id.index ≤ env.types.structs.size := by
        simpa [Has, Environment.withTypes, TypeTable.declareStruct, Nat.lt_succ_iff] using hx
      refine Nat.lt_of_le_of_ne hle fun heq => hne ?_
      rw [← heq]
    refine ⟨hid, ?_⟩
    simp only [SameAt, Environment.withTypes, structInfo_declareStruct_of_lt _ _ _ _ hid, and_self]
  · rintro _ y rfl - hr
    refine .inr ?_
    cases hr with
    | members =>
      refine ⟨?_, Sees.refl _⟩
      simp only [membersOf, Environment.withTypes, hnew]
      exact hm
    | heritage hty hy => simp [Environment.withTypes, hnew] at hty

theorem extends_declareEnum (env : Environment) (image : String) (elements : ScopeId) :
    env.Extends (env.withTypes (env.types.declareEnum image elements none).2) := by
  refine extends_withTypes (Nat.le_refl _) ?_ (fun _ _ => rfl) ?_ fun _ _ hf => hf
  · simp [TypeTable.declareEnum]
  · intro id hid
    rw [enumInfo_declareEnum_of_lt _ _ _ hid]

theorem Coherent.declareEnum (h : env.Coherent) (image : String) {elements : ScopeId}
    (he : env.Has (.scope elements)) :
    (env.withTypes (env.types.declareEnum image elements none).2).Coherent := by
  have hnew := env.types.enumInfo_declareEnum_new image elements none
  refine h.withTypes (extends_declareEnum ..) (fun x => x = .enum ⟨env.types.enums.size⟩)
    (fun id hx _ => ⟨hx, rfl, rfl⟩) (fun id hx hne => ?_) ?_
  · have hid : env.Has (.enum id) := by
      have hle : id.index ≤ env.types.enums.size := by
        simpa [Has, Environment.withTypes, TypeTable.declareEnum, Nat.lt_succ_iff] using hx
      refine Nat.lt_of_le_of_ne hle fun heq => hne ?_
      rw [← heq]
    refine ⟨hid, ?_⟩
    simp only [SameAt, Environment.withTypes, enumInfo_declareEnum_of_lt _ _ _ hid, and_self]
  · rintro _ y rfl - hr
    refine .inr ?_
    cases hr with
    | elements =>
      refine ⟨?_, Sees.refl _⟩
      simp only [Environment.withTypes, hnew]
      exact he
    | base hb hy => simp [Environment.withTypes, hnew] at hb

theorem extends_addElement (env : Environment) (id : EnumId) (element : String) :
    env.Extends (env.withTypes (env.types.addElement id element)) := by
  refine extends_withTypes (Nat.le_refl _) ?_ (fun _ _ => rfl) ?_ fun _ _ hf => hf
  · simp [TypeTable.addElement]
  · exact fun _ _ => enumInfo_addElement_field EnumInfo.scope _ _ fun _ => rfl

theorem Coherent.addElement (h : env.Coherent) (id : EnumId) (element : String) :
    (env.withTypes (env.types.addElement id element)).Coherent := by
  refine h.withTypes (extends_addElement ..) (fun _ => False) (fun id hx _ => ⟨hx, rfl, rfl⟩)
    (fun e hx _ => ⟨?_, ?_, ?_⟩) (by rintro _ _ ⟨⟩)
  · simpa [Has, Environment.withTypes, TypeTable.addElement] using hx
  · exact enumInfo_addElement_field EnumInfo.scope _ _ fun _ => rfl
  · exact enumInfo_addElement_field EnumInfo.base _ _ fun _ => rfl

/-! ## Descriptions -/

section Describe

variable {struct : StructId} {parents : List Ty} {helped : Option Ty}

theorem extends_completeStruct (parents : List Ty) (helped : Option Ty)
    (hs : env.Has (.struct struct)) :
    env.Extends (env.withTypes (env.types.completeStruct struct parents helped)) := by
  refine extends_withTypes ?_ (Nat.le_refl _) ?_ (fun _ _ => rfl) ?_
  · simp [TypeTable.completeStruct]
  · intro id _
    rw [structInfo_completeStruct _ _ _ hs]
    split_ifs <;> rfl
  · intro id _ hf
    rw [structInfo_completeStruct _ _ _ hs] at hf
    split_ifs at hf
    exact hf

theorem Coherent.completeStruct (h : env.Coherent) (hs : env.Has (.struct struct))
    (hp : ∀ ty ∈ parents, ∀ y ∈ ty.refs, y ∈ env.seen (env.unitOf (.struct struct)))
    (helped : Option Ty) :
    (env.withTypes (env.types.completeStruct struct parents helped)).Coherent := by
  have hext := extends_completeStruct parents helped hs
  refine h.withTypes hext (fun x => x = .struct struct) (fun id hx hne => ⟨?_, ?_⟩)
    (fun id hx _ => ⟨hx, rfl, rfl⟩) ?_
  · simpa [Has, Environment.withTypes, TypeTable.completeStruct] using hx
  · have hid : id ≠ struct := fun heq => hne (heq ▸ rfl)
    simp only [SameAt, Environment.withTypes, structInfo_completeStruct _ _ _ hs,
      if_neg hid, and_self]
  · rintro _ y rfl - hr
    cases hr with
    | members =>
      refine .inl ⟨hs, ?_⟩
      rw [hext.members struct hs]
      exact .members
    | heritage hty hy =>
      simp only [Environment.withTypes, structInfo_completeStruct _ _ _ hs, if_pos] at hty
      obtain ⟨hy, hsees⟩ := hp _ hty y hy
      refine .inr ⟨hext.has y hy, ?_⟩
      rw [h.unitOf_eq hext hy, h.unitOf_eq hext (x := .struct struct) hs]
      exact h.sees hext hsees

theorem extends_modifyScope (env : Environment) (s : ScopeId) {change : Scope → Scope}
    (parent : ∀ scope, (change scope).parent = scope.parent)
    (kind : ∀ scope, (change scope).kind = scope.kind)
    (imports : ∀ scope, scope.imports <+: (change scope).imports) :
    env.Extends (env.modifyScope s change) where
  has x hx := by
    cases x with
    | scope t => simpa [Has, modifyScope] using hx
    | _ => exact hx
  parent _ _ := get_modify_field Scope.parent change parent
  kind _ _ := get_modify_field Scope.kind change kind
  decl _ _ := rfl
  members _ _ := rfl
  elements _ _ := rfl
  names _ _ _ := List.prefix_refl _
  imports t _ := by
    obtain heq | ⟨rfl, -, heq⟩ := @get_modify_eq_or env.scopes s t change
    · rewrite [modifyScope, heq]
      exact List.prefix_refl _
    · rewrite [modifyScope, heq]
      exact imports _
  announced _ _ hf := hf

/-- Coherence after a change of one scope. -/
theorem Coherent.modifyScope (h : env.Coherent) {s : ScopeId} {change : Scope → Scope}
    (hext : env.Extends (env.modifyScope s change))
    (parent : ∀ scope, (change scope).parent = scope.parent)
    (sight : ∀ y, env.Has (.scope s) → (env.modifyScope s change).References (.scope s) y →
      env.References (.scope s) y ∨ env.Has y ∧ env.Sees (env.unitOf (.scope s)) (env.unitOf y)) :
    (env.modifyScope s change).Coherent := by
  have hsize : ∀ t, (env.modifyScope s change).Has (.scope t) → env.Has (.scope t) := by
    simp [Has, Environment.modifyScope]
  refine h.extendAt hext (fun x => x = .scope s) ?_ ?_ ?_ ?_ ?_
  · intro x hx hne
    cases x with
    | scope t =>
      have hts : t ≠ s := fun heq => hne (heq ▸ rfl)
      refine ⟨hsize t hx, ?_⟩
      simp only [SameAt, Environment.modifyScope, get_modify_of_ne _ hts, and_self]
    | decl d => exact ⟨hx, rfl⟩
    | struct id => exact ⟨hx, rfl, rfl⟩
    | enum id => exact ⟨hx, rfl, rfl⟩
  · intro t p hp
    apply h.nested t p
    rwa [← get_modify_field Scope.parent change parent]
  · exact fun d hd => hext.has _ (h.declared d hd)
  · intro t ht
    apply h.blank t
    simpa [Environment.modifyScope] using ht
  · rintro _ y rfl hx hr
    have hs := hsize s hx
    obtain hr | ⟨hy, hsees⟩ := sight y hs hr
    · exact .inl ⟨hs, hr⟩
    · refine .inr ⟨hext.has y hy, ?_⟩
      rw [h.unitOf_eq hext hy, h.unitOf_eq hext (x := .scope s) hs]
      exact h.sees hext hsees

/-- Coherence after a change of what one scope belongs to, imports and helps. -/
theorem Coherent.changeScope (h : env.Coherent) {s : ScopeId} {change : Scope → Scope}
    (hext : env.Extends (env.modifyScope s change))
    (parent : ∀ scope, (change scope).parent = scope.parent)
    (imports : ∀ used ∈ (change (env.scopes.get s)).imports,
      used ∈ (env.scopes.get s).imports ∨ .scope used ∈ env.seen (env.unitOf (.scope s)))
    (declaring : ∀ id, (change (env.scopes.get s)).declaring = some id →
      (env.scopes.get s).declaring = some id ∨ .struct id ∈ env.seen (env.unitOf (.scope s)))
    (helpers : ∀ ty id, (ty, id) ∈ (change (env.scopes.get s)).helpers →
      (ty, id) ∈ (env.scopes.get s).helpers ∨ .struct id ∈ env.seen (env.unitOf (.scope s))) :
    (env.modifyScope s change).Coherent := by
  refine h.modifyScope hext parent fun y hs hr => ?_
  have hget : (env.modifyScope s change).scopes.get s = change (env.scopes.get s) := by
    rw [Environment.modifyScope, get_modify change hs, if_pos rfl]
  cases hr with
  | parent hp => exact .inl (.parent (by rwa [hget, parent] at hp))
  | used hu => exact (imports _ (hget ▸ hu)).imp .used id
  | declaring hid => exact (declaring _ (hget ▸ hid)).imp .declaring id
  | helper hm => exact (helpers _ _ (hget ▸ hm)).imp .helper id
  | listed hl => exact .inl (.listed hl)
  | named hl => exact .inl (.named hl)

theorem extends_setDeclaring (env : Environment) (s : ScopeId) (declaring : Option StructId) :
    env.Extends (env.modifyScope s ({ · with declaring })) :=
  extends_modifyScope env s (fun _ => rfl) (fun _ => rfl) fun _ => List.prefix_refl _

theorem Coherent.setDeclaring (h : env.Coherent) {s : ScopeId} {declaring : Option StructId}
    (hd : ∀ id, declaring = some id → .struct id ∈ env.seen (env.unitOf (.scope s))) :
    (env.modifyScope s ({ · with declaring })).Coherent := by
  refine h.changeScope (extends_setDeclaring ..) (fun _ => rfl) (fun _ => .inl) ?_ fun _ _ => .inl
  exact fun id hid => .inr (hd id hid)

theorem extends_registerHelper (env : Environment) (s : ScopeId) (target : Ty) (struct : StructId) :
    env.Extends (env.modifyScope s fun scope =>
      { scope with
        helpers := (target, struct) :: scope.helpers.filter fun entry => entry.1 ≠ target }) :=
  extends_modifyScope env s (fun _ => rfl) (fun _ => rfl) fun _ => List.prefix_refl _

theorem Coherent.registerHelper (h : env.Coherent) {s : ScopeId} (target : Ty)
    (hd : .struct struct ∈ env.seen (env.unitOf (.scope s))) :
    (env.modifyScope s fun scope => { scope with
      helpers := (target, struct) ::
        scope.helpers.filter fun entry => entry.1 ≠ target }).Coherent := by
  refine h.changeScope (extends_registerHelper ..) (fun _ => rfl) (fun _ => .inl) (fun _ => .inl) ?_
  intro ty id hm
  obtain hm | hm := List.mem_cons.1 hm
  · cases hm
    exact .inr hd
  · exact .inl (List.mem_filter.1 hm).1

end Describe

/-! ## A used unit -/

section Import

variable {file used : ScopeId} {spec : DeclarationSpec}

/-- The tables after a unit is used: it stands among the used units, and its name is declared. -/
def importUnit (env : Environment) (file used : ScopeId) (spec : DeclarationSpec) : Environment :=
  ((env.modifyScope file fun s => { s with imports := s.imports ++ [used] }).add file spec).2

theorem extends_importUnit (env : Environment) (file used : ScopeId) (spec : DeclarationSpec) :
    env.Extends (env.importUnit file used spec) := by
  have first := @extends_modifyScope env file (fun s => { s with imports := s.imports ++ [used] })
    (fun _ => rfl) (fun _ => rfl) fun _ => List.prefix_append _ _
  exact first.trans (extends_add ..)

theorem declaration_importUnit_new :
    ((env.importUnit file used spec).declaration ⟨env.symbols.size⟩).scope = file ∧
      ((env.importUnit file used spec).declaration ⟨env.symbols.size⟩).toDeclarationSpec = spec :=
  declaration_add_new

/-- It does not matter whether the unit is used before its name is declared or after. -/
theorem importUnit_eq (env : Environment) (file used : ScopeId) (spec : DeclarationSpec) :
    env.importUnit file used spec = (env.add file spec).2.modifyScope file fun s =>
      { s with imports := s.imports ++ [used] } := by
  let scopes := env.scopes.modify file fun s => { s with imports := s.imports ++ [used] }
  have field : ∀ {α : Type} (field : Scope → α), (∀ s imports, field { s with imports } = field s) →
      ∀ s, field (scopes.get s) = field (env.scopes.get s) := fun field same s =>
    get_modify_field field _ fun s => same s _
  have chain : scopes.chain file = env.scopes.chain file :=
    @chain_congr _ _ _ (fun _ => True) (fun _ _ _ _ => trivial)
      (fun s _ => field Scope.parent (fun _ _ => rfl) s) trivial
  have qualified : scopes.qualify file spec.name = env.scopes.qualify file spec.name := by
    have kind : ∀ s, (scopes.get s).kind = _ := field Scope.kind fun _ _ => rfl
    have name : ∀ s, (scopes.get s).name = _ := field Scope.name fun _ _ => rfl
    simp only [qualify, chain, List.filter_map, List.map_map, Function.comp_def, kind, name]
  change Environment.mk scopes (env.symbols.add scopes file spec).2 env.types = _
  simp only [SymbolTable.add, qualified]
  rfl

/-- The declaration of a used unit is what makes the unit seen. -/
theorem Coherent.importUnit (h : env.Coherent) (hf : env.Has (.scope file))
    (hspec : env.Declarable file spec) (hu : spec.unitScope = some used) :
    (env.importUnit file used spec).Coherent := by
  rw [importUnit_eq]
  have added := h.add hf hspec
  have grows := extends_add env file spec
  obtain ⟨hscope, hrefs⟩ := @declaration_add_new env file spec
  have hnew : (env.add file spec).2.Has (.decl ⟨env.symbols.size⟩) := has_add.2 (.inr rfl)
  have hused : spec.Brings (.scope used) :=
    ⟨by simp [DeclarationSpec.refs, hu], .inl ⟨used, hu, rfl⟩⟩
  refine added.changeScope ?_ (fun _ => rfl) (fun other hother => ?_) (fun _ => .inl)
    fun _ _ => .inl
  · exact extends_modifyScope _ file (fun _ => rfl) (fun _ => rfl) fun _ => List.prefix_append _ _
  · obtain hother | hother := List.mem_append.1 hother
    · exact .inl hother
    · cases List.mem_singleton.1 hother
      have hsees := sees_of_brings (y := .scope used) hnew (by rwa [hrefs])
      simp only [unitOf, hscope] at hsees
      have hin : env.Has (.scope used) := (hspec _ hused.1).elim (·.1) (·.1)
      exact .inr ⟨grows.has _ hin, hsees⟩

end Import

/-! ## Nothing new -/

/-- Nothing has come, gone or moved. -/
structure Unmoved (env env' : Environment) : Prop where
  has : ∀ x, env'.Has x ↔ env.Has x
  parent : ∀ s, (env'.scopes.get s).parent = (env.scopes.get s).parent
  kind : ∀ s, (env'.scopes.get s).kind = (env.scopes.get s).kind
  decl : ∀ d, env'.declaration d = env.declaration d
  members : ∀ id, env'.membersOf id = env.membersOf id
  elements : ∀ id, (env'.types.enumInfo id).scope = (env.types.enumInfo id).scope

theorem Unmoved.unitOf (h : env.Unmoved env') (x : Entity) : env'.unitOf x = env.unitOf x := by
  have file : ∀ s, env'.scopes.fileScopeOf? s = env.scopes.fileScopeOf? s := fun s =>
    @fileScopeOf?_congr _ s _ (fun _ => True) (fun _ _ _ _ => trivial)
      (fun s _ => h.parent s) (fun s _ => h.kind s) trivial
  cases x with
  | scope s => exact file s
  | decl d => simp only [Environment.unitOf, file, h.decl]
  | struct id => simp only [Environment.unitOf, file, h.members]
  | enum id => simp only [Environment.unitOf, file, h.elements]

theorem Unmoved.sees (h : env.Unmoved env') {unit other : Option ScopeId}
    (hs : env.Sees unit other) : env'.Sees unit other := by
  refine Relation.ReflTransGen.mono ?_ _ _ hs
  rintro unit other (rfl | ⟨d, y, hd, rfl, hy, rfl⟩)
  · exact .inl rfl
  · refine .inr ⟨d, y, (h.has _).2 hd, h.unitOf _, ?_, h.unitOf _⟩
    rwa [h.decl]

/-- Tables that lose references but nothing else stay coherent. -/
theorem Coherent.shrink (h : env.Coherent) (hu : env.Unmoved env')
    (references : ∀ x y, env'.References x y → env.References x y)
    (blank : ∀ s, env.symbols.namesOf s = {} → env'.symbols.namesOf s = {}) : env'.Coherent where
  nested s p hp := h.nested s p (hu.parent s ▸ hp)
  declared d hd := by
    rw [hu.decl]
    exact (hu.has _).2 (h.declared d ((hu.has _).1 hd))
  blank s hs := by
    refine blank s (h.blank s (Nat.le_of_not_lt fun hlt => ?_))
    exact absurd ((hu.has (.scope s)).2 hlt) (Nat.not_lt.2 hs)
  exist x y hx hr := (hu.has y).2 (h.exist x y ((hu.has x).1 hx) (references x y hr))
  sight x y hx hr := by
    rw [hu.unitOf, hu.unitOf]
    exact hu.sees (h.sight x y ((hu.has x).1 hx) (references x y hr))

end Pascal.Environment
