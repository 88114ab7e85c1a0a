import Pascal.Proofs.Collection.Basic
import Pascal.Proofs.Trees

/-!
# Where types are collected

What the collection of types declares belongs to the scope in which the types stand. Names are
looked up there too, so the types that are found are among what that scope can see.
-/

namespace Pascal

open SyntaxTree

namespace SyntaxTree

variable {tree : SyntaxTree} {n : NodeId}

theorem describesType_of_child {b : Below n} (hb : b ∈ tree.children n)
    (h : tree.describesType b.1) : tree.describesType n := by
  rw [describesType]
  split
  · rfl
  · rfl
  · exact List.any_eq_true.2 ⟨b, hb, h⟩

theorem describesType_of_struct {kind : StructKind} (h : tree.kind n = .structType kind) :
    tree.describesType n := by
  rw [describesType, h]

theorem describesType_of_enum (h : tree.kind n = .enumType) : tree.describesType n := by
  rw [describesType, h]

/-- A type in a parameter is part of the signature. -/
theorem signatureDescribesType_of_parameter {part : Below n} {names : List String}
    {hasDefault : Bool} {type : Below part.1} (hpart : part ∈ tree.children n)
    (hk : tree.kind part.1 = .parameter names hasDefault) (htype : type ∈ tree.children part.1)
    (h : tree.describesType type.1) : tree.signatureDescribesType n := by
  refine List.any_eq_true.2 ⟨part.1, mem_childIds hpart, ?_⟩
  simpa only [hk] using describesType_of_child htype h

/-- The type that a routine gives is part of its signature. -/
theorem signatureDescribesType_of_result {part : Below n} {type : Below part.1}
    (hpart : part ∈ tree.children n) (hk : tree.kind part.1 = .returnType)
    (htype : type ∈ tree.children part.1) (h : tree.describesType type.1) :
    tree.signatureDescribesType n := by
  refine List.any_eq_true.2 ⟨part.1, mem_childIds hpart, ?_⟩
  simpa only [hk] using describesType_of_child htype h

/-- A type that a structured type is derived from, or that it helps, is part of its heritage. -/
theorem heritageDescribesType_of_part {part : Below n} {type : Below part.1}
    (hpart : part ∈ tree.children n)
    (hk : tree.kind part.1 = .ancestorList ∨ tree.kind part.1 = .helperTarget)
    (htype : type ∈ tree.children part.1) (h : tree.describesType type.1) :
    tree.heritageDescribesType n := by
  refine List.any_eq_true.2 ⟨part.1, mem_childIds hpart, ?_⟩
  obtain hk | hk := hk <;> simpa only [hk] using describesType_of_child htype h

theorem describesType_of_signature (h : tree.signatureDescribesType n) : tree.describesType n := by
  obtain ⟨part, hpart, h⟩ := List.any_eq_true.1 h
  rw [← map_val_children] at hpart
  obtain ⟨b, hb, rfl⟩ := List.mem_map.1 hpart
  apply describesType_of_child hb
  split at h
  · exact h
  · exact h
  · cases h

end SyntaxTree

theorem Ty.Within.mono {W W' : Set Entity} {ty : Ty} (h : ty.Within W) (hw : W ⊆ W') :
    ty.Within W' := fun x hx => hw (h x hx)

theorem Ty.within_enum {W : Set Entity} {id : EnumId} (h : .enum id ∈ W) :
    (Ty.enum id).Within W := by
  simpa [Ty.Within, Ty.refs] using h

theorem Ty.within_struct {W : Set Entity} {id : StructId} (h : .struct id ∈ W) :
    (Ty.struct id).Within W := by
  simpa [Ty.Within, Ty.refs] using h

namespace Environment

section Views

variable {env env' : Environment} {s : ScopeId} {W : Set Entity}

/-! ## Names of types -/

theorem Agree.typeNamed? (ha : Agree W env env') {found : List DeclId} (hf : DeclsWithin W found)
    {ty : Ty} (h : env.typeNamed? found = some ty) : ty.Within W := by
  obtain ⟨d, hd, h⟩ := List.exists_of_findSome?_eq_some h
  simp only [Option.ite_none_right_eq_some, Option.some.injEq] at h
  exact h.2 ▸ ha.declared (hf d hd)

theorem Agree.structNamed? (ha : Agree W env env') {found : List DeclId} (hf : DeclsWithin W found)
    {id : StructId} (h : env.structNamed? found = some id) : .struct id ∈ W := by
  obtain ⟨d, hd, h⟩ := List.exists_of_findSome?_eq_some h
  have within := ha.declared (hf d hd)
  simp only at h
  split at h
  · rename_i struct hty
    simp only [Option.ite_none_right_eq_some, Option.some.injEq] at h
    exact within _ (by simp [hty, Ty.refs, h.2])
  · cases h

theorem Agree.qualifiedType? (ha : Agree W env env') (hs : .scope s ∈ W) {qualifier member : String}
    {ty : Ty} (h : env.qualifiedType? s qualifier member = some ty) : ty.Within W := by
  obtain ⟨-, hfound⟩ := ha.find hs qualifier
  simp only [Environment.qualifiedType?] at h
  split at h
  · rename_i unit hu
    obtain ⟨d, hd, hu⟩ := List.exists_of_findSome?_eq_some hu
    have hunit : .scope unit ∈ W := ha.closed _ (hfound d hd) _ (.mentioned (by
      simp [DeclarationSpec.refs, hu]))
    exact ha.typeNamed? (ha.findInUnit hs hunit member).2 h
  · simp only [Option.bind_eq_bind, Option.bind_eq_some_iff] at h
    obtain ⟨outer, houter, owner, howner, h⟩ := h
    have hin := (ha.typeNamed? hfound houter).struct? howner
    exact ha.typeNamed? (ha.findMembers hin _).2 h

theorem Agree.namedType? (ha : Agree W env env') (hs : .scope s ∈ W) {name : String} {ty : Ty}
    (h : env.namedType? s name = some ty) : ty.Within W := by
  unfold Environment.namedType? at h
  split at h
  · rename_i found hfound
    cases h
    exact ha.typeNamed? (ha.find hs name).2 hfound
  · simp only [Option.bind_eq_bind, Option.bind_eq_some_iff] at h
    obtain ⟨split, -, h⟩ := h
    exact ha.qualifiedType? hs h

theorem Agree.inheritedPropertyType (ha : Agree W env env') {id : StructId} (hi : .struct id ∈ W)
    (name : String) : (env.inheritedPropertyType id name).Within W := by
  obtain ⟨-, hfound⟩ := ha.findMembers hi (Name.fold name)
  unfold Environment.inheritedPropertyType
  cases hp : (env.findInStruct id name).find? fun id => (env.declaration id).kind = .property with
  | none => exact Ty.within_of_refs_nil rfl
  | some d => exact ha.declared (hfound d (List.mem_of_find?_eq_some hp))

theorem placeholder_spec {name : String} {d : DeclId} {id : StructId}
    (h : env.placeholder? s name = some (d, id)) :
    d ∈ env.symbols.shallowFind s name ∧ (env.declaration d).ty = .struct id ∧
      (env.types.structInfo id).forward = true := by
  obtain ⟨found, hfound, h⟩ := List.exists_of_findSome?_eq_some h
  simp only at h
  split at h
  · rename_i struct hty
    simp only [Option.ite_none_right_eq_some, Option.some.injEq, Prod.mk.injEq, Bool.and_eq_true]
      at h
    obtain ⟨⟨-, hforward⟩, rfl, rfl⟩ := h
    exact ⟨hfound, hty, hforward⟩
  · cases h

end Views

end Environment

namespace Collecting

section Steps

variable {ctx : CollectionContext} {base env : Environment} {s : ScopeId}

theorem sound_namedType (hs : env.Has (.scope s)) (n : NodeId) (name : String) :
    Sound ctx base env (fun env' ty => ty.Within (env'.view s)) (namedType ctx n s name) := by
  refine Sound.getEnv fun σ hg he => ?_
  have hs' := he.has _ hs
  cases h : σ.env.namedType? s name with
  | some ty =>
    refine Sound.pure fun env' he' _ => ?_
    have within :=
      (hg.wellFormed.coherent.agree_seen _).namedType? (Environment.mem_view_self hs') h
    exact within.mono (hg.wellFormed.coherent.view_subset he' hs')
  | none =>
    refine Sound.bind (sound_issue _ _) fun _ _ _ _ _ => Sound.pure fun _ _ _ => ?_
    exact Ty.within_of_refs_nil rfl

theorem sound_setType (hp : Place ctx env s) (wf : env.WellFormed) (n : NodeId) {ty : Ty}
    (ht : ty.Within (env.view s)) :
    Sound ctx base env (fun _ _ => True) (annotate (·.setType n ty)) := by
  refine sound_annotate fun env' a he _ ha => ha.setType n (ht.mono ?_)
  exact hp.seen_subset.trans (wf.coherent.seen_subset he)

theorem refs_of_type {W : Set Entity} {name : String} {kind : DeclarationKind} {ty : Ty}
    (h : ty.Within W) : ∀ y ∈ ({ name, kind, ty } : DeclarationSpec).refs, y ∈ W := by
  simpa [DeclarationSpec.refs, Ty.Within] using h

theorem declarable_of_type {name : String} {kind : DeclarationKind} {ty : Ty}
    (h : ty.Within (env.view s)) : env.Declarable s { name, kind, ty } :=
  fun y hy => .inl (refs_of_type h y hy)

/-- A structured type that is announced may be described by the declaration that takes it up. -/
theorem Good.site (g : Grounds ctx base) {σ : CollectionState} (hg : Good ctx base σ)
    (hp : Place ctx σ.env s) (hr : base.Reaches ctx.file ctx.tree σ.env s) {n : NodeId}
    {name : String} (hk : ctx.tree.kind n = .typeDeclaration name) {type : Below n}
    (hc : ctx.tree.child? n 0 = some type) {d : DeclId} {struct : StructId}
    (h : σ.env.placeholder? s name = some (d, struct)) :
    .struct struct ∈ σ.env.view s ∧ ∀ kind, ctx.tree.kind type.1 = .structType kind →
      Site ctx base σ.env type.1 struct := by
  obtain ⟨hd, hty, hforward⟩ := Environment.placeholder_spec h
  have coherent := hg.wellFormed.coherent
  have hin : .decl d ∈ σ.env.view s :=
    coherent.closed_seen (Environment.mem_view_self hp.has) (.named hd)
  have hstruct : .struct struct ∈ σ.env.view s :=
    coherent.closed_seen hin (.mentioned (by simp [DeclarationSpec.refs, hty, Ty.refs]))
  obtain ⟨p, hparent, hkind⟩ := hg.wellFormed.announced struct hstruct.1 hforward
  refine ⟨hstruct, fun kind ht => ⟨hstruct.1, fun hb => ?_, hp.sees.trans hstruct.2,
    ⟨p, hparent, hkind⟩, fun hd q hq => ?_, fun hb => ?_⟩⟩
  · by_contra hdescribed
    rw [hg.frame.struct struct hb (.inl (by simpa using hdescribed))] at hforward
    exact hdescribed hforward
  · by_cases hb : base.Has (.struct struct)
    · rw [hg.since.members struct hb,
        hg.since.parent _ (g.wellFormed.coherent.exist _ _ hb .members)] at hq
      exact .heritage hg.midway hr hk hc ht hd h hb hq
    · exact (hg.made struct hstruct.1 hb).2 q hq
  · exact hg.made struct hstruct.1 hb

theorem Declared.mem_view {struct : StructId} (h : Declared ctx base env s struct) :
    .struct struct ∈ env.view s := by
  refine ⟨h.has, ?_⟩
  rw [h.unit]
  exact Environment.Sees.refl _

theorem sound_structIdentity (g : Grounds ctx base) (wf : env.WellFormed) (hp : Place ctx env s)
    (hr : base.Reaches ctx.file ctx.tree env s) {n : NodeId} {name : String}
    (hk : ctx.tree.kind n = .typeDeclaration name) {type : Below n}
    (hc : ctx.tree.child? n 0 = some type) (kind : StructKind) (forward : Bool) :
    Sound ctx base env (fun env' struct => .struct struct ∈ env'.view s ∧
        ∀ kind, ctx.tree.kind type.1 = .structType kind → Site ctx base env' type.1 struct)
      (structIdentity s name kind n forward) := by
  refine Sound.getEnv fun σ hg he => ?_
  have place := hp.mono wf he
  have coherent := hg.wellFormed.coherent
  cases h : σ.env.placeholder? s name with
  | some found =>
    obtain ⟨d, struct⟩ := found
    obtain ⟨hin, site⟩ := hg.site g place (hr.mono he) hk hc h
    refine Sound.bind (sound_setDeclaration _ _) fun env₁ _ he₁ _ _ =>
      Sound.pure fun env₂ he₂ _ => ?_
    have hext := he₁.trans he₂
    exact ⟨coherent.view_subset hext place.has hin, fun kind ht =>
      (site kind ht).mono hg.wellFormed hext⟩
  | none =>
    refine Sound.bind (sound_declareStruct g hg.wellFormed name kind place (hr.mono he) forward)
      fun env₁ struct he₁ wf₁ declared => ?_
    have place₁ := place.mono hg.wellFormed he₁
    refine Sound.bind (sound_declareAt n wf₁ place₁.has (hr.mono (he.trans he₁))
      (declarable_of_type (Ty.within_struct declared.mem_view))).discard
      fun env₂ _ he₂ _ _ => Sound.pure fun env₃ he₃ _ => ?_
    have final := declared.mono wf₁ (he₂.trans he₃)
    exact ⟨final.mem_view, fun _ _ => final.site type.1⟩

theorem sound_enumeration (g : Grounds ctx base) (wf : env.WellFormed) (hp : Place ctx env s)
    (hr : base.Reaches ctx.file ctx.tree env s) (name : String) (n : NodeId) :
    Sound ctx base env (fun env' ty => ty.Within (env'.view s)) (enumeration ctx s name n) := by
  refine Sound.bind (sound_declareEnum name hp hr) fun env₁ id he₁ wf₁ made => ?_
  refine Sound.getEnv fun σ hg he => ?_
  have made := made.mono wf₁ he
  have place := hp.mono wf (he₁.trans he)
  have members := made.elements.place (by simp) place
  refine Sound.bind (sound_annotate fun env₂ a he₂ _ ha => ?_) fun env₂ _ he₂ wf₂ _ => ?_
  · have subset : σ.env.seen (some ctx.file) ⊆ env₂.seen (some ctx.file) :=
      hg.wellFormed.coherent.seen_subset he₂
    refine (ha.setType n ?_).setScope n (subset members.mem_seen)
    exact (Ty.within_enum made.mem_seen).mono (place.seen_subset.trans subset)
  · refine Sound.bind (Sound.each wf₂ fun element _ env₃ he₃ wf₃ => ?_)
      fun env₃ _ he₃ _ _ => Sound.pure fun env₄ he₄ _ => ?_
    · have hext := he₂.trans he₃
      split
      · rename_i name _
        refine Sound.bind (sound_addElement made.new name) fun env₄ _ he₄ wf₄ _ => ?_
        have hext₄ := hext.trans he₄
        have made₄ := made.mono hg.wellFormed hext₄
        refine Sound.bind (sound_declareAt element wf₄ (hext₄.has _ place.has)
          (hr.mono (he₁.trans (he.trans hext₄)))
          (declarable_of_type (Ty.within_enum made₄.mem_seen))).discard
          fun env₅ _ he₅ wf₅ _ => Sound.next ?_
        have fresh := made.elements.mono hg.wellFormed (hext₄.trans he₅)
        have hin : .enum id ∈ env₅.view (σ.env.types.enumInfo id).scope := by
          rw [Environment.view, fresh.unit]
          exact (made₄.mono wf₄ he₅).mem_seen
        exact (sound_declareAt element wf₅ fresh.has (fresh.reached g)
          (declarable_of_type (Ty.within_enum hin))).discard
      · exact Sound.next (Sound.malformed _)
    · have final := made.mono hg.wellFormed (he₂.trans (he₃.trans he₄))
      exact Ty.within_enum final.mem_seen

end Steps

/-- What is asked of the types below a node. -/
def Resolver (ctx : CollectionContext) (base : Environment) {n : NodeId}
    (resolve : Below n → ScopeId → Collecting Ty) : Prop :=
  ∀ b env s, env.WellFormed → Place ctx env s →
    (ctx.tree.describesType b.1 → base.Reaches ctx.file ctx.tree env s) →
    Sound ctx base env (fun env' ty => ty.Within (env'.view s)) (resolve b s)

/-- What is asked of the structured types described below a node. -/
def Describer (ctx : CollectionContext) (base : Environment) {n : NodeId}
    (body : Below n → StructId → Collecting Unit) : Prop :=
  ∀ b env struct, env.WellFormed → Site ctx base env b.1 struct →
    Sound ctx base env (fun _ _ => True) (body b struct)

theorem Resolver.lift {ctx : CollectionContext} {base : Environment} {n : NodeId}
    {resolve : Below n → ScopeId → Collecting Ty} (h : Resolver ctx base resolve) (part : Below n) :
    Resolver ctx base fun (inner : Below part.1) s => resolve (part.lift inner) s :=
  fun b => h (part.lift b)

section Sites

variable {ctx : CollectionContext} {base env : Environment} {n : NodeId} {struct : StructId}

theorem Site.place (h : Site ctx base env n struct) (wf : env.WellFormed) :
    Place ctx env (env.membersOf struct) where
  has := wf.coherent.exist _ _ h.has .members
  kind := by simp [wf.memberScope struct h.has]
  sees := h.sees

/-- The scope around a structured type belongs to the same unit. -/
theorem Site.enclosing (h : Site ctx base env n struct) (wf : env.WellFormed) :
    ∃ p, (env.scopes.get (env.membersOf struct)).parent = some p ∧ Place ctx env p ∧
      env.unitOf (.scope p) = env.unitOf (.struct struct) := by
  obtain ⟨p, hparent, hkind⟩ := h.around
  have unit : env.unitOf (.scope p) = env.unitOf (.struct struct) := by
    refine (ScopeTree.fileScopeOf?_of_parent hparent (wf.coherent.nested _ _ hparent) ?_).symm
    simp [wf.memberScope struct h.has]
  refine ⟨p, hparent, ⟨?_, hkind, unit ▸ h.sees⟩, unit⟩
  exact wf.coherent.exist _ _ (h.place wf).has (.parent hparent)

end Sites

section Sections

variable {ctx : CollectionContext} {base env : Environment} {s : ScopeId} {n : NodeId}
  {resolve : Below n → ScopeId → Collecting Ty} {body : Below n → StructId → Collecting Unit}

/-- The types in a signature are among what can be seen from the scope they stand in. -/
def SignatureWithin (W : Set Entity) (signature : RoutineSignature) : Prop :=
  ∀ ty ∈ signature.result :: signature.params, ty.Within W

/-- The declaration of a routine mentions only what its signature does. -/
theorem SignatureWithin.declarable {signature : RoutineSignature}
    (h : SignatureWithin (env.view s) signature) (name : String) : env.Declarable s
      { name, kind := .routine, ty := signature.ty, routine := some signature } := by
  intro y hy
  left
  simp only [DeclarationSpec.refs, Option.elim_some, Option.map_none, Option.toList_none,
    List.append_nil, List.mem_append] at hy
  obtain hy | hy := hy
  · have hty : signature.ty.Within (env.view s) :=
      Ty.within_procedural.2 ⟨(List.forall_mem_cons.1 h).2, (List.forall_mem_cons.1 h).1⟩
    exact hty y hy
  · obtain ⟨ty, hty, hy⟩ := Ty.mem_refsAll.1 hy
    exact h ty hty y hy

theorem within_addParams {W : Set Entity} {ty : Ty} (ht : ty.Within W) {params : List Ty}
    (hp : ∀ other ∈ params, other.Within W) (names : List String) (hasDefault : Bool)
    (required : Nat) :
    ∀ other ∈ (addParams names hasDefault ty params required).1, other.Within W := by
  refine List.forall_mem_append.2 ⟨hp, fun other hother => ?_⟩
  obtain ⟨_, -, rfl⟩ := List.mem_map.1 hother
  exact ht

theorem sound_signature (h : Resolver ctx base resolve) (wf : env.WellFormed) (hp : Place ctx env s)
    (hr : ctx.tree.signatureDescribesType n → base.Reaches ctx.file ctx.tree env s)
    (kind : RoutineKind) {declaring : Option StructId}
    (hd : ∀ id, declaring = some id → .struct id ∈ env.view s) :
    Sound ctx base env (fun env' sig => SignatureWithin (env'.view s) sig)
      (signature ctx resolve s kind declaring) := by
  -- what a round knows about the parameters and the result so far
  let Typed (env' : Environment) (b : List Ty × Nat × Ty) : Prop :=
    ∀ ty ∈ b.2.2 :: b.1, ty.Within (env'.view s)
  have stable : ∀ env₁ env₂ b, env.Extends env₁ → env₁.WellFormed → env₁.Extends env₂ →
      Typed env₁ b → Typed env₂ b := fun env₁ env₂ b he₁ wf₁ he₂ hb ty hty =>
    (hb ty hty).mono (wf₁.coherent.view_subset he₂ (he₁.has _ hp.has))
  have untyped : ∀ {W}, Ty.untyped.Within W := fun {W} => Ty.within_of_refs_nil rfl
  refine Sound.bind (Sound.forIn Typed stable wf ?_ ?_) fun env₁ b he₁ wf₁ hb => ?_
  · simpa [Typed] using Ty.within_of_refs_nil rfl
  · intro part hpart env₁ b he₁ wf₁ hb
    have place := hp.mono wf he₁
    have params : ∀ {env₂ ty names hasDefault}, env₁.Extends env₂ → ty.Within (env₂.view s) →
        Typed env₂ ((addParams names hasDefault ty b.1 b.2.1).1,
          (addParams names hasDefault ty b.1 b.2.1).2, b.2.2) := by
      intro env₂ ty names hasDefault he₂ hty
      have hb₂ := List.forall_mem_cons.1 (stable env₁ env₂ b he₁ wf₁ he₂ hb)
      exact List.forall_mem_cons.2 ⟨hb₂.1, within_addParams hty hb₂.2 names hasDefault b.2.1⟩
    split
    · rename_i names hasDefault hk
      cases hc : ctx.tree.child? part.1 0 with
      | none => exact Sound.pure fun env₂ he₂ _ => ⟨_, rfl, params he₂ untyped⟩
      | some type =>
        refine Sound.bind (h (part.lift type) env₁ s wf₁ place fun hdescribes => ?_)
          fun env₂ ty he₂ wf₂ hty => Sound.pure fun env₃ he₃ _ => ⟨_, rfl, ?_⟩
        · exact (hr (signatureDescribesType_of_parameter hpart hk
            (mem_children_of_child? hc) hdescribes)).mono he₁
        · exact params (he₂.trans he₃)
            (hty.mono (wf₂.coherent.view_subset he₃ (he₂.has _ place.has)))
    · rename_i hk
      refine Sound.bind (sound_child part.1 0) fun env₂ type he₂ wf₂ hc => ?_
      have place₂ := place.mono wf₁ he₂
      refine Sound.bind (h (part.lift type) env₂ s wf₂ place₂ fun hdescribes => ?_)
        fun env₃ ty he₃ wf₃ hty => Sound.pure fun env₄ he₄ _ => ⟨_, rfl, ?_⟩
      · exact (hr (signatureDescribesType_of_result hpart hk
          (mem_children_of_child? hc) hdescribes)).mono (he₁.trans he₂)
      · have hb₄ := stable env₁ env₄ b he₁ wf₁ (he₂.trans (he₃.trans he₄)) hb
        exact List.forall_mem_cons.2
          ⟨hty.mono (wf₃.coherent.view_subset he₄ (he₃.has _ place₂.has)),
            (List.forall_mem_cons.1 hb₄).2⟩
    · exact Sound.pure fun env₂ he₂ _ => ⟨_, rfl, stable env₁ env₂ b he₁ wf₁ he₂ hb⟩
  · split
    · rename_i struct
      refine Sound.pure fun env₂ he₂ _ => List.forall_mem_cons.2 ⟨?_, ?_⟩
      · exact Ty.within_struct
          (wf.coherent.view_subset (he₁.trans he₂) hp.has (hd struct rfl))
      · exact (List.forall_mem_cons.1 (stable env₁ env₂ b he₁ wf₁ he₂ hb)).2
    · exact Sound.pure fun env₂ he₂ _ => stable env₁ env₂ b he₁ wf₁ he₂ hb

/-- One declaration for each of several names. -/
theorem sound_declareNames (wf : env.WellFormed) (hs : env.Has (.scope s))
    (hr : base.Reaches ctx.file ctx.tree env s) (node : NodeId) (names : List String)
    (kind : DeclarationKind) {ty : Ty} (ht : ty.Within (env.view s)) :
    Sound ctx base env (fun _ _ => True)
      (ForIn.forIn names PUnit.unit fun name _ => do
        discard (declareAt node s { name, kind, ty })
        Pure.pure (ForInStep.yield PUnit.unit)) := by
  refine Sound.each wf fun name _ env₁ he₁ wf₁ => Sound.next ?_
  exact (sound_declareAt node wf₁ (he₁.has _ hs) (hr.mono he₁)
    (declarable_of_type (ht.mono (wf.coherent.view_subset he₁ hs)))).discard

section Resolvers

variable (h : Resolver ctx base resolve) (wf : env.WellFormed) (hp : Place ctx env s)
  (hr : base.Reaches ctx.file ctx.tree env s)

include h wf hp hr

theorem sound_routineDeclaration (name : String) (kind : RoutineKind) {declaring : Option StructId}
    (hd : ∀ id, declaring = some id → .struct id ∈ env.view s) :
    Sound ctx base env (fun _ _ => True)
      (routineDeclaration ctx name kind resolve s declaring) := by
  refine Sound.bind (sound_signature h wf hp (fun _ => hr) kind hd)
    fun env₁ signature he₁ wf₁ hsig => ?_
  exact (sound_declareAt n wf₁ (he₁.has _ hp.has) (hr.mono he₁) (hsig.declarable name)).discard

theorem sound_varSection (kind : DeclarationKind) :
    Sound ctx base env (fun _ _ => True) (varSection ctx resolve s kind) := by
  refine Sound.done (Sound.each wf fun declaration _ env₁ he₁ wf₁ => ?_)
  split
  · rename_i names _
    refine Sound.bind (sound_child declaration.1 0) fun env₂ type he₂ wf₂ _ => ?_
    have place₂ := hp.mono wf (he₁.trans he₂)
    have reached₂ := hr.mono (he₁.trans he₂)
    refine Sound.bind (h (declaration.lift type) env₂ s wf₂ place₂ fun _ => reached₂)
      fun env₃ ty he₃ wf₃ hty => Sound.next ?_
    exact sound_declareNames wf₃ (he₃.has _ place₂.has) (reached₂.mono he₃) declaration.1 names kind
      hty
  · exact Sound.next (Sound.malformed _)

theorem sound_constSection :
    Sound ctx base env (fun _ _ => True) (constSection ctx resolve s) := by
  refine Sound.done (Sound.each wf fun declaration _ env₁ he₁ wf₁ => ?_)
  split
  · rename_i name typed _
    refine Sound.bind (sound_child declaration.1 0) fun env₂ first he₂ wf₂ _ => ?_
    have hext := he₁.trans he₂
    have constant : ∀ {env₃ ty unit}, env₂.Extends env₃ → env₃.WellFormed →
        ty.Within (env₃.seen unit) → Sound ctx base env₃ (fun _ _ => True)
          (discard (declareAt declaration.1 s { name, kind := .constant, ty })) :=
      fun he₃ wf₃ hty => (sound_declareAt _ wf₃ (he₃.has _ (hext.has _ hp.has))
        (hr.mono (hext.trans he₃))
        fun y hy => .inr ⟨(refs_of_type hty y hy).1, hy, .inr rfl⟩).discard
    split
    · refine Sound.bind
        (h (declaration.lift first) env₂ s wf₂ (hp.mono wf hext) fun _ => hr.mono hext)
        fun env₃ ty he₃ wf₃ hty => Sound.next (constant he₃ wf₃ hty)
    · refine Sound.bind (sound_constantType wf₂ (hp.mono wf hext) first.1)
        fun env₃ ty he₃ wf₃ hty => Sound.next (constant he₃ wf₃ hty)
  · exact Sound.next (Sound.malformed _)

theorem sound_otherType (declaration : NodeId) (name : String) (type : Below n) :
    Sound ctx base env (fun _ _ => True) (otherType ctx resolve s declaration name type) := by
  refine Sound.bind (h type env s wf hp fun _ => hr) fun env₁ resolved he₁ wf₁ hty => ?_
  have named : (if ctx.tree.kind type.1 = .distinctType then .distinct name resolved
      else resolved).Within (env₁.view s) := by
    split_ifs
    · simpa [Ty.Within, Ty.refs] using hty
    · exact hty
  exact (sound_declareAt declaration wf₁ (he₁.has _ hp.has) (hr.mono he₁)
    (declarable_of_type named)).discard

end Resolvers

theorem sound_heritage (h : Resolver ctx base resolve) (wf : env.WellFormed) (hp : Place ctx env s)
    (hr : ctx.tree.heritageDescribesType n → base.Reaches ctx.file ctx.tree env s) :
    Sound ctx base env (fun env' found => ∀ ty ∈ found.1, ty.Within (env'.view s))
      (heritage ctx resolve s) := by
  let Typed (env' : Environment) (parents : Array Ty) : Prop :=
    ∀ ty ∈ parents, ty.Within (env'.view s)
  have stable : ∀ {env₁ env₂ parents}, env.Extends env₁ → env₁.WellFormed → env₁.Extends env₂ →
      Typed env₁ parents → Typed env₂ parents := fun he₁ wf₁ he₂ htyped ty hty =>
    (htyped ty hty).mono (wf₁.coherent.view_subset he₂ (he₁.has _ hp.has))
  refine Sound.bind (P := fun env' b => Typed env' b.1) ?_ fun env₁ b he₁ wf₁ hb => ?_
  · refine Sound.forIn _ (fun _ _ _ => stable) wf (by simp [Typed]) ?_
    intro part hpart env₁ b he₁ wf₁ hb
    split
    · rename_i hk
      refine Sound.bind (P := Typed) ?_ fun env₂ parents he₂ wf₂ hparents =>
        Sound.pure fun env₃ he₃ _ => ⟨_, rfl, stable (he₁.trans he₂) wf₂ he₃ hparents⟩
      refine Sound.forIn _ (fun _ _ _ he₂ => stable (he₁.trans he₂)) wf₁ hb ?_
      intro ancestor hancestor env₂ parents he₂ wf₂ hparents
      have hext := he₁.trans he₂
      have reached := fun hd => hr (heritageDescribesType_of_part hpart (.inl hk) hancestor hd)
      refine Sound.bind (h (part.lift ancestor) env₂ s wf₂ (hp.mono wf hext)
        fun hd => (reached hd).mono hext) fun env₃ ty he₃ wf₃ hty => Sound.pure fun env₄ he₄ _ => ⟨_, rfl, ?_⟩
      intro parent hparent
      obtain hparent | rfl := Array.mem_push.1 hparent
      · exact stable hext wf₂ (he₃.trans he₄) hparents parent hparent
      · exact hty.mono (wf₃.coherent.view_subset he₄ ((hext.trans he₃).has _ hp.has))
    · rename_i hk
      refine Sound.bind (sound_child part.1 0) fun env₂ type he₂ wf₂ hc => ?_
      have hext := he₁.trans he₂
      have reached := fun hd =>
        hr (heritageDescribesType_of_part hpart (.inr hk) (mem_children_of_child? hc) hd)
      refine Sound.bind (h (part.lift type) env₂ s wf₂ (hp.mono wf hext)
        fun hd => (reached hd).mono hext) fun env₃ ty he₃ _ _ => Sound.pure fun env₄ he₄ _ => ⟨_, rfl, ?_⟩
      exact stable he₁ wf₁ (he₂.trans (he₃.trans he₄)) hb
    · exact Sound.pure fun env₂ he₂ _ => ⟨_, rfl, stable he₁ wf₁ he₂ hb⟩
  · refine Sound.pure fun env₂ he₂ _ ty hty => ?_
    exact stable he₁ wf₁ he₂ hb ty (Array.mem_toList_iff.1 hty)

theorem sound_typeSection (g : Grounds ctx base) (h : Resolver ctx base resolve)
    (hb : Describer ctx base body) (wf : env.WellFormed) (hp : Place ctx env s)
    (hr : base.Reaches ctx.file ctx.tree env s) :
    Sound ctx base env (fun _ _ => True) (typeSection ctx resolve body s) := by
  -- the structured types whose bodies are still to come
  let Sites (env' : Environment)
      (b : Array (Below n × StructId) × Array (NodeId × String × Below n)) :
      Prop := ∀ entry ∈ b.1, Site ctx base env' entry.1.1 entry.2
  have stable : ∀ env₁ env₂ b, env.Extends env₁ → env₁.WellFormed → env₁.Extends env₂ →
      Sites env₁ b → Sites env₂ b :=
    fun _ _ _ _ wf₁ he₂ hsites entry hentry => (hsites entry hentry).mono wf₁ he₂
  refine Sound.bind (Sound.forIn Sites stable wf (by simp [Sites]) ?_)
    fun env₁ b he₁ wf₁ hsites => ?_
  · intro declaration _ env₁ b he₁ wf₁ hsites
    split
    · rename_i name hk
      refine Sound.bind (sound_child declaration.1 0) fun env₂ type he₂ wf₂ hc => ?_
      have place := hp.mono wf (he₁.trans he₂)
      have reached := hr.mono (he₁.trans he₂)
      have kept : ∀ {env₃}, env₂.Extends env₃ → Sites env₃ b :=
        fun he₃ => stable env₁ _ b he₁ wf₁ (he₂.trans he₃) hsites
      dsimp only
      split
      · rename_i kind ht
        refine Sound.bind (sound_structIdentity g wf₂ place reached hk hc kind false)
          fun env₃ struct he₃ wf₃ hstruct => ?_
        refine Sound.bind (sound_setType (place.mono wf₂ he₃) wf₃ _ (Ty.within_struct hstruct.1))
          fun env₄ _ he₄ _ _ => Sound.pure fun env₅ he₅ _ => ⟨_, rfl, ?_⟩
        intro entry hentry
        obtain hentry | rfl := Array.mem_push.1 hentry
        · exact kept (he₃.trans (he₄.trans he₅)) entry hentry
        · exact (hstruct.2 kind ht).mono wf₃ (he₄.trans he₅)
      · rename_i kind _
        refine Sound.bind (sound_structIdentity g wf₂ place reached hk hc kind true)
          fun env₃ struct he₃ wf₃ hstruct => ?_
        refine Sound.bind (sound_setType (place.mono wf₂ he₃) wf₃ _ (Ty.within_struct hstruct.1))
          fun env₄ _ he₄ _ _ => Sound.pure fun env₅ he₅ _ => ⟨_, rfl, ?_⟩
        exact kept (he₃.trans (he₄.trans he₅))
      · refine Sound.bind (sound_enumeration g wf₂ place reached name _)
          fun env₃ ty he₃ wf₃ hty => ?_
        refine Sound.bind (sound_declareAt declaration.1 wf₃ (he₃.has _ place.has)
          (reached.mono he₃) (declarable_of_type hty)).discard
          fun env₄ _ he₄ _ _ => Sound.pure fun env₅ he₅ _ => ⟨_, rfl, ?_⟩
        exact kept (he₃.trans (he₄.trans he₅))
      · exact Sound.pure fun env₃ he₃ _ => ⟨_, rfl, kept he₃⟩
    · exact Sound.bind (Sound.malformed (Q := fun _ _ => False) _) fun _ _ _ _ => False.elim
  · simp only [← Array.forIn_toList]
    refine Sound.bind (Sound.each wf₁ fun other _ env₂ he₂ wf₂ => Sound.next ?_)
      fun env₂ _ he₂ wf₂ _ =>
        Sound.done (Sound.each wf₂ fun entry hentry env₃ he₃ wf₃ => Sound.next ?_)
    · have hext := he₁.trans he₂
      exact sound_otherType h wf₂ (hp.mono wf hext) (hr.mono hext) _ _ _
    · have site := hsites entry (Array.mem_toList_iff.1 hentry)
      exact hb entry.1 env₃ entry.2 wf₃ (site.mono wf₁ (he₂.trans he₃))

theorem sound_member (g : Grounds ctx base) (h : Resolver ctx base resolve)
    (hb : Describer ctx base body) (wf : env.WellFormed) {m : NodeId} {struct : StructId}
    (hs : Site ctx base env m struct) (writable : Writable ctx base env struct) (part : Below n) :
    Sound ctx base env (fun _ _ => True)
      (member ctx resolve body (env.membersOf struct) struct part) := by
  have place := hs.place wf
  have reached := writable.1
  have hin : .struct struct ∈ env.view (env.membersOf struct) := Environment.mem_seen_self hs.has
  have hinner := h.lift part
  unfold member
  split
  · rename_i names _
    refine Sound.bind (sound_child part.1 0) fun env₁ type he₁ wf₁ _ => ?_
    have place₁ := place.mono wf he₁
    refine Sound.bind (hinner type env₁ _ wf₁ place₁ fun _ => reached.mono he₁)
      fun env₂ ty he₂ wf₂ hty => Sound.done ?_
    exact sound_declareNames wf₂ (he₂.has _ place₁.has) (reached.mono (he₁.trans he₂)) _ names _
      hty
  · rename_i name _
    have declare : ∀ {env₁ ty}, env.Extends env₁ → env₁.WellFormed →
        ty.Within (env₁.view (env.membersOf struct)) → Sound ctx base env₁ (fun _ _ => True)
          (discard (declareAt part.1 (env.membersOf struct) { name, kind := .property, ty })) :=
      fun he₁ wf₁ hty => (sound_declareAt _ wf₁ (he₁.has _ place.has) (reached.mono he₁)
        (declarable_of_type hty)).discard
    cases ctx.tree.child? part.1 0 with
    | some type =>
      exact Sound.bind (hinner type env _ wf place fun _ => reached)
        fun env₁ ty he₁ wf₁ hty => declare he₁ wf₁ hty
    | none =>
      refine Sound.getEnv fun σ hg he => ?_
      have hview := wf.coherent.view_subset he place.has hin
      exact declare he hg.wellFormed
        ((hg.wellFormed.coherent.agree_seen _).inheritedPropertyType hview name)
  · exact sound_routineDeclaration hinner wf place reached _ _ (by rintro _ ⟨⟩; exact hin)
  · exact sound_typeSection g hinner (fun b => hb (part.lift b)) wf place reached
  · exact sound_varSection hinner wf place reached .field
  · exact sound_constSection hinner wf place reached
  · exact Sound.pure fun _ _ _ => trivial

theorem within_implicitParents (g : Grounds ctx base) {env' : Environment}
    (he : base.Extends env') (struct : StructId) (unit : Option ScopeId) :
    ∀ ty ∈ implicitParents ctx env struct, ty.Within (env'.seen unit) := by
  have root : ∀ {id}, base.Has (.struct id) ∧ base.unitOf (.struct id) = none →
      (Ty.struct id).Within (env'.seen unit) := by
    rintro id ⟨hid, hunit⟩
    refine Ty.within_struct ⟨he.has _ hid, ?_⟩
    rw [g.wellFormed.coherent.unitOf_eq he hid, hunit]
    exact Environment.sees_system unit
  intro ty hty
  simp only [implicitParents] at hty
  split at hty
  · split_ifs at hty
    · cases hty
    · exact List.mem_singleton.1 hty ▸ root g.rootClass
  · split_ifs at hty
    · cases hty
    · exact List.mem_singleton.1 hty ▸ root g.rootInterface
  · cases hty

theorem sound_structMembers (g : Grounds ctx base) (h : Resolver ctx base resolve)
    (hb : Describer ctx base body) (wf : env.WellFormed) {struct : StructId}
    (hs : Site ctx base env n struct) :
    Sound ctx base env (fun _ _ => True) (structMembers ctx resolve body struct) := by
  refine Sound.getEnv fun σ hg he => ?_
  have site := hs.mono wf he
  have place := site.place hg.wellFormed
  obtain ⟨p, hparent, hplace, hunit⟩ := site.enclosing hg.wellFormed
  simp only [hparent, Option.getD_some]
  have members : ∀ {env₁}, σ.env.Extends env₁ → env₁.WellFormed → Writable ctx base env₁ struct →
      Sound ctx base env₁ (fun _ _ => True)
        (ForIn.forIn (ctx.tree.children n) PUnit.unit fun part _ => do
          member ctx resolve body (σ.env.membersOf struct) struct part
          Pure.pure (ForInStep.yield PUnit.unit)) := by
    intro env₁ he₁ wf₁ writable
    refine Sound.each wf₁ fun part _ env₂ he₂ wf₂ => Sound.next ?_
    have hext := he₁.trans he₂
    rw [← hext.members struct site.has]
    exact sound_member g h hb wf₂ (site.mono hg.wellFormed hext)
      (writable.mono wf₁ (he₁.has _ site.has) he₂) part
  refine Sound.bind (sound_annotate fun env₁ a he₁ _ ha => ?_) fun env₁ _ he₁ wf₁ _ => ?_
  · exact ha.setScope n (hg.wellFormed.coherent.seen_subset he₁ place.mem_seen)
  refine Sound.bind (sound_heritage h wf₁ (hplace.mono hg.wellFormed he₁)
    fun hd => (site.heritage hd p hparent).mono he₁) fun env₂ found he₂ wf₂ hfound => ?_
  have hext₂ := he₁.trans he₂
  have unit₂ : env₂.unitOf (.scope p) = env₂.unitOf (.struct struct) := by
    rw [hg.wellFormed.coherent.unitOf_eq hext₂ hplace.has,
      hg.wellFormed.coherent.unitOf_eq hext₂ site.has, hunit]
  have parents : ∀ ty ∈ if found.1.isEmpty then implicitParents ctx σ.env struct else found.1,
      ty.Within (env₂.seen (env₂.unitOf (.struct struct))) := by
    split_ifs
    · exact within_implicitParents g (hg.since.trans hext₂) struct _
    · rw [← unit₂]
      exact hfound
  have site₂ := site.mono hg.wellFormed hext₂
  refine Sound.bind (sound_completeStruct wf₂ site₂ parents found.2)
    fun env₃ _ he₃ wf₃ described => ?_
  have hext₃ := hext₂.trans he₃
  have writable := (site₂.mono wf₂ he₃).writable g (hg.since.trans hext₃) described
  split
  · rename_i target _
    have hparent₃ : (env₃.scopes.get (env₃.membersOf struct)).parent = some p := by
      rw [hext₃.members struct site.has, hext₃.parent _ place.has, hparent]
    have hhelper : .struct struct ∈ env₂.seen (env₂.unitOf (.scope p)) :=
      unit₂ ▸ Environment.mem_seen_self site₂.has
    refine Sound.bind (sound_registerHelper wf₃ (hext₃.has _ hplace.has)
      (writable.2 p hparent₃) target
      (wf₂.coherent.view_subset he₃ (hext₂.has _ hplace.has) hhelper)) fun env₄ _ he₄ wf₄ _ => ?_
    exact Sound.done (members (hext₃.trans he₄) wf₄
      (writable.mono wf₃ (hext₃.has _ site.has) he₄))
  · exact Sound.done (members hext₃ wf₃ writable)

/-- The type at a node, given the types below it and a structured type described at it. -/
theorem sound_typeAt (g : Grounds ctx base) (h : Resolver ctx base resolve)
    {members : StructId → Collecting Unit}
    (hm : ∀ env struct, env.WellFormed → Site ctx base env n struct →
      Sound ctx base env (fun _ _ => True) (members struct))
    (wf : env.WellFormed) (hp : Place ctx env s)
    (hr : ctx.tree.describesType n → base.Reaches ctx.file ctx.tree env s) :
    Sound ctx base env (fun env' ty => ty.Within (env'.view s)) (typeAt ctx resolve members s) := by
  have below : ∀ {env₁} {b : Below n}, b ∈ ctx.tree.children n → env.Extends env₁ →
      env₁.WellFormed →
        Sound ctx base env₁ (fun env' ty => ty.Within (env'.view s)) (resolve b s) :=
    fun {env₁ b} hb he₁ wf₁ => h b env₁ s wf₁ (hp.mono wf he₁) fun hdescribes =>
      (hr (describesType_of_child hb hdescribes)).mono he₁
  have grown : ∀ {env₁ env₂} {ty : Ty}, env.Extends env₁ → env₁.WellFormed → env₁.Extends env₂ →
      ty.Within (env₁.view s) → ty.Within (env₂.view s) := fun he₁ wf₁ he₂ hty =>
    hty.mono (wf₁.coherent.view_subset he₂ (he₁.has _ hp.has))
  -- a type built from the type of the first child
  have built : ∀ {make : Ty → Ty}, (∀ ty, (make ty).refs = ty.refs) →
      Sound ctx base env (fun env' ty => ty.Within (env'.view s)) (do
        Pure.pure (make (← resolve (← child ctx n 0) s))) := by
    intro make hmake
    refine Sound.bind (sound_child n 0) fun env₁ type he₁ wf₁ hc => ?_
    refine Sound.bind (below (mem_children_of_child? hc) he₁ wf₁)
      fun env₂ ty he₂ wf₂ hty => Sound.pure fun env₃ he₃ _ => ?_
    simpa only [Ty.Within, hmake] using grown (he₁.trans he₂) wf₂ he₃ hty
  unfold typeAt
  split
  · exact sound_namedType hp.has n _
  · exact built fun _ => rfl
  · cases hc : ctx.tree.child? n 0 with
    | some element =>
      refine Sound.bind (below (mem_children_of_child? hc) (.refl _) wf)
        fun env₁ ty he₁ wf₁ hty => Sound.pure fun env₂ he₂ _ => ?_
      exact grown he₁ wf₁ he₂ hty
    | none => exact Sound.pure fun _ _ _ => Ty.within_of_refs_nil rfl
  · exact built fun _ => rfl
  · refine Sound.bind (sound_signature h wf hp
      (fun hdescribes => hr (describesType_of_signature hdescribes)) .function (by simp))
      fun env₁ signature he₁ wf₁ hsig =>
        Sound.pure fun env₂ he₂ _ => Ty.within_procedural.2 ⟨?_, ?_⟩
    · exact fun ty hty => grown he₁ wf₁ he₂ (hsig ty (List.mem_cons_of_mem _ hty))
    · exact grown he₁ wf₁ he₂ (hsig _ (List.mem_cons_self ..))
  · exact built fun _ => rfl
  · refine Sound.bind (sound_child n 0) fun env₁ type he₁ wf₁ hc => ?_
    exact below (mem_children_of_child? hc) he₁ wf₁
  · rename_i hk
    exact sound_enumeration g wf hp (hr (describesType_of_enum hk)) "" n
  · rename_i kind hk
    refine Sound.bind (sound_declareStruct g wf "" kind hp
      (hr (describesType_of_struct hk)) false) fun env₁ struct he₁ wf₁ declared => ?_
    refine Sound.bind (hm env₁ struct wf₁ (declared.site n)) fun env₂ _ he₂ _ _ =>
      Sound.pure fun env₃ he₃ _ => ?_
    exact Ty.within_struct (declared.mono wf₁ (he₂.trans he₃)).mem_view
  · refine Sound.bind (sound_issue _ _) fun _ _ _ _ _ => Sound.pure fun _ _ _ => ?_
    exact Ty.within_of_refs_nil rfl
  · exact Sound.malformed _

end Sections

section Types

variable {ctx : CollectionContext} {base : Environment}

/-- Types and structured types at a node, by induction on its number: nodes below come before. -/
theorem sound_types (g : Grounds ctx base) (n : NodeId) :
    (∀ env s, env.WellFormed → Place ctx env s →
      (ctx.tree.describesType n → base.Reaches ctx.file ctx.tree env s) →
      Sound ctx base env (fun env' ty => ty.Within (env'.view s)) (resolveType ctx n s)) ∧
    ∀ env struct, env.WellFormed → Site ctx base env n struct →
      Sound ctx base env (fun _ _ => True) (structBody ctx n struct) := by
  induction hi : n.index using Nat.strong_induction_on generalizing n with
  | _ index ih =>
    have resolver : Resolver ctx base fun (inner : Below n) s => resolveType ctx inner.1 s :=
      fun b => (ih b.1.index (hi ▸ b.2) b.1 rfl).1
    have describer :
        Describer ctx base fun (inner : Below n) struct => structBody ctx inner.1 struct :=
      fun b => (ih b.1.index (hi ▸ b.2) b.1 rfl).2
    have body : ∀ env struct, env.WellFormed → Site ctx base env n struct →
        Sound ctx base env (fun _ _ => True) (structBody ctx n struct) := by
      intro env struct wf hs
      rw [structBody]
      exact sound_structMembers g resolver describer wf hs
    refine ⟨fun env s wf hp hr => ?_, body⟩
    rw [resolveType]
    refine Sound.bind (sound_typeAt g resolver body wf hp hr) fun env₁ ty he₁ wf₁ hty => ?_
    have place₁ := hp.mono wf he₁
    refine Sound.bind (sound_setType place₁ wf₁ n hty) fun env₂ _ he₂ _ _ =>
      Sound.pure fun env₃ he₃ _ => ?_
    exact hty.mono (wf₁.coherent.view_subset (he₂.trans he₃) place₁.has)

/-- The types below a node. -/
theorem resolver (g : Grounds ctx base) (n : NodeId) :
    Resolver ctx base fun (inner : Below n) s => resolveType ctx inner.1 s :=
  fun b => (sound_types g b.1).1

theorem describer (g : Grounds ctx base) (n : NodeId) :
    Describer ctx base fun (inner : Below n) struct => structBody ctx inner.1 struct :=
  fun b => (sound_types g b.1).2

end Types

end Collecting

end Pascal
