import Pascal.Proofs.Collection.Types

/-!
# Where a unit is collected

The sections and routines of a unit are collected in its file scope and in scopes created below it.
Only the signature of a method body is read elsewhere: in the member scope of the structured type
that its qualifier names.
-/

namespace Pascal

namespace Environment

variable {env env' : Environment} {s : ScopeId} {W : Set Entity}

theorem Agree.ownerStruct? (ha : Agree W env env') (hs : .scope s ∈ W) {owner : String}
    {id : StructId} (h : env.ownerStruct? s owner = some id) : .struct id ∈ W := by
  have path : ∀ (segments : List String) (outer : Option StructId),
      (∀ id, outer = some id → .struct id ∈ W) → ∀ id,
      segments.foldl (fun outer segment =>
        outer.bind fun id => env.structNamed? (env.findInStruct id segment)) outer = some id →
      .struct id ∈ W := by
    intro segments
    induction segments with
    | nil => exact fun outer houter => houter
    | cons segment rest ih =>
      intro outer houter
      refine ih _ fun id hid => ?_
      obtain ⟨around, haround, hid⟩ := Option.bind_eq_some_iff.1 hid
      exact ha.structNamed? (ha.findMembers (houter around haround) _).2 hid
  unfold Environment.ownerStruct? at h
  split at h
  · cases h
  · exact path _ _ (fun id hid => ha.structNamed? (ha.find hs _).2 hid) id h

theorem mem_shallowFind_of_linked {implemented : List DeclId} {name : String} {params : List Ty}
    {id : DeclId} (h : env.linkedDeclaration? implemented s name params = some id) :
    id ∈ env.symbols.shallowFind s name := by
  simp only [linkedDeclaration?] at h
  split at h
  · rename_i found hfound
    cases h
    exact (List.mem_filter.1 (List.mem_of_find?_eq_some hfound)).1
  · split at h
    · rename_i only honly
      split_ifs at h
      cases h
      have hin := List.mem_singleton_self id
      rw [← honly] at hin
      exact (List.mem_filter.1 hin).1
    · cases h

end Environment

namespace Collecting

section Routines

variable {ctx : CollectionContext} {base env : Environment} {s : ScopeId}

/-- The member scope of a structured type that is seen. -/
theorem Place.members (h : Place ctx env s) (wf : env.WellFormed) {id : StructId}
    (hid : .struct id ∈ env.view s) : Place ctx env (env.membersOf id) where
  has := wf.coherent.exist _ _ hid.1 .members
  kind := by simp [wf.memberScope id hid.1]
  sees := h.sees.trans hid.2

theorem sound_usesClause (g : Grounds ctx base) (wf : env.WellFormed) (n : NodeId) :
    Sound ctx base env (fun _ _ => True) (usesClause ctx n) := by
  refine Sound.done (Sound.each wf fun reference _ env₁ _ _ => ?_)
  split
  · split
    · exact Sound.next (sound_importUnit g _ _)
    · exact Sound.next (sound_issue _ _)
  · exact Sound.next (Sound.malformed _)

/-- A structured type whose members a routine with a body can be one of. -/
structure Owner (ctx : CollectionContext) (base env : Environment) (s : ScopeId) (n : NodeId)
    (id : StructId) : Prop where
  mem : .struct id ∈ env.view s
  reached : ctx.tree.signatureDescribesType n →
    base.Reaches ctx.file ctx.tree env (env.membersOf id)

theorem Owner.mono {n : NodeId} {id : StructId} (h : Owner ctx base env s n id)
    (wf : env.WellFormed) (hs : env.Has (.scope s)) {env' : Environment} (he : env.Extends env') :
    Owner ctx base env' s n id where
  mem := wf.coherent.view_subset he hs h.mem
  reached hd := by
    rw [he.members id h.mem.1]
    exact (h.reached hd).mono he

/-- The signature of a routine with a body is read among the members of its owner, if there is one. -/
theorem Place.signature {n : NodeId} (h : Place ctx env s) (wf : env.WellFormed)
    (hr : base.Reaches ctx.file ctx.tree env s) {declaring : Option StructId}
    (owner : ∀ id, declaring = some id → Owner ctx base env s n id) :
    Place ctx env (declaring.elim s env.membersOf) ∧
      .scope (declaring.elim s env.membersOf) ∈ env.view s ∧
      (ctx.tree.signatureDescribesType n →
        base.Reaches ctx.file ctx.tree env (declaring.elim s env.membersOf)) ∧
      ∀ id, declaring = some id → .struct id ∈ env.view (declaring.elim s env.membersOf) := by
  cases declaring with
  | none => exact ⟨h, Environment.mem_view_self h.has, fun _ => hr, by simp⟩
  | some id =>
    have hid := owner id rfl
    refine ⟨h.members wf hid.mem, wf.coherent.closed_seen hid.mem .members, hid.reached, ?_⟩
    rintro _ ⟨⟩
    exact Environment.mem_seen_self hid.mem.1

theorem sound_methodOwner (hs : env.Has (.scope s)) (hr : base.Reaches ctx.file ctx.tree env s)
    {n : NodeId} {name : String} {kind : RoutineKind}
    (hk : ctx.tree.kind n = .routineImplementation name kind) :
    Sound ctx base env (fun env' owner => ∀ id, owner = some id → Owner ctx base env' s n id)
      (methodOwner ctx n s ((Name.splitLast name).map (·.1))) := by
  cases hsplit : Name.splitLast name with
  | none => exact Sound.pure fun _ _ _ => by simp
  | some split =>
    obtain ⟨qualifier, simple⟩ := split
    refine Sound.getEnv fun σ hg he => ?_
    have hs' := he.has _ hs
    cases ho : σ.env.ownerStruct? s qualifier with
    | none => exact Sound.bind (sound_issue _ _) fun _ _ _ _ _ => Sound.pure fun _ _ _ => by simp
    | some struct =>
      have owner : Owner ctx base σ.env s n struct :=
        ⟨(hg.wellFormed.coherent.agree_seen _).ownerStruct? (Environment.mem_view_self hs') ho,
          fun hd => .owner hg.midway (hr.mono he) hk hsplit hd ho⟩
      refine Sound.pure fun env₁ he₁ _ => ?_
      rintro _ ⟨⟩
      exact owner.mono hg.wellFormed hs' he₁

theorem sound_bodyDeclaration (wf : env.WellFormed) (hs : env.Has (.scope s))
    (hr : base.Reaches ctx.file ctx.tree env s) (n : NodeId) {members : ScopeId}
    (hm : .scope members ∈ env.view s) (name simpleName : String) (qualified : Bool)
    {signature : RoutineSignature} (hsig : SignatureWithin (env.view s) signature) :
    Sound ctx base env (fun env' found => ∀ id, found = some id → .decl id ∈ env'.view s)
      (bodyDeclaration ctx n s members name simpleName qualified signature) := by
  refine Sound.read fun σ hg he => ?_
  split
  · rename_i id hlinked
    refine Sound.pure fun env₁ he₁ _ => ?_
    rintro _ ⟨⟩
    have hfound := Environment.mem_shallowFind_of_linked hlinked
    have hin : .decl id ∈ σ.env.view s := hg.wellFormed.coherent.closed_seen
      (wf.coherent.view_subset he hs hm) (.named hfound)
    exact hg.wellFormed.coherent.view_subset he₁ (he.has _ hs) hin
  · split_ifs
    · refine Sound.bind (sound_issue _ _) fun _ _ _ _ _ => Sound.pure fun _ _ _ => by simp
    · exact Sound.pure fun _ _ _ => by simp
    · have declarable := wf.coherent.declarable he hs (hsig.declarable simpleName)
      refine Sound.bind (sound_declare hg.wellFormed (he.has _ hs) (hr.mono he) declarable)
        fun env₁ id he₁ wf₁ hid => Sound.pure fun env₂ he₂ _ => ?_
      rintro _ ⟨⟩
      exact wf₁.coherent.view_subset he₂ ((he.trans he₁).has _ hs) hid

theorem sound_declareParameters (wf : env.WellFormed) (n : NodeId) {body : ScopeId}
    (hb : Home ctx env body) (hr : base.Reaches ctx.file ctx.tree env body) :
    Sound ctx base env (fun _ _ => True) (declareParameters ctx n body) := by
  refine Sound.done (Sound.each wf fun part _ env₁ he₁ wf₁ => ?_)
  split
  · rename_i names _ _
    refine Sound.read fun σ hg he => Sound.next ?_
    have hext := he₁.trans he
    apply sound_declareNames hg.wellFormed (hext.has _ hb.has) (hr.mono hext) part names .parameter
    cases hrecorded : (ctx.tree.child? part 0).bind fun type => σ.annotations.type? type.1 with
    | none => exact Ty.within_of_refs_nil rfl
    | some ty =>
      obtain ⟨type, -, htype⟩ := Option.bind_eq_some_iff.1 hrecorded
      rw [Environment.view, (hb.mono wf hext).unit]
      exact hg.annotations.types type.1 ty htype
  · exact Sound.pure fun _ _ _ => rfl

theorem sound_declareImplicit (wf : env.WellFormed) {body : ScopeId} (hb : env.Has (.scope body))
    (hr : base.Reaches ctx.file ctx.tree env body)
    {declaring : Option StructId} (hd : ∀ id, declaring = some id → .struct id ∈ env.view body)
    {signature : RoutineSignature} (hsig : signature.result.Within (env.view body)) :
    Sound ctx base env (fun _ _ => True) (declareImplicit body declaring signature) := by
  have named : ∀ {env₁} (name : String) {ty : Ty}, env.Extends env₁ → env₁.WellFormed →
      ty.Within (env.view body) →
      Sound ctx base env₁ (fun _ _ => True) (discard (declare body { name, kind := .var, ty })) :=
    fun name _ he₁ wf₁ hty => (sound_declare wf₁ (he₁.has _ hb) (hr.mono he₁)
      (declarable_of_type (hty.mono (wf.coherent.view_subset he₁ hb)))).discard
  have result : ∀ {env₁}, env.Extends env₁ → env₁.WellFormed → Sound ctx base env₁ (fun _ _ => True)
      (if (signature.kind = .function || signature.kind = .operator) &&
          !signature.result.isVoid then
        discard (declare body { name := "Result", kind := .var, ty := signature.result })
      else Pure.pure ()) := by
    intro env₁ he₁ wf₁
    split_ifs
    · exact named "Result" he₁ wf₁ hsig
    · exact Sound.pure fun _ _ _ => trivial
  simp only [declareImplicit]
  split
  · rename_i struct
    exact Sound.bind (named "Self" (.refl _) wf (Ty.within_struct (hd struct rfl)))
      fun env₁ _ he₁ wf₁ _ => result he₁ wf₁
  · exact result (.refl _) wf

theorem mem_refs_of_result {spec : DeclarationSpec} {signature : RoutineSignature}
    (h : spec.routine = some signature) {y : Entity} (hy : y ∈ signature.result.refs) :
    y ∈ spec.refs := by
  simp [DeclarationSpec.refs, h, Ty.refsAll, hy]

/-- The scope of a body, with what can be named in it. -/
theorem sound_routineBody (g : Grounds ctx base) (wf : env.WellFormed) (hp : Home ctx env s)
    (hr : base.Reaches ctx.file ctx.tree env s) (n : NodeId) (name : String)
    {declaring : Option StructId} (hd : ∀ id, declaring = some id → .struct id ∈ env.view s)
    {declaration : Option DeclId}
    (hdeclaration : ∀ id, declaration = some id → .decl id ∈ env.view s)
    {own : RoutineSignature} (hown : SignatureWithin (env.view s) own) :
    Sound ctx base env (fun env' body => Fresh base env' .routine s body) (do
      let body ← createScope .routine s name
      setDeclaring body declaring
      annotate (·.setScope n body)
      declareParameters ctx n body
      let env ← getEnv
      declareImplicit body declaring
        ((declaration.bind fun id => (env.declaration id).routine).getD own)
      Pure.pure body) := by
  refine Sound.bind (sound_createScope (by simp) hp.toPlace hr name) fun env₁ body he₁ wf₁ fresh => ?_
  have declaring₁ : ∀ id, declaring = some id → .struct id ∈ env₁.view s :=
    fun id hid => wf.coherent.view_subset he₁ hp.has (hd id hid)
  refine Sound.bind (sound_setDeclaring fresh.new fresh.has wf₁ ?_) fun env₂ _ he₂ wf₂ _ => ?_
  · rw [fresh.unit]
    exact declaring₁
  have home₂ := (fresh.home (by simp) (hp.mono wf he₁)).mono wf₁ he₂
  refine Sound.bind (sound_annotate fun env₃ a he₃ _ ha => ?_) fun env₃ _ he₃ wf₃ _ => ?_
  · exact ha.setScope n (wf₂.coherent.seen_subset he₃ home₂.mem_seen)
  refine Sound.bind (sound_declareParameters wf₃ n (home₂.mono wf₂ he₃) (fresh.reached g))
    fun env₄ _ he₄ _ _ => ?_
  refine Sound.getEnv fun σ hg he => ?_
  have hext := he₂.trans (he₃.trans (he₄.trans he))
  -- The body belongs to the unit of the scope that it stands in, so the same is seen from both.
  have subset : env.view s ⊆ σ.env.view body := by
    have same : σ.env.view body = σ.env.view s :=
      congrArg σ.env.seen (fresh.mono wf₁ hext).unit
    exact same ▸ wf.coherent.view_subset (he₁.trans hext) hp.has
  have result : ((declaration.bind fun id => (σ.env.declaration id).routine).getD
      own).result.Within (σ.env.view body) := by
    intro y hy
    cases hc : declaration.bind fun id => (σ.env.declaration id).routine with
    | none =>
      rw [hc] at hy
      exact subset (hown _ (List.mem_cons_self ..) y hy)
    | some completed =>
      rw [hc] at hy
      obtain ⟨id, hid, hroutine⟩ := Option.bind_eq_some_iff.1 hc
      exact hg.wellFormed.coherent.closed_seen (subset (hdeclaration id hid))
        (.mentioned (mem_refs_of_result hroutine hy))
  refine Sound.bind (sound_declareImplicit hg.wellFormed (hext.has _ fresh.has) (fresh.reached g)
    (fun id hid => subset (hd id hid)) result) fun env₅ _ he₅ _ _ => Sound.pure fun env₆ he₆ _ => ?_
  exact fresh.mono wf₁ (hext.trans (he₅.trans he₆))

theorem sound_routineHead (g : Grounds ctx base) (wf : env.WellFormed) (hp : Home ctx env s)
    (hr : base.Reaches ctx.file ctx.tree env s) {n : NodeId} {name : String} {kind : RoutineKind}
    (hk : ctx.tree.kind n = .routineImplementation name kind) :
    Sound ctx base env (fun env' body => Fresh base env' .routine s body)
      (routineHead ctx n s name kind) := by
  refine Sound.bind (sound_methodOwner hp.has hr hk) fun env₁ declaring he₁ wf₁ howner => ?_
  refine Sound.getEnv fun σ hg he => ?_
  have home := hp.mono wf (he₁.trans he)
  have owner : ∀ id, declaring = some id → Owner ctx base σ.env s n id :=
    fun id hid => (howner id hid).mono wf₁ (he₁.has _ hp.has) he
  obtain ⟨hplace, hmembers, hreached, hdeclaring⟩ :=
    home.signature hg.wellFormed (hr.mono (he₁.trans he)) owner
  refine Sound.bind (sound_signature (resolver g n) hg.wellFormed hplace hreached kind hdeclaring)
    fun env₂ own he₂ wf₂ hown => ?_
  have home₂ := home.mono hg.wellFormed he₂
  have reached₂ := hr.mono (he₁.trans (he.trans he₂))
  have hmembers₂ := hg.wellFormed.coherent.view_subset he₂ home.has hmembers
  have hown₂ : SignatureWithin (env₂.view s) own := fun ty hty =>
    (hown ty hty).mono (Environment.view_subset_of_mem hmembers₂)
  refine Sound.bind (sound_bodyDeclaration wf₂ home₂.has reached₂ n hmembers₂ name _ _ hown₂)
    fun env₃ declaration he₃ wf₃ hdeclaration => ?_
  have hext₃ := he₂.trans he₃
  have body : ∀ {env₄}, env₃.Extends env₄ → env₄.WellFormed → Sound ctx base env₄ _ _ :=
    fun {env₄} he₄ wf₄ => sound_routineBody g wf₄ (home.mono hg.wellFormed (hext₃.trans he₄))
      (reached₂.mono (he₃.trans he₄)) n ((Name.splitLast name).elim name (·.2))
      (fun id hid =>
        hg.wellFormed.coherent.view_subset (hext₃.trans he₄) home.has (owner id hid).mem)
      (fun id hid => wf₃.coherent.view_subset he₄ (he₃.has _ home₂.has) (hdeclaration id hid))
      fun ty hty => (hown₂ ty hty).mono (wf₂.coherent.view_subset (he₃.trans he₄) home₂.has)
  split
  · refine Sound.bind (Sound.modify fun σ hg _ => ⟨{ hg with }, .refl _⟩) fun env₄ _ he₄ wf₄ _ => ?_
    refine Sound.bind (sound_setDeclaration n _) fun env₅ _ he₅ wf₅ _ => ?_
    exact body (he₄.trans he₅) wf₅
  · exact body (.refl _) wf₃

end Routines

section Units

variable {ctx : CollectionContext} {base env : Environment} {s : ScopeId}

/-- Sections and routines, by induction on the number of the node. -/
theorem sound_item (g : Grounds ctx base) (n : NodeId) (wf : env.WellFormed) (hp : Home ctx env s)
    (hr : base.Reaches ctx.file ctx.tree env s) :
    Sound ctx base env (fun _ _ => True) (item ctx n s) := by
  induction hi : n.index using Nat.strong_induction_on generalizing n env s with
  | _ index ih =>
    rw [item]
    split
    · exact sound_usesClause g wf n
    · exact sound_typeSection g (resolver g n) (describer g n) wf hp.toPlace hr
    · exact sound_varSection (resolver g n) wf hp.toPlace hr .var
    · exact sound_constSection (resolver g n) wf hp.toPlace hr
    · exact sound_routineDeclaration (resolver g n) wf hp.toPlace hr _ _ (by simp)
    · rename_i name kind hk
      refine Sound.bind (sound_routineHead g wf hp hr hk) fun env₁ body he₁ wf₁ fresh => ?_
      have home := fresh.home (by simp) (hp.mono wf he₁)
      refine Sound.forM wf₁ fun part _ env₂ he₂ wf₂ => ?_
      split_ifs
      · exact ih part.1.index (hi ▸ part.2) part.1 wf₂ (home.mono wf₁ he₂) (fresh.reached g) rfl
      · exact Sound.pure fun _ _ _ => trivial
    · exact Sound.pure fun _ _ _ => trivial

theorem home_file (g : Grounds ctx base) (he : base.Extends env) : Home ctx env ctx.file := by
  have unit : env.unitOf (.scope ctx.file) = some ctx.file :=
    ScopeTree.fileScopeOf?_of_file ((he.kind _ g.file).trans g.kind)
  refine ⟨⟨he.has _ g.file, by simp [he.kind _ g.file, g.kind], ?_⟩, unit⟩
  rw [unit]
  exact Environment.Sees.refl _

theorem sound_unitPart (g : Grounds ctx base) (he : base.Extends env) (wf : env.WellFormed)
    (n : NodeId) : Sound ctx base env (fun _ _ => True) (unitPart ctx n) := by
  have items : ∀ {env₁}, env.Extends env₁ → env₁.WellFormed → ∀ n,
      Sound ctx base env₁ (fun _ _ => True) (item ctx n ctx.file) :=
    fun he₁ wf₁ n => sound_item g n wf₁ (home_file g (he.trans he₁)) (.own (Nat.le_refl _))
  have enter : ∀ part, Sound ctx base env (fun _ _ => True) (do
      modify fun s => { s with part }
      (ctx.tree.childIds n).forM fun child => item ctx child ctx.file) := by
    intro part
    refine Sound.bind (Sound.modify fun σ hg _ => ⟨{ hg with }, .refl _⟩) fun env₁ _ he₁ wf₁ _ => ?_
    exact Sound.forM wf₁ fun child _ env₂ he₂ wf₂ => items (he₁.trans he₂) wf₂ child
  unfold unitPart
  split
  · exact enter .interface
  · exact enter .implementation
  · exact items (.refl _) wf n

theorem sound_unit (g : Grounds ctx base) (root : NodeId) :
    Sound ctx base base (fun _ _ => True) (unit ctx root) := by
  refine Sound.bind (sound_annotate fun env a he _ ha => ?_) fun env₁ _ he₁ wf₁ _ => ?_
  · exact ha.setScope root (home_file g he).mem_seen
  · exact Sound.forM wf₁ fun n _ env₂ he₂ wf₂ => sound_unitPart g (he₁.trans he₂) wf₂ n

theorem sound_retryImports (g : Grounds ctx base) :
    Sound ctx base base (fun _ _ => True) (retryImports ctx) := by
  refine Sound.read fun σ hg _ => Sound.done (Sound.each hg.wellFormed fun entry _ env₁ _ _ => ?_)
  dsimp only
  split_ifs
  · refine Sound.bind (Sound.modify fun σ hg _ => ⟨{ hg with }, .refl _⟩) fun env₂ _ _ _ _ => ?_
    refine Sound.bind (sound_importUnit g entry.1 entry.2) fun env₃ _ _ _ _ => Sound.next ?_
    exact sound_annotate fun _ _ _ _ ha => { ha with }
  · exact Sound.pure fun _ _ _ => rfl

end Units

end Collecting

end Pascal
