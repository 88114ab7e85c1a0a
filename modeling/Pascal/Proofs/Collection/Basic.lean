import Pascal.Collection.Unit
import Pascal.Proofs.Typing
import Pascal.Proofs.WellFormed

/-!
# Where a collection writes

The collection of a unit declares names in the scopes of the unit. There are two ways out of it. The
signature of a method body is read in the member scope of the structured type that the qualifier
names, so a type described in it is declared there, and the qualifier may name a type of another
unit. And a name that stands for a structured type that is only announced takes up that type,
whichever unit has announced it.
-/

namespace Pascal

open Environment

/-- Whether a type is described at a node or below it, so that the node declares something. -/
def SyntaxTree.describesType (tree : SyntaxTree) (n : NodeId) : Bool :=
  match tree.kind n with
  | .structType _ | .enumType => true
  | _ => (tree.children n).any fun child => tree.describesType child.1
  termination_by n.index
  decreasing_by exact child.2

/-- Whether the signature of a routine describes a type. -/
def SyntaxTree.signatureDescribesType (tree : SyntaxTree) (n : NodeId) : Bool :=
  (tree.childIds n).any fun part =>
    match tree.kind part with
    | .parameter _ _ | .returnType => tree.describesType part
    | _ => false

/-- Whether what a structured type is derived from, or what it helps, describes a type. -/
def SyntaxTree.heritageDescribesType (tree : SyntaxTree) (n : NodeId) : Bool :=
  (tree.childIds n).any fun part =>
    match tree.kind part with
    | .ancestorList | .helperTarget => tree.describesType part
    | _ => false

namespace Environment

/-- Tables between two moments of a collection. Until then nothing has been described but what was
announced at the start. -/
structure Midway (base env env' : Environment) : Prop where
  wellFormed : env.WellFormed
  since : base.Extends env
  grows : env.Extends env'
  described : ∀ id, base.Has (.struct id) → (base.types.structInfo id).forward = false →
    env.types.structInfo id = base.types.structInfo id
  declaring : ∀ s, base.Has (.scope s) →
    (env.scopes.get s).declaring = (base.scopes.get s).declaring

/-- A structured type that was announced at the start has been described since. -/
structure Completes (base env : Environment) (struct : StructId) : Prop where
  before : base.Has (.struct struct)
  has : env.Has (.struct struct)
  announced : (base.types.structInfo struct).forward = true
  described : (env.types.structInfo struct).forward = false

/-- The scopes that the collection of a tree can write in, from its file scope on: those created
since the file scope; the member scope of a structured type that a method body with a described type
in its signature belongs to; and, for an announced structured type that the collection describes, the
scope of its members and the scope around them. What such a description is derived from is read
first: if it describes a type itself, the scope around is reached even if the collection fails then.
The names of owners and of announced types are looked up in the tables of some moment of the
collection. -/
inductive Reaches (base : Environment) (file : ScopeId) (tree : SyntaxTree) :
    Environment → ScopeId → Prop
  | own {env s} : file.index ≤ s.index → Reaches base file tree env s
  | owner {env env' scope n name kind qualifier simple struct} :
      Midway base env env' → Reaches base file tree env scope →
      tree.kind n = .routineImplementation name kind →
      Name.splitLast name = some (qualifier, simple) → tree.signatureDescribesType n →
      env.ownerStruct? scope qualifier = some struct →
      Reaches base file tree env' (env.membersOf struct)
  | members {env struct} : Completes base env struct →
      Reaches base file tree env (base.membersOf struct)
  | around {env struct p} : Completes base env struct →
      (base.scopes.get (base.membersOf struct)).parent = some p → Reaches base file tree env p
  | heritage {env env' scope n name type kind d struct p} :
      Midway base env env' → Reaches base file tree env scope →
      tree.kind n = .typeDeclaration name → tree.child? n 0 = some type →
      tree.kind type.1 = .structType kind → tree.heritageDescribesType type.1 →
      env.placeholder? scope name = some (d, struct) → base.Has (.struct struct) →
      (base.scopes.get (base.membersOf struct)).parent = some p → Reaches base file tree env' p

theorem Midway.mono {base env mid env' : Environment} (h : Midway base env mid)
    (he : mid.Extends env') : Midway base env env' :=
  { h with grows := h.grows.trans he }

/-- From an earlier moment on, between as well. -/
theorem Midway.rebase {first base env env' : Environment} (h : Midway base env env')
    (hf : Midway first base base) : Midway first env env' where
  wellFormed := h.wellFormed
  since := hf.since.trans h.since
  grows := h.grows
  described id hid hdone := by
    have before := hf.described id hid hdone
    rw [h.described id (hf.since.has _ hid) (before ▸ hdone), before]
  declaring s hs := (h.declaring s (hf.since.has _ hs)).trans (hf.declaring s hs)

theorem Completes.mono {base env env' : Environment} {struct : StructId}
    (h : Completes base env struct) (he : env.Extends env') : Completes base env' struct where
  before := h.before
  has := he.has _ h.has
  announced := h.announced
  described := by
    refine Bool.eq_false_of_not_eq_true fun hf => ?_
    simpa [h.described] using he.announced struct h.has hf

theorem Reaches.mono {base env env' : Environment} {file s : ScopeId} {tree : SyntaxTree}
    (h : Reaches base file tree env s) (he : env.Extends env') : Reaches base file tree env' s := by
  cases h with
  | own hs => exact .own hs
  | owner hm hs hk hq hd ho => exact .owner (hm.mono he) hs hk hq hd ho
  | members hc => exact .members (hc.mono he)
  | around hc hp => exact .around (hc.mono he) hp
  | heritage hm hs hk hc ht hd hn hb hp => exact .heritage (hm.mono he) hs hk hc ht hd hn hb hp

/-- From an earlier moment on with the same types, no less is reached. -/
theorem Reaches.rebase {first base env : Environment} {file s : ScopeId} {tree : SyntaxTree}
    (h : Reaches base file tree env s) (wf : first.WellFormed) (hf : Midway first base base)
    (types : base.types = first.types) : Reaches first file tree env s := by
  have members : ∀ id, base.membersOf id = first.membersOf id := by simp [membersOf, types]
  have before : ∀ id, base.Has (.struct id) → first.Has (.struct id) := by simp [Has, types]
  have completes : ∀ {env id}, Completes base env id → Completes first env id := fun hc =>
    ⟨before _ hc.before, hc.has, types ▸ hc.announced, hc.described⟩
  have parent : ∀ {id}, base.Has (.struct id) → (base.scopes.get (base.membersOf id)).parent =
      (first.scopes.get (first.membersOf id)).parent := by
    intro id hid
    rw [members]
    exact hf.since.parent _ (wf.coherent.exist _ _ (before id hid) .members)
  induction h with
  | own hs => exact .own hs
  | owner hm _ hk hq hd ho ih => exact .owner (hm.rebase hf) ih hk hq hd ho
  | members hc => exact members _ ▸ .members (completes hc)
  | around hc hp => exact .around (completes hc) (parent hc.before ▸ hp)
  | heritage hm _ hk hc ht hd hn hb hp ih =>
    exact .heritage (hm.rebase hf) ih hk hc ht hd hn (before _ hb) (parent hb ▸ hp)

/-- What is left as it is of the things that were there at the start: frozen scopes and scopes that
may not be written in keep their names, the latter also their helpers and children; enumerations
stay the same, and so do structured types unless they were announced and are described now. -/
structure Frame (base : Environment) (may : ScopeId → Prop) (env env' : Environment) : Prop where
  target : env'.types.target = env.types.target
  enum : ∀ id, base.Has (.enum id) → env'.types.enumInfo id = env.types.enumInfo id
  struct : ∀ id, base.Has (.struct id) →
    (base.types.structInfo id).forward = false ∨ (env'.types.structInfo id).forward = true →
    env'.types.structInfo id = env.types.structInfo id
  frozen : ∀ s, base.Has (.scope s) → (env'.scopes.get s).frozen = (env.scopes.get s).frozen
  declaring : ∀ s, base.Has (.scope s) →
    (env'.scopes.get s).declaring = (env.scopes.get s).declaring
  imports : ∀ s, base.Has (.scope s) → (env.scopes.get s).frozen ∨ ¬may s →
    (env'.scopes.get s).imports = (env.scopes.get s).imports
  names : ∀ s, base.Has (.scope s) → (env.scopes.get s).frozen ∨ ¬may s →
    env'.symbols.namesOf s = env.symbols.namesOf s
  helpers : ∀ s, base.Has (.scope s) → ¬may s →
    (env'.scopes.get s).helpers = (env.scopes.get s).helpers
  children : ∀ s, base.Has (.scope s) → ¬may s →
    (env'.scopes.get s).children = (env.scopes.get s).children

section Frames

variable {base env env' : Environment} {may : ScopeId → Prop}

theorem Frame.refl (base : Environment) (may : ScopeId → Prop) (env : Environment) :
    Frame base may env env := by
  constructor
  all_goals intros
  all_goals rfl

theorem Frame.trans {mid : Environment} (h : Frame base may env mid) (g : Frame base may mid env') :
    Frame base may env env' where
  target := g.target.trans h.target
  enum id hid := (g.enum id hid).trans (h.enum id hid)
  struct id hid hf :=
    have same := g.struct id hid hf
    same.trans (h.struct id hid (same ▸ hf))
  frozen s hs := (g.frozen s hs).trans (h.frozen s hs)
  declaring s hs := (g.declaring s hs).trans (h.declaring s hs)
  imports s hs hm := (g.imports s hs (h.frozen s hs ▸ hm)).trans (h.imports s hs hm)
  names s hs hm := (g.names s hs (h.frozen s hs ▸ hm)).trans (h.names s hs hm)
  helpers s hs hm := (g.helpers s hs hm).trans (h.helpers s hs hm)
  children s hs hm := (g.children s hs hm).trans (h.children s hs hm)

theorem Frame.mono {may' : ScopeId → Prop} (h : Frame base may env env')
    (hm : ∀ s, may s → may' s) :
    Frame base may' env env' :=
  { h with
    imports := fun s hs hn => h.imports s hs (hn.imp_right fun hn hs => hn (hm s hs))
    names := fun s hs hn => h.names s hs (hn.imp_right fun hn hs => hn (hm s hs))
    helpers := fun s hs hn => h.helpers s hs fun hs => hn (hm s hs)
    children := fun s hs hn => h.children s hs fun hs => hn (hm s hs) }

/-! ## Frames of the steps -/

theorem frame_createScope (hb : base.Extends env) {p : ScopeId} (hp : may p) (kind : ScopeKind)
    (name : String) : Frame base may env (env.createScope kind p name) := by
  have old : ∀ s, base.Has (.scope s) → (env.createScope kind p name).scopes.get s = _ :=
    fun s hs => ScopeTree.get_create kind (some p) name (hb.has _ hs)
  constructor
  case frozen => exact fun s hs => by rw [old s hs]
  case declaring => exact fun s hs => by rw [old s hs]
  case imports => exact fun s hs _ => by rw [old s hs]
  case helpers => exact fun s hs _ => by rw [old s hs]
  case children =>
    intro s hs hm
    have hne : some p ≠ some s := by
      rintro ⟨⟩
      exact hm hp
    simp [old s hs, hne]
  all_goals intros
  all_goals rfl

theorem frame_add {s : ScopeId} (hf : (env.scopes.get s).frozen = false) (hs : may s)
    (spec : DeclarationSpec) : Frame base may env (env.add s spec).2 := by
  constructor
  case names =>
    intro t _ hm
    have hne : t ≠ s := by
      rintro rfl
      obtain hm | hm := hm
      · simp [hf] at hm
      · exact hm hs
    simp only [add, SymbolTable.namesOf_add, if_neg hne]
  all_goals intros
  all_goals rfl

theorem frame_withTypes {types : TypeTable} (target : types.target = env.types.target)
    (enum : ∀ id, base.Has (.enum id) → types.enumInfo id = env.types.enumInfo id)
    (struct : ∀ id, base.Has (.struct id) →
      (base.types.structInfo id).forward = false ∨ (types.structInfo id).forward = true →
      types.structInfo id = env.types.structInfo id) :
    Frame base may env (env.withTypes types) := by
  constructor
  case target => exact target
  case enum => exact enum
  case struct => exact struct
  all_goals intros
  all_goals rfl

theorem frame_modifyScope {s : ScopeId} {change : Scope → Scope}
    (frozen : ∀ scope, (change scope).frozen = scope.frozen)
    (children : ∀ scope, (change scope).children = scope.children)
    (declaring : base.Has (.scope s) → ∀ scope, (change scope).declaring = scope.declaring)
    (imports : (env.scopes.get s).frozen ∨ ¬may s → ∀ scope,
      (change scope).imports = scope.imports)
    (helpers : ¬may s → ∀ scope, (change scope).helpers = scope.helpers) :
    Frame base may env (env.modifyScope s change) := by
  have kept : ∀ {α : Type} (field : Scope → α) (t : ScopeId),
      (t = s → ∀ scope, field (change scope) = field scope) →
      field ((env.modifyScope s change).scopes.get t) = field (env.scopes.get t) := by
    intro α field t same
    by_cases heq : t = s
    · exact ScopeTree.get_modify_field field change (same heq)
    · rw [modifyScope, ScopeTree.get_modify_of_ne _ heq]
  constructor
  case frozen => exact fun t _ => kept Scope.frozen t fun _ => frozen
  case declaring => exact fun t ht => kept Scope.declaring t fun heq => declaring (heq ▸ ht)
  case imports => exact fun t _ hm => kept Scope.imports t fun heq => imports (heq ▸ hm)
  case helpers => exact fun t _ hm => kept Scope.helpers t fun heq => helpers (heq ▸ hm)
  case children => exact fun t _ _ => kept Scope.children t fun _ => children
  all_goals intros
  all_goals rfl

theorem frame_setDeclaring {s : ScopeId} (hs : ¬base.Has (.scope s)) (declaring : Option StructId) :
    Frame base may env (env.modifyScope s ({ · with declaring })) :=
  frame_modifyScope (fun _ => rfl) (fun _ => rfl) (fun h => absurd h hs) (fun _ _ => rfl)
    fun _ _ => rfl

theorem frame_registerHelper {s : ScopeId} (hs : may s) (target : Ty) (struct : StructId) :
    Frame base may env (env.modifyScope s fun scope => { scope with
      helpers := (target, struct) :: scope.helpers.filter fun entry => entry.1 ≠ target }) :=
  frame_modifyScope (fun _ => rfl) (fun _ => rfl) (fun _ _ => rfl) (fun _ _ => rfl)
    fun h => absurd hs h

theorem frame_importUnit {file : ScopeId} (hf : (env.scopes.get file).frozen = false)
    (hs : may file) (used : ScopeId) (spec : DeclarationSpec) :
    Frame base may env (env.importUnit file used spec) := by
  have first : Frame base may env
      (env.modifyScope file fun s => { s with imports := s.imports ++ [used] }) :=
    frame_modifyScope (fun _ => rfl) (fun _ => rfl) (fun _ _ => rfl)
      (fun h => by simp [hf, hs] at h) fun _ _ => rfl
  have still : ((env.modifyScope file fun s =>
      { s with imports := s.imports ++ [used] }).scopes.get file).frozen = false := by
    rw [← hf]
    exact ScopeTree.get_modify_field Scope.frozen _ fun _ => rfl
  exact first.trans (frame_add still hs spec)

end Frames

end Environment

/-- Annotations that mention nothing outside a world. -/
structure Annotations.Within (W : Set Entity) (a : Annotations) : Prop where
  types : ∀ n ty, a.type? n = some ty → ty.Within W
  scopes : ∀ n s, a.scope? n = some s → .scope s ∈ W
  named : ∀ n occurrence d, a.occurrence? n = some occurrence →
    occurrence.declaration = some d → .decl d ∈ W

namespace Annotations.Within

variable {W : Set Entity} {a : Annotations}

theorem empty (W : Set Entity) : ({} : Annotations).Within W := by
  constructor <;> grind [type?, scope?, occurrence?]

theorem mono {W' : Set Entity} (h : a.Within W) (hw : W ⊆ W') : a.Within W' where
  types n ty ht x hx := hw (h.types n ty ht x hx)
  scopes n s hs := hw (h.scopes n s hs)
  named n o d ho hd := hw (h.named n o d ho hd)

theorem setType (h : a.Within W) (n : NodeId) {ty : Ty} (ht : ty.Within W) :
    (a.setType n ty).Within W :=
  { h with
    types := fun m t => by
      simp only [type?_setType]
      split_ifs
      · rintro ⟨⟩
        exact ht
      · exact h.types m t }

theorem setScope (h : a.Within W) (n : NodeId) {s : ScopeId} (hs : .scope s ∈ W) :
    (a.setScope n s).Within W :=
  { h with
    scopes := fun m t => by
      simp only [scope?_setScope]
      split_ifs
      · rintro ⟨⟩
        exact hs
      · exact h.scopes m t }

end Annotations.Within

namespace Collecting

/-- What a collection starts from: well-formed tables with an open file scope, the roots of heritage
in the System unit, and units to use. -/
structure Grounds (ctx : CollectionContext) (base : Environment) : Prop where
  wellFormed : base.WellFormed
  file : base.Has (.scope ctx.file)
  kind : (base.scopes.get ctx.file).kind = .file
  unfrozen : (base.scopes.get ctx.file).frozen = false
  rootClass : base.Has (.struct ctx.rootClass) ∧ base.unitOf (.struct ctx.rootClass) = none
  rootInterface : base.Has (.struct ctx.rootInterface) ∧
    base.unitOf (.struct ctx.rootInterface) = none
  units : ∀ name unit, ctx.unitScope name = some unit → base.Has (.scope unit)

/-- A collection may write in the scope of the members of a structured type and around it. -/
def Writable (ctx : CollectionContext) (base env : Environment) (struct : StructId) : Prop :=
  base.Reaches ctx.file ctx.tree env (env.membersOf struct) ∧
    ∀ p, (env.scopes.get (env.membersOf struct)).parent = some p →
      base.Reaches ctx.file ctx.tree env p

/-- What holds at every moment of a collection. -/
structure Good (ctx : CollectionContext) (base : Environment) (σ : CollectionState) : Prop where
  wellFormed : σ.env.WellFormed
  since : base.Extends σ.env
  frame : base.Frame (base.Reaches ctx.file ctx.tree σ.env) base σ.env
  made : ∀ id, σ.env.Has (.struct id) → ¬base.Has (.struct id) → Writable ctx base σ.env id
  annotations : σ.annotations.Within (σ.env.seen (some ctx.file))
  constants : σ.constants.Within (σ.env.seen (some ctx.file))

section Rules

variable {ctx : CollectionContext} {base env : Environment} {α β : Type}

/-- A computation keeps what holds during a collection, whether it succeeds or fails; the tables
only grow, and what it gives has a property. -/
def Holds (ctx : CollectionContext) (base : Environment) (Q : Environment → α → Prop)
    (m : Collecting α) (σ : CollectionState) : Prop :=
  Good ctx base (m.run.run σ).2 ∧ σ.env.Extends (m.run.run σ).2.env ∧
    ∀ a, (m.run.run σ).1 = .ok a → Q (m.run.run σ).2.env a

/-- A computation is sound from the moment at which the tables have grown to `env`. -/
def Sound (ctx : CollectionContext) (base env : Environment) (Q : Environment → α → Prop)
    (m : Collecting α) : Prop :=
  ∀ σ, Good ctx base σ → env.Extends σ.env → Holds ctx base Q m σ

theorem run_bind (m : Collecting α) (k : α → Collecting β) (σ : CollectionState) :
    (m >>= k).run.run σ =
      match m.run.run σ with
      | (.ok a, σ') => (k a).run.run σ'
      | (.error cause, σ') => (.error cause, σ') := by
  change (match m.run.run σ with
    | (value, σ') => (ExceptT.bindCont k value) σ') = _
  rcases m.run.run σ with ⟨_ | _, _⟩ <;> rfl

theorem run_get_bind (k : CollectionState → Collecting β) (σ : CollectionState) :
    (get >>= k : Collecting β).run.run σ = (k σ).run.run σ := rfl

theorem discard_eq (m : Collecting α) : discard m = m >>= fun _ => pure () := by
  rw [Functor.discard, map_const, bind_pure_comp]
  rfl

theorem Sound.pure {Q : Environment → α → Prop} {a : α}
    (h : ∀ env', env.Extends env' → env'.WellFormed → Q env' a) :
    Sound ctx base env Q (pure a) := by
  refine fun σ hg he => ⟨hg, .refl _, ?_⟩
  rintro _ ⟨⟩
  exact h σ.env he hg.wellFormed

theorem Sound.malformed {Q : Environment → α → Prop} (cause : TreeError) :
    Sound ctx base env Q (malformed cause) :=
  fun _ hg _ => ⟨hg, .refl _, by rintro _ ⟨⟩⟩

theorem Sound.bind {P : Environment → α → Prop} {Q : Environment → β → Prop} {m : Collecting α}
    {k : α → Collecting β} (h : Sound ctx base env P m)
    (hk : ∀ env' a, env.Extends env' → env'.WellFormed → P env' a → Sound ctx base env' Q (k a)) :
    Sound ctx base env Q (m >>= k) := by
  intro σ hg he
  obtain ⟨hg', hext, hp⟩ := h σ hg he
  simp only [Holds, run_bind]
  generalize m.run.run σ = ran at hg' hext hp
  obtain ⟨outcome, σ'⟩ := ran
  cases outcome with
  | error cause => exact ⟨hg', hext, by rintro _ ⟨⟩⟩
  | ok a =>
    obtain ⟨hg'', hext', hq⟩ :=
      hk σ'.env a (he.trans hext) hg'.wellFormed (hp a rfl) σ' hg' (.refl _)
    exact ⟨hg'', hext.trans hext', hq⟩

theorem Sound.weaken {P Q : Environment → α → Prop} {m : Collecting α}
    (h : Sound ctx base env P m)
    (hpq : ∀ env' a, env.Extends env' → env'.WellFormed → P env' a → Q env' a) :
    Sound ctx base env Q m := by
  intro σ hg he
  obtain ⟨hg', hext, hp⟩ := h σ hg he
  exact ⟨hg', hext, fun a ha => hpq _ a (he.trans hext) hg'.wellFormed (hp a ha)⟩

theorem Sound.discard {P : Environment → α → Prop} {m : Collecting α} (h : Sound ctx base env P m) :
    Sound ctx base env (fun _ _ => True) (discard m) := by
  rw [discard_eq]
  exact h.bind fun _ _ _ _ _ => Sound.pure fun _ _ _ => trivial

theorem Sound.get {Q : Environment → β → Prop} {k : CollectionState → Collecting β}
    (h : ∀ σ, Good ctx base σ → env.Extends σ.env → Holds ctx base Q (k σ) σ) :
    Sound ctx base env Q (get >>= k) := h

/-- What depends on the state in another way than by changing it. -/
theorem Sound.read {Q : Environment → β → Prop} {k : CollectionState → Collecting β}
    (h : ∀ σ, Good ctx base σ → env.Extends σ.env → Sound ctx base σ.env Q (k σ)) :
    Sound ctx base env Q (MonadState.get >>= k) :=
  fun σ hg he => h σ hg he σ hg (.refl _)

theorem Sound.getEnv {Q : Environment → β → Prop} {k : Environment → Collecting β}
    (h : ∀ σ, Good ctx base σ → env.Extends σ.env → Sound ctx base σ.env Q (k σ.env)) :
    Sound ctx base env Q (Collecting.getEnv >>= k) :=
  fun σ hg he => h σ hg he σ hg (.refl _)

/-- Going on from another state. -/
theorem Holds.set {Q : Environment → β → Prop} {σ τ : CollectionState} {k : Unit → Collecting β}
    (hg : Good ctx base τ) (he : σ.env.Extends τ.env) (h : Sound ctx base τ.env Q (k ())) :
    Holds ctx base Q (MonadStateOf.set τ >>= k) σ := by
  obtain ⟨hg', he', hq⟩ := h τ hg (.refl _)
  exact ⟨hg', he.trans he', hq⟩

theorem Sound.modify {f : CollectionState → CollectionState}
    (h : ∀ σ, Good ctx base σ → env.Extends σ.env → Good ctx base (f σ) ∧ σ.env.Extends (f σ).env) :
    Sound ctx base env (fun _ _ => True) (modify f) :=
  fun σ hg he => ⟨(h σ hg he).1, (h σ hg he).2, fun _ _ => trivial⟩

/-- A loop that is never left early keeps what every round keeps. -/
theorem Sound.forIn {A : Type} {l : List A} {init : β} {f : A → β → Collecting (ForInStep β)}
    (I : Environment → β → Prop)
    (stable : ∀ env₁ env₂ b, env.Extends env₁ → env₁.WellFormed → env₁.Extends env₂ →
      I env₁ b → I env₂ b)
    (wf : env.WellFormed) (start : I env init)
    (step : ∀ x ∈ l, ∀ env' b, env.Extends env' → env'.WellFormed → I env' b →
      Sound ctx base env' (fun env'' r => ∃ b', r = .yield b' ∧ I env'' b') (f x b)) :
    Sound ctx base env I (forIn l init f) := by
  induction l generalizing env init with
  | nil => exact Sound.pure fun env' he _ => stable _ _ _ (.refl _) wf he start
  | cons x rest ih =>
    simp only [List.forall_mem_cons] at step
    simp only [List.forIn_cons]
    refine Sound.bind (step.1 env init (.refl _) wf start) fun env' r he wf' hr => ?_
    obtain ⟨b', rfl, hb'⟩ := hr
    exact ih (fun env₁ env₂ b he₁ => stable env₁ env₂ b (he.trans he₁)) wf' hb'
      fun y hy env'' b he' => step.2 y hy env'' b (he.trans he')

/-- A loop without variables. -/
theorem Sound.each {A : Type} {l : List A} {f : A → PUnit → Collecting (ForInStep PUnit)}
    (wf : env.WellFormed)
    (step : ∀ x ∈ l, ∀ env', env.Extends env' → env'.WellFormed →
      Sound ctx base env' (fun _ r => r = .yield PUnit.unit) (f x PUnit.unit)) :
    Sound ctx base env (fun _ _ => True) (ForIn.forIn l PUnit.unit f) := by
  refine Sound.forIn (fun _ _ => True) (fun _ _ _ _ _ _ _ => trivial) wf trivial ?_
  intro x hx env' _ he wf' _
  exact (step x hx env' he wf').weaken fun _ r _ _ hr => ⟨_, hr, trivial⟩

theorem Sound.done {m : Collecting α} (h : Sound ctx base env (fun _ _ => True) m) :
    Sound ctx base env (fun _ _ => True) (m >>= fun _ => Pure.pure ()) :=
  h.bind fun _ _ _ _ _ => Sound.pure fun _ _ _ => trivial

/-- A round that ends with the next one. -/
theorem Sound.next {m : Collecting α} (h : Sound ctx base env (fun _ _ => True) m) :
    Sound ctx base env (fun _ r => r = ForInStep.yield PUnit.unit)
      (m >>= fun _ => Pure.pure (ForInStep.yield PUnit.unit)) :=
  h.bind fun _ _ _ _ _ => Sound.pure fun _ _ _ => rfl

theorem Sound.forM {A : Type} {l : List A} {f : A → Collecting Unit} (wf : env.WellFormed)
    (step : ∀ x ∈ l, ∀ env', env.Extends env' → env'.WellFormed →
      Sound ctx base env' (fun _ _ => True) (f x)) :
    Sound ctx base env (fun _ _ => True) (l.forM f) := by
  induction l generalizing env with
  | nil => exact Sound.pure fun _ _ _ => trivial
  | cons x rest ih =>
    simp only [List.forall_mem_cons] at step
    refine Sound.bind (step.1 env (.refl _) wf) fun env' _ he wf' _ => ?_
    exact ih wf' fun y hy env'' he' => step.2 y hy env'' (he.trans he')

end Rules

/-- A scope in which a collection may read: not the System scope, and in a unit that is seen. -/
structure Place (ctx : CollectionContext) (env : Environment) (s : ScopeId) : Prop where
  has : env.Has (.scope s)
  kind : (env.scopes.get s).kind ≠ .system
  sees : env.Sees (some ctx.file) (env.unitOf (.scope s))

/-- A place in the unit that is collected. -/
structure Home (ctx : CollectionContext) (env : Environment) (s : ScopeId) : Prop
    extends Place ctx env s where
  unit : env.unitOf (.scope s) = some ctx.file

/-- A structured type whose description at a node may be collected. -/
structure Site (ctx : CollectionContext) (base env : Environment) (n : NodeId)
    (struct : StructId) : Prop where
  has : env.Has (.struct struct)
  /-- Of the types there were, only those that are announced are described. -/
  announced : base.Has (.struct struct) → (base.types.structInfo struct).forward = true
  sees : env.Sees (some ctx.file) (env.unitOf (.struct struct))
  around : ∃ p, (env.scopes.get (env.membersOf struct)).parent = some p ∧
    (env.scopes.get p).kind ≠ .system
  heritage : ctx.tree.heritageDescribesType n →
    ∀ p, (env.scopes.get (env.membersOf struct)).parent = some p →
      base.Reaches ctx.file ctx.tree env p
  made : ¬base.Has (.struct struct) → Writable ctx base env struct

section Steps

variable {ctx : CollectionContext} {base env env' : Environment} {s : ScopeId} {σ : CollectionState}

theorem Place.mono (h : Place ctx env s) (wf : env.WellFormed) (he : env.Extends env') :
    Place ctx env' s where
  has := he.has _ h.has
  kind := he.kind s h.has ▸ h.kind
  sees := by
    rw [wf.coherent.unitOf_eq he h.has]
    exact wf.coherent.sees he h.sees

theorem Home.mono (h : Home ctx env s) (wf : env.WellFormed) (he : env.Extends env') :
    Home ctx env' s where
  toPlace := h.toPlace.mono wf he
  unit := (wf.coherent.unitOf_eq he h.has).trans h.unit

theorem Place.mem_seen (h : Place ctx env s) : .scope s ∈ env.seen (some ctx.file) :=
  ⟨h.has, h.sees⟩

/-- What a place sees is seen from the file scope. -/
theorem Place.seen_subset (h : Place ctx env s) :
    env.seen (env.unitOf (.scope s)) ⊆ env.seen (some ctx.file) :=
  fun _ hx => ⟨hx.1, h.sees.trans hx.2⟩

theorem Writable.mono {struct : StructId} (h : Writable ctx base env struct) (wf : env.WellFormed)
    (hs : env.Has (.struct struct)) (he : env.Extends env') : Writable ctx base env' struct := by
  have hm := wf.coherent.exist _ _ hs .members
  refine ⟨?_, fun p hp => (h.2 p ?_).mono he⟩
  · rw [he.members struct hs]
    exact h.1.mono he
  · rwa [he.members struct hs, he.parent _ hm] at hp

/-- A change of the tables that keeps what holds during a collection. -/
theorem Good.advance (h : Good ctx base σ) (he : σ.env.Extends env') (wf : env'.WellFormed)
    (frame : base.Frame (base.Reaches ctx.file ctx.tree env') σ.env env')
    (made : ∀ id, env'.Has (.struct id) → σ.env.Has (.struct id) ∨ Writable ctx base env' id) :
    Good ctx base { σ with env := env' } where
  wellFormed := wf
  since := h.since.trans he
  frame := (h.frame.mono fun _ hs => hs.mono he).trans frame
  made id hid hb :=
    (made id hid).elim (fun hs => (h.made id hs hb).mono h.wellFormed hs he) fun hw => hw
  annotations := h.annotations.mono (h.wellFormed.coherent.seen_subset he)
  constants := h.constants.mono (h.wellFormed.coherent.seen_subset he)

theorem Good.midway (h : Good ctx base σ) : base.Midway σ.env σ.env where
  wellFormed := h.wellFormed
  since := h.since
  grows := .refl _
  described id hid hdone := h.frame.struct id hid (.inl hdone)
  declaring := h.frame.declaring

theorem Good.file (g : Grounds ctx base) (h : Good ctx base σ) :
    σ.env.Has (.scope ctx.file) ∧ (σ.env.scopes.get ctx.file).kind = .file ∧
      (σ.env.scopes.get ctx.file).frozen = false :=
  ⟨h.since.has _ g.file, (h.since.kind _ g.file).trans g.kind,
    (h.frame.frozen _ g.file).trans g.unfrozen⟩

theorem sound_annotate {change : Annotations → Annotations}
    (h : ∀ env' a, env.Extends env' → env'.WellFormed → a.Within (env'.seen (some ctx.file)) →
      (change a).Within (env'.seen (some ctx.file))) :
    Sound ctx base env (fun _ _ => True) (annotate change) :=
  fun _ hg he => ⟨{ hg with annotations := h _ _ he hg.wellFormed hg.annotations }, .refl _,
    fun _ _ => trivial⟩

theorem sound_issue (n : NodeId) (kind : IssueKind) :
    Sound ctx base env (fun _ _ => True) (issue ctx n kind) :=
  sound_annotate fun _ _ _ _ ha => { ha with }

theorem sound_setDeclaration (n : NodeId) (d : DeclId) :
    Sound ctx base env (fun _ _ => True) (annotate (·.setDeclaration n d)) :=
  sound_annotate fun _ _ _ _ ha => { ha with }

theorem sound_child (n : NodeId) (index : Nat) :
    Sound ctx base env (fun _ b => ctx.tree.child? n index = some b) (child ctx n index) := by
  simp only [child, SyntaxTree.child]
  cases hc : ctx.tree.child? n index with
  | none => exact Sound.malformed _
  | some b => exact Sound.pure fun _ _ _ => rfl

/-- A declaration is made where one may be made, of types that are seen from there. -/
theorem sound_declare (wf : env.WellFormed) (hs : env.Has (.scope s))
    (hr : base.Reaches ctx.file ctx.tree env s) {spec : DeclarationSpec}
    (hspec : env.Declarable s spec) :
    Sound ctx base env (fun env' d => .decl d ∈ env'.view s) (declare s spec) := by
  refine Sound.get fun σ hg he => ?_
  have declarable : σ.env.Declarable s { spec with part := σ.part } :=
    wf.coherent.declarable he hs hspec
  by_cases hf : (σ.env.scopes.get s).frozen = true
  · have refused : σ.env.declare s { spec with part := σ.part } =
        .error (.frozenScope (σ.env.scopes.get s).name) := by
      simp only [Environment.declare, SymbolTable.declare, hf, if_true]
    simp only [refused]
    exact ⟨hg, .refl _, by rintro _ ⟨⟩⟩
  · have made : σ.env.declare s { spec with part := σ.part } =
        .ok (σ.env.add s { spec with part := σ.part }) := by
      simp only [Environment.declare, SymbolTable.declare, hf]
      rfl
    simp only [made]
    have hext := extends_add σ.env s { spec with part := σ.part }
    refine ⟨hg.advance hext (hg.wellFormed.add (he.has _ hs) declarable) ?_ fun _ => .inl, hext, ?_⟩
    · exact frame_add (by simpa using hf) (hr.mono (he.trans hext)) _
    · rintro _ ⟨⟩
      exact mem_view_add

theorem sound_declareAt (n : NodeId) (wf : env.WellFormed) (hs : env.Has (.scope s))
    (hr : base.Reaches ctx.file ctx.tree env s) {spec : DeclarationSpec}
    (hspec : env.Declarable s spec) :
    Sound ctx base env (fun _ _ => True) (declareAt n s spec) := by
  have hspec' : env.Declarable s { spec with node := some n } := hspec
  refine Sound.bind (sound_declare wf hs hr hspec') fun env' d _ _ _ => ?_
  exact Sound.bind (sound_setDeclaration n d) fun _ _ _ _ _ => Sound.pure fun _ _ _ => trivial

/-- A scope that a collection has created. -/
structure Fresh (base env : Environment) (kind : ScopeKind) (p s : ScopeId) : Prop where
  new : ¬base.Has (.scope s)
  has : env.Has (.scope s)
  kind : (env.scopes.get s).kind = kind
  parent : (env.scopes.get s).parent = some p
  unit : env.unitOf (.scope s) = env.unitOf (.scope p)

theorem Fresh.mono {kind : ScopeKind} {p : ScopeId} (h : Fresh base env kind p s)
    (wf : env.WellFormed) (he : env.Extends env') : Fresh base env' kind p s where
  new := h.new
  has := he.has _ h.has
  kind := (he.kind s h.has).trans h.kind
  parent := (he.parent s h.has).trans h.parent
  unit := by
    have hp := wf.coherent.exist _ _ h.has (.parent h.parent)
    rw [wf.coherent.unitOf_eq he h.has, wf.coherent.unitOf_eq he hp, h.unit]

/-- What is created in the course of a collection belongs to it. -/
theorem Fresh.reached (g : Grounds ctx base) {kind : ScopeKind} {p : ScopeId}
    (h : Fresh base env kind p s) : base.Reaches ctx.file ctx.tree env' s :=
  .own (Nat.le_of_lt (Nat.lt_of_lt_of_le g.file (Nat.le_of_not_lt h.new)))

theorem Fresh.place {kind : ScopeKind} {p : ScopeId} (h : Fresh base env kind p s)
    (hk : kind ≠ .system) (hp : Place ctx env p) : Place ctx env s where
  has := h.has
  kind := h.kind ▸ hk
  sees := h.unit ▸ hp.sees

theorem Fresh.home {kind : ScopeKind} {p : ScopeId} (h : Fresh base env kind p s)
    (hk : kind ≠ .system) (hp : Home ctx env p) : Home ctx env s where
  toPlace := h.place hk hp.toPlace
  unit := h.unit.trans hp.unit

theorem sound_createScope {kind : ScopeKind} (hk : kind ≠ .file) {p : ScopeId}
    (hp : Place ctx env p) (hr : base.Reaches ctx.file ctx.tree env p) (name : String) :
    Sound ctx base env (fun env' s => Fresh base env' kind p s) (createScope kind p name) := by
  refine Sound.get fun σ hg he => ?_
  have hpσ := he.has _ hp.has
  have hext := extends_createScope σ.env kind p name
  have wf : (σ.env.createScope kind p name).WellFormed :=
    hg.wellFormed.create hpσ (.inl hk) (fun _ _ => he.kind p hp.has ▸ hp.kind) name
  refine Holds.set (hg.advance hext wf ?_ fun _ => .inl) hext (Sound.pure fun env' he' wf' => ?_)
  · exact frame_createScope hg.since (hr.mono (he.trans hext)) kind name
  · have hnew := get_createScope_new hpσ kind name
    have fresh : Fresh base (σ.env.createScope kind p name) kind p ⟨σ.env.scopes.size⟩ := by
      refine ⟨fun hb => Nat.lt_irrefl _ (hg.since.has _ hb), has_createScope.2 (.inr rfl),
        by rw [hnew], by rw [hnew], ?_⟩
      rw [unitOf_createScope_new hg.wellFormed.coherent hpσ hk name,
        hg.wellFormed.coherent.unitOf_eq hext hpσ]
    exact fresh.mono wf he'

theorem sound_setDeclaring (hs : ¬base.Has (.scope s)) (hin : env.Has (.scope s))
    (wf : env.WellFormed) {declaring : Option StructId}
    (hd : ∀ id, declaring = some id → .struct id ∈ env.seen (env.unitOf (.scope s))) :
    Sound ctx base env (fun _ _ => True) (setDeclaring s declaring) := by
  refine Sound.modify fun σ hg he => ?_
  have hext := extends_setDeclaring σ.env s declaring
  refine ⟨hg.advance hext (hg.wellFormed.setDeclaring fun id hid => ?_)
    (frame_setDeclaring hs declaring) fun _ => .inl, hext⟩
  rw [wf.coherent.unitOf_eq he hin]
  exact wf.coherent.seen_subset he (hd id hid)

/-- A new structured type below a scope. -/
structure Declared (ctx : CollectionContext) (base env : Environment) (s : ScopeId)
    (struct : StructId) : Prop where
  has : env.Has (.struct struct)
  site (n : NodeId) : Site ctx base env n struct
  writable : Writable ctx base env struct
  parent : (env.scopes.get (env.membersOf struct)).parent = some s
  unit : env.unitOf (.struct struct) = env.unitOf (.scope s)

theorem Site.mono {n : NodeId} {struct : StructId} (h : Site ctx base env n struct)
    (wf : env.WellFormed) (he : env.Extends env') : Site ctx base env' n struct := by
  have hm := wf.coherent.exist _ _ h.has .members
  have parent : (env'.scopes.get (env'.membersOf struct)).parent =
      (env.scopes.get (env.membersOf struct)).parent := by
    rw [he.members struct h.has, he.parent _ hm]
  constructor
  case has => exact he.has _ h.has
  case announced => exact h.announced
  case sees =>
    rw [wf.coherent.unitOf_eq he h.has]
    exact wf.coherent.sees he h.sees
  case around =>
    obtain ⟨p, hparent, hkind⟩ := h.around
    have hp := wf.coherent.exist _ _ hm (.parent hparent)
    exact ⟨p, parent.trans hparent, he.kind p hp ▸ hkind⟩
  case heritage => exact fun hd p hp => (h.heritage hd p (parent ▸ hp)).mono he
  case made => exact fun hb => (h.made hb).mono wf h.has he

/-- Once a structured type has been described, its members may be. -/
theorem Site.writable {n : NodeId} {struct : StructId} (h : Site ctx base env n struct)
    (g : Grounds ctx base) (since : base.Extends env)
    (described : (env.types.structInfo struct).forward = false) :
    Writable ctx base env struct := by
  by_cases hb : base.Has (.struct struct)
  · have completes : base.Completes env struct := ⟨hb, h.has, h.announced hb, described⟩
    rw [Writable, since.members struct hb,
      since.parent _ (g.wellFormed.coherent.exist _ _ hb .members)]
    exact ⟨.members completes, fun p hp => .around completes hp⟩
  · exact h.made hb

theorem Declared.mono {struct : StructId} (h : Declared ctx base env s struct)
    (wf : env.WellFormed) (he : env.Extends env') : Declared ctx base env' s struct where
  has := he.has _ h.has
  site n := (h.site n).mono wf he
  writable := h.writable.mono wf h.has he
  parent := by
    rw [he.members struct h.has, he.parent _ (wf.coherent.exist _ _ h.has .members)]
    exact h.parent
  unit := by
    have hm := wf.coherent.exist _ _ h.has .members
    have hs := wf.coherent.exist _ _ hm (.parent h.parent)
    rw [wf.coherent.unitOf_eq he h.has, wf.coherent.unitOf_eq he hs, h.unit]

theorem declared_declareStruct (g : Grounds ctx base) (hg : Good ctx base σ)
    (hp : Place ctx σ.env s) (hr : base.Reaches ctx.file ctx.tree σ.env s) {members : ScopeId}
    (fresh : Fresh base σ.env .type s members)
    (name : String) (kind : StructKind) (forward : Bool) :
    Declared ctx base (σ.env.withTypes (σ.env.types.declareStruct name kind members forward).2) s
      ⟨σ.env.types.structs.size⟩ := by
  have hext := extends_declareStruct σ.env name kind members forward
  have hnew := σ.env.types.structInfo_declareStruct_new name kind members forward
  have fresh₁ := fresh.mono hg.wellFormed hext
  have place := hp.mono hg.wellFormed hext
  have reached := hr.mono hext
  generalize he : σ.env.withTypes (σ.env.types.declareStruct name kind members forward).2 = env₁
    at fresh₁ place reached
  have hscope : env₁.membersOf ⟨σ.env.types.structs.size⟩ = members :=
    he ▸ congrArg StructInfo.scope hnew
  have unit : env₁.unitOf (.struct ⟨σ.env.types.structs.size⟩) = env₁.unitOf (.scope s) := by
    rw [← fresh₁.unit]
    simp only [unitOf, hscope]
  have parent : (env₁.scopes.get (env₁.membersOf ⟨σ.env.types.structs.size⟩)).parent = some s := by
    rw [hscope, fresh₁.parent]
  have has : env₁.Has (.struct ⟨σ.env.types.structs.size⟩) := by
    simp [← he, Environment.Has, withTypes, TypeTable.declareStruct]
  have writable : Writable ctx base env₁ ⟨σ.env.types.structs.size⟩ := by
    refine ⟨hscope ▸ fresh₁.reached g, fun p hp => ?_⟩
    cases parent.symm.trans hp
    exact reached
  refine ⟨has, fun n => ⟨has, fun hb => absurd (hg.since.has _ hb) (Nat.lt_irrefl _), ?_,
    ⟨s, parent, place.kind⟩, fun _ => writable.2, fun _ => writable⟩, writable, parent, unit⟩
  rw [unit]
  exact place.sees

theorem sound_declareStruct (g : Grounds ctx base) (wf : env.WellFormed) (name : String)
    (kind : StructKind) (hp : Place ctx env s) (hr : base.Reaches ctx.file ctx.tree env s)
    (forward : Bool) :
    Sound ctx base env (fun env' struct => Declared ctx base env' s struct)
      (declareStruct name kind s forward) := by
  refine Sound.bind (sound_createScope (by simp) hp hr name) fun env₁ members he₁ wf₁ fresh => ?_
  refine Sound.get fun σ hg he => ?_
  have fresh := fresh.mono wf₁ he
  have place := hp.mono wf (he₁.trans he)
  have hext := extends_declareStruct σ.env name kind members forward
  have wf₂ := hg.wellFormed.declareStruct name kind fresh.has fresh.kind
    fun (_ : forward = true) => ⟨s, fresh.parent, place.kind⟩
  have declared :=
    declared_declareStruct g hg place (hr.mono (he₁.trans he)) fresh name kind forward
  have fresh₂ := fresh.mono hg.wellFormed hext
  refine Holds.set (hg.advance hext wf₂ ?_ fun id hid => ?_) hext ?_
  · refine frame_withTypes rfl (fun _ _ => rfl) fun id hid _ => ?_
    exact TypeTable.structInfo_declareStruct_of_lt _ _ _ _ (hg.since.has _ hid)
  · have hle : id.index < σ.env.types.structs.size ∨ id.index = σ.env.types.structs.size := by
      have hlt : id.index < σ.env.types.structs.size + 1 := hid.trans_eq (Array.size_push _)
      omega
    refine hle.imp (fun hlt => hlt) fun heq => ?_
    obtain rfl : id = ⟨σ.env.types.structs.size⟩ := StructId.index_inj.1 heq
    exact declared.writable
  · refine Sound.bind (sound_setDeclaring fresh.new fresh₂.has wf₂ ?_) fun env₃ _ he₃ _ _ => ?_
    · rintro _ ⟨⟩
      refine ⟨declared.has, ?_⟩
      rw [fresh₂.unit, declared.unit]
      exact Environment.Sees.refl _
    · exact Sound.pure fun env₄ he₄ _ => declared.mono wf₂ (he₃.trans he₄)

/-- A new enumeration below a scope. -/
structure Enumerated (base env : Environment) (s : ScopeId) (id : EnumId) : Prop where
  new : ¬base.Has (.enum id)
  has : env.Has (.enum id)
  elements : Fresh base env .enum s (env.types.enumInfo id).scope

theorem Enumerated.mono {id : EnumId} (h : Enumerated base env s id) (wf : env.WellFormed)
    (he : env.Extends env') : Enumerated base env' s id where
  new := h.new
  has := he.has _ h.has
  elements := by
    rw [he.elements id h.has]
    exact h.elements.mono wf he

theorem Enumerated.mem_seen {id : EnumId} (h : Enumerated base env s id) :
    .enum id ∈ env.seen (env.unitOf (.scope s)) := by
  refine ⟨h.has, ?_⟩
  rw [← h.elements.unit]
  exact Environment.Sees.refl _

theorem sound_declareEnum (name : String) (hp : Place ctx env s)
    (hr : base.Reaches ctx.file ctx.tree env s) :
    Sound ctx base env (fun env' id => Enumerated base env' s id) (declareEnum name s) := by
  refine Sound.bind (sound_createScope (by simp) hp hr name) fun env₁ elements he₁ wf₁ fresh => ?_
  refine Sound.get fun σ hg he => ?_
  have fresh := fresh.mono wf₁ he
  have hext := extends_declareEnum σ.env name elements
  have wf₂ := hg.wellFormed.declareEnum name fresh.has
  have hnew := σ.env.types.enumInfo_declareEnum_new name elements none
  have enumerated : Enumerated base (σ.env.withTypes (σ.env.types.declareEnum name elements none).2)
      s ⟨σ.env.types.enums.size⟩ := by
    refine ⟨fun hb => Nat.lt_irrefl _ (hg.since.has _ hb), ?_, ?_⟩
    · simp [Environment.Has, withTypes, TypeTable.declareEnum]
    · simp only [withTypes, hnew]
      exact fresh.mono hg.wellFormed hext
  refine Holds.set (hg.advance hext wf₂ ?_ fun _ => .inl) hext
    (Sound.pure fun env₃ he₃ _ => enumerated.mono wf₂ he₃)
  refine frame_withTypes rfl (fun id hid => ?_) fun _ _ _ => rfl
  exact TypeTable.enumInfo_declareEnum_of_lt _ _ _ (hg.since.has _ hid)

theorem sound_addElement {id : EnumId} (hid : ¬base.Has (.enum id)) (element : String) :
    Sound ctx base env (fun _ _ => True)
      (updateEnv fun env => { env with types := env.types.addElement id element }) := by
  refine Sound.modify fun σ hg _ => ?_
  have hext := extends_addElement σ.env id element
  refine ⟨hg.advance hext (hg.wellFormed.addElement id element) ?_ fun _ => .inl, hext⟩
  refine frame_withTypes rfl (fun other ho => ?_) fun _ _ _ => rfl
  apply TypeTable.enumInfo_addElement_of_ne element
  rintro rfl
  exact hid ho

theorem sound_completeStruct (wf : env.WellFormed) {n : NodeId} {struct : StructId}
    (hs : Site ctx base env n struct) {parents : List Ty}
    (hp : ∀ ty ∈ parents, ty.Within (env.seen (env.unitOf (.struct struct))))
    (helped : Option Ty) :
    Sound ctx base env (fun env' _ => (env'.types.structInfo struct).forward = false)
      (updateEnv fun env =>
        { env with types := env.types.completeStruct struct parents helped }) := by
  intro σ hg he
  have hin := he.has _ hs.has
  have hext := extends_completeStruct parents helped hin
  have described : ((σ.env.types.completeStruct struct parents helped).structInfo
      struct).forward = false := by
    rw [TypeTable.structInfo_completeStruct _ _ _ hin, if_pos rfl]
  have same : ∀ id, (σ.env.withTypes (σ.env.types.completeStruct struct parents helped)).Has
      (.struct id) → σ.env.Has (.struct id) := by
    simp [Environment.Has, withTypes, TypeTable.completeStruct]
  refine ⟨hg.advance hext (hg.wellFormed.completeStruct hin (fun ty hty y hy => ?_) helped) ?_
    fun id hid => .inl (same id hid), hext, fun _ _ => described⟩
  · rw [wf.coherent.unitOf_eq he hs.has]
    exact wf.coherent.seen_subset he (hp ty hty y hy)
  · refine frame_withTypes rfl (fun _ _ => rfl) fun id hid hf => ?_
    rw [TypeTable.structInfo_completeStruct _ _ _ hin] at hf ⊢
    rw [if_neg]
    rintro rfl
    simp [hs.announced hid] at hf

theorem sound_registerHelper (wf : env.WellFormed) (hs : env.Has (.scope s))
    (hr : base.Reaches ctx.file ctx.tree env s) (target : Ty) {struct : StructId}
    (hd : .struct struct ∈ env.seen (env.unitOf (.scope s))) :
    Sound ctx base env (fun _ _ => True)
      (updateEnv fun env => { env with scopes := env.scopes.registerHelper s target struct }) := by
  refine Sound.modify fun σ hg he => ?_
  have hext := extends_registerHelper σ.env s target struct
  refine ⟨hg.advance hext (hg.wellFormed.registerHelper target ?_) ?_ fun _ => .inl, hext⟩
  · rw [wf.coherent.unitOf_eq he hs]
    exact wf.coherent.seen_subset he hd
  · exact frame_registerHelper (hr.mono (he.trans hext)) target struct

theorem run_declare (h : (σ.env.scopes.get s).frozen = false) (spec : DeclarationSpec) :
    (declare s spec).run.run σ = (.ok ⟨σ.env.symbols.size⟩,
      { σ with env := (σ.env.add s { spec with part := σ.part }).2 }) := by
  have made : σ.env.declare s { spec with part := σ.part } =
      .ok (σ.env.add s { spec with part := σ.part }) := by
    simp only [Environment.declare, SymbolTable.declare, h]
    rfl
  rw [declare, run_get_bind, made]
  rfl

/-- The declaration of a used unit. -/
def importSpec (name : String) (reference : NodeId) (unit : ScopeId) (part : Section) :
    DeclarationSpec where
  name
  kind := .unitImport
  ty := .unknown
  part
  node := some reference
  unitScope := some unit

/-- A used unit stands among the imports of the file scope and is declared in it at once. -/
theorem run_import {reference : NodeId} {name : String} {unit : ScopeId}
    (hu : ctx.unitScope name = some unit) (h : (σ.env.scopes.get ctx.file).frozen = false) :
    (importUnit ctx reference name).run.run σ =
      (.ok (), { σ with
        env := σ.env.importUnit ctx.file unit (importSpec name reference unit σ.part)
        annotations := σ.annotations.setDeclaration reference ⟨σ.env.symbols.size⟩ }) := by
  have still : ((σ.env.scopes.addImport ctx.file unit).get ctx.file).frozen = false := by
    rw [← h]
    exact ScopeTree.get_modify_field Scope.frozen _ fun _ => rfl
  have made := @run_declare ctx.file
    { σ with env := { σ.env with scopes := σ.env.scopes.addImport ctx.file unit } } still
    { name, kind := .unitImport, ty := .unknown, node := some reference, unitScope := some unit }
  simp only [importUnit, hu, discard_eq, declareAt]
  rw [run_bind]
  change (((_ : Collecting DeclId) >>= _) : Collecting Unit).run.run
    { σ with env := { σ.env with scopes := σ.env.scopes.addImport ctx.file unit } } = _
  rw [run_bind, run_bind, made]
  rfl

theorem sound_importUnit (g : Grounds ctx base) (reference : NodeId) (name : String) :
    Sound ctx base env (fun _ _ => True) (importUnit ctx reference name) := by
  cases hu : ctx.unitScope name with
  | none =>
    simp only [importUnit, hu]
    exact Sound.pure fun _ _ _ => trivial
  | some unit =>
    intro σ hg he
    obtain ⟨hfile, -, hopen⟩ := hg.file g
    have refs : σ.env.Declarable ctx.file (importSpec name reference unit σ.part) := by
      intro y hy
      have hy' : y = .scope unit := by simpa [importSpec, DeclarationSpec.refs, Ty.refs] using hy
      rw [hy'] at hy ⊢
      exact .inr ⟨hg.since.has _ (g.units name unit hu), hy, .inl ⟨unit, rfl, rfl⟩⟩
    have hext := extends_importUnit σ.env ctx.file unit (importSpec name reference unit σ.part)
    have good := hg.advance hext (hg.wellFormed.importUnit hfile refs rfl)
      (frame_importUnit hopen (.own (Nat.le_refl _)) unit _) fun _ => .inl
    simp only [Holds, run_import hu hopen]
    exact ⟨{ good with annotations := { good.annotations with } }, hext, fun _ _ => trivial⟩

/-- Typing stays within what is seen from the file scope. -/
theorem Good.typed (h : Good ctx base σ) (hp : Place ctx σ.env s) (n : NodeId) {ty : Ty}
    {typed : TypingState}
    (ht : (Typing.typeOf { env := σ.env, tree := ctx.tree } s n).run
      { annotations := σ.constants } =
      (ty, typed)) :
    ty.Within (σ.env.seen (some ctx.file)) ∧
      typed.annotations.Within (σ.env.seen (some ctx.file)) := by
  have agree := h.wellFormed.coherent.agree_seen (some ctx.file)
  have alike : Typing.Alike (σ.env.seen (some ctx.file)) ctx.tree σ.constants (fun _ => none)
      { annotations := σ.constants } { annotations := σ.constants } := by
    constructor
    case resolves => exact ⟨rfl, rfl, List.prefix_refl _, fun _ _ => .inl rfl⟩
    case within => exact h.constants.types
    case opened => exact h.constants.scopes
    case named => exact h.constants.named
    all_goals simp
  obtain ⟨-, hty, halike⟩ := Typing.sim_typeOf agree hp.mem_seen n _ _ alike
  simp only [ht] at hty halike
  exact ⟨hty, halike.within, halike.opened, halike.named⟩

theorem sound_constantType (wf : env.WellFormed) (hp : Place ctx env s) (n : NodeId) :
    Sound ctx base env (fun env' ty => ty.Within (env'.seen (some ctx.file)))
      (constantType ctx n s) := by
  refine Sound.get fun σ hg he => ?_
  rcases ht : (Typing.typeOf { env := σ.env, tree := ctx.tree } s n).run
    { annotations := σ.constants } with ⟨ty, typed⟩
  obtain ⟨hty, hconstants⟩ := hg.typed (hp.mono wf he) n ht
  refine Holds.set { hg with constants := hconstants } (.refl _) ?_
  cases typed.violation with
  | some cause => exact Sound.malformed cause
  | none =>
    refine Sound.pure fun env' he' _ x hx => ?_
    exact hg.wellFormed.coherent.seen_subset he' (hty x hx)

end Steps

end Collecting

end Pascal
