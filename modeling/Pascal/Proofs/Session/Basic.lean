import Pascal.Proofs.Collection.Unit
import Pascal.Proofs.Session.System
import Pascal.Session.Batch

/-!
# Sessions at work

What the operations of a session keep: the tables stay well-formed, and of what was there before
only few things change.

## Main results

- `Session.valid_run`: every session that can be arrived at is valid.
- `Session.Valid.collects`: the effect of a collection, whether it succeeds or fails.
-/

namespace Pascal

open Environment

namespace Environment

/-- What later work leaves as it is of the things there were at the start: enumerations, and
structured types unless they were announced and are described now; the names of frozen scopes and of
scopes that it may not write in, and the helpers of the latter. -/
structure Later (base : Environment) (may : ScopeId → Prop) (env env' : Environment) : Prop where
  target : env'.types.target = env.types.target
  enum : ∀ id, base.Has (.enum id) → env'.types.enumInfo id = env.types.enumInfo id
  struct : ∀ id, base.Has (.struct id) →
    (base.types.structInfo id).forward = false ∨ (env'.types.structInfo id).forward = true →
    env'.types.structInfo id = env.types.structInfo id
  frozen : ∀ s, base.Has (.scope s) → (env.scopes.get s).frozen → (env'.scopes.get s).frozen
  declaring : ∀ s, base.Has (.scope s) →
    (env'.scopes.get s).declaring = (env.scopes.get s).declaring
  imports : ∀ s, base.Has (.scope s) → (env.scopes.get s).frozen ∨ ¬may s →
    (env'.scopes.get s).imports = (env.scopes.get s).imports
  names : ∀ s, base.Has (.scope s) → (env.scopes.get s).frozen ∨ ¬may s →
    env'.symbols.namesOf s = env.symbols.namesOf s
  helpers : ∀ s, base.Has (.scope s) → ¬may s →
    (env'.scopes.get s).helpers = (env.scopes.get s).helpers

/-- No scope is closed or opened. -/
def Steady (base env env' : Environment) : Prop :=
  ∀ s, base.Has (.scope s) → (env'.scopes.get s).frozen = (env.scopes.get s).frozen

section Relations

variable {base env mid env' : Environment} {may : ScopeId → Prop}

theorem Later.refl (base : Environment) (may : ScopeId → Prop) (env : Environment) :
    Later base may env env := by
  constructor
  case frozen => exact fun _ _ h => h
  all_goals intros
  all_goals rfl

theorem Later.trans (h : Later base may env mid) (g : Later base may mid env') :
    Later base may env env' where
  target := g.target.trans h.target
  enum id hid := (g.enum id hid).trans (h.enum id hid)
  struct id hid hf :=
    have same := g.struct id hid hf
    same.trans (h.struct id hid (same ▸ hf))
  frozen s hs hf := g.frozen s hs (h.frozen s hs hf)
  declaring s hs := (g.declaring s hs).trans (h.declaring s hs)
  imports s hs hm := (g.imports s hs (hm.imp_left (h.frozen s hs))).trans (h.imports s hs hm)
  names s hs hm := (g.names s hs (hm.imp_left (h.frozen s hs))).trans (h.names s hs hm)
  helpers s hs hm := (g.helpers s hs hm).trans (h.helpers s hs hm)

theorem Later.mono {may' : ScopeId → Prop} (h : Later base may env env')
    (hm : ∀ s, may s → may' s) : Later base may' env env' :=
  { h with
    imports := fun s hs hn => h.imports s hs (hn.imp_right fun hn hs => hn (hm s hs))
    names := fun s hs hn => h.names s hs (hn.imp_right fun hn hs => hn (hm s hs))
    helpers := fun s hs hn => h.helpers s hs fun hs => hn (hm s hs) }

/-- What was there at the start may be looked at from an earlier moment on. -/
theorem Later.restrict {first : Environment} (h : Later base may env env') (he : first.Extends base)
    (struct : ∀ id, first.Has (.struct id) → (first.types.structInfo id).forward = false →
      (base.types.structInfo id).forward = false) : Later first may env env' where
  target := h.target
  enum id hid := h.enum id (he.has _ hid)
  struct id hid hf := h.struct id (he.has _ hid) (hf.imp_left (struct id hid))
  frozen s hs := h.frozen s (he.has _ hs)
  declaring s hs := h.declaring s (he.has _ hs)
  imports s hs := h.imports s (he.has _ hs)
  names s hs := h.names s (he.has _ hs)
  helpers s hs := h.helpers s (he.has _ hs)

/-- Work after work. -/
theorem Later.append (h : Later env may env mid) (he : env.Extends mid)
    (g : Later mid may mid env') : Later env may env env' :=
  h.trans (g.restrict he fun id hid hf => by rw [h.struct id hid (.inl hf), hf])

theorem Frame.later (h : Frame base may env env') : Later base may env env' :=
  { h with frozen := fun s hs hf => (h.frozen s hs).trans hf }

theorem Steady.trans (h : Steady base env mid) (g : Steady base mid env') : Steady base env env' :=
  fun s hs => (g s hs).trans (h s hs)

theorem later_freezeScope (env : Environment) (f : ScopeId) :
    Later env may env (env.freezeScope f) := by
  constructor
  case frozen =>
    intro s _ hf
    obtain ⟨flag, hget, hflag⟩ := get_freezeScope env f s
    rw [hget]
    exact hflag.2 (.inl hf)
  case declaring => exact fun s _ => freezeScope_field Scope.declaring (fun _ _ => rfl) env f s
  case imports => exact fun s _ _ => freezeScope_field Scope.imports (fun _ _ => rfl) env f s
  case helpers => exact fun s _ _ => freezeScope_field Scope.helpers (fun _ _ => rfl) env f s
  all_goals intros
  all_goals rfl

/-- Discarding what is new leaves the rest as it is. -/
theorem Later.discardScope {f : ScopeId} (h : Later base may base env) (wfb : base.WellFormed)
    (wf : env.WellFormed) (hf : ¬base.Has (.scope f)) :
    Later base may base (env.discardScope f) := by
  have names : ∀ s, base.Has (.scope s) →
      (env.discardScope f).symbols.namesOf s = env.symbols.namesOf s := by
    intro s hs
    simp only [Environment.discardScope, SymbolTable.namesOf_unregisterAll,
      wf.not_mem_subtree hf hs, if_false]
  have unused : ∀ s, base.Has (.scope s) → (base.scopes.get s).frozen ∨ ¬may s →
      f ∉ (env.scopes.get s).imports := by
    intro s hs hm hused
    rw [h.imports s hs hm] at hused
    exact hf (wfb.coherent.exist _ _ hs (.used hused))
  have get := wf.get_discardScope f
  constructor
  case target => exact h.target
  case enum => exact h.enum
  case struct => exact h.struct
  case frozen => exact fun s hs hfrozen => by simpa only [get] using h.frozen s hs hfrozen
  case declaring => exact fun s hs => by simpa only [get] using h.declaring s hs
  case helpers => exact fun s hs hm => by simpa only [get] using h.helpers s hs hm
  case names => exact fun s hs hm => (names s hs).trans (h.names s hs hm)
  case imports =>
    intro s hs hm
    rw [get]
    refine Eq.trans ?_ (h.imports s hs hm)
    refine List.filter_eq_self.2 fun u hu => decide_eq_true ?_
    rintro rfl
    exact unused s hs hm hu

end Relations

/-- The tables with a new file scope that holds the declaration of its unit. -/
def openUnit (env : Environment) (system : ScopeId) (name : String) : Environment :=
  ((env.createScope .file system name).add ⟨env.scopes.size⟩
    { name, kind := .unit, ty := .unknown, unitScope := some ⟨env.scopes.size⟩ }).2

section Opening

variable {env : Environment} {system : ScopeId}

theorem extends_openUnit (env : Environment) (system : ScopeId) (name : String) :
    env.Extends (env.openUnit system name) :=
  (extends_createScope env .file system name).trans (extends_add ..)

theorem has_openUnit (env : Environment) (system : ScopeId) (name : String) :
    (env.openUnit system name).Has (.scope ⟨env.scopes.size⟩) :=
  (extends_add ..).has _ (has_createScope.2 (.inr rfl))

theorem get_openUnit (hs : env.Has (.scope system)) (name : String) :
    (env.openUnit system name).scopes.get ⟨env.scopes.size⟩ =
      { kind := .file, name, parent := some system,
        frozen := env.scopes.startsFrozen (some system) } :=
  get_createScope_new hs .file name

theorem WellFormed.openUnit (h : env.WellFormed) (hs : env.Has (.scope system))
    (hu : env.unitOf (.scope system) = none) (name : String) :
    (env.openUnit system name).WellFormed := by
  apply (h.create hs (.inr hu) (by simp) name).add (has_createScope.2 (.inr rfl))
  simpa [Declarable, DeclarationSpec.refs, Ty.refs] using
    .inl (mem_view_self (has_createScope.2 (.inr rfl)))

theorem get_openUnit_of_has {s : ScopeId} (hs : env.Has (.scope s)) (name : String) :
    (env.openUnit system name).scopes.get s =
      { env.scopes.get s with
        children := (env.scopes.get s).children ++
          if some system = some s then [⟨env.scopes.size⟩] else [] } :=
  ScopeTree.get_create .file (some system) name hs

theorem later_openUnit {may : ScopeId → Prop} (env : Environment) (system : ScopeId)
    (name : String) :
    Later env may env (env.openUnit system name) := by
  constructor
  case frozen => exact fun s hs hf => by rwa [get_openUnit_of_has hs]
  case declaring => exact fun s hs => by rw [get_openUnit_of_has hs]
  case imports => exact fun s hs _ => by rw [get_openUnit_of_has hs]
  case helpers => exact fun s hs _ => by rw [get_openUnit_of_has hs]
  case names =>
    intro s hs _
    have hne : s ≠ ⟨env.scopes.size⟩ := by
      rintro rfl
      exact Nat.lt_irrefl _ hs
    simp only [openUnit, add, SymbolTable.namesOf_add, if_neg hne]
    rfl
  all_goals intros
  all_goals rfl

theorem steady_openUnit (env : Environment) (system : ScopeId) (name : String) :
    Steady env env (env.openUnit system name) :=
  fun s hs => by rw [get_openUnit_of_has hs]

end Opening

end Environment

namespace SystemUnit.Founded

variable {system : SystemUnit} {env env' : Environment}

theorem unitOf (h : system.Founded env) : env.unitOf (.scope ⟨0⟩) = none :=
  ScopeTree.fileScopeOf?_of_root h.parent (by simp [h.kind])

/-- The System unit stays what it is as long as its scope stays closed. -/
theorem extend (h : system.Founded env) (wf : env'.WellFormed) (he : env.Extends env')
    (frozen : (env'.scopes.get ⟨0⟩).frozen) : system.Founded env' where
  wellFormed := wf
  scope := h.scope
  has := he.has _ h.has
  kind := (he.kind _ h.has).trans h.kind
  parent := (he.parent _ h.has).trans h.parent
  frozen := frozen
  rootClass := ⟨he.has _ h.rootClass.1,
    (h.wellFormed.coherent.unitOf_eq he h.rootClass.1).trans h.rootClass.2⟩
  rootInterface := ⟨he.has _ h.rootInterface.1,
    (h.wellFormed.coherent.unitOf_eq he h.rootInterface.1).trans h.rootInterface.2⟩

theorem discardScope (h : system.Founded env) {f : ScopeId}
    (hf : (env.scopes.get f).kind = .file) : system.Founded (env.discardScope f) := by
  have wf := h.wellFormed
  have unmoved := wf.unmoved_discardScope f
  refine ⟨wf.discardScope hf, h.scope, (unmoved.has _).2 h.has, (unmoved.kind _).trans h.kind,
    (unmoved.parent _).trans h.parent, ?_, ?_, ?_⟩
  · rw [wf.get_discardScope]
    exact h.frozen
  · exact ⟨(unmoved.has _).2 h.rootClass.1, (unmoved.unitOf _).trans h.rootClass.2⟩
  · exact ⟨(unmoved.has _).2 h.rootInterface.1, (unmoved.unitOf _).trans h.rootInterface.2⟩

end SystemUnit.Founded

namespace Session

/-- What can be asked of a session. -/
inductive Operation where
  | collect (tree : SyntaxTree)
  | analyze (tree : SyntaxTree)
  | analyzeBatch (trees : List SyntaxTree)
  | discard (name : String)
  | resolve (model : Model)
  | typeOf (model : Model) (n : NodeId)

/-- A session after an operation, whatever its outcome. The second pass changes models only. -/
def perform (session : Session) : Operation → Session
  | .collect tree => (session.collect tree).2
  | .analyze tree => (session.analyze tree).2
  | .analyzeBatch trees => (session.analyzeBatch trees).2
  | .discard name => (session.discard name).2
  | .resolve _ | .typeOf _ _ => session

/-- A session after several operations. -/
def run (session : Session) (operations : List Operation) : Session :=
  operations.foldl perform session

theorem run_collect_collect {session mid after : Session} {first second : SyntaxTree}
    {model model' : Model} (ran : session.collect first = (.ok model, mid))
    (ran' : mid.collect second = (.ok model', after)) :
    session.run [.collect first, .collect second] = after := by
  change ((session.collect first).2.collect second).2 = after
  rw [ran, ran']

/-- What holds of every session: the System unit is finished, and units are registered with file
scopes of their own. -/
structure Valid (session : Session) : Prop where
  founded : session.system.Founded session.env
  units : ∀ (key : FoldedName) entry, session.units[key]? = some entry →
    session.env.Has (.scope entry.scope) ∧ (session.env.scopes.get entry.scope).kind = .file
  distinct : ∀ (key other : FoldedName) entry entry', session.units[key]? = some entry →
    session.units[other]? = some entry' → entry.scope = entry'.scope → key = other

theorem valid_start (settings : Settings) : (start settings).Valid where
  founded := SystemUnit.founded_build settings
  units := by simp [start]
  distinct := by simp [start]

/-- A model of a unit that still takes declarations. -/
structure Open (env : Environment) (model : Model) : Prop where
  has : env.Has (.scope model.scope)
  kind : (env.scopes.get model.scope).kind = .file
  unfrozen : (env.scopes.get model.scope).frozen = false
  annotations : model.annotations.Within (env.seen (some model.scope))

section Steps

variable {session : Session} {env : Environment} {may : ScopeId → Prop}

theorem Open.later {env' : Environment} {model : Model} (h : Open env model) (wf : env.WellFormed)
    (he : env.Extends env') (hs : Environment.Steady env env env') : Open env' model where
  has := he.has _ h.has
  kind := (he.kind _ h.has).trans h.kind
  unfrozen := (hs _ h.has).trans h.unfrozen
  annotations := h.annotations.mono (wf.coherent.seen_subset he)

/-- The tables of a session may be worked on. -/
theorem Valid.later (h : session.Valid) (wf : env.WellFormed) (he : session.env.Extends env)
    (hl : session.env.Later may session.env env) : { session with env }.Valid where
  founded := h.founded.extend wf he (hl.frozen _ h.founded.has h.founded.frozen)
  units key entry hentry := by
    obtain ⟨hin, hkind⟩ := h.units key entry hentry
    exact ⟨he.has _ hin, (he.kind _ hin).trans hkind⟩
  distinct := h.distinct

theorem Valid.has_unitScope (h : session.Valid) {name : String} {unit : ScopeId}
    (hu : session.unitScope? name = some unit) : session.env.Has (.scope unit) := by
  unfold unitScope? at hu
  split_ifs at hu
  · cases hu
    exact h.founded.scope ▸ h.founded.has
  · obtain ⟨entry, hentry, rfl⟩ := Option.map_eq_some_iff.1 hu
    obtain ⟨spelling, -, hentry⟩ := List.exists_of_findSome?_eq_some hentry
    exact (h.units _ entry hentry).1

theorem Valid.grounds (h : session.Valid) (wf : env.WellFormed) (he : session.env.Extends env)
    {file : ScopeId} (hfile : env.Has (.scope file)) (kind : (env.scopes.get file).kind = .file)
    (unfrozen : (env.scopes.get file).frozen = false) (tree : SyntaxTree) :
    Collecting.Grounds (session.collectionContext tree file) env where
  wellFormed := wf
  file := hfile
  kind := kind
  unfrozen := unfrozen
  rootClass := ⟨he.has _ h.founded.rootClass.1,
    (h.founded.wellFormed.coherent.unitOf_eq he h.founded.rootClass.1).trans h.founded.rootClass.2⟩
  rootInterface := ⟨he.has _ h.founded.rootInterface.1,
    (h.founded.wellFormed.coherent.unitOf_eq he h.founded.rootInterface.1).trans
      h.founded.rootInterface.2⟩
  units _ _ hu := he.has _ (h.has_unitScope hu)

end Steps

/-! ## Collections -/

/-- The file scope that a collection would create. -/
def nextFile (session : Session) : ScopeId := ⟨session.env.scopes.size⟩

/-- The first pass over a unit in its open file scope. -/
def collecting (session : Session) (name : String) (tree : SyntaxTree) :
    Except AnalysisError Unit × CollectionState :=
  (Collecting.unit (session.collectionContext tree session.nextFile) tree.root).run.run
    { env := session.env.openUnit session.system.scope name }

/-- The tables that a collection arrives at, before a failure takes the unit out again. -/
def collected (session : Session) (tree : SyntaxTree) : Environment :=
  match tree.kind tree.root with
  | .unit name => (session.collecting name tree).2.env
  | _ => session.env

/-- The scopes that a collection can write in. -/
def Reached (session : Session) (tree : SyntaxTree) (s : ScopeId) : Prop :=
  session.env.Reaches session.nextFile tree (session.collected tree) s

/-- The scopes below a scope that a collection leaves behind: the System scope has one for the unit.
-/
def newChildren (session : Session) (outcome : Except AnalysisError Model) (s : ScopeId) :
    List ScopeId :=
  match outcome with
  | .ok model => if session.system.scope = s then [model.scope] else []
  | .error _ => []

/-- What the collection of a unit does to a session. -/
structure Collects (session : Session) (tree : SyntaxTree) (outcome : Except AnalysisError Model)
    (after : Session) : Prop where
  valid : after.Valid
  grows : session.env.Extends after.env
  later : session.env.Later (session.Reached tree) session.env after.env
  steady : Environment.Steady session.env session.env after.env
  children : ∀ s, session.env.Has (.scope s) → ¬session.Reached tree s →
    (after.env.scopes.get s).children =
      (session.env.scopes.get s).children ++ session.newChildren outcome s
  model : ∀ model, outcome = .ok model → Open after.env model

section Collections

variable {session : Session}

/-- A refused tree changes nothing. -/
theorem Valid.refused (h : session.Valid) (tree : SyntaxTree) (cause : AnalysisError) :
    session.Collects tree (.error cause) session where
  valid := h
  grows := .refl _
  later := .refl _ _ _
  steady _ _ := rfl
  children _ _ _ := by simp [newChildren]
  model _ := by simp

/-- The moment at which the file scope of a unit is open. -/
theorem Valid.opened (h : session.Valid) (name : String) (tree : SyntaxTree) :
    Collecting.Grounds (session.collectionContext tree session.nextFile)
      (session.env.openUnit session.system.scope name) := by
  have founded := h.founded
  have hs : session.env.Has (.scope session.system.scope) := founded.scope ▸ founded.has
  have hnew := get_openUnit hs name
  refine h.grounds (founded.wellFormed.openUnit hs ?_ name) (extends_openUnit ..)
    (has_openUnit ..) (congrArg Scope.kind hnew)
    ((congrArg Scope.frozen hnew).trans ?_) tree
  · rw [founded.scope, founded.unitOf]
  · simp [ScopeTree.startsFrozen, founded.scope, founded.kind]

/-- A collection that is computed, with what is found out about its outcome. Where the outcome hangs
on whether two names are the same, `Text.lowercase` is to be irreducible: otherwise the condition is
decided by unfolding how letters are folded, which takes minutes. -/
theorem exists_collected {tree : SyntaxTree} {P : Model → Session → Prop}
    [∀ model after, Decidable (P model after)]
    (h : (match session.collect tree with
      | (.ok model, after) => decide (P model after)
      | (.error _, _) => false) = true) :
    ∃ model after, session.collect tree = (.ok model, after) ∧ P model after := by
  rcases ran : session.collect tree with ⟨_ | model, after⟩
  · simp [ran] at h
  · exact ⟨model, after, rfl, by simpa [ran] using h⟩

/-- Collections one after the other are computed together. -/
instance {tree : SyntaxTree} {P : Model → Session → Prop}
    [∀ model after, Decidable (P model after)] :
    Decidable (∃ model after, session.collect tree = (.ok model, after) ∧ P model after) :=
  decidable_of_iff ((match session.collect tree with
      | (.ok model, after) => decide (P model after)
      | (.error _, _) => false) = true) <| by
    refine ⟨exists_collected, ?_⟩
    rintro ⟨model, after, ran, h⟩
    simpa [ran] using h

variable {name : String} {tree : SyntaxTree} {σ : CollectionState}

theorem Valid.midway_openUnit (h : session.Valid) (name : String) (tree : SyntaxTree) :
    session.env.Midway (session.env.openUnit session.system.scope name)
      (session.env.openUnit session.system.scope name) where
  wellFormed := (h.opened name tree).wellFormed
  since := extends_openUnit ..
  grows := .refl _
  described _ _ _ := rfl
  declaring s hs := by rw [get_openUnit_of_has hs]

/-- What a collection has done when it ends or fails. -/
theorem Valid.progress (h : session.Valid)
    (good : Collecting.Good (session.collectionContext tree session.nextFile)
      (session.env.openUnit session.system.scope name) σ) (hσ : session.collected tree = σ.env) :
    session.env.Extends σ.env ∧
      session.env.Later (session.Reached tree) session.env σ.env ∧
      Environment.Steady session.env session.env σ.env ∧
      ∀ s, session.env.Has (.scope s) → ¬session.Reached tree s →
        (σ.env.scopes.get s).children = (session.env.scopes.get s).children ++
          if session.system.scope = s then [session.nextFile] else [] := by
  have hext := extends_openUnit session.env session.system.scope name
  have reached : ∀ s, (session.env.openUnit session.system.scope name).Reaches session.nextFile tree
      σ.env s → session.Reached tree s := by
    intro s hs
    rw [Reached, hσ]
    exact hs.rebase h.founded.wellFormed (h.midway_openUnit name tree) rfl
  refine ⟨hext.trans good.since, ?_, ?_, ?_⟩
  · exact (later_openUnit session.env session.system.scope name).append hext
      (good.frame.later.mono reached)
  · refine (steady_openUnit session.env session.system.scope name).trans fun s hs => ?_
    exact good.frame.frozen s (hext.has _ hs)
  · intro s hs hr
    rw [good.frame.children s (hext.has _ hs) fun hin => hr (reached s hin), get_openUnit_of_has hs]
    simp [nextFile]

/-- A failure takes the unit out again. -/
theorem Valid.failed (h : session.Valid)
    (good : Collecting.Good (session.collectionContext tree session.nextFile)
      (session.env.openUnit session.system.scope name) σ) (hσ : session.collected tree = σ.env)
    (cause : AnalysisError) :
    session.Collects tree (.error cause)
      ({ session with env := σ.env }.discardScope session.nextFile) := by
  obtain ⟨hext, later, steady, children⟩ := h.progress good hσ
  have grounds := h.opened name tree
  have wf := good.wellFormed
  have get := wf.get_discardScope session.nextFile
  have new : ¬session.env.Has (.scope session.nextFile) := fun hnew => Nat.lt_irrefl _ hnew
  have hext' := hext.discardScope h.founded.wellFormed wf new
  have later' := later.discardScope h.founded.wellFormed wf new
  have hs : session.env.Has (.scope session.system.scope) := h.founded.scope ▸ h.founded.has
  have parent : (σ.env.scopes.get session.nextFile).parent = some session.system.scope :=
    (good.since.parent _ grounds.file).trans (congrArg Scope.parent (get_openUnit hs name))
  refine
    { valid := h.later (wf.discardScope (good.file grounds).2.1) hext' later'
      grows := hext'
      later := later'
      steady := steady.trans fun s _ => by
        change ((σ.env.discardScope session.nextFile).scopes.get s).frozen = _
        rw [get]
      children := fun s hin hr => ?_
      model := by simp }
  apply (congrArg Scope.children (get s)).trans
  simp only [parent, children s hin hr, newChildren, List.append_nil]
  have old : ∀ c ∈ (session.env.scopes.get s).children, c ≠ session.nextFile := by
    rintro c hc rfl
    exact Nat.lt_irrefl _ (h.founded.wellFormed.child s _ hc).1
  by_cases heq : session.system.scope = s
  · simpa [heq] using old
  · simp [heq]

/-- A success registers the unit. -/
theorem Valid.succeeded (h : session.Valid)
    (good : Collecting.Good (session.collectionContext tree session.nextFile)
      (session.env.openUnit session.system.scope name) σ) (hσ : session.collected tree = σ.env)
    (annotations : Annotations)
    (within : annotations.Within (σ.env.seen (some session.nextFile))) :
    session.Collects tree (.ok { name, scope := session.nextFile, tree, annotations })
      { session with
        env := σ.env
        units := session.units.insert (Name.fold name) { name, scope := session.nextFile } } := by
  obtain ⟨hext, later, steady, children⟩ := h.progress good hσ
  obtain ⟨hfile, kind, unfrozen⟩ := good.file (h.opened name tree)
  have before := h.later good.wellFormed hext later
  have old : ∀ (key : FoldedName) entry, session.units[key]? = some entry →
      entry.scope ≠ session.nextFile := by
    intro key entry hentry heq
    have hlt : entry.scope.index < session.env.scopes.size := (h.units key entry hentry).1
    rw [heq] at hlt
    exact Nat.lt_irrefl _ hlt
  refine
    { valid := ⟨before.founded, ?_, ?_⟩
      grows := hext
      later := later
      steady := steady
      children := fun s hs hr => by simpa [newChildren] using children s hs hr
      model := ?_ }
  · intro key entry hentry
    rw [Std.HashMap.getElem?_insert] at hentry
    split_ifs at hentry
    · cases hentry
      exact ⟨hfile, kind⟩
    · exact before.units key entry hentry
  · intro key other entry entry' hentry hother heq
    rw [Std.HashMap.getElem?_insert] at hentry hother
    split_ifs at hentry hother with hkey hother' hother'
    · exact (beq_iff_eq.1 hkey).symm.trans (beq_iff_eq.1 hother')
    · cases hentry
      exact absurd heq.symm (old other entry' hother)
    · cases hother
      exact absurd heq (old key entry hentry)
    · exact h.distinct key other entry entry' hentry hother heq
  · rintro _ ⟨⟩
    exact ⟨hfile, kind, unfrozen, within⟩

theorem collectNamed_eq (session : Session) (name : String) (tree : SyntaxTree) :
    session.collectNamed name tree =
      match session.collecting name tree with
      | (.error cause, state) =>
        (.error cause, { session with env := state.env }.discardScope session.nextFile)
      | (.ok (), state) =>
        (.ok { name, scope := session.nextFile, tree, annotations := state.annotations.sealIssues },
          { session with
            env := state.env
            units := session.units.insert (Name.fold name) { name, scope := session.nextFile } }) :=
  rfl

/-- A collection that succeeds ends with the model of its state. -/
theorem collect_eq_of_ok {model : Model} (hok : (session.collect tree).1 = .ok model) :
    ∃ name state, tree.kind tree.root = .unit name ∧ session.isTaken name = false ∧
      session.collecting name tree = (.ok (), state) ∧
      model = { name, scope := session.nextFile, tree, annotations := state.annotations.sealIssues } ∧
      (session.collect tree).2 = { session with
        env := state.env
        units := session.units.insert (Name.fold name) { name, scope := session.nextFile } } := by
  unfold collect at hok ⊢
  split at hok
  · rename_i name hroot
    simp only [hroot]
    split_ifs at hok ⊢ with hfree
    simp only [collectNamed_eq] at hok ⊢
    generalize hran : session.collecting name tree = ran at hok
    obtain ⟨cause | ⟨⟩, state⟩ := ran
    · cases hok
    · cases hok
      exact ⟨name, state, rfl, by simpa using hfree, hran, rfl, rfl⟩
  · cases hok

theorem tree_of_collect {model : Model} (hok : (session.collect tree).1 = .ok model) :
    model.tree = tree := by
  obtain ⟨_, _, -, -, -, rfl, -⟩ := collect_eq_of_ok hok
  rfl

theorem Valid.collectsNamed (h : session.Valid) (hname : tree.kind tree.root = .unit name) :
    session.Collects tree (session.collectNamed name tree).1
      (session.collectNamed name tree).2 := by
  have grounds := h.opened name tree
  have start : Collecting.Good (session.collectionContext tree session.nextFile)
      (session.env.openUnit session.system.scope name)
      { env := session.env.openUnit session.system.scope name } :=
    ⟨grounds.wellFormed, .refl _, .refl _ _ _, fun _ hid hb => absurd hid hb, .empty _, .empty _⟩
  have good : Collecting.Good (session.collectionContext tree session.nextFile)
      (session.env.openUnit session.system.scope name) (session.collecting name tree).2 :=
    (Collecting.sound_unit grounds tree.root _ start (.refl _)).1
  have arrived : session.collected tree = (session.collecting name tree).2.env := by
    rw [collected, hname]
  rw [collectNamed_eq]
  generalize session.collecting name tree = ran at good arrived
  rcases ran with ⟨cause | ⟨⟩, state⟩
  · exact h.failed good arrived cause
  · exact h.succeeded good arrived _ { good.annotations with }

/-- The effect of a collection, whether it succeeds or fails. -/
theorem Valid.collects (h : session.Valid) (tree : SyntaxTree) :
    session.Collects tree (session.collect tree).1 (session.collect tree).2 := by
  unfold collect
  split
  next name hname =>
    split_ifs
    · exact h.refused tree _
    · exact h.collectsNamed hname
  · exact h.refused tree _

end Collections

/-! ## Loops -/

/-- Work on one unit keeps a property of sessions, and one of units that the unit it gives has,
too. -/
structure Kept (I : Session → Prop) (M : Session → Model → Prop) (session : Session)
    (ran : Except AnalysisError Model × Session) : Prop where
  after : I ran.2
  given : ∀ model, ran.1 = .ok model → M ran.2 model
  others : ∀ other, M session other → M ran.2 other

/-- A stage of a batch keeps a property of sessions, and one of units that the units it gives have,
too. -/
structure Stage (I : Session → Prop) (M : Session → Model → Prop) (session : Session)
    (ran : Except AnalysisError (List (Nat × Model)) × Session) : Prop where
  after : I ran.2
  given : ∀ models, ran.1 = .ok models → ∀ entry ∈ models, M ran.2 entry.2
  others : ∀ other, M session other → M ran.2 other

section Loops

variable {I : Session → Prop} {M : Session → Model → Prop} {session : Session}

theorem Kept.and {J : Session → Prop} {ran : Except AnalysisError Model × Session}
    (h : Kept I M session ran) (after : J ran.2) : Kept (fun session => I session ∧ J session) M
      session ran :=
  ⟨⟨h.after, after⟩, h.given, h.others⟩

theorem Stage.nil (h : I session) : Stage I M session (.ok [], session) :=
  ⟨h, by rintro _ ⟨⟩; simp, fun _ hm => hm⟩

theorem Stage.stop {cause : AnalysisError} {mid : Session}
    (first : Kept I M session (.error cause, mid)) : Stage I M session (.error cause, mid) :=
  ⟨first.after, by simp, first.others⟩

theorem Stage.cons {i : Nat} {model : Model} {mid : Session}
    {ran : Except AnalysisError (List (Nat × Model)) × Session}
    (first : Kept I M session (.ok model, mid)) : Stage I M mid ran →
    Stage I M session (match ran with
      | (.error cause, after) => (.error cause, after)
      | (.ok models, after) => (.ok ((i, model) :: models), after)) := by
  intro rest
  have others : ∀ other, M session other → M ran.2 other := fun other h =>
    rest.others other (first.others other h)
  obtain ⟨cause | models, after⟩ := ran
  · exact ⟨rest.after, by simp, others⟩
  · refine ⟨rest.after, ?_, others⟩
    rintro _ ⟨⟩
    exact List.forall_mem_cons.2 ⟨rest.others model (first.given model rfl), rest.given models rfl⟩

theorem stage_collectAll
    (step : ∀ {session : Session}, I session → ∀ tree, Kept I M session (session.collect tree))
    (h : I session) (trees : List SyntaxTree) (order : List Nat) :
    Stage I M session (session.collectAll trees order) := by
  induction order generalizing session with
  | nil => exact .nil h
  | cons i rest ih =>
    unfold Session.collectAll
    cases trees[i]? with
    | none => exact ih h
    | some tree =>
      have first := step h tree
      dsimp only
      generalize session.collect tree = ran at first
      obtain ⟨cause | model, mid⟩ := ran
      · exact .stop first
      · exact .cons first (ih first.after)

theorem stage_retryAll
    (step : ∀ {session : Session} {model : Model}, I session → M session model →
      Kept I M session (session.retryImports model))
    (h : I session) {models : List (Nat × Model)} (hm : ∀ entry ∈ models, M session entry.2) :
    Stage I M session (session.retryAll models) := by
  induction models generalizing session with
  | nil => exact .nil h
  | cons entry rest ih =>
    simp only [List.forall_mem_cons] at hm
    have first := step h hm.1
    unfold Session.retryAll
    generalize session.retryImports entry.2 = ran at first
    obtain ⟨cause | model, mid⟩ := ran
    · exact .stop first
    · exact .cons first (ih first.after fun other hother =>
        first.others other.2 (hm.2 other hother))

theorem freezeAll_keeps
    (step : ∀ {session : Session}, I session → ∀ model, I (session.freeze model)) (h : I session)
    (models : List (Nat × Model)) :
    I (models.foldl (fun session entry => session.freeze entry.2) session) := by
  induction models generalizing session with
  | nil => exact h
  | cons entry rest ih => exact ih (step h entry.2)

/-- Properties of sessions and of open units that all work keeps, discards apart. -/
structure Keeps (I : Session → Prop) (M : Session → Model → Prop) : Prop where
  collect {session : Session} (h : I session) (tree : SyntaxTree) :
    Kept I M session (session.collect tree)
  retryImports {session : Session} {model : Model} (h : I session) (hm : M session model) :
    Kept I M session (session.retryImports model)
  freeze {session : Session} (h : I session) (model : Model) : I (session.freeze model)

theorem Keeps.analyze (k : Keeps I M) (h : I session) (tree : SyntaxTree) :
    I (session.analyze tree).2 := by
  have collected := (k.collect h tree).after
  unfold Session.analyze
  generalize session.collect tree = ran at collected
  obtain ⟨cause | model, after⟩ := ran
  · exact collected
  · dsimp only
    split
    · exact collected
    · exact k.freeze collected _

theorem Keeps.analyzeBatch (k : Keeps I M) (h : I session) (trees : List SyntaxTree) :
    I (session.analyzeBatch trees).2 := by
  have collected := stage_collectAll k.collect h trees (dependencyOrder trees)
  unfold Session.analyzeBatch
  generalize session.collectAll trees (dependencyOrder trees) = ran at collected
  obtain ⟨cause | models, mid⟩ := ran
  · exact collected.after
  · have retried := stage_retryAll k.retryImports collected.after (collected.given models rfl)
    dsimp only
    generalize mid.retryAll models = ran at retried
    obtain ⟨cause | models, last⟩ := ran
    · exact retried.after
    · dsimp only
      split
      · exact retried.after
      · exact freezeAll_keeps k.freeze retried.after _

/-- What all work but discards keeps is kept by every operation but a discard. -/
theorem Keeps.perform (k : Keeps I M) (h : I session) {operation : Operation}
    (kept : ∀ name, operation ≠ .discard name) : I (session.perform operation) := by
  cases operation with
  | collect tree => exact (k.collect h tree).after
  | analyze tree => exact k.analyze h tree
  | analyzeBatch trees => exact k.analyzeBatch h trees
  | discard name => exact absurd rfl (kept name)
  | resolve | typeOf => exact h

end Loops

/-! ## Other operations -/

/-- What work does to a session, discards apart. -/
structure Works (session after : Session) : Prop where
  valid : after.Valid
  grows : session.env.Extends after.env
  later : session.env.Later (fun _ => True) session.env after.env

section Operations

variable {session after : Session}

theorem Valid.works (h : session.Valid) : session.Works session := ⟨h, .refl _, .refl _ _ _⟩

theorem Works.trans {mid : Session} (h : session.Works mid) (g : mid.Works after) :
    session.Works after :=
  ⟨g.valid, h.grows.trans g.grows, h.later.append h.grows g.later⟩

theorem Collects.works {tree : SyntaxTree} {outcome : Except AnalysisError Model}
    (h : session.Collects tree outcome after) : session.Works after :=
  ⟨h.valid, h.grows, h.later.mono fun _ _ => trivial⟩

theorem Valid.freeze (h : session.Valid) (model : Model) :
    session.Works (session.freeze model) := by
  have hext := extends_freezeScope session.env model.scope
  have later := @later_freezeScope (fun _ => True) session.env model.scope
  exact ⟨h.later (h.founded.wellFormed.freezeScope _) hext later, hext, later⟩

/-- Uses that are looked at again are written in the file scope of the unit only. -/
theorem Valid.retryImports (h : session.Valid) {model : Model} (hm : Open session.env model) :
    session.Works (session.retryImports model).2 ∧
      Environment.Steady session.env session.env (session.retryImports model).2.env ∧
      ∀ model', (session.retryImports model).1 = .ok model' →
        Open (session.retryImports model).2.env model' := by
  have wf := h.founded.wellFormed
  have grounds := h.grounds wf (.refl _) hm.has hm.kind hm.unfrozen model.tree
  have start : Collecting.Good (session.collectionContext model.tree model.scope) session.env
      { env := session.env, annotations := model.annotations } :=
    ⟨wf, .refl _, .refl _ _ _, fun _ hid hb => absurd hid hb, hm.annotations, .empty _⟩
  have good := (Collecting.sound_retryImports grounds _ start (.refl _)).1
  simp only [Session.retryImports]
  generalize (Collecting.retryImports (session.collectionContext model.tree model.scope)).run.run
    { env := session.env, annotations := model.annotations } = ran at good
  obtain ⟨outcome, state⟩ := ran
  have later : session.env.Later (fun _ => True) session.env state.env :=
    good.frame.later.mono fun _ _ => trivial
  have works : session.Works { session with env := state.env } :=
    ⟨h.later good.wellFormed good.since later, good.since, later⟩
  obtain ⟨hfile, kind, unfrozen⟩ := good.file grounds
  cases outcome with
  | error cause => exact ⟨works, good.frame.frozen, by simp⟩
  | ok =>
    refine ⟨works, good.frame.frozen, ?_⟩
    rintro _ ⟨⟩
    exact ⟨hfile, kind, unfrozen, good.annotations⟩

/-- What work does to a session, and that units stay open until they are frozen. -/
theorem keeps_works (session : Session) :
    Keeps (session.Works ·) (fun after model => Open after.env model) where
  collect works tree :=
    have collected := works.valid.collects tree
    { after := works.trans collected.works
      given := collected.model
      others := fun _ hopen =>
        hopen.later works.valid.founded.wellFormed collected.grows collected.steady }
  retryImports works hm :=
    have ⟨retried, steady, opens⟩ := works.valid.retryImports hm
    { after := works.trans retried
      given := opens
      others := fun _ hopen => hopen.later works.valid.founded.wellFormed retried.grows steady }
  freeze works model := works.trans (works.valid.freeze model)

theorem Valid.analyze (h : session.Valid) (tree : SyntaxTree) :
    session.Works (session.analyze tree).2 :=
  (keeps_works session).analyze h.works tree

theorem Valid.discard (h : session.Valid) (name : String) : (session.discard name).2.Valid := by
  unfold Session.discard
  split
  · rename_i entry hentry
    have erased : ∀ {key : FoldedName} {other},
        (session.units.erase (Name.fold name))[key]? = some other →
          session.units[key]? = some other := by
      intro key other hother
      rw [Std.HashMap.getElem?_erase] at hother
      split_ifs at hother
      exact hother
    have unmoved := h.founded.wellFormed.unmoved_discardScope entry.scope
    refine ⟨h.founded.discardScope (h.units _ entry hentry).2, ?_, ?_⟩
    · intro key other hother
      obtain ⟨hin, hkind⟩ := h.units key other (erased hother)
      exact ⟨(unmoved.has _).2 hin, (unmoved.kind _).trans hkind⟩
    · exact fun key other _ _ hkey hother => h.distinct key other _ _ (erased hkey) (erased hother)
  · exact h

/-- Every operation but a discard adds to a session. -/
theorem Valid.worksPerform (h : session.Valid) {operation : Operation}
    (kept : ∀ name, operation ≠ .discard name) : session.Works (session.perform operation) :=
  (keeps_works session).perform h.works kept

theorem Valid.worksRun (h : session.Valid) {operations : List Operation}
    (kept : ∀ name, .discard name ∉ operations) : session.Works (session.run operations) := by
  induction operations generalizing session with
  | nil => exact h.works
  | cons operation rest ih =>
    have first : session.Works (session.perform operation) :=
      h.worksPerform fun name heq => kept name (heq ▸ List.mem_cons_self)
    exact first.trans (ih first.valid fun name hname => kept name (List.mem_cons_of_mem _ hname))

theorem Valid.perform (h : session.Valid) (operation : Operation) :
    (session.perform operation).Valid := by
  cases operation with
  | discard name => exact h.discard name
  | _ => exact (h.worksPerform (by simp)).valid

theorem Valid.run (h : session.Valid) (operations : List Operation) :
    (session.run operations).Valid := by
  induction operations generalizing session with
  | nil => exact h
  | cons operation rest ih => exact ih (h.perform operation)

/-- Every session that can be arrived at is valid. -/
theorem valid_run (settings : Settings) (operations : List Operation) :
    ((start settings).run operations).Valid :=
  (valid_start settings).run operations

end Operations

end Session

end Pascal
