import Mathlib
import Pascal.Proofs.Collection.Growth
import Pascal.Proofs.Names
import Pascal.Proofs.Session.Moves
import Pascal.Proofs.Session.Registry

/-!
# Units and their file scopes

The units of a session are held in three places: in the registry by name, in the scope tree as file
scopes below the System scope, and in the scopes of the units that use them. The three are changed
one after the other, and a collection can fail in between. Whatever has been asked of a session,
they agree.

## Main results

- `Session.registry_agrees`: they agree in every session.
-/

namespace Pascal

open Collecting ScopeTree Environment

namespace Session

/-! ## Registry and scope tree -/

/-- A scope is that of a registered unit. -/
def Registers (session : Session) (f : ScopeId) : Prop :=
  ∃ (key : FoldedName) (entry : UnitEntry), session.units[key]? = some entry ∧ entry.scope = f

/-- Registry, scope tree and uses agree. -/
structure Tallies (session : Session) : Prop where
  nodup : (session.env.scopes.filesBelow session.system.scope).Nodup
  files : ∀ f, f ∈ session.env.scopes.filesBelow session.system.scope ↔ session.Registers f
  named : ∀ (key : FoldedName) entry, session.units[key]? = some entry →
    key = Name.fold (session.env.scopes.get entry.scope).name ∧ key ≠ Name.fold systemName
  imports : ∀ s, ∀ used ∈ (session.env.scopes.get s).imports,
    used = session.system.scope ∨ session.Registers used
  /-- File scopes stand in the System scope, also those of discarded units. -/
  planted : ∀ f, (session.env.scopes.get f).kind = .file →
    (session.env.scopes.get f).parent = some session.system.scope

section Moves

variable {session after : Session} {env : Environment} {name : String}

theorem Valid.has_system (h : session.Valid) : session.env.Has (.scope session.system.scope) :=
  h.founded.scope ▸ h.founded.has

theorem registers_of_known {used : ScopeId} (h : session.Known used) :
    used = session.system.scope ∨ session.Registers used := by
  obtain ⟨name, hu⟩ := h
  unfold unitScope? at hu
  split_ifs at hu
  · exact .inl (Option.some.inj hu).symm
  · obtain ⟨entry, hentry, rfl⟩ := Option.map_eq_some_iff.1 hu
    obtain ⟨spelling, -, hentry⟩ := List.exists_of_findSome?_eq_some hentry
    exact .inr ⟨_, entry, hentry, rfl⟩

theorem Valid.has_of_registers (h : session.Valid) {f : ScopeId} (hf : session.Registers f) :
    session.env.Has (.scope f) := by
  obtain ⟨key, entry, hentry, rfl⟩ := hf
  exact (h.units key entry hentry).1

theorem Valid.not_registers_nextFile (h : session.Valid) : ¬session.Registers session.nextFile :=
  fun hf => Nat.lt_irrefl _ (h.has_of_registers hf)

/-- The tables of a session with a further unit, collected in part or as a whole. -/
structure Hosts (session : Session) (name : String) (env : Environment) : Prop where
  files : env.scopes.filesBelow session.system.scope =
    session.env.scopes.filesBelow session.system.scope ++ [session.nextFile]
  system : env.Has (.scope session.system.scope)
  parent : (env.scopes.get session.nextFile).parent = some session.system.scope
  named : (env.scopes.get session.nextFile).name = name
  kept : ∀ s, session.env.Has (.scope s) →
    (env.scopes.get s).name = (session.env.scopes.get s).name
  imports : ∀ s, ∀ used ∈ (env.scopes.get s).imports,
    used = session.system.scope ∨ session.Registers used
  planted : ∀ f, (env.scopes.get f).kind = .file →
    (env.scopes.get f).parent = some session.system.scope

theorem Tallies.hosts (t : session.Tallies) (h : session.Valid)
    (steps : (session.env.openUnit session.system.scope name).Steps session.nextFile
      session.Known env) : session.Hosts name env := by
  let opened := session.env.openUnit session.system.scope name
  have grown : ScopeTree.Grown session.Known opened.scopes env.scopes := steps.grown
  have extended : session.env.Extends opened := extends_openUnit _ _ _
  have new : opened.Has (.scope session.nextFile) := has_openUnit _ _ _
  have fresh := get_openUnit h.has_system name
  have children : ∀ c ∈ (session.env.scopes.get session.system.scope).children,
      session.env.Has (.scope c) :=
    fun c hc => (h.founded.wellFormed.child _ c hc).1
  have childrenOpened : ∀ c ∈ (opened.scopes.get session.system.scope).children,
      opened.Has (.scope c) := by
    intro c hc
    rw [get_openUnit_of_has h.has_system, if_pos rfl] at hc
    obtain hc | hc := List.mem_append.1 hc
    · exact extended.has _ (children c hc)
    · cases List.mem_singleton.1 hc
      exact new
  have split : ∀ s, opened.Has (.scope s) → session.env.Has (.scope s) ∨ s = session.nextFile :=
    fun s => (lt_size_create .file (some session.system.scope) name).1
  constructor
  case files =>
    exact (grown.filesBelow (extended.has _ h.has_system) childrenOpened).trans
      (filesBelow_create h.has_system children name)
  case system => exact Nat.lt_of_lt_of_le (extended.has _ h.has_system) grown.size
  case parent => exact (grown.parent _ new).trans (congrArg Scope.parent fresh)
  case named => exact (grown.name _ new).trans (congrArg Scope.name fresh)
  case kept =>
    intro s hs
    have same : (opened.scopes.get s).name = _ := congrArg Scope.name (get_openUnit_of_has hs name)
    exact (grown.name s (extended.has _ hs)).trans same
  case imports =>
    intro s used hused
    obtain hused | hknown := grown.imports s used hused
    · have same : (opened.scopes.get s).imports = _ :=
        get_create_field Scope.imports (fun _ _ => rfl) .file _ name
      rw [same] at hused
      split_ifs at hused
      · cases hused
      · exact t.imports s used hused
    · exact registers_of_known hknown
  case planted =>
    intro f hf
    by_cases hin : opened.Has (.scope f)
    · rw [grown.kind f hin] at hf
      rw [grown.parent f hin]
      obtain hold | rfl := split f hin
      · rw [extended.kind f hold] at hf
        rw [extended.parent f hold]
        exact t.planted f hf
      · exact congrArg Scope.parent fresh
    · exact absurd hf (grown.fresh f (Nat.le_of_not_lt hin))

theorem isTaken_eq_false (free : session.isTaken name = false) :
    session.units[Name.fold name]? = none ∧ Name.fold name ≠ Name.fold systemName := by
  simpa [isTaken, Name.same] using free

/-- A unit is registered with its file scope. -/
theorem Hosts.register (hosts : session.Hosts name env) (t : session.Tallies) (h : session.Valid)
    (free : session.isTaken name = false) :
    Tallies { session with
      env
      units := session.units.insert (Name.fold name) { name, scope := session.nextFile } } := by
  obtain ⟨absent, proper⟩ := isTaken_eq_false free
  have registers : ∀ f, Registers { session with
      env
      units := session.units.insert (Name.fold name) { name, scope := session.nextFile } } f ↔
      session.Registers f ∨ f = session.nextFile := by
    intro f
    constructor
    · rintro ⟨key, entry, hentry, rfl⟩
      rw [Std.HashMap.getElem?_insert] at hentry
      split_ifs at hentry
      · cases hentry
        exact .inr rfl
      · exact .inl ⟨key, entry, hentry, rfl⟩
    · rintro (⟨key, entry, hentry, rfl⟩ | rfl)
      · have hne : Name.fold name ≠ key := by
          rintro rfl
          cases absent.symm.trans hentry
        exact ⟨key, entry, by simpa [Std.HashMap.getElem?_insert, hne] using hentry, rfl⟩
      · exact ⟨Name.fold name, _, Std.HashMap.getElem?_insert_self, rfl⟩
  constructor
  case nodup =>
    dsimp only
    rw [hosts.files]
    refine List.nodup_append.2 ⟨t.nodup, List.nodup_singleton _, ?_⟩
    rintro f hf _ hnew rfl
    cases List.mem_singleton.1 hnew
    exact h.not_registers_nextFile ((t.files _).1 hf)
  case files =>
    intro f
    rw [registers, ← t.files]
    dsimp only
    rw [hosts.files, List.mem_append, List.mem_singleton]
  case named =>
    intro key entry hentry
    dsimp only at hentry ⊢
    rw [Std.HashMap.getElem?_insert] at hentry
    split_ifs at hentry with heq
    · cases hentry
      dsimp only
      rw [hosts.named]
      cases eq_of_beq heq
      exact ⟨rfl, proper⟩
    · rw [hosts.kept _ (h.units key entry hentry).1]
      exact t.named key entry hentry
  case imports =>
    intro s used hused
    obtain heq | hreg := hosts.imports s used hused
    · exact .inl heq
    · exact .inr ((registers used).2 (.inl hreg))
  case planted => exact hosts.planted

/-- A unit whose collection fails leaves the registry as it was. -/
theorem Hosts.withdraw (hosts : session.Hosts name env) (t : session.Tallies) (h : session.Valid) :
    Tallies { session with env := env.discardScope session.nextFile } := by
  have got := fun s => @get_detach env.scopes s session.nextFile fun p hp => by
    rw [hosts.parent] at hp
    cases hp
    exact hosts.system
  have files : (env.scopes.detach session.nextFile).filesBelow session.system.scope =
      session.env.scopes.filesBelow session.system.scope := by
    rw [filesBelow_detach hosts.parent hosts.system, hosts.files, List.filter_append]
    have old : ∀ f ∈ session.env.scopes.filesBelow session.system.scope, f ≠ session.nextFile := by
      rintro _ hf rfl
      exact h.not_registers_nextFile ((t.files _).1 hf)
    rw [List.filter_eq_self.2 (by simpa using old)]
    simp
  constructor
  case nodup => exact files ▸ t.nodup
  case files => exact fun f => files ▸ t.files f
  case named =>
    intro key entry hentry
    have same : ((env.scopes.detach session.nextFile).get entry.scope).name =
        (session.env.scopes.get entry.scope).name := by
      rw [got]
      exact hosts.kept _ (h.units key entry hentry).1
    exact same ▸ t.named key entry hentry
  case imports =>
    intro s used hused
    have hused : used ∈ ((env.scopes.detach session.nextFile).get s).imports := hused
    rw [got] at hused
    exact hosts.imports s used (List.mem_of_mem_filter hused)
  case planted =>
    intro f hf
    have hf : ((env.scopes.detach session.nextFile).get f).kind = .file := hf
    change ((env.scopes.detach session.nextFile).get f).parent = _
    rw [got] at hf ⊢
    exact hosts.planted f hf

/-- Looking at the uses of a unit again adds units that are known. -/
theorem Tallies.revisit (t : session.Tallies) (h : session.Valid)
    (grown : ScopeTree.Grown session.Known session.env.scopes env.scopes) :
    Tallies { session with env } := by
  have files : env.scopes.filesBelow session.system.scope =
      session.env.scopes.filesBelow session.system.scope :=
    grown.filesBelow h.has_system fun c hc => (h.founded.wellFormed.child _ c hc).1
  constructor
  case nodup => exact files ▸ t.nodup
  case files => exact fun f => files ▸ t.files f
  case named =>
    intro key entry hentry
    exact grown.name _ (h.units key entry hentry).1 ▸ t.named key entry hentry
  case imports =>
    intro s used hused
    obtain hused | hknown := grown.imports s used hused
    · exact t.imports s used hused
    · exact registers_of_known hknown
  case planted =>
    intro f hf
    by_cases hin : session.env.Has (.scope f)
    · rw [grown.kind f hin] at hf
      exact (grown.parent f hin).trans (t.planted f hf)
    · exact absurd hf (grown.fresh f (Nat.le_of_not_lt hin))

theorem Tallies.freeze (t : session.Tallies) (file : ScopeId) :
    Tallies { session with env := session.env.freezeScope file } := by
  have kept := fun {α : Type} (field : Scope → α) h =>
    @freezeScope_field α field h session.env file
  have kind := kept Scope.kind fun _ _ => rfl
  have parent := kept Scope.parent fun _ _ => rfl
  have files : (session.env.freezeScope file).scopes.filesBelow session.system.scope = _ :=
    filesBelow_congr (kept Scope.children (fun _ _ => rfl) _) kind
  constructor
  case nodup => exact files ▸ t.nodup
  case files => exact fun f => files ▸ t.files f
  case named =>
    intro key entry hentry
    exact kept Scope.name (fun _ _ => rfl) entry.scope ▸ t.named key entry hentry
  case imports =>
    intro s used hused
    exact t.imports s used (kept Scope.imports (fun _ _ => rfl) s ▸ hused)
  case planted =>
    intro f hf
    exact (parent f).trans (t.planted f ((kind f).symm.trans hf))

/-- A discarded unit is taken out of the registry, the scope tree and the uses alike. -/
theorem Tallies.discard (t : session.Tallies) (h : session.Valid) {entry : UnitEntry}
    (hentry : session.units[Name.fold name]? = some entry) :
    Tallies { session with
      env := session.env.discardScope entry.scope
      units := session.units.erase (Name.fold name) } := by
  have parent := t.planted _ (h.units _ entry hentry).2
  have got := h.founded.wellFormed.get_discardScope entry.scope
  have files : (session.env.discardScope entry.scope).scopes.filesBelow session.system.scope = _ :=
    filesBelow_detach parent h.has_system
  have registers : ∀ f, Registers { session with
      env := session.env.discardScope entry.scope
      units := session.units.erase (Name.fold name) } f ↔
      session.Registers f ∧ f ≠ entry.scope := by
    intro f
    constructor
    · rintro ⟨key, other, hother, rfl⟩
      rw [Std.HashMap.getElem?_erase] at hother
      split_ifs at hother with hne
      refine ⟨⟨key, other, hother, rfl⟩, fun heq => hne ?_⟩
      exact beq_iff_eq.2 (h.distinct _ _ other entry hother hentry heq).symm
    · rintro ⟨⟨key, other, hother, rfl⟩, hne⟩
      have hkey : Name.fold name ≠ key := by
        rintro rfl
        cases hother.symm.trans hentry
        exact hne rfl
      exact ⟨key, other, by simpa [Std.HashMap.getElem?_erase, hkey] using hother, rfl⟩
  constructor
  case nodup => exact files ▸ t.nodup.filter _
  case files =>
    intro f
    rw [registers, ← t.files]
    dsimp only
    rw [files, List.mem_filter, decide_eq_true_iff]
  case named =>
    intro key other hother
    dsimp only at hother ⊢
    rw [Std.HashMap.getElem?_erase] at hother
    split_ifs at hother
    rw [got]
    exact t.named key other hother
  case imports =>
    intro s used hused
    dsimp only at hused
    rw [got] at hused
    obtain ⟨hused, hne⟩ := List.mem_filter.1 hused
    obtain heq | hreg := t.imports s used hused
    · exact .inl heq
    · exact .inr ((registers used).2 ⟨hreg, by simpa using hne⟩)
  case planted =>
    intro f hf
    dsimp only at hf ⊢
    rw [got] at hf ⊢
    exact t.planted f hf

/-- Every move of a session keeps registry, scope tree and uses in agreement. -/
theorem Move.tallies (move : session.Move after) (h : session.Valid) (t : session.Tallies) :
    after.Tallies := by
  cases move with
  | register free steps => exact (t.hosts h steps).register t h free
  | withdraw steps => exact (t.hosts h steps).withdraw t h
  | revisit steps => exact t.revisit h steps.grown
  | freeze file => exact t.freeze file
  | discard hentry => exact t.discard h hentry

end Moves

theorem tallies_start (settings : Settings) : (start settings).Tallies := by
  obtain ⟨env, steps, built⟩ := SystemUnit.steps_build settings ⟨0⟩ fun _ => False
  have grown := steps.grown
  have size : (SystemUnit.blank settings).scopes.size = 1 := rfl
  have root : (SystemUnit.blank settings).scopes.get ⟨0⟩ =
      { kind := .system, name := systemName } := rfl
  have nothing : ∀ s, ((SystemUnit.blank settings).scopes.get s).imports = [] := by
    intro s
    by_cases hs : s.index < 1
    · obtain rfl : s = ⟨0⟩ := ScopeId.index_inj.1 (Nat.lt_one_iff.1 hs)
      rfl
    · rw [get_eq_default (Nat.le_of_not_lt hs)]
      rfl
  have noFile : ∀ s, (env.scopes.get s).kind ≠ .file := by
    intro s
    by_cases hs : s.index < 1
    · obtain rfl : s = ⟨0⟩ := ScopeId.index_inj.1 (Nat.lt_one_iff.1 hs)
      rw [grown.kind ⟨0⟩ hs, root]
      decide
    · exact grown.fresh s (Nat.le_of_not_lt hs)
  have noUse : ∀ s used, used ∉ (env.scopes.get s).imports := by
    intro s used hused
    obtain hused | hfalse := grown.imports s used hused
    · rw [nothing] at hused
      cases hused
    · exact hfalse
  have unregistered : ∀ f, ¬(start settings).Registers f := by
    rintro f ⟨key, entry, hentry, -⟩
    simp [start] at hentry
  have same : (start settings).env = env.freezeScope ⟨0⟩ := built
  have kept := fun {α : Type} (field : Scope → α) h s =>
    (congrArg (fun env : Environment => field (env.scopes.get s)) same).trans
      (@freezeScope_field α field h env ⟨0⟩ s)
  have kind := kept Scope.kind fun _ _ => rfl
  have files : ∀ s, (start settings).env.scopes.filesBelow s = [] := by
    intro s
    rw [filesBelow, List.filter_eq_nil_iff]
    exact fun c _ => by simpa [kind] using noFile c
  constructor
  case nodup => exact files _ ▸ List.nodup_nil
  case files => exact fun f => by simp [files, unregistered]
  case named => exact fun key entry hentry => absurd ⟨key, entry, hentry, rfl⟩ (unregistered _)
  case imports =>
    intro s used hused
    exact absurd (kept Scope.imports (fun _ _ => rfl) s ▸ hused) (noUse s used)
  case planted => exact fun f hf => absurd ((kind f).symm.trans hf) (noFile f)

theorem tallies_run (settings : Settings) (operations : List Operation) :
    ((start settings).run operations).Tallies :=
  (moves_run settings operations).keeps (fun valid move t => move.tallies valid t)
    (tallies_start settings)

/-! ## A unit that uses another -/

/-- A unit that uses another in its implementation and has nothing else. -/
def importingUnit (name used : String) : SyntaxTree where
  nodes := #[{ kind := .unitReference used },
    { kind := .usesClause, children := [⟨0⟩] },
    { kind := .implementationSection, children := [⟨1⟩] },
    { kind := .unit name, children := [⟨2⟩] }]
  root := ⟨3⟩
  ordered := by
    intro i hi child hc
    match i, hi with
    | 0, _ => cases hc
    | 1, _ | 2, _ | 3, _ =>
      cases List.mem_singleton.1 hc
      decide

theorem Valid.unfrozen_openUnit {session : Session} (h : session.Valid) (name : String) :
    ((session.env.openUnit session.system.scope name).scopes.get session.nextFile).frozen =
      false := by
  have system : (session.env.scopes.get session.system.scope).kind = .system :=
    h.founded.scope ▸ h.founded.kind
  rw [nextFile, get_openUnit h.has_system name]
  simp [startsFrozen, system]

/-- Units of the namespace `Vcl` are found by their short names as well. -/
def vcl : Settings := { unitScopeNames := ["Vcl"] }

attribute [local irreducible] Text.lowercase in
/-- A unit uses another one by its short name. -/
theorem collect_vclUser : ∃ base mid,
    (start vcl).collect (expressionUnit "Vcl.Base" .nilLiteral) = (.ok base, mid) ∧
    ∃ user after, mid.collect (importingUnit "User" "Base") = (.ok user, after) ∧
      (after.units[Name.fold "Vcl.Base"]?.map (·.scope) = some base.scope ∧
        after.units[Name.fold "User"]?.map (·.scope) = some user.scope ∧
        (after.env.scopes.get user.scope).imports = [base.scope] ∧
        after.env.find user.scope "VCL.BASE" = [⟨60⟩] ∧
        after.env.findInUnit user.scope user.scope "Base" = [⟨62⟩] ∧
        (after.env.declaration ⟨62⟩).part = .implementation) :=
  exists_collected (by cbv)

/-! ## Every session -/

/-- The scopes of the registered units. -/
def unitScopes (session : Session) : List ScopeId :=
  session.units.toList.map fun unit => unit.2.scope

section Every

variable {session : Session}

theorem mem_unitScopes {f : ScopeId} : f ∈ session.unitScopes ↔ session.Registers f := by
  simp [unitScopes, Registers, Std.HashMap.mem_toList_iff_getElem?_eq_some]

/-- Units have file scopes of their own. -/
theorem Valid.nodup_unitScopes (h : session.Valid) : session.unitScopes.Nodup := by
  have keys : session.units.toList.Nodup :=
    Std.HashMap.distinct_keys_toList.imp fun hne heq => by simp [heq] at hne
  refine keys.map_on fun unit hunit other hother heq => ?_
  have hunit := Std.HashMap.mem_toList_iff_getElem?_eq_some.1 hunit
  have hother := Std.HashMap.mem_toList_iff_getElem?_eq_some.1 hother
  have same := h.distinct _ _ _ _ hunit hother heq
  rw [same] at hunit
  exact Prod.ext same (Option.some.inj (hunit.symm.trans hother))

theorem Tallies.unitScope?_eq (t : session.Tallies) {key : FoldedName} {entry : UnitEntry}
    (hentry : session.units[key]? = some entry) {spelling : String}
    (h : Name.fold spelling = key) : session.unitScope? spelling = some entry.scope := by
  subst h
  have other : Name.same spelling systemName = false := by
    simpa [Name.same] using (t.named _ entry hentry).2
  simp [unitScope?, registered?, other, hentry]

end Every

/-- In every session, the file scopes below the System scope are those of the registered units, each
once. Units are registered under their folded names, by which they are found, never under that of
the System unit, and every unit that is used is registered, or the System unit. -/
theorem registry_agrees (settings : Settings) (operations : List Operation) :
    let session := (start settings).run operations
    let tree := session.env.scopes
    (tree.filesBelow session.system.scope).Nodup ∧
      (tree.filesBelow session.system.scope).Perm session.unitScopes ∧
      (∀ (key : FoldedName) entry, session.units[key]? = some entry →
        key = Name.fold (tree.get entry.scope).name ∧
          session.unitScope? (tree.get entry.scope).name = some entry.scope ∧
          session.unitScope? key.text = some entry.scope) ∧
      session.units[Name.fold systemName]? = none ∧
      ∀ s, ∀ used ∈ (tree.get s).imports,
        used = session.system.scope ∨ used ∈ session.unitScopes := by
  intro session tree
  have valid : session.Valid := valid_run settings operations
  have tallies : session.Tallies := tallies_run settings operations
  refine ⟨tallies.nodup, ?_, ?_, ?_, ?_⟩
  · rw [List.perm_ext_iff_of_nodup tallies.nodup valid.nodup_unitScopes]
    exact fun f => (tallies.files f).trans mem_unitScopes.symm
  · intro key entry hentry
    have named := (tallies.named key entry hentry).1
    refine ⟨named, tallies.unitScope?_eq hentry named.symm, tallies.unitScope?_eq hentry ?_⟩
    rw [named, Name.fold_text_fold]
  · by_contra hsystem
    obtain ⟨entry, hentry⟩ := Option.ne_none_iff_exists'.1 hsystem
    exact (tallies.named _ entry hentry).2 rfl
  · intro s used hused
    exact (tallies.imports s used hused).imp_right mem_unitScopes.2

/-- A unit that is used by its short name is registered under its full name. -/
theorem vclBase_registered :
    let session := (start vcl).run
      [.collect (expressionUnit "Vcl.Base" .nilLiteral), .collect (importingUnit "User" "Base")]
    ∃ base user : UnitEntry, session.units[Name.fold "Vcl.Base"]? = some base ∧
      session.units[Name.fold "User"]? = some user ∧
      (session.env.scopes.get user.scope).imports = [base.scope] ∧
      session.unitScope? (session.env.scopes.get base.scope).name = some base.scope ∧
      (base.scope = session.system.scope ∨ base.scope ∈ session.unitScopes) := by
  intro session
  obtain ⟨_, _, ranBase, _, after, ranUser, hbase, huser, himports, -⟩ := collect_vclUser
  obtain rfl : session = after := run_collect_collect ranBase ranUser
  obtain ⟨base, hbase, hscope⟩ := Option.map_eq_some_iff.1 hbase
  obtain ⟨user, huser, hscope'⟩ := Option.map_eq_some_iff.1 huser
  rw [← hscope, ← hscope'] at himports
  obtain ⟨-, -, units, -, imports⟩ := registry_agrees vcl
    [.collect (expressionUnit "Vcl.Base" .nilLiteral), .collect (importingUnit "User" "Base")]
  refine ⟨base, user, hbase, huser, himports, (units _ base hbase).2.1, imports user.scope _ ?_⟩
  exact himports ▸ List.mem_singleton_self _

end Session

end Pascal
