import Pascal.Proofs.Coherence
import Pascal.Proofs.Nesting
import Pascal.Session.Basic

/-!
# Well-formed tables

Beside being coherent, the tables of a session keep their scopes in a tree: a scope is a child of
its parent, everything nested in a frozen scope is frozen, and a declaration is found in the scope
it was made in. Every step of an analysis keeps the tables well-formed.

## Main results

- `Environment.WellFormed.create` and its companions: one for each step.
- `Environment.WellFormed.frozen_of_unit`: a unit whose file scope is frozen is frozen as a whole.
- `Environment.WellFormed.freezeScope`, `Environment.WellFormed.discardScope`: closing and
  discarding a unit.
-/

namespace Pascal.Environment

open ScopeTree

/-- Scopes form a tree, with everything in its place. -/
structure Treelike (env : Environment) : Prop where
  registered : ∀ s n d, d ∈ env.symbols.findFolded s n →
    env.Has (.decl d) ∧ (env.declaration d).scope = s
  memberScope : ∀ id, env.Has (.struct id) → (env.scopes.get (env.membersOf id)).kind = .type
  /-- A structured type is never announced in the System scope. -/
  announced : ∀ id, env.Has (.struct id) → (env.types.structInfo id).forward →
    ∃ p, (env.scopes.get (env.membersOf id)).parent = some p ∧ (env.scopes.get p).kind ≠ .system
  child : ∀ s c, c ∈ (env.scopes.get s).children →
    env.Has (.scope c) ∧ (env.scopes.get c).parent = some s
  linked : ∀ c p, (env.scopes.get c).parent = some p → (env.scopes.get c).kind ≠ .file →
    c ∈ (env.scopes.get p).children
  frozen : ∀ c p, (env.scopes.get c).parent = some p → (env.scopes.get c).kind ≠ .file →
    (env.scopes.get p).frozen → (env.scopes.get c).frozen
  /-- Only the first scope stands in no other. -/
  rooted : ∀ s, env.Has (.scope s) → (env.scopes.get s).parent = none → s = ⟨0⟩

/-- Coherent tables whose scopes form a tree. -/
structure WellFormed (env : Environment) : Prop extends Treelike env where
  coherent : env.Coherent

variable {env : Environment}

theorem has_of_parent {s p : ScopeId} (h : (env.scopes.get s).parent = some p) :
    env.Has (.scope s) := by
  by_contra hs
  rw [get_eq_default (Nat.le_of_not_lt hs)] at h
  cases h

/-! ## Steps -/

theorem WellFormed.create (h : env.WellFormed) {p : ScopeId} (hp : env.Has (.scope p))
    {kind : ScopeKind} (hk : kind ≠ .file ∨ env.unitOf (.scope p) = none)
    (hs : kind ≠ .file → (env.scopes.get p).frozen → (env.scopes.get p).kind ≠ .system)
    (name : String) : (env.createScope kind p name).WellFormed := by
  have hext := extends_createScope env kind p name
  have hnew := get_createScope_new hp kind name
  have old : ∀ {s}, env.Has (.scope s) → (env.createScope kind p name).scopes.get s = _ := fun hs =>
    get_create kind (some p) name hs
  have parent_has : ∀ {s q}, (env.scopes.get s).parent = some q → env.Has (.scope q) :=
    fun hq => h.coherent.exist _ _ (has_of_parent hq) (.parent hq)
  refine ⟨⟨h.registered, ?_, ?_, ?_, ?_, ?_, ?_⟩, h.coherent.create hp hk name⟩
  · intro id (hid : env.Has (.struct id))
    have hm := h.coherent.exist _ _ hid .members
    exact (hext.kind _ hm).trans (h.memberScope id hid)
  · intro id (hid : env.Has (.struct id)) hf
    have hm := h.coherent.exist _ _ hid .members
    obtain ⟨q, hq, hkind⟩ := h.announced id hid hf
    exact ⟨q, (hext.parent _ hm).trans hq, by rwa [hext.kind q (parent_has hq)]⟩
  · intro s c hc
    by_cases hhas : (env.createScope kind p name).Has (.scope s)
    · obtain hhas | rfl := has_createScope.1 hhas
      · rw [old hhas] at hc
        obtain hc | hc := List.mem_append.1 hc
        · obtain ⟨hcin, hcp⟩ := h.child s c hc
          exact ⟨hext.has _ hcin, (hext.parent c hcin).trans hcp⟩
        · split_ifs at hc with heq
          · cases List.mem_singleton.1 hc
            rw [hnew]
            exact ⟨has_createScope.2 (.inr rfl), heq⟩
          · simp at hc
      · simp [hnew] at hc
    · rw [get_eq_default (Nat.le_of_not_lt hhas)] at hc
      cases hc
  · intro c q hq hfile
    obtain hc | rfl := has_createScope.1 (has_of_parent hq)
    · rw [hext.parent c hc] at hq
      rw [hext.kind c hc] at hfile
      rw [old (parent_has hq)]
      exact List.mem_append_left _ (h.linked c q hq hfile)
    · rw [hnew] at hq
      cases hq
      rw [old hp, if_pos rfl]
      exact List.mem_append_right _ (List.mem_singleton_self _)
  · intro c q hq hfile hfrozen
    obtain hc | rfl := has_createScope.1 (has_of_parent hq)
    · rw [hext.parent c hc] at hq
      rw [hext.kind c hc] at hfile
      rw [old (parent_has hq)] at hfrozen
      rw [old hc]
      exact h.frozen c q hq hfile hfrozen
    · rw [hnew] at hq hfile ⊢
      cases hq
      rw [old hp] at hfrozen
      simp only at hfrozen hfile
      simp [startsFrozen, hfrozen, hs hfile hfrozen]
  · intro s hhas hnone
    obtain hhas | rfl := has_createScope.1 hhas
    · exact h.rooted s hhas (hext.parent s hhas ▸ hnone)
    · simp [hnew] at hnone

theorem Treelike.add (h : env.Treelike) (s : ScopeId) (spec : DeclarationSpec) :
    (env.add s spec).2.Treelike := by
  refine ⟨?_, h.memberScope, h.announced, h.child, h.linked, h.frozen, h.rooted⟩
  intro t n d hd
  simp only [Environment.add, SymbolTable.findFolded_add, List.mem_append] at hd
  obtain hd | hd := hd
  · obtain ⟨hin, hscope⟩ := h.registered t n d hd
    exact ⟨has_add.2 (.inl hin), ((extends_add env s spec).decl d hin).symm ▸ hscope⟩
  · split_ifs at hd with heq
    · cases List.mem_singleton.1 hd
      exact ⟨has_add.2 (.inr rfl), declaration_add_new.1.trans heq.1.symm⟩
    · simp at hd

theorem WellFormed.add (h : env.WellFormed) {s : ScopeId} {spec : DeclarationSpec}
    (hs : env.Has (.scope s)) (hspec : env.Declarable s spec) :
    (env.add s spec).2.WellFormed :=
  ⟨h.toTreelike.add s spec, h.coherent.add hs hspec⟩

/-- A change of the type table keeps scopes and declarations. -/
theorem WellFormed.withTypes (h : env.WellFormed) {types : TypeTable}
    (coherent : (env.withTypes types).Coherent)
    (memberScope : ∀ id, (env.withTypes types).Has (.struct id) →
      (env.scopes.get (types.structInfo id).scope).kind = .type)
    (announced : ∀ id, (env.withTypes types).Has (.struct id) → (types.structInfo id).forward →
      ∃ p, (env.scopes.get (types.structInfo id).scope).parent = some p ∧
        (env.scopes.get p).kind ≠ .system) : (env.withTypes types).WellFormed :=
  ⟨⟨h.registered, memberScope, announced, h.child, h.linked, h.frozen, h.rooted⟩, coherent⟩

theorem has_declareStruct {image : String} {kind : StructKind} {members : ScopeId} {forward : Bool}
    {id : StructId}
    (hid : (env.withTypes (env.types.declareStruct image kind members forward).2).Has
      (.struct id)) :
    env.Has (.struct id) ∨ id = ⟨env.types.structs.size⟩ := by
  rw [← StructId.index_inj]
  apply Nat.lt_succ_iff_lt_or_eq.1
  simpa [Has, Environment.withTypes, TypeTable.declareStruct] using hid

theorem WellFormed.declareStruct (h : env.WellFormed) (image : String) (kind : StructKind)
    {members : ScopeId} (hm : env.Has (.scope members))
    (hk : (env.scopes.get members).kind = .type) {forward : Bool}
    (hf : forward → ∃ p, (env.scopes.get members).parent = some p ∧
      (env.scopes.get p).kind ≠ .system) :
    (env.withTypes (env.types.declareStruct image kind members forward).2).WellFormed := by
  have hnew := env.types.structInfo_declareStruct_new image kind members forward
  refine h.withTypes (h.coherent.declareStruct image kind hm forward) ?_ ?_
  · intro id hid
    obtain hid | rfl := has_declareStruct hid
    · rw [TypeTable.structInfo_declareStruct_of_lt _ _ _ _ hid]
      exact h.memberScope id hid
    · rw [hnew]
      exact hk
  · intro id hid
    obtain hid | rfl := has_declareStruct hid
    · rw [TypeTable.structInfo_declareStruct_of_lt _ _ _ _ hid]
      exact h.announced id hid
    · rw [hnew]
      exact hf

theorem WellFormed.declareEnum (h : env.WellFormed) (image : String) {elements : ScopeId}
    (he : env.Has (.scope elements)) :
    (env.withTypes (env.types.declareEnum image elements none).2).WellFormed :=
  h.withTypes (h.coherent.declareEnum image he) h.memberScope h.announced

theorem WellFormed.addElement (h : env.WellFormed) (id : EnumId) (element : String) :
    (env.withTypes (env.types.addElement id element)).WellFormed :=
  h.withTypes (h.coherent.addElement id element) h.memberScope h.announced

theorem WellFormed.completeStruct (h : env.WellFormed) {struct : StructId} {parents : List Ty}
    (hs : env.Has (.struct struct))
    (hp : ∀ ty ∈ parents, ∀ y ∈ ty.refs, y ∈ env.seen (env.unitOf (.struct struct)))
    (helped : Option Ty) :
    (env.withTypes (env.types.completeStruct struct parents helped)).WellFormed := by
  have hold : ∀ id, (env.withTypes (env.types.completeStruct struct parents helped)).Has
      (.struct id) → env.Has (.struct id) := by
    intro id hid
    simpa [Has, Environment.withTypes, TypeTable.completeStruct] using hid
  refine h.withTypes (h.coherent.completeStruct hs hp helped) ?_ ?_
  · intro id hid
    rw [TypeTable.structInfo_completeStruct _ _ _ hs]
    split_ifs <;> exact h.memberScope id (hold id hid)
  · intro id hid
    rw [TypeTable.structInfo_completeStruct _ _ _ hs]
    split_ifs
    · rintro ⟨⟩
    · exact h.announced id (hold id hid)

/-- A change of one scope that keeps its place in the tree. -/
theorem Treelike.modifyScope (h : env.Treelike) (s : ScopeId) {change : Scope → Scope}
    (parent : ∀ scope, (change scope).parent = scope.parent)
    (kind : ∀ scope, (change scope).kind = scope.kind)
    (children : ∀ scope, (change scope).children = scope.children)
    (frozen : ∀ scope, (change scope).frozen = scope.frozen) :
    (env.modifyScope s change).Treelike := by
  have hparent : ∀ t, ((env.scopes.modify s change).get t).parent = (env.scopes.get t).parent :=
    fun _ => get_modify_field Scope.parent change parent
  have hkind : ∀ t, ((env.scopes.modify s change).get t).kind = (env.scopes.get t).kind :=
    fun _ => get_modify_field Scope.kind change kind
  have hchildren : ∀ t, ((env.scopes.modify s change).get t).children =
      (env.scopes.get t).children :=
    fun _ => get_modify_field Scope.children change children
  have hfrozen : ∀ t, ((env.scopes.modify s change).get t).frozen = (env.scopes.get t).frozen :=
    fun _ => get_modify_field Scope.frozen change frozen
  have hhas : ∀ t, (env.modifyScope s change).Has (.scope t) ↔ env.Has (.scope t) := by
    simp [Has, Environment.modifyScope]
  refine ⟨h.registered, ?_, ?_, ?_, ?_, ?_, ?_⟩
  · intro id hid
    exact (hkind _).trans (h.memberScope id hid)
  · intro id hid hf
    obtain ⟨p, hp, hk⟩ := h.announced id hid hf
    exact ⟨p, (hparent _).trans hp, fun heq => hk ((hkind p).symm.trans heq)⟩
  · intro t c hc
    obtain ⟨hcin, hcp⟩ := h.child t c ((hchildren t) ▸ hc)
    exact ⟨(hhas c).2 hcin, (hparent c).trans hcp⟩
  · intro c p hp hk
    simp only [Environment.modifyScope, hparent, hkind, hchildren] at hp hk ⊢
    exact h.linked c p hp hk
  · intro c p hp hk hf
    simp only [Environment.modifyScope, hparent, hkind, hfrozen] at hp hk hf ⊢
    exact h.frozen c p hp hk hf
  · exact fun t ht hnone => h.rooted t ((hhas t).1 ht) ((hparent t).symm.trans hnone)

theorem WellFormed.setDeclaring (h : env.WellFormed) {s : ScopeId} {declaring : Option StructId}
    (hd : ∀ id, declaring = some id → .struct id ∈ env.seen (env.unitOf (.scope s))) :
    (env.modifyScope s ({ · with declaring })).WellFormed :=
  ⟨h.toTreelike.modifyScope s (fun _ => rfl) (fun _ => rfl) (fun _ => rfl) fun _ => rfl,
    h.coherent.setDeclaring hd⟩

theorem WellFormed.registerHelper (h : env.WellFormed) {s : ScopeId} (target : Ty)
    {struct : StructId} (hd : .struct struct ∈ env.seen (env.unitOf (.scope s))) :
    (env.modifyScope s fun scope => { scope with
      helpers := (target, struct) ::
        scope.helpers.filter fun entry => entry.1 ≠ target }).WellFormed :=
  ⟨h.toTreelike.modifyScope s (fun _ => rfl) (fun _ => rfl) (fun _ => rfl) fun _ => rfl,
    h.coherent.registerHelper target hd⟩

theorem WellFormed.importUnit (h : env.WellFormed) {file used : ScopeId} {spec : DeclarationSpec}
    (hf : env.Has (.scope file)) (hspec : env.Declarable file spec)
    (hu : spec.unitScope = some used) : (env.importUnit file used spec).WellFormed := by
  have first : (env.modifyScope file fun s => { s with imports := s.imports ++ [used] }).Treelike :=
    h.toTreelike.modifyScope file (fun _ => rfl) (fun _ => rfl) (fun _ => rfl) fun _ => rfl
  exact ⟨first.add file spec, h.coherent.importUnit hf hspec hu⟩

/-! ## Subtrees -/

section Subtree

variable {f s c : ScopeId}

theorem WellFormed.ascending (h : env.WellFormed) : env.scopes.Ascending :=
  fun s c hc => ⟨h.coherent.nested c s (h.child s c hc).2, (h.child s c hc).1⟩

/-- What is nested in a scope has a larger identity. -/
theorem WellFormed.le_of_mem_subtree (h : env.WellFormed) (hs : s ∈ env.scopes.subtree f) :
    f.index ≤ s.index :=
  h.ascending.le_of_reaches (h.ascending.mem_subtree.1 hs)

theorem WellFormed.mem_subtree_of_child (h : env.WellFormed) (hs : s ∈ env.scopes.subtree f)
    (hc : c ∈ (env.scopes.get s).children) : c ∈ env.scopes.subtree f :=
  h.ascending.mem_subtree.2 ((h.ascending.mem_subtree.1 hs).tail hc)

/-- A scope is frozen if the file scope that it belongs to is frozen, or, where it belongs to none,
the first scope. -/
theorem WellFormed.frozen_of_unit (h : env.WellFormed) (hs : env.Has (.scope s))
    (system : env.scopes.fileScopeOf? s = none → (env.scopes.get ⟨0⟩).frozen)
    (file : ∀ f, env.scopes.fileScopeOf? s = some f → (env.scopes.get f).frozen) :
    (env.scopes.get s).frozen := by
  induction hi : s.index using Nat.strong_induction_on generalizing s with
  | _ index ih =>
    by_cases hk : (env.scopes.get s).kind = .file
    · exact file s (fileScopeOf?_of_file hk)
    · cases hp : (env.scopes.get s).parent with
      | none =>
        rw [h.rooted s hs hp]
        exact system (fileScopeOf?_of_root hp hk)
      | some p =>
        have hlt := h.coherent.nested s p hp
        have hin : env.Has (.scope p) := h.coherent.exist _ _ hs (.parent hp)
        rw [fileScopeOf?_of_parent hp hlt hk] at system file
        exact h.frozen s p hp hk (ih p.index (hi ▸ hlt) hin system file rfl)

end Subtree

/-! ## Closing and discarding -/

/-- The tables after a scope and everything nested in it is closed. -/
def freezeScope (env : Environment) (f : ScopeId) : Environment :=
  { env with scopes := env.scopes.freeze f }

/-- The tables after everything nested in a scope is forgotten and the scope is taken out. -/
def discardScope (env : Environment) (f : ScopeId) : Environment :=
  { env with
    symbols := (env.scopes.subtree f).foldl SymbolTable.unregister env.symbols
    scopes := env.scopes.detach f }

section Closing

variable {f : ScopeId}

theorem get_freezeScope (env : Environment) (f s : ScopeId) :
    ∃ frozen, (env.freezeScope f).scopes.get s = { env.scopes.get s with frozen } ∧
      (frozen = true ↔ (env.scopes.get s).frozen = true ∨
        env.Has (.scope s) ∧ s ∈ env.scopes.subtree f) :=
  get_freeze_any env.scopes f s

theorem freezeScope_field {α : Type} (field : Scope → α)
    (hfield : ∀ scope frozen, field { scope with frozen } = field scope) (env : Environment)
    (f s : ScopeId) : field ((env.freezeScope f).scopes.get s) = field (env.scopes.get s) := by
  obtain ⟨_, heq, -⟩ := get_freezeScope env f s
  rw [heq, hfield]

theorem has_freezeScope {x : Entity} : (env.freezeScope f).Has x ↔ env.Has x := by
  cases x with
  | scope s => simp [Has, freezeScope]
  | _ => rfl

theorem extends_freezeScope (env : Environment) (f : ScopeId) :
    env.Extends (env.freezeScope f) where
  has _ := has_freezeScope.2
  parent s _ := freezeScope_field Scope.parent (fun _ _ => rfl) env f s
  kind s _ := freezeScope_field Scope.kind (fun _ _ => rfl) env f s
  decl _ _ := rfl
  members _ _ := rfl
  elements _ _ := rfl
  names _ _ _ := List.prefix_refl _
  imports s _ := by
    rewrite [freezeScope_field Scope.imports (fun _ _ => rfl) env f s]
    exact List.prefix_refl _
  announced _ _ hf := hf

theorem unmoved_freezeScope (env : Environment) (f : ScopeId) :
    env.Unmoved (env.freezeScope f) where
  has _ := has_freezeScope
  parent := freezeScope_field Scope.parent (fun _ _ => rfl) env f
  kind := freezeScope_field Scope.kind (fun _ _ => rfl) env f
  decl _ := rfl
  members _ := rfl
  elements _ := rfl

theorem Coherent.freezeScope (h : env.Coherent) (f : ScopeId) : (env.freezeScope f).Coherent := by
  refine h.shrink (unmoved_freezeScope env f) (fun x y hr => ?_) fun s hs => hs
  have same : env.SameAt (env.freezeScope f) x := by
    cases x with
    | scope s =>
      obtain ⟨_, heq, -⟩ := get_freezeScope env f s
      simp only [SameAt, heq, true_and]
      rfl
    | decl d => rfl
    | struct id => exact ⟨rfl, rfl⟩
    | enum id => exact ⟨rfl, rfl⟩
  exact same.references hr

theorem WellFormed.freezeScope (h : env.WellFormed) (f : ScopeId) :
    (env.freezeScope f).WellFormed := by
  have parent := freezeScope_field Scope.parent (fun _ _ => rfl) env f
  have kind := freezeScope_field Scope.kind (fun _ _ => rfl) env f
  have children := freezeScope_field Scope.children (fun _ _ => rfl) env f
  refine ⟨⟨h.registered, ?_, ?_, ?_, ?_, ?_, ?_⟩, h.coherent.freezeScope f⟩
  · exact fun id hid => (kind _).trans (h.memberScope id hid)
  · intro id hid hf
    obtain ⟨p, hp, hk⟩ := h.announced id hid hf
    exact ⟨p, (parent _).trans hp, fun heq => hk ((kind p).symm.trans heq)⟩
  · intro s c hc
    obtain ⟨hcin, hcp⟩ := h.child s c (children s ▸ hc)
    exact ⟨has_freezeScope.2 hcin, (parent c).trans hcp⟩
  · intro c p hp hk
    rw [parent] at hp
    rw [kind] at hk
    rw [children]
    exact h.linked c p hp hk
  · intro c p hp hk hfrozen
    rw [parent] at hp
    rw [kind] at hk
    obtain ⟨outer, hget, houter⟩ := get_freezeScope env f p
    obtain ⟨inner, hget', hinner⟩ := get_freezeScope env f c
    rw [hget] at hfrozen
    rw [hget']
    obtain hp' | ⟨-, hp'⟩ := houter.1 hfrozen
    · exact hinner.2 (.inl (h.frozen c p hp hk hp'))
    · exact hinner.2 (.inr ⟨has_of_parent hp, h.mem_subtree_of_child hp' (h.linked c p hp hk)⟩)
  · exact fun s hs hnone => h.rooted s (has_freezeScope.1 hs) ((parent s).symm.trans hnone)

/-- Freezing a scope reaches everything nested in it. -/
theorem WellFormed.frozen_freezeScope (h : env.WellFormed) (hf : env.Has (.scope f)) {s : ScopeId}
    (hs : s ∈ (env.freezeScope f).scopes.subtree f) :
    env.Has (.scope s) ∧ ((env.freezeScope f).scopes.get s).frozen := by
  have nested : env.Has (.scope s) ∧ s ∈ env.scopes.subtree f := by
    have way := (h.freezeScope f).ascending.mem_subtree.1 hs
    clear hs
    induction way with
    | refl => exact ⟨hf, mem_subtree_self⟩
    | tail _ hc ih =>
      rw [ScopeTree.Holds, freezeScope_field Scope.children fun _ _ => rfl] at hc
      exact ⟨(h.child _ _ hc).1, h.mem_subtree_of_child ih.2 hc⟩
  obtain ⟨_, hget, hfrozen⟩ := get_freezeScope env f s
  rw [hget]
  exact ⟨nested.1, hfrozen.2 (.inr nested)⟩

theorem WellFormed.get_discardScope (h : env.WellFormed) (f s : ScopeId) :
    (env.discardScope f).scopes.get s =
      { env.scopes.get s with
        children := if (env.scopes.get f).parent = some s
          then (env.scopes.get s).children.filter (· ≠ f) else (env.scopes.get s).children
        imports := (env.scopes.get s).imports.filter (· ≠ f) } :=
  get_detach f fun _ hp => h.coherent.exist _ _ (has_of_parent hp) (.parent hp)

theorem has_discardScope {x : Entity} : (env.discardScope f).Has x ↔ env.Has x := by
  cases x with
  | scope s => simp [Has, Environment.discardScope]
  | decl d => simp [Has, Environment.discardScope, SymbolTable.size]
  | struct id => rfl
  | enum id => rfl

theorem declaration_discardScope (env : Environment) (f : ScopeId) (d : DeclId) :
    (env.discardScope f).declaration d = env.declaration d := by
  simp [declaration, discardScope, SymbolTable.get]

theorem WellFormed.unmoved_discardScope (h : env.WellFormed) (f : ScopeId) :
    env.Unmoved (env.discardScope f) where
  has _ := has_discardScope
  parent s := by rw [h.get_discardScope]
  kind s := by rw [h.get_discardScope]
  decl := declaration_discardScope env f
  members _ := rfl
  elements _ := rfl

theorem findFolded_discardScope (env : Environment) (f s : ScopeId) (n : FoldedName) :
    (env.discardScope f).symbols.findFolded s n =
      if s ∈ env.scopes.subtree f then [] else env.symbols.findFolded s n :=
  SymbolTable.findFolded_unregisterAll _ n

theorem mem_findFolded_of_discardScope {s : ScopeId} {n : FoldedName} {d : DeclId}
    (h : d ∈ (env.discardScope f).symbols.findFolded s n) : d ∈ env.symbols.findFolded s n := by
  rw [findFolded_discardScope] at h
  split_ifs at h
  · simp at h
  · exact h

theorem WellFormed.coherent_discardScope (h : env.WellFormed) (f : ScopeId) :
    (env.discardScope f).Coherent := by
  refine h.coherent.shrink (h.unmoved_discardScope f) (fun x y hr => ?_) fun s hs => ?_
  · cases hr with
    | parent hp => exact .parent (by rwa [h.get_discardScope] at hp)
    | used hu =>
      rw [h.get_discardScope] at hu
      exact .used (List.mem_filter.1 hu).1
    | declaring hd => exact .declaring (by rwa [h.get_discardScope] at hd)
    | helper hm => exact .helper (by rwa [h.get_discardScope] at hm)
    | listed hd =>
      simp only [Environment.discardScope, SymbolTable.declarationsIn_unregisterAll] at hd
      split_ifs at hd
      · simp at hd
      · exact .listed hd
    | named hd => exact .named (mem_findFolded_of_discardScope hd)
    | mentioned hy => exact .mentioned (by rwa [declaration_discardScope] at hy)
    | members => exact .members
    | heritage hty hy => exact .heritage hty hy
    | elements => exact .elements
    | base hb hy => exact .base hb hy
  · simp only [Environment.discardScope, SymbolTable.namesOf_unregisterAll, hs, ite_self]

/-- A scope that is new is nowhere around those there were. -/
theorem WellFormed.not_mem_subtree (h : env.WellFormed) {base : Environment}
    (hf : ¬base.Has (.scope f)) {s : ScopeId} (hs : base.Has (.scope s)) :
    s ∉ env.scopes.subtree f :=
  fun hin => hf (Nat.lt_of_le_of_lt (h.le_of_mem_subtree hin) hs)

/-- Discarding what is new leaves everything there was in its place. -/
theorem Extends.discardScope {base : Environment} (he : base.Extends env) (wfb : base.WellFormed)
    (wf : env.WellFormed) (hf : ¬base.Has (.scope f)) : base.Extends (env.discardScope f) where
  has x hx := has_discardScope.2 (he.has x hx)
  parent s hs := by
    rw [wf.get_discardScope]
    exact he.parent s hs
  kind s hs := by
    rw [wf.get_discardScope]
    exact he.kind s hs
  decl d hd := (declaration_discardScope env f d).trans (he.decl d hd)
  members := he.members
  elements := he.elements
  names s n hs := by
    rw [findFolded_discardScope, if_neg (wf.not_mem_subtree hf hs)]
    exact he.names s n hs
  imports s hs := by
    have old : (base.scopes.get s).imports.filter (· ≠ f) = (base.scopes.get s).imports := by
      refine List.filter_eq_self.2 fun u hu => decide_eq_true ?_
      rintro rfl
      exact hf (wfb.coherent.exist _ _ hs (.used hu))
    rw [wf.get_discardScope, ← old]
    exact (he.imports s hs).filter _
  announced := he.announced

/-- After a unit is discarded, everything else stays in its place. -/
theorem WellFormed.discardScope (h : env.WellFormed) (hf : (env.scopes.get f).kind = .file) :
    (env.discardScope f).WellFormed := by
  refine ⟨⟨?_, ?_, ?_, ?_, ?_, ?_, ?_⟩, h.coherent_discardScope f⟩
  · intro s n d hd
    rw [declaration_discardScope]
    obtain ⟨hin, hscope⟩ := h.registered s n d (mem_findFolded_of_discardScope hd)
    exact ⟨has_discardScope.2 hin, hscope⟩
  · intro id hid
    rw [h.get_discardScope]
    exact h.memberScope id hid
  · intro id hid hfwd
    obtain ⟨p, hp, hk⟩ := h.announced id hid hfwd
    refine ⟨p, ?_, ?_⟩
    · rw [h.get_discardScope]
      exact hp
    · rwa [h.get_discardScope]
  · intro s c hc
    have hc : c ∈ (env.scopes.get s).children := by
      rw [h.get_discardScope] at hc
      simp only at hc
      split_ifs at hc
      · exact (List.mem_filter.1 hc).1
      · exact hc
    rw [h.get_discardScope, has_discardScope]
    exact h.child s c hc
  · intro c p hp hk
    rw [h.get_discardScope] at hp hk ⊢
    have hc := h.linked c p hp hk
    have hne : c ≠ f := by
      rintro rfl
      exact hk hf
    simp only
    split_ifs
    · exact List.mem_filter.2 ⟨hc, by simpa using hne⟩
    · exact hc
  · intro c p hp hk hfrozen
    rw [h.get_discardScope] at hp hk hfrozen ⊢
    exact h.frozen c p hp hk hfrozen
  · intro s hs hnone
    rw [h.get_discardScope] at hnone
    exact h.rooted s (has_discardScope.1 hs) hnone

end Closing

end Pascal.Environment
