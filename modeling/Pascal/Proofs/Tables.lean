import Mathlib.Data.Set.Basic
import Mathlib.Logic.Relation
import Mathlib.Tactic.Common
import Pascal.Environment

/-!
# The tables after a change

What the scope tree, the symbol table and the type table give for every identity once one of them
has been changed.
-/

namespace Pascal

@[simp] theorem ScopeId.index_inj {a b : ScopeId} : a.index = b.index ↔ a = b := by
  cases a
  cases b
  simp

@[simp] theorem DeclId.index_inj {a b : DeclId} : a.index = b.index ↔ a = b := by
  cases a
  cases b
  simp

@[simp] theorem StructId.index_inj {a b : StructId} : a.index = b.index ↔ a = b := by
  cases a
  cases b
  simp

@[simp] theorem EnumId.index_inj {a b : EnumId} : a.index = b.index ↔ a = b := by
  cases a
  cases b
  simp

namespace ScopeTree

variable {tree : ScopeTree} {id s : ScopeId}

/-! ## One scope changed -/

theorem get_eq_default (h : tree.size ≤ s.index) : tree.get s = default := by
  simp [get, Array.getElem?_eq_none h]

@[simp] theorem size_modify (change : Scope → Scope) :
    (tree.modify id change).size = tree.size := by
  simp [size, modify]

theorem get_modify (change : Scope → Scope) (h : id.index < tree.size) :
    (tree.modify id change).get s = if s = id then change (tree.get id) else tree.get s := by
  rcases eq_or_ne s id with rfl | hne
  · simp [get, modify, Array.getElem?_modify, Array.getElem?_eq_getElem h]
  · simp [get, modify, Array.getElem?_modify, hne, hne.symm]

/-- A change that leaves out-of-range scopes alone can be read off at every scope. -/
theorem get_modify_eq_or (change : Scope → Scope) :
    (tree.modify id change).get s = tree.get s ∨
      s = id ∧ id.index < tree.size ∧ (tree.modify id change).get s = change (tree.get id) := by
  by_cases h : id.index < tree.size
  · rw [get_modify change h]
    split_ifs <;> grind
  · refine .inl ?_
    by_cases hs : s = id
    · subst hs
      rw [get_eq_default (Nat.le_of_not_lt h), get_eq_default (by simpa using Nat.le_of_not_lt h)]
    · simp [get, modify, Array.getElem?_modify, Ne.symm hs]

theorem get_modify_of_ne (change : Scope → Scope) (h : s ≠ id) :
    (tree.modify id change).get s = tree.get s := by
  rcases @get_modify_eq_or tree id s change with heq | ⟨hs, -⟩
  · exact heq
  · exact absurd hs h

/-- A field that the change keeps is the same at every scope. -/
theorem get_modify_field {α : Type} (field : Scope → α) (change : Scope → Scope)
    (h : ∀ scope, field (change scope) = field scope) :
    field ((tree.modify id change).get s) = field (tree.get s) := by
  rcases @get_modify_eq_or tree id s change with heq | ⟨rfl, -, heq⟩
  · rw [heq]
  · rw [heq, h]

/-! ## A scope created -/

@[simp] theorem size_create (kind : ScopeKind) (parent : Option ScopeId) (name : String) :
    (tree.create kind parent name).2.size = tree.size + 1 := by
  cases parent <;> simp [create, size, modify]

theorem get_push_of_lt (scope : Scope) (h : s.index < tree.size) :
    ({ scopes := tree.scopes.push scope } : ScopeTree).get s = tree.get s := by
  simp only [get, Array.getD_eq_getD_getElem?]
  rw [Array.getElem?_push_lt h]
  simp [Array.getElem?_eq_getElem h]

theorem get_push_new (scope : Scope) :
    ({ scopes := tree.scopes.push scope } : ScopeTree).get ⟨tree.size⟩ = scope := by
  simp [get, size]

/-- The scopes there were keep everything; the parent gets one more child. -/
theorem get_create (kind : ScopeKind) (parent : Option ScopeId) (name : String)
    (h : s.index < tree.size) :
    (tree.create kind parent name).2.get s =
      { tree.get s with
        children := (tree.get s).children ++ if parent = some s then [⟨tree.size⟩] else [] } := by
  cases parent with
  | none => simp [create, get_push_of_lt _ h]
  | some p =>
    rcases eq_or_ne s p with rfl | hne
    · have hlt (scope : Scope) :
          s.index < ({ scopes := tree.scopes.push scope } : ScopeTree).size := by
        simp only [size, Array.size_push] at h ⊢
        omega
      simp [create, get_modify _ (hlt _), get_push_of_lt _ h]
    · simp [create, get_modify_of_ne _ hne, get_push_of_lt _ h, Ne.symm hne]

theorem get_create_new (kind : ScopeKind) (parent : Option ScopeId) (name : String)
    (h : ∀ p, parent = some p → p.index < tree.size) :
    (tree.create kind parent name).2.get ⟨tree.size⟩ =
      { kind, name, parent, frozen := tree.startsFrozen parent } := by
  cases parent with
  | none => simp [create, get_push_new]
  | some p =>
    have hne : (⟨tree.size⟩ : ScopeId) ≠ p := by
      rintro rfl
      exact absurd (h _ rfl) (Nat.lt_irrefl _)
    simp [create, get_modify_of_ne _ hne, get_push_new]

/-- The scopes of a tree after one was created: those there were, and the new one. -/
theorem lt_size_create (kind : ScopeKind) (parent : Option ScopeId) (name : String) :
    s.index < (tree.create kind parent name).2.size ↔ s.index < tree.size ∨ s = ⟨tree.size⟩ := by
  rw [size_create, ← ScopeId.index_inj]
  exact Nat.lt_succ_iff_lt_or_eq

/-! ## Enclosing scopes -/

section Enclosing

variable {tree' : ScopeTree} {P : ScopeId → Prop}

/-- The way out begins at the scope itself. -/
theorem exists_chain_eq_cons (tree : ScopeTree) (s : ScopeId) :
    ∃ outer, tree.chain s = s :: outer := by
  fun_cases chain tree s <;> exact ⟨_, rfl⟩

/-- Scopes that form a family closed under parents stay inside it on the way out. -/
theorem forall_mem_chain (closed : ∀ s p, P s → (tree.get s).parent = some p → P p) (h : P s) :
    ∀ t ∈ tree.chain s, P t := by
  fun_induction chain tree s with
  | case1 s p hp _ ih =>
    simp only [List.forall_mem_cons]
    exact ⟨h, ih (closed s p h hp)⟩
  | case2 s p _ _ => simpa using h
  | case3 s _ => simpa using h

/-- The enclosing scopes depend on nothing but the parents of a family closed under them. -/
theorem chain_congr (closed : ∀ s p, P s → (tree.get s).parent = some p → P p)
    (same : ∀ s, P s → (tree'.get s).parent = (tree.get s).parent) (h : P s) :
    tree'.chain s = tree.chain s := by
  fun_induction chain tree s with
  | case1 s p hp hlt ih =>
    rw [chain, same s h, hp]
    simp only [hlt, ↓reduceIte, ih (closed s p h hp)]
  | case2 s p hp hlt =>
    rw [chain, same s h, hp]
    simp only [hlt, ↓reduceIte]
  | case3 s hp => rw [chain, same s h, hp]

theorem fileScopeOf?_congr (closed : ∀ s p, P s → (tree.get s).parent = some p → P p)
    (parent : ∀ s, P s → (tree'.get s).parent = (tree.get s).parent)
    (kind : ∀ s, P s → (tree'.get s).kind = (tree.get s).kind) (h : P s) :
    tree'.fileScopeOf? s = tree.fileScopeOf? s := by
  rw [fileScopeOf?, fileScopeOf?, chain_congr closed parent h]
  have hall := forall_mem_chain closed h
  generalize tree.chain s = levels at hall
  induction levels with
  | nil => rfl
  | cons level outer ih =>
    simp only [List.forall_mem_cons] at hall
    simp only [List.find?_cons, kind level hall.1, ih hall.2]

/-- A file scope is its own unit; any other scope belongs to the unit of its parent. -/
theorem fileScopeOf?_of_parent {p : ScopeId} (hp : (tree.get s).parent = some p)
    (hlt : p.index < s.index) (hk : (tree.get s).kind ≠ .file) :
    tree.fileScopeOf? s = tree.fileScopeOf? p := by
  rw [fileScopeOf?, chain, hp]
  simp [hlt, hk, fileScopeOf?]

theorem fileScopeOf?_of_file (hk : (tree.get s).kind = .file) : tree.fileScopeOf? s = some s := by
  rw [fileScopeOf?, chain]
  split <;> try split
  all_goals simp [hk]

theorem fileScopeOf?_of_root (hp : (tree.get s).parent = none) (hk : (tree.get s).kind ≠ .file) :
    tree.fileScopeOf? s = none := by
  rw [fileScopeOf?, chain, hp]
  simp [hk]

theorem kind_of_fileScopeOf? {file : ScopeId} (h : tree.fileScopeOf? s = some file) :
    (tree.get file).kind = .file := by
  simpa using List.find?_some h

end Enclosing

/-! ## Scopes frozen or taken out -/

theorem mem_subtree_self : s ∈ tree.subtree s := List.mem_cons_self

theorem size_freezeAll (ids : List ScopeId) :
    (ids.foldl (fun tree id => tree.modify id ({ · with frozen := true })) tree).size =
      tree.size := by
  induction ids generalizing tree with
  | nil => rfl
  | cons id rest ih => rw [List.foldl_cons, ih, size_modify]

@[simp] theorem size_freeze (file : ScopeId) : (tree.freeze file).size = tree.size :=
  size_freezeAll _

theorem get_freezeAll (ids : List ScopeId) (h : s.index < tree.size) :
    (ids.foldl (fun tree id => tree.modify id ({ · with frozen := true })) tree).get s =
      { tree.get s with frozen := (tree.get s).frozen || ids.contains s } := by
  induction ids generalizing tree with
  | nil => simp
  | cons id rest ih =>
    rw [List.foldl_cons, ih (by simpa using h)]
    rcases eq_or_ne s id with rfl | hne
    · simp [get_modify _ h]
    · simp [get_modify_of_ne _ hne, hne]

/-- Freezing marks the scopes of a subtree and changes nothing else. -/
theorem get_freeze (file : ScopeId) (h : s.index < tree.size) :
    (tree.freeze file).get s =
      { tree.get s with frozen := (tree.get s).frozen || (tree.subtree file).contains s } :=
  get_freezeAll _ h

@[simp] theorem size_detach (file : ScopeId) : (tree.detach file).size = tree.size := by
  simp only [detach, size, Array.size_map]
  split
  · exact size_modify _
  · rfl

theorem get_map (change : Scope → Scope) (hd : change default = default) :
    ({ tree with scopes := tree.scopes.map change } : ScopeTree).get s = change (tree.get s) := by
  simp only [get, Array.getD_eq_getD_getElem?, Array.getElem?_map]
  cases tree.scopes[s.index]? <;> simp [hd]

/-- A scope taken out is no child of its parent and no unit uses it; nothing else changes. -/
theorem get_detach (file : ScopeId)
    (hp : ∀ p, (tree.get file).parent = some p → p.index < tree.size) :
    (tree.detach file).get s =
      { tree.get s with
        children := if (tree.get file).parent = some s
          then (tree.get s).children.filter (· ≠ file) else (tree.get s).children
        imports := (tree.get s).imports.filter (· ≠ file) } := by
  unfold detach
  rw [get_map _ rfl]
  cases hpar : (tree.get file).parent with
  | none => simp
  | some p =>
    rcases eq_or_ne s p with rfl | hne
    · simp [get_modify _ (hp _ hpar)]
    · simp [get_modify_of_ne _ hne, Ne.symm hne]

end ScopeTree

namespace SymbolTable

variable {symbols : SymbolTable} {scopes : ScopeTree} {scope s : ScopeId} {spec : DeclarationSpec}
  {d : DeclId}

/-! ## Declarations made and forgotten -/

@[simp] theorem add_fst : (symbols.add scopes scope spec).1 = ⟨symbols.size⟩ := rfl

@[simp] theorem size_add : (symbols.add scopes scope spec).2.size = symbols.size + 1 := by
  simp [add, size]

theorem get_add_of_lt (h : d.index < symbols.size) :
    (symbols.add scopes scope spec).2.get d = symbols.get d := by
  simp only [add, get, Array.getD_eq_getD_getElem?]
  rw [Array.getElem?_push_lt h]
  simp [Array.getElem?_eq_getElem h]

theorem get_add_new : (symbols.add scopes scope spec).2.get ⟨symbols.size⟩ =
    { spec with scope, qualifiedName := scopes.qualify scope spec.name } := by
  simp [add, get, size]

theorem namesOf_add : (symbols.add scopes scope spec).2.namesOf s =
    if s = scope then (symbols.namesOf s).add (Name.fold spec.name) ⟨symbols.size⟩
    else symbols.namesOf s := by
  rcases eq_or_ne s scope with rfl | hne
  · simp [add, namesOf]
  · simp [add, namesOf, Std.HashMap.getD_insert, hne, hne.symm]

theorem findFolded_add (name : FoldedName) :
    (symbols.add scopes scope spec).2.findFolded s name = symbols.findFolded s name ++
      if s = scope ∧ name = Name.fold spec.name then [⟨symbols.size⟩] else [] := by
  rw [findFolded, namesOf_add]
  rcases eq_or_ne s scope with rfl | hne
  · rcases eq_or_ne name (Name.fold spec.name) with rfl | hn
    · simp [findFolded, ScopeNames.find, ScopeNames.add]
    · simp [findFolded, ScopeNames.find, ScopeNames.add, Std.HashMap.getD_insert, hn, hn.symm]
  · simp [hne, findFolded]

theorem declarationsIn_add : (symbols.add scopes scope spec).2.declarationsIn s =
    symbols.declarationsIn s ++ if s = scope then [⟨symbols.size⟩] else [] := by
  rw [declarationsIn, namesOf_add]
  split_ifs <;> simp [declarationsIn, ScopeNames.add]

theorem namesOf_unregister : (symbols.unregister scope).namesOf s =
    if s = scope then {} else symbols.namesOf s := by
  rcases eq_or_ne s scope with rfl | hne
  · simp [unregister, namesOf]
  · simp [unregister, namesOf, Std.HashMap.getD_erase, hne, hne.symm]

/-- Forgetting several scopes leaves the names of all others as they are. -/
theorem namesOf_unregisterAll (ids : List ScopeId) :
    (ids.foldl unregister symbols).namesOf s = if s ∈ ids then {} else symbols.namesOf s := by
  induction ids generalizing symbols with
  | nil => simp
  | cons id rest ih =>
    rw [List.foldl_cons, ih, namesOf_unregister]
    rcases eq_or_ne s id with rfl | hne
    · simp
    · simp [hne]

@[simp] theorem declarations_unregisterAll (ids : List ScopeId) :
    (ids.foldl unregister symbols).declarations = symbols.declarations := by
  induction ids generalizing symbols with
  | nil => rfl
  | cons id rest ih => rw [List.foldl_cons, ih]; rfl

@[simp] theorem find_empty (name : FoldedName) : ({} : ScopeNames).find name = [] := by
  simp [ScopeNames.find]

theorem findFolded_unregisterAll (ids : List ScopeId) (name : FoldedName) :
    (ids.foldl unregister symbols).findFolded s name =
      if s ∈ ids then [] else symbols.findFolded s name := by
  rw [findFolded, namesOf_unregisterAll]
  split_ifs <;> simp [findFolded]

theorem declarationsIn_unregisterAll (ids : List ScopeId) :
    (ids.foldl unregister symbols).declarationsIn s =
      if s ∈ ids then [] else symbols.declarationsIn s := by
  rw [declarationsIn, namesOf_unregisterAll]
  split_ifs <;> simp [declarationsIn]

end SymbolTable

namespace TypeTable

variable {types : TypeTable} {id : StructId} {e : EnumId}

/-! ## Types announced and described -/

theorem structInfo_declareStruct_of_lt (image : String) (kind : StructKind) (scope : ScopeId)
    (forward : Bool) (h : id.index < types.structs.size) :
    (types.declareStruct image kind scope forward).2.structInfo id = types.structInfo id := by
  simp only [declareStruct, structInfo, Array.getD_eq_getD_getElem?]
  rw [Array.getElem?_push_lt h]
  simp [Array.getElem?_eq_getElem h]

theorem structInfo_declareStruct_new (image : String) (kind : StructKind) (scope : ScopeId)
    (forward : Bool) :
    (types.declareStruct image kind scope forward).2.structInfo ⟨types.structs.size⟩ =
      { image, kind, scope, forward } := by
  simp [declareStruct, structInfo]

theorem structInfo_completeStruct (struct : StructId) (parents : List Ty) (helped : Option Ty)
    (h : struct.index < types.structs.size) :
    (types.completeStruct struct parents helped).structInfo id =
      if id = struct then
        { types.structInfo id with parents, helperFor := helped, forward := false }
      else types.structInfo id := by
  rcases eq_or_ne id struct with rfl | hne
  · simp [completeStruct, structInfo, Array.getElem?_modify, Array.getElem?_eq_getElem h]
  · simp [completeStruct, structInfo, Array.getElem?_modify, hne, hne.symm]

theorem enumInfo_declareEnum_of_lt (image : String) (scope : ScopeId) (base : Option Ty)
    (h : e.index < types.enums.size) :
    (types.declareEnum image scope base).2.enumInfo e = types.enumInfo e := by
  simp only [declareEnum, enumInfo, Array.getD_eq_getD_getElem?]
  rw [Array.getElem?_push_lt h]
  simp [Array.getElem?_eq_getElem h]

theorem enumInfo_declareEnum_new (image : String) (scope : ScopeId) (base : Option Ty) :
    (types.declareEnum image scope base).2.enumInfo ⟨types.enums.size⟩ =
      { image, scope, base } := by
  simp [declareEnum, enumInfo]

theorem enumInfo_addElement_of_ne {other : EnumId} (element : String) (h : e ≠ other) :
    (types.addElement other element).enumInfo e = types.enumInfo e := by
  simp [addElement, enumInfo, Array.getElem?_modify, h.symm]

/-- A field other than the elements is the same in every enumeration. -/
theorem enumInfo_addElement_field {α : Type} (field : EnumInfo → α) (other : EnumId)
    (element : String)
    (h : ∀ info, field { info with elements := info.elements ++ [element] } = field info) :
    field ((types.addElement other element).enumInfo e) = field (types.enumInfo e) := by
  simp only [addElement, enumInfo, Array.getD_eq_getD_getElem?, Array.getElem?_modify]
  split
  · cases types.enums[e.index]? with
    | none => rfl
    | some info => exact h info
  · rfl

end TypeTable

end Pascal
