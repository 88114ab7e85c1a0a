import Pascal.Proofs.Collection.Trace

/-!
# How the scope tree grows

While a unit is collected the scope tree only grows: the scopes there were keep their place, the new
ones are no file scopes, and the units that come to be used are known. So the file scopes below a
scope stay the same.
-/

namespace Pascal

namespace ScopeTree

/-- The file scopes among the children of a scope. -/
def filesBelow (tree : ScopeTree) (s : ScopeId) : List ScopeId :=
  (tree.get s).children.filter fun c => (tree.get c).kind = .file

variable {base mid tree : ScopeTree} {known : ScopeId → Prop} {s : ScopeId}

/-! ## New scopes -/

theorem get_push (scope : Scope) :
    ({ scopes := tree.scopes.push scope } : ScopeTree).get s =
      if s = ⟨tree.size⟩ then scope else tree.get s := by
  rcases Nat.lt_trichotomy s.index tree.size with hlt | heq | hgt
  · have hne : s ≠ ⟨tree.size⟩ := by rintro rfl; exact Nat.lt_irrefl _ hlt
    rw [get_push_of_lt scope hlt, if_neg hne]
  · obtain rfl : s = ⟨tree.size⟩ := ScopeId.index_inj.1 heq
    rw [get_push_new, if_pos rfl]
  · have hne : s ≠ ⟨tree.size⟩ := by rintro rfl; exact Nat.lt_irrefl _ hgt
    have hout : ({ scopes := tree.scopes.push scope } : ScopeTree).size ≤ s.index := by
      simp only [size, Array.size_push] at hgt ⊢
      omega
    rw [get_eq_default hout, if_neg hne, get_eq_default (Nat.le_of_lt hgt)]

/-- Apart from children, the scopes after one was created are those there were and the new one. -/
theorem get_create_field {α : Type} (field : Scope → α)
    (h : ∀ scope children, field { scope with children } = field scope) (kind : ScopeKind)
    (parent : Option ScopeId) (name : String) :
    field ((tree.create kind parent name).2.get s) =
      field (if s = ⟨tree.size⟩ then { kind, name, parent, frozen := tree.startsFrozen parent }
        else tree.get s) := by
  cases parent with
  | none => simp only [create, get_push]
  | some p => simp only [create, get_modify_field field _ fun _ => h _ _, get_push]

/-- A tree with more scopes, none of which is a file scope. The scopes there were keep their place
and their children, and the units used besides are known. -/
structure Grown (known : ScopeId → Prop) (base tree : ScopeTree) : Prop where
  size : base.size ≤ tree.size
  kind : ∀ s, s.index < base.size → (tree.get s).kind = (base.get s).kind
  parent : ∀ s, s.index < base.size → (tree.get s).parent = (base.get s).parent
  name : ∀ s, s.index < base.size → (tree.get s).name = (base.get s).name
  fresh : ∀ s, base.size ≤ s.index → (tree.get s).kind ≠ .file
  children : ∀ s, s.index < base.size → ∃ new,
    (tree.get s).children = (base.get s).children ++ new ∧ ∀ c ∈ new, base.size ≤ c.index
  imports : ∀ s, ∀ used ∈ (tree.get s).imports, used ∈ (base.get s).imports ∨ known used

theorem kind_ne_file_of_le (h : tree.size ≤ s.index) : (tree.get s).kind ≠ .file := by
  rw [get_eq_default h]
  decide

theorem Grown.refl (known : ScopeId → Prop) (tree : ScopeTree) : Grown known tree tree where
  size := Nat.le_refl _
  kind _ _ := rfl
  parent _ _ := rfl
  name _ _ := rfl
  fresh _ := kind_ne_file_of_le
  children s _ := ⟨[], by simp, by simp⟩
  imports _ _ hused := .inl hused

theorem Grown.trans (h : Grown known base mid) (g : Grown known mid tree) :
    Grown known base tree := by
  have later : ∀ {s : ScopeId}, s.index < base.size → s.index < mid.size :=
    fun hs => Nat.lt_of_lt_of_le hs h.size
  refine ⟨Nat.le_trans h.size g.size, ?_, ?_, ?_, ?_, ?_, ?_⟩
  · exact fun s hs => (g.kind s (later hs)).trans (h.kind s hs)
  · exact fun s hs => (g.parent s (later hs)).trans (h.parent s hs)
  · exact fun s hs => (g.name s (later hs)).trans (h.name s hs)
  · intro s hs
    by_cases hmid : s.index < mid.size
    · rw [g.kind s hmid]
      exact h.fresh s hs
    · exact g.fresh s (Nat.le_of_not_lt hmid)
  · intro s hs
    obtain ⟨first, hfirst, newFirst⟩ := h.children s hs
    obtain ⟨second, hsecond, newSecond⟩ := g.children s (later hs)
    refine ⟨first ++ second, by rw [hsecond, hfirst, List.append_assoc], ?_⟩
    intro c hc
    obtain hc | hc := List.mem_append.1 hc
    · exact newFirst c hc
    · exact Nat.le_trans h.size (newSecond c hc)
  · intro s used hused
    obtain hused | hknown := g.imports s used hused
    · exact h.imports s used hused
    · exact .inr hknown

theorem grown_create {kind : ScopeKind} (hk : kind ≠ .file) (parent : Option ScopeId)
    (name : String) : Grown known tree (tree.create kind parent name).2 := by
  have old : ∀ {s : ScopeId}, s.index < tree.size → s ≠ ⟨tree.size⟩ := by
    rintro _ hs rfl
    exact Nat.lt_irrefl _ hs
  refine ⟨by rw [size_create]; omega, ?_, ?_, ?_, ?_, ?_, ?_⟩
  · intro s hs
    rw [get_create_field Scope.kind fun _ _ => rfl, if_neg (old hs)]
  · intro s hs
    rw [get_create_field Scope.parent fun _ _ => rfl, if_neg (old hs)]
  · intro s hs
    rw [get_create_field Scope.name fun _ _ => rfl, if_neg (old hs)]
  · intro s hs
    rw [get_create_field Scope.kind fun _ _ => rfl]
    split_ifs
    · exact hk
    · exact kind_ne_file_of_le hs
  · intro s hs
    rw [get_create kind parent name hs]
    refine ⟨_, rfl, ?_⟩
    split_ifs <;> simp
  · intro s used hused
    rw [get_create_field Scope.imports fun _ _ => rfl] at hused
    split_ifs at hused
    · cases hused
    · exact .inl hused

/-- A change of one scope that keeps its place in the tree. -/
theorem grown_modify (id : ScopeId) {change : Scope → Scope}
    (kind : ∀ scope, (change scope).kind = scope.kind)
    (parent : ∀ scope, (change scope).parent = scope.parent)
    (name : ∀ scope, (change scope).name = scope.name)
    (children : ∀ scope, (change scope).children = scope.children)
    (imports : ∀ scope, ∀ used ∈ (change scope).imports, used ∈ scope.imports ∨ known used) :
    Grown known tree (tree.modify id change) := by
  refine ⟨by rw [size_modify], ?_, ?_, ?_, ?_, ?_, ?_⟩
  · exact fun s _ => get_modify_field Scope.kind change kind
  · exact fun s _ => get_modify_field Scope.parent change parent
  · exact fun s _ => get_modify_field Scope.name change name
  · intro s hs
    rw [get_modify_field Scope.kind change kind]
    exact kind_ne_file_of_le hs
  · intro s _
    exact ⟨[], by rw [get_modify_field Scope.children change children, List.append_nil], by simp⟩
  · intro s used hused
    rcases @get_modify_eq_or tree id s change with heq | ⟨rfl, -, heq⟩
    · exact .inl (heq ▸ hused)
    · exact imports _ used (heq ▸ hused)

/-! ## File scopes below a scope -/

theorem filesBelow_congr (children : (tree.get s).children = (base.get s).children)
    (kind : ∀ c, (tree.get c).kind = (base.get c).kind) :
    tree.filesBelow s = base.filesBelow s := by
  simp only [filesBelow, children, kind]

theorem Grown.filesBelow (h : Grown known base tree) (hs : s.index < base.size)
    (hc : ∀ c ∈ (base.get s).children, c.index < base.size) :
    tree.filesBelow s = base.filesBelow s := by
  obtain ⟨new, heq, hnew⟩ := h.children s hs
  have none : new.filter (fun c => (tree.get c).kind = .file) = [] := by
    rw [List.filter_eq_nil_iff]
    exact fun c hc => by simpa using h.fresh c (hnew c hc)
  rw [ScopeTree.filesBelow, heq, List.filter_append, none, List.append_nil]
  exact List.filter_congr fun c hmem => by rw [h.kind c (hc c hmem)]

theorem filesBelow_create (hs : s.index < tree.size)
    (hc : ∀ c ∈ (tree.get s).children, c.index < tree.size) (name : String) :
    (tree.create .file (some s) name).2.filesBelow s = tree.filesBelow s ++ [⟨tree.size⟩] := by
  have kind : ∀ c, ((tree.create .file (some s) name).2.get c).kind =
      if c = ⟨tree.size⟩ then .file else (tree.get c).kind := by
    intro c
    rw [get_create_field Scope.kind fun _ _ => rfl]
    split_ifs <;> rfl
  have old : ∀ c ∈ (tree.get s).children, c ≠ ⟨tree.size⟩ := by
    rintro _ hmem rfl
    exact Nat.lt_irrefl _ (hc _ hmem)
  rw [filesBelow, get_create .file (some s) name hs, if_pos rfl, List.filter_append]
  congr 1
  · exact List.filter_congr fun c hmem => by rw [kind, if_neg (old c hmem)]
  · simp [kind]

theorem filesBelow_detach {f : ScopeId} (hp : (tree.get f).parent = some s)
    (hs : s.index < tree.size) :
    (tree.detach f).filesBelow s = (tree.filesBelow s).filter (· ≠ f) := by
  have got := fun c => @get_detach tree c f fun p h => by rw [hp] at h; cases h; exact hs
  simp only [filesBelow, got, if_pos hp, List.filter_filter, Bool.and_comm]

end ScopeTree

namespace Environment

variable {env env' : Environment} {file : ScopeId} {known : ScopeId → Prop}

theorem Step.grown (step : env.Step file known env') :
    ScopeTree.Grown known env.scopes env'.scopes := by
  cases step with
  | declare | types => exact .refl known env.scopes
  | create kind parent name hk => exact ScopeTree.grown_create hk (some parent) name
  | adapt s =>
    refine ScopeTree.grown_modify s ?_ ?_ ?_ ?_ ?_
    case refine_5 => exact fun _ _ hused => .inl hused
    all_goals exact fun _ => rfl
  | use used hknown =>
    refine ScopeTree.grown_modify file ?_ ?_ ?_ ?_ ?_
    case refine_5 =>
      intro scope u hu
      obtain hu | hu := List.mem_append.1 hu
      · exact .inl hu
      · exact .inr (List.mem_singleton.1 hu ▸ hknown)
    all_goals exact fun _ => rfl

/-- A collection creates no file scopes and uses only units that are known. -/
theorem Steps.grown (steps : env.Steps file known env') :
    ScopeTree.Grown known env.scopes env'.scopes := by
  induction steps with
  | refl => exact .refl known env.scopes
  | tail _ step ih => exact ih.trans step.grown

end Environment

end Pascal
