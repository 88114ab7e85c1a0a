import Pascal.Lookup.Members
import Pascal.Proofs.Heritage
import Pascal.Proofs.References

/-!
# Look-ups within a world

A world is a family of scopes, declarations and types that references do not leave. Two
environments that agree on a world answer every look-up that starts inside it alike, and the answer
lies inside it again; what else the environments hold does not matter.
-/

namespace Pascal

/-- A type made of structured types and enumerations of a world. -/
def Ty.Within (W : Set Entity) (ty : Ty) : Prop := ∀ x ∈ ty.refs, x ∈ W

namespace Ty.Within

variable {W : Set Entity} {ty : Ty}

theorem unaliased (h : ty.Within W) : ty.unaliased.Within W := by
  simpa only [Ty.Within, Ty.refs_unaliased] using h

theorem callResult (h : ty.Within W) : (ty.callResult?.getD .unknown).Within W := by
  have hu := h.unaliased
  simp only [Ty.callResult?, Ty.procedural?]
  generalize ty.unaliased = bare at hu
  cases bare with
  | procedural kind params result => exact fun x hx => hu x (List.mem_append_right _ hx)
  | _ => simp [Ty.Within, Ty.refs]

theorem struct? (h : ty.Within W) {id : StructId} (hs : ty.struct? = some id) : .struct id ∈ W :=
  h _ (Ty.struct_mem_refs hs)

end Ty.Within

/-- Declarations of a world. -/
def DeclsWithin (W : Set Entity) (ids : List DeclId) : Prop := ∀ d ∈ ids, .decl d ∈ W

theorem DeclsWithin.nil (W : Set Entity) : DeclsWithin W [] := by simp [DeclsWithin]

theorem findSome?_congr {α β : Type} {f g : α → Option β} {l : List α}
    (h : ∀ x ∈ l, f x = g x) : l.findSome? f = l.findSome? g := by
  induction l with
  | nil => rfl
  | cons x rest ih =>
    simp only [List.forall_mem_cons] at h
    simp only [List.findSome?_cons, h.1, ih h.2]

namespace Environment

/-- References from a world stay inside it, and two environments hold the same of it. -/
structure Agree (W : Set Entity) (env env' : Environment) : Prop where
  closed : ∀ x ∈ W, ∀ y, env.References x y → y ∈ W
  has : ∀ x ∈ W, env.Has x
  structs : env.types.structs.size ≤ env'.types.structs.size
  target : env'.types.target = env.types.target
  parent : ∀ s, .scope s ∈ W → (env'.scopes.get s).parent = (env.scopes.get s).parent
  kind : ∀ s, .scope s ∈ W → (env'.scopes.get s).kind = (env.scopes.get s).kind
  imports : ∀ s, .scope s ∈ W → (env'.scopes.get s).imports = (env.scopes.get s).imports
  declaring : ∀ s, .scope s ∈ W → (env'.scopes.get s).declaring = (env.scopes.get s).declaring
  helper : ∀ s, .scope s ∈ W → ∀ ty,
    env'.scopes.shallowHelper? s ty = env.scopes.shallowHelper? s ty
  listed : ∀ s, .scope s ∈ W → env'.symbols.declarationsIn s = env.symbols.declarationsIn s
  named : ∀ s, .scope s ∈ W → ∀ n, env'.symbols.findFolded s n = env.symbols.findFolded s n
  decl : ∀ d, .decl d ∈ W → env'.declaration d = env.declaration d
  struct : ∀ id, .struct id ∈ W → env'.types.structInfo id = env.types.structInfo id
  enum : ∀ id, .enum id ∈ W → env'.types.enumInfo id = env.types.enumInfo id

/-- An environment agrees with itself on everything that a unit depends on. -/
theorem Coherent.agree_seen {env : Environment} (h : env.Coherent) (unit : Option ScopeId) :
    Agree (env.seen unit) env env := by
  constructor
  case closed => exact fun x hx y hr => h.closed_seen hx hr
  case has => exact fun x hx => hx.1
  all_goals intros
  all_goals rfl

section LookUps

variable {W : Set Entity} {env env' : Environment} (h : Agree W env env')

include h

/-! ## Scopes -/

theorem Agree.chain {s : ScopeId} (hs : .scope s ∈ W) :
    env'.scopes.chain s = env.scopes.chain s ∧ ∀ t ∈ env.scopes.chain s, .scope t ∈ W := by
  have closed : ∀ s p, .scope s ∈ W → (env.scopes.get s).parent = some p → .scope p ∈ W :=
    fun _ _ hs hp => h.closed _ hs _ (.parent hp)
  exact ⟨ScopeTree.chain_congr closed h.parent hs, ScopeTree.forall_mem_chain closed hs⟩

theorem Agree.fileScopeOf? {s : ScopeId} (hs : .scope s ∈ W) :
    env'.scopes.fileScopeOf? s = env.scopes.fileScopeOf? s :=
  ScopeTree.fileScopeOf?_congr (fun _ _ hs hp => h.closed _ hs _ (.parent hp)) h.parent h.kind hs

theorem Agree.membersOf {id : StructId} (hi : .struct id ∈ W) :
    env'.membersOf id = env.membersOf id ∧ .scope (env.membersOf id) ∈ W := by
  refine ⟨?_, h.closed _ hi _ .members⟩
  simp only [Environment.membersOf, h.struct id hi]

theorem Agree.findFolded {s : ScopeId} (hs : .scope s ∈ W) (n : FoldedName) :
    env'.symbols.findFolded s n = env.symbols.findFolded s n ∧
      DeclsWithin W (env.symbols.findFolded s n) :=
  ⟨h.named s hs n, fun _ hd => h.closed _ hs _ (.named hd)⟩

theorem Agree.declared {d : DeclId} (hd : .decl d ∈ W) :
    (env.declaration d).ty.Within W :=
  fun _ hx => h.closed _ hd _
    (.mentioned (List.mem_append_left _ (List.mem_append_left _ hx)))

/-! ## Heritage -/

theorem Agree.parentStructs {id : StructId} (hi : .struct id ∈ W) :
    env'.types.parentStructs id = env.types.parentStructs id ∧
      ∀ p ∈ env.types.parentStructs id, .struct p ∈ W := by
  constructor
  · simp only [TypeTable.parentStructs, h.struct id hi]
  · intro p hp
    obtain ⟨ty, hty, hp⟩ := List.mem_filterMap.1 hp
    exact h.closed _ hi _ (.heritage hty (Ty.struct_mem_refs hp))

theorem Agree.ancestors {id : StructId} (hi : .struct id ∈ W) :
    env'.types.ancestors id = env.types.ancestors id ∧
      ∀ entry ∈ env.types.ancestors id, .struct entry.1 ∈ W := by
  have closed : ∀ s, .struct s ∈ W → ∀ p ∈ env.types.parentStructs s, .struct p ∈ W :=
    fun s hs => (h.parentStructs hs).2
  exact ⟨TypeTable.ancestors_congr closed (fun s hs => (h.parentStructs hs).1) h.structs hi,
    TypeTable.forall_mem_ancestors closed hi⟩

theorem Agree.inheritedFrom (n : FoldedName) (matched : Option Nat)
    {entries : List (StructId × Nat)} (he : ∀ entry ∈ entries, .struct entry.1 ∈ W) :
    env'.inheritedFrom n matched entries = env.inheritedFrom n matched entries ∧
      DeclsWithin W (env.inheritedFrom n matched entries) := by
  induction entries generalizing matched with
  | nil => exact ⟨rfl, DeclsWithin.nil W⟩
  | cons entry rest ih =>
    obtain ⟨ancestor, depth⟩ := entry
    simp only [List.forall_mem_cons] at he
    obtain ⟨hm, hmem⟩ := h.membersOf he.1
    obtain ⟨hf, hfound⟩ := h.findFolded hmem n
    simp only [Environment.inheritedFrom, hm, hf]
    split_ifs
    · exact ⟨rfl, DeclsWithin.nil W⟩
    · generalize env.symbols.findFolded (env.membersOf ancestor) n = found at hfound
      cases found with
      | nil => exact ih matched he.2
      | cons first others =>
        obtain ⟨heq, hin⟩ := ih (some depth) he.2
        exact ⟨congrArg (_ ++ ·) heq, List.forall_mem_append.2 ⟨hfound, hin⟩⟩

/-- Members are looked up alike. -/
theorem Agree.findMembers {id : StructId} (hi : .struct id ∈ W)
    (n : FoldedName) : env'.findMembers id n = env.findMembers id n ∧
      DeclsWithin W (env.findMembers id n) := by
  obtain ⟨hm, hmem⟩ := h.membersOf hi
  obtain ⟨hf, hfound⟩ := h.findFolded hmem n
  obtain ⟨ha, hanc⟩ := h.ancestors hi
  simp only [Environment.findMembers, hm, hf, ha]
  generalize env.symbols.findFolded (env.membersOf id) n = found at hfound
  cases found with
  | nil => exact h.inheritedFrom n none hanc
  | cons first others => exact ⟨rfl, hfound⟩

/-! ## Names -/

theorem Agree.exported {unit : ScopeId} (hu : .scope unit ∈ W)
    (n : FoldedName) : env'.exported unit n = env.exported unit n ∧
      DeclsWithin W (env.exported unit n) := by
  obtain ⟨hf, hfound⟩ := h.findFolded hu n
  constructor
  · simp only [Environment.exported, hf]
    exact List.filter_congr fun d hd => by rw [h.decl d (hfound d hd)]
  · exact fun d hd => hfound d (List.mem_filter.1 hd).1

theorem Agree.imported (n : FoldedName) {units : List ScopeId}
    (hu : ∀ u ∈ units, .scope u ∈ W) : env'.imported n units = env.imported n units ∧
      DeclsWithin W (env.imported n units) := by
  induction units with
  | nil => exact ⟨rfl, DeclsWithin.nil W⟩
  | cons unit rest ih =>
    simp only [List.forall_mem_cons] at hu
    obtain ⟨he, hexp⟩ := h.exported hu.1 n
    simp only [Environment.imported, he]
    generalize env.exported unit n = found at hexp
    cases found with
    | nil => exact ih hu.2
    | cons first others => exact ⟨rfl, hexp⟩

theorem Agree.findAtLevel {level : ScopeId} (hl : .scope level ∈ W)
    (n : FoldedName) : env'.findAtLevel level n = env.findAtLevel level n ∧
      DeclsWithin W (env.findAtLevel level n) := by
  obtain ⟨hf, hfound⟩ := h.findFolded hl n
  have hmembers : (env'.scopes.get level).declaring.elim [] (env'.findMembers · n) =
        (env.scopes.get level).declaring.elim [] (env.findMembers · n) ∧
      DeclsWithin W ((env.scopes.get level).declaring.elim [] (env.findMembers · n)) := by
    rw [h.declaring level hl]
    cases hd : (env.scopes.get level).declaring with
    | none => exact ⟨rfl, DeclsWithin.nil W⟩
    | some id => exact h.findMembers (h.closed _ hl _ (.declaring hd)) n
  obtain ⟨hm, hmem⟩ := hmembers
  have used : ∀ u ∈ (env.scopes.get level).imports, .scope u ∈ W :=
    fun u hu => h.closed _ hl _ (.used hu)
  obtain ⟨hi, himp⟩ := h.imported n used
  constructor
  · simp only [Environment.findAtLevel, hf, hm, h.kind level hl, h.imports level hl, hi]
  simp only [Environment.findAtLevel]
  generalize env.symbols.findFolded level n = found at hfound
  cases found with
  | cons first others => exact hfound
  | nil =>
    generalize (env.scopes.get level).declaring.elim [] (env.findMembers · n) = members at hmem
    cases members with
    | cons first others => exact hmem
    | nil =>
      split_ifs
      · exact himp
      · exact DeclsWithin.nil W

theorem Agree.findAlong (n : FoldedName) {levels : List ScopeId}
    (hl : ∀ level ∈ levels, .scope level ∈ W) :
    env'.findAlong n levels = env.findAlong n levels ∧ DeclsWithin W (env.findAlong n levels) := by
  induction levels with
  | nil => exact ⟨rfl, DeclsWithin.nil W⟩
  | cons level outer ih =>
    simp only [List.forall_mem_cons] at hl
    obtain ⟨hf, hfound⟩ := h.findAtLevel hl.1 n
    simp only [Environment.findAlong, hf]
    generalize env.findAtLevel level n = found at hfound
    cases found with
    | nil => exact ih hl.2
    | cons first others => exact ⟨rfl, hfound⟩

/-- Names are looked up alike. -/
theorem Agree.find {s : ScopeId} (hs : .scope s ∈ W) (name : String) :
    env'.find s name = env.find s name ∧ DeclsWithin W (env.find s name) := by
  obtain ⟨hc, hchain⟩ := h.chain hs
  simp only [Environment.find, hc]
  exact h.findAlong _ hchain

/-- Names qualified by a unit are looked up alike. -/
theorem Agree.findInUnit {context unit : ScopeId} (hc : .scope context ∈ W)
    (hu : .scope unit ∈ W) (name : String) :
    env'.findInUnit context unit name = env.findInUnit context unit name ∧
      DeclsWithin W (env.findInUnit context unit name) := by
  simp only [Environment.findInUnit, h.fileScopeOf? hc, SymbolTable.shallowFind]
  split_ifs
  · exact h.findFolded hu _
  · exact h.exported hu _

/-! ## Members -/

theorem Agree.helperAtLevel? (target : Ty) {level : ScopeId}
    (hl : .scope level ∈ W) : env'.helperAtLevel? target level = env.helperAtLevel? target level ∧
      ∀ id, env.helperAtLevel? target level = some id → .struct id ∈ W := by
  have own : ∀ s, .scope s ∈ W → ∀ id, env.scopes.shallowHelper? s target = some id →
      .struct id ∈ W := fun s hs id hid => by
    obtain ⟨entry, hmem⟩ := List.lookup_eq_some_iff.1 hid
    obtain ⟨rest, hsplit, -⟩ := hmem
    exact h.closed _ hs _ (.helper (hsplit ▸ List.mem_append_right _ (List.mem_cons_self ..)))
  have used : ∀ u ∈ (env.scopes.get level).imports.reverse, .scope u ∈ W := fun u hu =>
    h.closed _ hl _ (.used (List.mem_reverse.1 hu))
  have himports : (env.scopes.get level).imports.reverse.findSome?
        (fun unit => env'.scopes.shallowHelper? unit target) =
      (env.scopes.get level).imports.reverse.findSome?
        fun unit => env.scopes.shallowHelper? unit target :=
    findSome?_congr fun u hu => h.helper u (used u hu) target
  simp only [Environment.helperAtLevel?, h.helper level hl, h.kind level hl, h.imports level hl,
    himports, true_and]
  intro id hid
  split at hid
  · rename_i found hfound
    exact own level hl id (hfound.trans hid)
  · split_ifs at hid
    obtain ⟨u, hu, hid⟩ := List.exists_of_findSome?_eq_some hid
    exact own u (used u hu) id hid

theorem Agree.activeHelper? {context : ScopeId} (hc : .scope context ∈ W)
    (target : Ty) : env'.activeHelper? context target = env.activeHelper? context target ∧
      ∀ id, env.activeHelper? context target = some id → .struct id ∈ W := by
  obtain ⟨hch, hchain⟩ := h.chain hc
  simp only [Environment.activeHelper?, hch]
  refine ⟨findSome?_congr fun s hs => (h.helperAtLevel? target (hchain s hs)).1, ?_⟩
  intro id hid
  obtain ⟨s, hs, hid⟩ := List.exists_of_findSome?_eq_some hid
  exact (h.helperAtLevel? target (hchain s hs)).2 id hid

theorem Agree.helperTargets {ty : Ty} (ht : ty.Within W) :
    env'.helperTargets ty = env.helperTargets ty := by
  have hw := ht.unaliased
  simp only [Environment.helperTargets]
  generalize ty.unaliased = bare at hw
  cases bare with
  | classRef target =>
    cases hs : target.struct? with
    | none => rfl
    | some id => simp only [(h.ancestors (@Ty.Within.struct? W target hw id hs)).1]
  | _ =>
    cases hs : ty.struct? with
    | none => rfl
    | some id => simp only [(h.ancestors (ht.struct? hs)).1]

theorem Agree.helperFor? {context : ScopeId} (hc : .scope context ∈ W)
    {ty : Ty} (ht : ty.Within W) : env'.helperFor? context ty = env.helperFor? context ty ∧
      ∀ id, env.helperFor? context ty = some id → .struct id ∈ W := by
  simp only [Environment.helperFor?, h.helperTargets ht]
  refine ⟨findSome?_congr fun target _ => (h.activeHelper? hc target).1, ?_⟩
  intro id hid
  obtain ⟨target, -, hid⟩ := List.exists_of_findSome?_eq_some hid
  exact (h.activeHelper? hc target).2 id hid

/-- Members of what may be no structured type. -/
theorem Agree.findMembers_elim {struct : Option StructId}
    (hs : ∀ id, struct = some id → .struct id ∈ W) (n : FoldedName) :
    struct.elim [] (env'.findMembers · n) = struct.elim [] (env.findMembers · n) ∧
      DeclsWithin W (struct.elim [] (env.findMembers · n)) := by
  cases struct with
  | none => exact ⟨rfl, DeclsWithin.nil W⟩
  | some id => exact h.findMembers (hs id rfl) n

theorem Agree.findDirectMember {receiver : Ty} (hr : receiver.Within W)
    (n : FoldedName) : env'.findDirectMember receiver n = env.findDirectMember receiver n ∧
      DeclsWithin W (env.findDirectMember receiver n) := by
  have hw := hr.unaliased
  unfold Environment.findDirectMember
  generalize receiver.unaliased = bare at hw
  cases bare with
  | struct id => exact h.findMembers (hw _ (List.mem_singleton_self _)) n
  | enum id =>
    have hid : .enum id ∈ W := hw _ (List.mem_singleton_self _)
    simp only [h.enum id hid]
    exact h.findFolded (h.closed _ hid _ .elements) n
  | classRef target => exact h.findMembers_elim (fun id => @Ty.Within.struct? W target hw id) n
  | pointer target isNil math =>
    exact h.findMembers_elim (fun id => @Ty.Within.struct? W target hw id) n
  | _ => exact ⟨rfl, DeclsWithin.nil W⟩

/-- Members of a receiver are looked up alike. -/
theorem Agree.findMember {context : ScopeId} (hc : .scope context ∈ W)
    {receiver : Ty} (hr : receiver.Within W) (name : String) :
    env'.findMember context receiver name = env.findMember context receiver name ∧
      DeclsWithin W (env.findMember context receiver name) := by
  obtain ⟨hd, hdirect⟩ := h.findDirectMember hr (Name.fold name)
  obtain ⟨hh, hhelper⟩ := h.helperFor? hc hr
  obtain ⟨hm, hmembers⟩ := h.findMembers_elim hhelper (Name.fold name)
  simp only [Environment.findMember, hd, hh]
  generalize env.findDirectMember receiver (Name.fold name) = found at hdirect
  cases found with
  | nil => exact ⟨hm, hmembers⟩
  | cons first others => exact ⟨rfl, hdirect⟩

end LookUps

end Environment

end Pascal
