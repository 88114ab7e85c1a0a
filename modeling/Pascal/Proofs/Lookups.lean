import Pascal.Lookup.Names
import Pascal.Proofs.Subtyping

/-!
# Where look-ups find declarations

A look-up searches several places one after the other and stops at the first that has the name. What
it finds is entered under the name in one of these places: an enclosing scope, the members of a
structured type that an enclosing scope belongs to or of one that it is derived from, or the
interface of a used unit.
-/

namespace Pascal.Environment

variable {env : Environment} {name : FoldedName} {d : DeclId}

theorem exists_of_mem_inheritedFrom {matched : Option Nat} {ancestors : List (StructId × Nat)}
    (h : d ∈ env.inheritedFrom name matched ancestors) :
    ∃ entry ∈ ancestors, d ∈ env.symbols.findFolded (env.membersOf entry.1) name := by
  fun_induction inheritedFrom env name matched ancestors with
  | case1 => simp at h
  | case2 => simp at h
  | case3 matched ancestor depth rest _ _ ih =>
    obtain ⟨entry, hentry, hd⟩ := ih h
    exact ⟨entry, List.mem_cons_of_mem _ hentry, hd⟩
  | case4 matched ancestor depth rest _ _ ih =>
    obtain h | h := List.mem_append.1 h
    · exact ⟨(ancestor, depth), List.mem_cons_self, h⟩
    · obtain ⟨entry, hentry, hd⟩ := ih h
      exact ⟨entry, List.mem_cons_of_mem _ hentry, hd⟩

/-- The members of a structured type are its own or those of a type that it is derived from. -/
theorem exists_of_mem_findMembers {id : StructId} (h : d ∈ env.findMembers id name) :
    ∃ ancestor, env.types.Inherits id ancestor ∧
      d ∈ env.symbols.findFolded (env.membersOf ancestor) name := by
  unfold findMembers at h
  split at h
  · obtain ⟨entry, hentry, hd⟩ := exists_of_mem_inheritedFrom h
    exact ⟨entry.1, TypeTable.inherits_of_mem_ancestors hentry, hd⟩
  · exact ⟨id, .refl, h⟩

theorem exists_of_mem_imported {units : List ScopeId} (h : d ∈ env.imported name units) :
    ∃ unit ∈ units, d ∈ env.exported unit name := by
  fun_induction imported env name units with
  | case1 => simp at h
  | case2 unit rest _ ih =>
    obtain ⟨other, hother, hd⟩ := ih h
    exact ⟨other, List.mem_cons_of_mem _ hother, hd⟩
  | case3 unit rest => exact ⟨unit, List.mem_cons_self, h⟩

/-- A scope contributes a declaration under a name. -/
inductive FoundAt (env : Environment) (level : ScopeId) (name : FoldedName) (d : DeclId) : Prop
  | own (h : d ∈ env.symbols.findFolded level name)
  | member {id ancestor : StructId} (declaring : (env.scopes.get level).declaring = some id)
      (inherits : env.types.Inherits id ancestor)
      (h : d ∈ env.symbols.findFolded (env.membersOf ancestor) name)
  | used {unit : ScopeId} (file : (env.scopes.get level).kind = .file)
      (imports : unit ∈ (env.scopes.get level).imports) (h : d ∈ env.exported unit name)

theorem FoundAt.of_mem {level : ScopeId} (h : d ∈ env.findAtLevel level name) :
    env.FoundAt level name d := by
  simp only [findAtLevel] at h
  split at h
  · split at h
    · split_ifs at h with file
      · obtain ⟨unit, imports, hd⟩ := exists_of_mem_imported h
        exact .used file imports hd
      · simp at h
    · cases declaring : (env.scopes.get level).declaring with
      | none => simp [declaring] at h
      | some id =>
        rw [declaring] at h
        obtain ⟨ancestor, inherits, hd⟩ := exists_of_mem_findMembers h
        exact .member declaring inherits hd
  · exact .own h

theorem exists_of_mem_findAlong {levels : List ScopeId} (h : d ∈ env.findAlong name levels) :
    ∃ level ∈ levels, env.FoundAt level name d := by
  fun_induction findAlong env name levels with
  | case1 => simp at h
  | case2 level outer _ ih =>
    obtain ⟨other, hother, hd⟩ := ih h
    exact ⟨other, List.mem_cons_of_mem _ hother, hd⟩
  | case3 level outer => exact ⟨level, List.mem_cons_self, .of_mem h⟩

section Levels

variable {level : ScopeId} {outer : List ScopeId}

theorem findAtLevel_of_own (h : env.symbols.findFolded level name ≠ []) :
    env.findAtLevel level name = env.symbols.findFolded level name := by
  unfold findAtLevel
  split
  next hnone => exact absurd hnone h
  next => rfl

theorem findAlong_cons_of_eq_nil (h : env.findAtLevel level name = []) :
    env.findAlong name (level :: outer) = env.findAlong name outer := by
  rw [findAlong, h]

theorem findAlong_cons_of_ne_nil (h : env.findAtLevel level name ≠ []) :
    env.findAlong name (level :: outer) = env.findAtLevel level name := by
  rw [findAlong]
  split
  next hnone => exact absurd hnone h
  next => rfl

/-- A name that a scope has of its own is found there. -/
theorem find_of_own {name : String} (h : env.symbols.findFolded level (Name.fold name) ≠ []) :
    env.find level name = env.symbols.findFolded level (Name.fold name) := by
  obtain ⟨outer, hchain⟩ := env.scopes.exists_chain_eq_cons level
  have own := findAtLevel_of_own h
  rw [find, hchain, findAlong_cons_of_ne_nil (own ▸ h), own]

end Levels

end Pascal.Environment
