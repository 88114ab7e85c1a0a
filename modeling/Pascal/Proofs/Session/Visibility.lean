import Pascal.Proofs.Session.Collected
import Pascal.Proofs.Session.Discarding
import Pascal.Proofs.Session.Units

/-!
# What names can stand for

In every session, a declaration is entered under its own name, and a name stands only for
declarations of the enclosing scopes, for members of the structured types that these belong to, and
for what the units used by the unit itself show in their interfaces. So private declarations are not
seen from outside, and to use a unit is not to use the units that it uses.

## Main results

- `Session.find_visible`: lookups find nothing else.
-/

namespace Pascal

namespace Environment

/-- Declarations are entered under their own names. -/
def Named (env : Environment) : Prop :=
  ∀ s n d, d ∈ env.symbols.findFolded s n →
    env.Has (.decl d) ∧ Name.fold (env.declaration d).name = n

end Environment

namespace Session

/-- Declarations are entered under their own names in every session. -/
theorem named_run (settings : Settings) (operations : List Operation) :
    ((start settings).run operations).env.Named := by
  intro s n d hd
  obtain ⟨has, -, name⟩ := filed_run settings operations s n d hd
  exact ⟨has, name⟩

end Session

/-! ## The unit around a scope -/

namespace ScopeTree

variable {tree : ScopeTree} {system s file : ScopeId}

/-- A scope stands in one file scope only, if file scopes stand in the outermost scope. -/
theorem fileScopeOf?_of_mem_chain
    (planted : ∀ f, (tree.get f).kind = .file → (tree.get f).parent = some system)
    (root : (tree.get system).parent = none) (hkind : (tree.get system).kind ≠ .file)
    (h : file ∈ tree.chain s) (hfile : (tree.get file).kind = .file) :
    tree.fileScopeOf? s = some file := by
  fun_induction chain tree s with
  | case1 s p hp hlt ih =>
    obtain rfl | h := List.mem_cons.1 h
    · exact fileScopeOf?_of_file hfile
    · by_cases hs : (tree.get s).kind = .file
      · -- Around a file scope there is nothing but the outermost scope.
        cases hp.symm.trans (planted s hs)
        rw [chain, root] at h
        cases List.mem_singleton.1 h
        exact absurd hfile hkind
      · rw [fileScopeOf?_of_parent hp hlt hs]
        exact ih h
  | case2 s p hp hlt =>
    cases List.mem_singleton.1 h
    exact fileScopeOf?_of_file hfile
  | case3 s hp =>
    cases List.mem_singleton.1 h
    exact fileScopeOf?_of_file hfile

end ScopeTree

namespace Environment

/-- A declaration is made in a place that a scope can see. -/
inductive Visible (env : Environment) (s : ScopeId) (declaration : Declaration) : Prop
  /-- It is made in an enclosing scope. -/
  | enclosing (h : declaration.scope ∈ env.scopes.chain s)
  /-- It is a member of the structured type that an enclosing scope belongs to, or of one that this
  type is derived from. -/
  | member {level : ScopeId} {id ancestor : StructId} (hlevel : level ∈ env.scopes.chain s)
      (declaring : (env.scopes.get level).declaring = some id)
      (inherits : env.types.Inherits id ancestor)
      (h : declaration.scope = env.membersOf ancestor)
  /-- It stands in the interface of a unit that is used by the unit around the scope. -/
  | used {file : ScopeId} (hfile : env.scopes.fileScopeOf? s = some file)
      (h : declaration.scope ∈ (env.scopes.get file).imports)
      (part : declaration.part = .interface)

variable {env env' : Environment} {name : FoldedName} {d : DeclId}

theorem mem_exported {unit : ScopeId} : d ∈ env.exported unit name ↔
    d ∈ env.symbols.findFolded unit name ∧ (env.declaration d).part = .interface := by
  simp [exported]

/-- What a look-up finds is entered under the name, in a place that can be seen. -/
theorem visible_of_mem_findAlong {s : ScopeId} (wf : env.WellFormed)
    (units : ∀ level ∈ env.scopes.chain s, (env.scopes.get level).kind = .file →
      env.scopes.fileScopeOf? s = some level)
    (h : d ∈ env.findAlong name (env.scopes.chain s)) :
    (∃ place, d ∈ env.symbols.findFolded place name) ∧ env.Visible s (env.declaration d) := by
  have placed : ∀ {place}, d ∈ env.symbols.findFolded place name →
      (env.declaration d).scope = place := fun hd => (wf.registered _ _ d hd).2
  obtain ⟨level, hlevel, found⟩ := exists_of_mem_findAlong h
  cases found with
  | own hd =>
    refine ⟨⟨_, hd⟩, .enclosing ?_⟩
    rw [placed hd]
    exact hlevel
  | member declaring inherits hd =>
    exact ⟨⟨_, hd⟩, .member hlevel declaring inherits (placed hd)⟩
  | used file imports hd =>
    obtain ⟨hd, part⟩ := mem_exported.1 hd
    refine ⟨⟨_, hd⟩, .used (units level hlevel file) ?_ part⟩
    rw [placed hd]
    exact imports

/-! ## The name of a new unit -/

theorem findFolded_openUnit (env : Environment) (system : ScopeId) (name : String) (s : ScopeId)
    (n : FoldedName) :
    (env.openUnit system name).symbols.findFolded s n = env.symbols.findFolded s n ++
      if s = ⟨env.scopes.size⟩ ∧ n = Name.fold name then [⟨env.symbols.size⟩] else [] :=
  SymbolTable.findFolded_add n

end Environment

namespace Session

/-! ## Every session -/

/-- In every session, a name stands only for declarations of that name, made in the enclosing
scopes, in the structured types that these belong to, or in the interfaces of units that the unit
itself uses; and a name qualified by a unit stands for a private declaration of it only within the
unit. -/
theorem find_visible (settings : Settings) (operations : List Operation) :
    let env := ((start settings).run operations).env
    (∀ s name, ∀ d ∈ env.find s name,
      Name.fold (env.declaration d).name = Name.fold name ∧ env.Visible s (env.declaration d)) ∧
      ∀ context unit name, ∀ d ∈ env.findInUnit context unit name,
        Name.fold (env.declaration d).name = Name.fold name ∧ (env.declaration d).scope = unit ∧
          ((env.declaration d).part = .implementation →
            env.scopes.fileScopeOf? context = some unit) := by
  intro env
  have named : env.Named := named_run settings operations
  have valid : ((start settings).run operations).Valid := valid_run settings operations
  have wf : env.WellFormed := valid.founded.wellFormed
  have units : ∀ s, ∀ level ∈ env.scopes.chain s, (env.scopes.get level).kind = .file →
      env.scopes.fileScopeOf? s = some level := by
    intro s level hlevel hfile
    have planted := (tallies_run settings operations).planted
    have root : (env.scopes.get ⟨0⟩).kind = .system := valid.founded.kind
    rw [valid.founded.scope] at planted
    exact ScopeTree.fileScopeOf?_of_mem_chain planted valid.founded.parent (by simp [root]) hlevel
      hfile
  constructor
  · intro s name d hd
    obtain ⟨⟨place, hplace⟩, visible⟩ :=
      Environment.visible_of_mem_findAlong wf (units s) hd
    exact ⟨(named place _ d hplace).2, visible⟩
  · intro context unit name d hd
    unfold Environment.findInUnit at hd
    split_ifs at hd with hown
    · exact ⟨(named unit _ d hd).2, (wf.registered unit _ d hd).2, fun _ => hown⟩
    · obtain ⟨hd, shown⟩ := Environment.mem_exported.1 hd
      refine ⟨(named unit _ d hd).2, (wf.registered unit _ d hd).2, fun hidden => ?_⟩
      cases shown.symm.trans hidden

/-- A unit shows itself to a unit that uses it in its implementation; that it is used there is seen
in the using unit only. -/
theorem vclBase_visible :
    let session := (start vcl).run
      [.collect (expressionUnit "Vcl.Base" .nilLiteral), .collect (importingUnit "User" "Base")]
    let env := session.env
    ∃ user, session.unitScope? "User" = some user ∧
      (∃ d ∈ env.find user "VCL.BASE", Name.fold (env.declaration d).name = Name.fold "vcl.base" ∧
        env.Visible user (env.declaration d)) ∧
      ∃ d ∈ env.findInUnit user user "Base", (env.declaration d).part = .implementation ∧
        env.scopes.fileScopeOf? user = some user := by
  intro session env
  obtain ⟨_, _, ranBase, user, after, ranUser, -, huser, -, hfind, inUnit, part⟩ := collect_vclUser
  obtain rfl : session = after := run_collect_collect ranBase ranUser
  have known : session.unitScope? "User" = some user.scope := by
    have other : Name.same "User" systemName = false := by decide
    obtain ⟨entry, hentry, hscope⟩ := Option.map_eq_some_iff.1 huser
    simp [unitScope?, other, registered?, hentry, hscope]
  have found : ⟨60⟩ ∈ env.find user.scope "VCL.BASE" := hfind ▸ List.mem_singleton_self _
  have own : ⟨62⟩ ∈ env.findInUnit user.scope user.scope "Base" := inUnit ▸ List.mem_singleton_self _
  obtain ⟨find, findInUnit⟩ := find_visible vcl
    [.collect (expressionUnit "Vcl.Base" .nilLiteral), .collect (importingUnit "User" "Base")]
  obtain ⟨named, visible⟩ := find _ _ _ found
  exact ⟨user.scope, known, ⟨_, found, named.trans (by decide), visible⟩, _, own, part,
    (findInUnit _ _ _ _ own).2.2 part⟩

end Session

end Pascal
