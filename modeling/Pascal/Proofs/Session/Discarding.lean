import Mathlib
import Pascal.Proofs.Lookups
import Pascal.Proofs.Session.Isolation
import Pascal.Proofs.Session.Registry

/-!
# Discarding a unit

References to a discarded unit stay behind in other units: structured types derived from its
classes, aliases of its types, helpers, and declarations that import it. No lookup reaches a
declaration of the unit through them, because each of its routes ends at the names of some scope,
and the scopes of the unit have no names left.

## Main statements

- `Environment.WellFormed.forgets`: lookups find nothing that is made in scopes without names.
- `Session.discard_removes_exactly`: discarding takes one unit away and nothing else.
-/

namespace Pascal

namespace Environment

/-- A declaration is entered in some scope under some name. -/
def Entered (env : Environment) (d : DeclId) : Prop :=
  ∃ s n, d ∈ env.symbols.findFolded s n

/-- No lookup finds a declaration that is made in one of the scopes. -/
structure Forgets (env : Environment) (gone : List ScopeId) : Prop where
  find : ∀ scope name, ∀ d ∈ env.find scope name, (env.declaration d).scope ∉ gone
  findInUnit : ∀ context unit name, ∀ d ∈ env.findInUnit context unit name,
    (env.declaration d).scope ∉ gone
  findInStruct : ∀ struct name, ∀ d ∈ env.findInStruct struct name, (env.declaration d).scope ∉ gone
  findMember : ∀ context receiver name, ∀ d ∈ env.findMember context receiver name,
    (env.declaration d).scope ∉ gone

section Lookups

variable {env : Environment} {d : DeclId} {name : FoldedName}

theorem entered_of_findMembers {struct : StructId} (h : d ∈ env.findMembers struct name) :
    env.Entered d := by
  obtain ⟨ancestor, -, hd⟩ := exists_of_mem_findMembers h
  exact ⟨_, _, hd⟩

theorem entered_of_elim {struct : Option StructId}
    (h : d ∈ struct.elim [] (env.findMembers · name)) : env.Entered d := by
  cases struct with
  | none => simp at h
  | some struct => exact entered_of_findMembers h

theorem entered_of_exported {unit : ScopeId} (h : d ∈ env.exported unit name) : env.Entered d :=
  ⟨unit, name, List.mem_of_mem_filter h⟩

theorem entered_of_findAlong {levels : List ScopeId} (h : d ∈ env.findAlong name levels) :
    env.Entered d := by
  obtain ⟨level, -, found⟩ := exists_of_mem_findAlong h
  cases found with
  | own hd | member _ _ hd => exact ⟨_, _, hd⟩
  | used _ _ hd => exact entered_of_exported hd

theorem entered_of_findInUnit {context unit : ScopeId} {name : String}
    (h : d ∈ env.findInUnit context unit name) : env.Entered d := by
  unfold findInUnit at h
  split_ifs at h
  · exact ⟨_, _, h⟩
  · exact entered_of_exported h

theorem entered_of_findDirectMember {receiver : Ty} (h : d ∈ env.findDirectMember receiver name) :
    env.Entered d := by
  unfold findDirectMember at h
  split at h
  · exact entered_of_findMembers h
  · exact entered_of_elim h
  · exact entered_of_elim h
  · exact ⟨_, _, h⟩
  · simp at h

theorem entered_of_findMember {context : ScopeId} {receiver : Ty} {name : String}
    (h : d ∈ env.findMember context receiver name) : env.Entered d := by
  simp only [findMember] at h
  split at h
  · exact entered_of_elim h
  · exact entered_of_findDirectMember h

/-- Lookups find nothing that is made in scopes without names. -/
theorem WellFormed.forgets (wf : env.WellFormed) {gone : List ScopeId}
    (empty : ∀ s ∈ gone, ∀ n, env.symbols.findFolded s n = []) : env.Forgets gone := by
  have unmade : ∀ d, env.Entered d → (env.declaration d).scope ∉ gone := by
    rintro d ⟨s, n, hd⟩ hgone
    rw [(wf.registered s n d hd).2] at hgone
    rw [empty s hgone n] at hd
    simp at hd
  exact ⟨fun _ _ d hd => unmade d (entered_of_findAlong hd),
    fun _ _ _ d hd => unmade d (entered_of_findInUnit hd),
    fun _ _ d hd => unmade d (entered_of_findMembers hd),
    fun _ _ _ d hd => unmade d (entered_of_findMember hd)⟩

end Lookups

end Environment

namespace Session

section Discarding

variable {session : Session} {name : String} {entry : UnitEntry}

theorem discard_of_entry (hentry : session.units[Name.fold name]? = some entry) :
    session.discard name = (true, { session with
      env := session.env.discardScope entry.scope
      units := session.units.erase (Name.fold name) }) := by
  simp only [discard, hentry]
  rfl

/-- The scope of a unit is known under the name of the unit only. -/
theorem Valid.unitScope_erase_ne (h : session.Valid)
    (hentry : session.units[Name.fold name]? = some entry) (env : Environment) (other : String) :
    { session with env, units := session.units.erase (Name.fold name) }.unitScope? other ≠
      some entry.scope := by
  intro hu
  unfold unitScope? at hu
  split_ifs at hu
  · have hkind := (h.units _ entry hentry).2
    rw [← Option.some.inj hu, h.founded.scope, h.founded.kind] at hkind
    cases hkind
  · obtain ⟨entry', hentry', hscope⟩ := Option.map_eq_some_iff.1 hu
    obtain ⟨spelling, -, hentry'⟩ := List.exists_of_findSome?_eq_some hentry'
    rw [Std.HashMap.getElem?_erase] at hentry'
    split_ifs at hentry' with hne
    exact hne (beq_iff_eq.2 (h.distinct _ _ entry entry' hentry hentry' hscope.symm))

end Discarding

/-- Discarding takes one unit away and nothing else. No lookup, whatever it starts from, finds what
was declared in the unit, no unit uses it any more, no name refers to it; the other units stay
registered, and every other scope keeps its names and its helpers. -/
theorem discard_removes_exactly (settings : Settings) (operations : List Operation) (name : String)
    (entry : UnitEntry)
    (hentry : ((start settings).run operations).units[Name.fold name]? = some entry) :
    let session := (start settings).run operations
    let after := (session.discard name).2
    let gone := session.env.scopes.subtree entry.scope
    (session.discard name).1 = true ∧ after.env.Forgets gone ∧
      (∀ s, entry.scope ∉ (after.env.scopes.get s).imports) ∧
      (∀ other, after.unitScope? other ≠ some entry.scope) ∧
      (∀ key, key ≠ Name.fold name → after.units[key]? = session.units[key]?) ∧
      (∀ s n, after.env.symbols.shallowFind s n =
        if s ∈ gone then [] else session.env.symbols.shallowFind s n) ∧
      ∀ s ty, after.env.scopes.shallowHelper? s ty = session.env.scopes.shallowHelper? s ty := by
  intro session after gone
  have valid : session.Valid := valid_run settings operations
  have wf := valid.founded.wellFormed
  have hdiscard := discard_of_entry hentry
  have hafter : after = { session with
      env := session.env.discardScope entry.scope
      units := session.units.erase (Name.fold name) } := congrArg Prod.snd hdiscard
  have names : ∀ s n, after.env.symbols.findFolded s n =
      if s ∈ gone then [] else session.env.symbols.findFolded s n := by
    intro s n
    rw [hafter]
    exact Environment.findFolded_discardScope ..
  have scopes : ∀ s, after.env.scopes.get s =
      (session.env.discardScope entry.scope).scopes.get s := by
    intro s
    rw [hafter]
  refine ⟨congrArg Prod.fst hdiscard, ?_, ?_, ?_, ?_, fun s n => names s (Name.fold n), ?_⟩
  · refine (valid.discard name).founded.wellFormed.forgets fun s hs n => ?_
    exact (names s n).trans (if_pos hs)
  · intro s
    rw [scopes, wf.get_discardScope]
    simp
  · intro other
    rw [hafter]
    exact valid.unitScope_erase_ne hentry _ other
  · intro key hkey
    rw [hafter, Std.HashMap.getElem?_erase, if_neg]
    simpa using hkey.symm
  · intro s ty
    simp only [ScopeTree.shallowHelper?, scopes, wf.get_discardScope]

/-- A unit with a class that derives from the class of the other unit, and with a statement that
names the latter. -/
def derivingUnit : SyntaxTree where
  nodes := #[{ kind := .unitReference "Base" },
    { kind := .usesClause, children := [⟨0⟩] },
    { kind := .typeReference "TBase" },
    { kind := .ancestorList, children := [⟨2⟩] },
    { kind := .structType .classType, children := [⟨3⟩] },
    { kind := .typeDeclaration "TDerived", children := [⟨4⟩] },
    { kind := .typeSection, children := [⟨5⟩] },
    { kind := .nameReference "TBase" },
    { kind := .expressionStatement, children := [⟨7⟩] },
    { kind := .unit "Derived", children := [⟨1⟩, ⟨6⟩, ⟨8⟩] }]
  root := ⟨9⟩
  ordered := by decide

attribute [local irreducible] Text.lowercase in
/-- The derived class is the fourth structured type, and has the field of the other one until that
is discarded. -/
theorem collect_derivingUnit : ∃ base mid, (start {}).collect baseUnit = (.ok base, mid) ∧
    ∃ model after, mid.collect derivingUnit = (.ok model, after) ∧
      (after.units[Name.fold "Base"]?.map (·.scope) = some ⟨3⟩ ∧
        after.env.findInStruct ⟨3⟩ "Count" = [⟨62⟩] ∧
        (after.discard "Base").2.env.findInStruct ⟨3⟩ "Count" = []) :=
  exists_collected (by cbv)

/-- A unit is discarded while a class of another one derives from a class of it. -/
theorem usedUnit_discarded :
    let session := (start {}).run [.collect baseUnit, .collect derivingUnit]
    let after := (session.discard "Base").2
    ∃ f, session.unitScope? "Base" = some f ∧
      session.env.findInStruct ⟨3⟩ "Count" = [⟨62⟩] ∧ (session.discard "Base").1 = true ∧
      after.env.Forgets (session.env.scopes.subtree f) ∧
      after.env.findInStruct ⟨3⟩ "Count" = [] ∧
      (∀ s, f ∉ (after.env.scopes.get s).imports) ∧ (∀ name, after.unitScope? name ≠ some f) ∧
      ∀ s ∉ session.env.scopes.subtree f, ∀ n,
        after.env.symbols.shallowFind s n = session.env.symbols.shallowFind s n := by
  intro session after
  obtain ⟨base, mid, first, model, last, second, hunit, inherited, lost⟩ := collect_derivingUnit
  obtain rfl : session = last := run_collect_collect first second
  obtain ⟨entry, hentry, -⟩ := Option.map_eq_some_iff.1 hunit
  obtain ⟨done, forgets, imports, names, -, found, -⟩ := discard_removes_exactly {}
    [.collect baseUnit, .collect derivingUnit] "Base" entry hentry
  refine ⟨entry.scope, ?_, inherited, done, forgets, lost, imports, names, ?_⟩
  · have other : Name.same "Base" systemName = false := by decide
    simp [unitScope?, registered?, other, hentry]
  · exact fun s hs n => (found s n).trans (if_neg hs)

end Session

end Pascal
