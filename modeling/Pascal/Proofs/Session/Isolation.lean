import Mathlib
import Pascal.Proofs.Session.Basic

/-!
# Isolation of units

The collection of a unit leaves the scopes of other units alone, whether it succeeds or fails,
unless it reaches them: by the signature of a method body that describes a type, when the qualifier
names a structured type of another unit, or by the description of a structured type that another unit
has announced. Even then names are only added, and to no scope that is frozen.

## Main results

- `Session.collect_changes_only_reached`: what a collection can change of the scopes there were.
-/

namespace Pascal

namespace Environment

/-- Where no structured type is announced, a tree whose signatures describe no types reaches no scope
but those it creates. -/
theorem Reaches.own_of {base env : Environment} {file s : ScopeId} {tree : SyntaxTree}
    (described : ∀ id, base.Has (.struct id) → (base.types.structInfo id).forward = false)
    (signatures : ∀ n name kind, tree.kind n = .routineImplementation name kind →
      tree.signatureDescribesType n = false)
    (h : Reaches base file tree env s) : file.index ≤ s.index := by
  cases h with
  | own hs => exact hs
  | owner _ _ hk _ hd _ => simp [signatures _ _ _ hk] at hd
  | members hc => simpa [hc.announced] using described _ hc.before
  | around hc _ => simpa [hc.announced] using described _ hc.before
  | heritage hm _ _ _ _ _ hn hb _ =>
    have announced := (placeholder_spec hn).2.2
    rw [hm.described _ hb (described _ hb), described _ hb] at announced
    cases announced

end Environment

namespace Session

/-- A collection changes no scope that it does not reach: its names, its helpers and its children
stay, but that the System scope gets the unit as a child if the collection succeeds. In scopes that
it does reach, names are added behind those there were, and in frozen ones none. -/
theorem collect_changes_only_reached (settings : Settings) (operations : List Operation)
    (tree : SyntaxTree) {s : ScopeId}
    (hs : s.index < ((start settings).run operations).env.scopes.size) :
    let session := (start settings).run operations
    let outcome := (session.collect tree).1
    let after := (session.collect tree).2
    (¬session.Reached tree s →
      (∀ name, after.env.symbols.shallowFind s name = session.env.symbols.shallowFind s name) ∧
      (∀ ty, after.env.scopes.shallowHelper? s ty = session.env.scopes.shallowHelper? s ty) ∧
      (after.env.scopes.get s).children =
        (session.env.scopes.get s).children ++ session.newChildren outcome s) ∧
    (∀ name, session.env.symbols.shallowFind s name <+: after.env.symbols.shallowFind s name) ∧
    ((session.env.scopes.get s).frozen → ∀ name,
      after.env.symbols.shallowFind s name = session.env.symbols.shallowFind s name) := by
  intro session outcome after
  have effect : session.Collects tree outcome after := (valid_run settings operations).collects tree
  have found : (session.env.scopes.get s).frozen ∨ ¬session.Reached tree s → ∀ name,
      after.env.symbols.shallowFind s name = session.env.symbols.shallowFind s name := by
    intro hkept name
    simp only [SymbolTable.shallowFind, SymbolTable.findFolded, effect.later.names s hs hkept]
  refine ⟨fun hr => ⟨found (.inr hr), fun ty => ?_, effect.children s hs hr⟩, fun name => ?_,
    fun hf => found (.inl hf)⟩
  · simp only [ScopeTree.shallowHelper?, effect.later.helpers s hs hr]
  · exact effect.grows.names s (Name.fold name) hs

/-- A unit with a variable of a record type of its own and a body for a method of the root class. -/
def sampleUnit : SyntaxTree where
  nodes := #[{ kind := .typeReference "Integer" },
    { kind := .fieldDeclaration ["Count"], children := [⟨0⟩] },
    { kind := .structType .record, children := [⟨1⟩] },
    { kind := .varDeclaration ["State"], children := [⟨2⟩] },
    { kind := .varSection, children := [⟨3⟩] },
    { kind := .routineImplementation "TObject.Free" .procedure },
    { kind := .implementationSection, children := [⟨4⟩, ⟨5⟩] },
    { kind := .unit "Sample", children := [⟨6⟩] }]
  root := ⟨7⟩
  ordered := by decide

theorem signatures_sampleUnit (n : NodeId) : sampleUnit.signatureDescribesType n = false := by
  obtain ⟨_ | _ | _ | _ | _ | _ | _ | _ | i⟩ := n
  all_goals rfl

/-- A unit with a class that has a field. -/
def baseUnit : SyntaxTree where
  nodes := #[{ kind := .typeReference "Integer" },
    { kind := .fieldDeclaration ["Count"], children := [⟨0⟩] },
    { kind := .structType .classType, children := [⟨1⟩] },
    { kind := .typeDeclaration "TBase", children := [⟨2⟩] },
    { kind := .typeSection, children := [⟨3⟩] },
    { kind := .unit "Base", children := [⟨4⟩] }]
  root := ⟨5⟩
  ordered := by decide

/-- The class is the third structured type, and its field stands in a scope of the unit. -/
theorem collect_baseUnit : ∃ model after, (start {}).collect baseUnit = (.ok model, after) ∧
    (model.scope = ⟨3⟩ ∧ after.env.scopes.fileScopeOf? ⟨4⟩ = some ⟨3⟩ ∧
      after.env.symbols.shallowFind ⟨4⟩ "Count" = [⟨62⟩] ∧ after.env.types.structs.size = 3 ∧
      ∀ i < 3, (after.env.types.structInfo ⟨i⟩).forward = false) :=
  exists_collected (by cbv)

/-- No scope of the session changes but the System scope, which gets the unit as a child; the scopes
of the unit that has been collected before stay as they are. -/
theorem sampleUnit_isolated :
    let session := (start {}).run [.collect baseUnit]
    let after := (session.collect sampleUnit).2
    session.env.scopes.fileScopeOf? ⟨4⟩ = some ⟨3⟩ ∧
      session.env.symbols.shallowFind ⟨4⟩ "Count" = [⟨62⟩] ∧
      ∀ s, s.index < session.env.scopes.size →
        (∀ name, after.env.symbols.shallowFind s name = session.env.symbols.shallowFind s name) ∧
        (∀ ty, after.env.scopes.shallowHelper? s ty = session.env.scopes.shallowHelper? s ty) ∧
        (after.env.scopes.get s).children = (session.env.scopes.get s).children ++
          session.newChildren (session.collect sampleUnit).1 s := by
  intro session after
  obtain ⟨model, known, hran, -, hfile, hfield, hsize, described⟩ := collect_baseUnit
  obtain rfl : session = known := congrArg Prod.snd hran
  refine ⟨hfile, hfield, fun s hs => ?_⟩
  obtain ⟨unreached, -⟩ := @collect_changes_only_reached {} [.collect baseUnit] sampleUnit s hs
  refine unreached fun hr => ?_
  have hle : session.env.scopes.size ≤ s.index :=
    hr.own_of (fun id hid => described id.index (hsize ▸ hid))
      fun n _ _ _ => signatures_sampleUnit n
  omega

end Session

end Pascal
