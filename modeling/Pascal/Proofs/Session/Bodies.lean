import Mathlib
import Pascal.Proofs.Collection.Bodies
import Pascal.Proofs.Session.Collected
import Pascal.Proofs.Session.Predefined

/-!
# The bodies of routines

In a unit that is collected, a routine gets at most one body, and a body goes to a routine that it
fits. The qualifier of a body decides where its routine is sought: among the members of the
structured type that it denotes, but around the body if it denotes none, as for a body without a
qualifier.

## Main results

- `Session.bodies_linked_once`: no two bodies go to one routine, and each fits its routine.
- `Session.qualified_body_attached`: where the routine of a body with a qualifier stands.
-/

namespace Pascal

open Environment

namespace Session

open Collecting

/-- The routines with a body that the collection of a unit comes to, in order. -/
def bodies (session : Session) (tree : SyntaxTree) : List BodyVisit :=
  match tree.kind tree.root with
  | .unit name =>
    unitBodies (session.collectionContext tree session.nextFile) tree.root
      { env := session.env.openUnit session.system.scope name }
  | _ => []

variable {session after : Session} {tree : SyntaxTree} {model : Model} {n : NodeId} {d : DeclId}

/-- A collection that succeeds does about bodies what its visits tell. -/
theorem account_collect (filed : session.env.Filed)
    (collected : session.collect tree = (.ok model, after)) :
    ∃ σ τ, Account (session.collectionContext tree session.nextFile) σ τ (session.bodies tree) ∧
      σ.implemented = [] ∧ after.env = τ.env ∧
      (∀ m, (tree.kind m).isBody = true →
        model.annotations.declaration? m = firstLinked (session.bodies tree) m) := by
  obtain ⟨name, τ, hname, -, hran, rfl, heq⟩ := collect_eq_of_ok (congrArg Prod.fst collected)
  have consistent : Consistent { env := session.env.openUnit session.system.scope name } :=
    ⟨filed.openUnit _ _, by simp⟩
  have told := account_unit tree.root consistent hran
  have visits : session.bodies tree =
      unitBodies (session.collectionContext tree session.nextFile) tree.root
        { env := session.env.openUnit session.system.scope name } := by
    rw [bodies, hname]
  rw [← visits] at told
  rw [collected] at heq
  refine ⟨_, τ, told, rfl, congrArg Session.env heq, fun m hm => ?_⟩
  refine (told.attached m hm).trans ?_
  simp [Annotations.declaration?]

/-- A unit that has just been opened has no name but its own. -/
theorem Valid.findFolded_openUnit (h : session.Valid) (unit : String) (name : FoldedName) :
    (session.env.openUnit session.system.scope unit).symbols.findFolded session.nextFile name =
      if name = Name.fold unit then [⟨session.env.symbols.size⟩] else [] := by
  have blank : session.env.symbols.findFolded session.nextFile name = [] := by
    simp [SymbolTable.findFolded, h.founded.wellFormed.coherent.blank session.nextFile le_rfl,
      ScopeNames.find]
  rw [Environment.findFolded_openUnit, blank, List.nil_append]
  exact if_congr (and_iff_right rfl) rfl rfl

/-! ## A unit with two bodies for one routine -/

/-- A unit with a routine, a body for it that is qualified by the name of the unit, and one without a
qualifier. -/
def strayUnit : SyntaxTree where
  nodes := #[{ kind := .routineDeclaration "Run" .procedure },
    { kind := .routineImplementation "Sample.Run" .procedure },
    { kind := .routineImplementation "Run" .procedure },
    { kind := .unit "Sample", children := [⟨0⟩, ⟨1⟩, ⟨2⟩] }]
  root := ⟨3⟩
  ordered := by decide

/-- The body with a qualifier takes the procedure, because the name of the unit denotes no structured
type, and the other body makes a declaration of its own. -/
theorem collect_strayUnit : ∃ model after,
    ((start {}).run []).collect strayUnit = (.ok model, after) ∧
      model.annotations.declaration? ⟨1⟩ = some ⟨61⟩ ∧
      model.annotations.declaration? ⟨2⟩ = some ⟨62⟩ ∧
      (after.env.declaration ⟨61⟩).scope = ((start {}).run []).nextFile :=
  exists_collected (by cbv)

/-! ## Routines and bodies -/

/-- In a unit that is collected, no two bodies go to one declaration. The declaration of a body is
made by the body itself, or it is a routine of its name without a body so far, with the same
parameters or, for a body without parameters, the only one left in its scope. -/
theorem bodies_linked_once (settings : Settings) (operations : List Operation)
    (collected : ((start settings).run operations).collect tree = (.ok model, after)) :
    (∀ m n d, (tree.kind m).isBody = true → (tree.kind n).isBody = true →
      model.annotations.declaration? m = some d → model.annotations.declaration? n = some d →
      m = n) ∧
    ∀ n d, (tree.kind n).isBody = true → model.annotations.declaration? n = some d →
      ∃ earlier visit later,
        ((start settings).run operations).bodies tree = earlier ++ visit :: later ∧
        visit.node = n ∧ (∃ kind, tree.kind n = .routineImplementation visit.name kind) ∧
        visit.declaration = some d ∧
        (visit.Introduces after.env d ∨ visit.Completes earlier after.env d) := by
  obtain ⟨σ, τ, told, blank, tables, attached⟩ :=
    account_collect (filed_run settings operations) collected
  rw [tables]
  constructor
  · intro m n d hm hn hmd hnd
    rw [attached m hm] at hmd
    rw [attached n hn] at hnd
    obtain ⟨earlier, visit, later, split, rfl, hd⟩ := exists_of_firstLinked hmd
    obtain ⟨earlier', visit', later', split', rfl, hd'⟩ := exists_of_firstLinked hnd
    rw [told.eq_of_declaration split split' hd hd']
  · intro n d hn hnd
    rw [attached n hn] at hnd
    obtain ⟨earlier, visit, later, split, rfl, hd⟩ := exists_of_firstLinked hnd
    have kind := (told.moment earlier visit later split).1.kind
    exact ⟨earlier, visit, later, split, rfl, kind, hd,
      (told.introduces_or_completes blank split hd).imp_left And.right⟩

theorem strayUnit_linked_once : ∃ model after d e earlier visit later,
    ((start {}).run []).collect strayUnit = (.ok model, after) ∧
    model.annotations.declaration? ⟨1⟩ = some d ∧ model.annotations.declaration? ⟨2⟩ = some e ∧
    d ≠ e ∧ ((start {}).run []).bodies strayUnit = earlier ++ visit :: later ∧ visit.node = ⟨1⟩ ∧
    (visit.Introduces after.env d ∨ visit.Completes earlier after.env d) := by
  obtain ⟨model, after, collected, first, second, -⟩ := collect_strayUnit
  obtain ⟨once, fits⟩ := bodies_linked_once {} [] collected
  obtain ⟨earlier, visit, later, split, node, -, -, fit⟩ := fits ⟨1⟩ _ rfl first
  refine ⟨model, after, _, _, earlier, visit, later, collected, first, second, fun same => ?_, split,
    node, fit⟩
  exact absurd (once ⟨1⟩ ⟨2⟩ _ rfl rfl first (same ▸ second)) (by decide)

/-- A body with a qualifier that denotes a structured type goes to a member of that type, or to
nothing. If the qualifier denotes none, it is ignored: the body goes to the routine around it that a
body without the qualifier would complete, and to nothing if there is none. -/
theorem qualified_body_attached (settings : Settings) (operations : List Operation)
    (collected : ((start settings).run operations).collect tree = (.ok model, after))
    {name qualifier simple : String} {kind : RoutineKind}
    (hk : tree.kind n = .routineImplementation name kind)
    (qualified : Name.splitLast name = some (qualifier, simple)) :
    (∀ d, model.annotations.declaration? n = some d → ∃ earlier visit later,
      ((start settings).run operations).bodies tree = earlier ++ visit :: later ∧
      visit.node = n ∧ visit.Completes earlier after.env d ∧
      ((∃ struct, visit.arrival.ownerStruct? visit.scope qualifier = some struct ∧
          (after.env.declaration d).scope = visit.arrival.membersOf struct) ∨
        visit.arrival.ownerStruct? visit.scope qualifier = none ∧
          (after.env.declaration d).scope = visit.scope)) ∧
    ∀ earlier visit later,
      ((start settings).run operations).bodies tree = earlier ++ visit :: later →
      visit.node = n → visit.arrival.ownerStruct? visit.scope qualifier = none →
      visit.declaration = visit.sought.env.linkedDeclaration? (linked earlier).reverse visit.scope
        simple visit.reading.signature.params ∧
      (model.annotations.declaration? n = none → visit.declaration = none) := by
  obtain ⟨σ, τ, told, blank, tables, attached⟩ :=
    account_collect (filed_run settings operations) collected
  have body : (tree.kind n).isBody = true := by rw [hk]; rfl
  have named : ∀ earlier visit later,
      ((start settings).run operations).bodies tree = earlier ++ visit :: later → visit.node = n →
      visit.qualifier? = some qualifier ∧ visit.simpleName = simple ∧
        visit.owner? = visit.arrival.ownerStruct? visit.scope qualifier := by
    rintro earlier visit later split rfl
    obtain ⟨_, kind⟩ := (told.moment earlier visit later split).1.kind
    obtain ⟨rfl, -⟩ := NodeKind.routineImplementation.inj (hk.symm.trans kind)
    have qualifier : visit.qualifier? = some qualifier := by simp [BodyVisit.qualifier?, qualified]
    exact ⟨qualifier, by simp [BodyVisit.simpleName, qualified], by simp [BodyVisit.owner?, qualifier]⟩
  constructor
  · intro d hnd
    rw [attached n body] at hnd
    obtain ⟨earlier, visit, later, split, node, hd⟩ := exists_of_firstLinked hnd
    obtain ⟨hqualifier, -, howner⟩ := named earlier visit later split node
    have completes : visit.Completes earlier after.env d := by
      rw [tables]
      refine (told.introduces_or_completes blank split hd).resolve_left fun made => ?_
      rw [hqualifier] at made
      cases made.1
    refine ⟨earlier, visit, later, split, node, completes, ?_⟩
    have scope := completes.scope
    rw [howner] at scope
    cases hs : visit.arrival.ownerStruct? visit.scope qualifier with
    | some struct => exact .inl ⟨struct, rfl, by rw [scope, hs, Option.elim_some]⟩
    | none => exact .inr ⟨rfl, by rw [scope, hs, Option.elim_none]⟩
  · intro earlier visit later split node unowned
    obtain ⟨hqualifier, hsimple, howner⟩ := named earlier visit later split node
    obtain ⟨proper, implemented, -⟩ := told.moment earlier visit later split
    constructor
    · have members : visit.reading.members = visit.scope := by
        rw [proper.members, howner, unowned, Option.elim_none]
      rw [proper.declaration, hqualifier, Option.isSome_some, if_pos rfl, Option.or_none,
        BodyVisit.linked?, members, implemented, blank, List.append_nil, hsimple]
    · intro hnone
      rw [attached n body, firstLinked, List.findSome?_eq_none_iff] at hnone
      simpa [node] using hnone visit (by simp [split])

theorem strayUnit_attached : ∃ model after d earlier visit later,
    ((start {}).run []).collect strayUnit = (.ok model, after) ∧
    model.annotations.declaration? ⟨1⟩ = some d ∧
    (after.env.declaration d).scope = ((start {}).run []).nextFile ∧
    ((start {}).run []).bodies strayUnit = earlier ++ visit :: later ∧ visit.node = ⟨1⟩ ∧
    visit.Completes earlier after.env d := by
  obtain ⟨model, after, collected, first, -, place⟩ := collect_strayUnit
  have qualified : Name.splitLast "Sample.Run" = some ("Sample", "Run") := by decide +kernel
  have hk : strayUnit.kind ⟨1⟩ = .routineImplementation "Sample.Run" .procedure := rfl
  obtain ⟨earlier, visit, later, split, node, completes, -⟩ :=
    (qualified_body_attached {} [] collected hk qualified).1 _ first
  exact ⟨model, after, _, earlier, visit, later, collected, first, place, split, node, completes⟩

end Session

end Pascal
