import Pascal.Proofs.Collection.Sections
import Pascal.Proofs.NestedTypes
import Pascal.Proofs.Session.Chronicle
import Pascal.Proofs.Session.MadeTypes

/-!
# The scope of a body

What the body of a routine can name, beside what is declared around it: its parameters, and the
members of the structured type that the routine is a method of.

## Main results

- `Session.params_of_body`: a body has the parameters of its routine, unless it does not repeat them.
- `Session.method_body_sees`: which names a method can see that its structured type can see.
-/

namespace Pascal

open Environment

namespace SyntaxTree

/-- Whether a routine writes its parameters. -/
def writesParams (tree : SyntaxTree) (n : NodeId) : Bool :=
  (tree.childIds n).any fun part =>
    match tree.kind part with
    | .parameter names _ => !names.isEmpty
    | _ => false

theorem recordedParams_eq_nil_iff {tree : SyntaxTree} {a : Annotations} {n : NodeId} :
    tree.recordedParams a n = [] ↔ tree.writesParams n = false := by
  simp only [recordedParams, writesParams, List.flatMap_eq_nil_iff, List.any_eq_false]
  refine forall₂_congr fun part _ => ?_
  split
  · rename_i names hasDefault hk
    simp [partParams_of_parameter hk]
  · rename_i other
    simp [partParams_of_ne other]

end SyntaxTree

/-! ## Names around a body -/

namespace Environment

variable {env : Environment} {s p : ScopeId} {struct : StructId} {name : String}

/-- What is seen in a scope is found at the scope itself, or else around it. -/
theorem find_of_parent (h : env.Coherent) (hp : (env.scopes.get s).parent = some p) (name : String) :
    env.find s name = if env.findAtLevel s (Name.fold name) = [] then env.find p name
      else env.findAtLevel s (Name.fold name) := by
  have chain : env.scopes.chain s = s :: env.scopes.chain p := by
    rw [ScopeTree.chain, hp]
    simp [h.nested s p hp]
  rw [find, chain]
  split_ifs with none
  · rw [findAlong_cons_of_eq_nil none, find]
  · rw [findAlong_cons_of_ne_nil none]

/-- At a scope that belongs to a structured type, its members are seen, unless names of its own hide
them. -/
theorem findAtLevel_of_declaring (hd : (env.scopes.get s).declaring = some struct)
    (hk : (env.scopes.get s).kind ≠ .file) (name : String) :
    env.findAtLevel s (Name.fold name) = if env.symbols.shallowFind s name = [] then
      env.findInStruct struct name else env.symbols.shallowFind s name := by
  split_ifs with own
  · have none : env.symbols.findFolded s (Name.fold name) = [] := own
    simp only [findAtLevel, none, hd, Option.elim_some, if_neg hk, findInStruct]
    split
    · exact Eq.symm ‹_›
    · rfl
  · unfold findAtLevel
    dsimp only
    split
    · exact absurd ‹_› own
    · rfl

/-- At the scope of its members, a structured type sees its members, inherited ones included. -/
theorem findAtLevel_membersOf
    (hd : (env.scopes.get (env.membersOf struct)).declaring = some struct)
    (hk : (env.scopes.get (env.membersOf struct)).kind ≠ .file) (name : String) :
    env.findAtLevel (env.membersOf struct) (Name.fold name) = env.findInStruct struct name := by
  rw [findAtLevel_of_declaring hd hk]
  split_ifs with own
  · rfl
  · rw [findInStruct, findMembers]
    split
    · exact absurd ‹_› own
    · rfl

/-- A name stands for something in one scope, and for the same as in another unless it is declared
in the first. -/
def SeesLike (env : Environment) (s t : ScopeId) (name : String) : Prop :=
  env.find s name ≠ [] ∧
    (env.symbols.shallowFind s name = [] → env.find s name = env.find t name)

/-- A scope that belongs to a structured type sees what the type sees where it hides the name, where
the name is that of a member, and where the name stands for the same around both. -/
theorem seesLike_membersOf_iff (h : env.Coherent) {around outer : ScopeId}
    (hd : (env.scopes.get s).declaring = some struct) (hk : (env.scopes.get s).kind ≠ .file)
    (hp : (env.scopes.get s).parent = some around)
    (hd' : (env.scopes.get (env.membersOf struct)).declaring = some struct)
    (hk' : (env.scopes.get (env.membersOf struct)).kind ≠ .file)
    (hp' : (env.scopes.get (env.membersOf struct)).parent = some outer)
    (visible : env.find (env.membersOf struct) name ≠ []) :
    env.SeesLike s (env.membersOf struct) name ↔ env.symbols.shallowFind s name ≠ [] ∨
      env.findInStruct struct name ≠ [] ∨ env.find around name = env.find outer name := by
  have here := find_of_parent h hp name
  have there := find_of_parent h hp' name
  rw [findAtLevel_of_declaring hd hk] at here
  rw [findAtLevel_membersOf hd' hk'] at there
  unfold SeesLike
  by_cases own : env.symbols.shallowFind s name = []
  · rw [if_pos own] at here
    by_cases member : env.findInStruct struct name = []
    · rw [if_pos member] at here there
      rw [here, there]
      rw [there] at visible
      simp only [own, member, ne_eq, not_true, false_or, forall_const]
      exact ⟨And.right, fun same => ⟨same ▸ visible, same⟩⟩
    · rw [if_neg member] at here there
      simp [here, there, member]
  · rw [if_neg own, if_neg own] at here
    simp [here, own]

end Environment

namespace Session

open Collecting

variable {session after : Session} {tree : SyntaxTree} {model : Model} {n : NodeId} {d : DeclId}
  {name : String} {kind : RoutineKind}

/-- A routine that gets a declaration gets it with its body, where the tree lists every node once. -/
theorem Chronicle.Opening.declaration_eq {c : Chronicle session tree model after} (o : c.Opening n)
    (listed : tree.ListedOnce) (hn : (tree.kind n).isBody = true) :
    model.annotations.declaration? n = o.visit.declaration := by
  have shares := NodeKind.sharesDeclaration_of_isBody hn
  have marked : n ∈ o.moment.deed.marks := by simp [o.deed, Deed.marks, o.node]
  obtain ⟨none, kept⟩ := (c.recorded listed o.split marked).2 shares
  rw [kept, o.opens.attached n shares, none, if_pos o.node, Option.none_or]

/-- A collection is one more thing that is asked of a session. -/
theorem eq_run_of_collect {operations : List Operation}
    (collected : (session.run operations).collect tree = (.ok model, after)) :
    after = session.run (operations ++ [.collect tree]) := by
  have last : after = ((session.run operations).collect tree).2 := by rw [collected]
  rw [last, run, run, List.foldl_append]
  rfl

/-! ## A body that does not repeat its parameters -/

/-- A unit with a routine that has a parameter, and a body for it that does not repeat it. -/
def omittingUnit : SyntaxTree where
  nodes := #[{ kind := .parameter ["X"] false },
    { kind := .routineDeclaration "Run" .procedure, children := [⟨0⟩] },
    { kind := .routineImplementation "Run" .procedure },
    { kind := .unit "Sample", children := [⟨1⟩, ⟨2⟩] }]
  root := ⟨3⟩
  ordered := by decide

theorem collect_omittingUnit : ∃ model after,
    ((start {}).run []).collect omittingUnit = (.ok model, after) ∧
      model.annotations.declaration? ⟨2⟩ = some ⟨61⟩ ∧
      (after.env.declaration ⟨61⟩).routine.map (·.params) = some [.untyped] :=
  exists_collected (by cbv)

/-! ## A structured type with a method -/

/-- A unit with a structured type and a method of it. -/
def boxUnit : SyntaxTree where
  nodes := #[{ kind := .structType .record },
    { kind := .typeDeclaration "TBox", children := [⟨0⟩] },
    { kind := .typeSection, children := [⟨1⟩] },
    { kind := .routineImplementation "TBox.Run" .procedure },
    { kind := .unit "Sample", children := [⟨2⟩, ⟨3⟩] }]
  root := ⟨4⟩
  ordered := by decide

theorem collect_boxUnit : ∃ model after,
    ((start {}).run []).collect boxUnit = (.ok model, after) ∧
      (after.env.scopes.get (after.env.membersOf ⟨2⟩)).parent = some ⟨3⟩ :=
  exists_collected (by cbv)

/-- The method belongs to the structured type and stands in the file scope. -/
theorem bodies_boxUnit : (((start {}).run []).bodies boxUnit).map
    (fun visit => (visit.node, visit.scope, visit.owner?)) = [(⟨3⟩, ⟨3⟩, some ⟨2⟩)] := by
  cbv

/-! ## Parameters and names of a body -/

/-- The body of a routine has the parameters of the routine it completes, in their order, if it
writes parameters at all. A body that does not repeat them has none. -/
theorem params_of_body (settings : Settings) (operations : List Operation)
    (collected : ((start settings).run operations).collect tree = (.ok model, after))
    (listed : tree.ListedOnce) (hk : tree.kind n = .routineImplementation name kind)
    (attached : model.annotations.declaration? n = some d) :
    ∃ body signature, model.annotations.scope? n = some body ∧
      (after.env.declaration d).routine = some signature ∧
      after.env.paramTypes body = if tree.writesParams n then signature.params else [] := by
  have hn : (tree.kind n).isBody = true := by rw [hk]; rfl
  obtain ⟨c⟩ := nonempty_chronicle (valid_run settings operations) collected
  obtain ⟨o⟩ := c.nonempty_opening hn (by simp [attached])
  have opens := o.opens
  have filed : o.moment.before.env.Filed :=
    o.courses.1.spares.tables.steps.filed ((filed_run settings operations).openUnit _ _)
  obtain ⟨has, routine, fits⟩ := opens.routine filed d ((o.declaration_eq listed hn).symm.trans attached)
  have same := o.onward.grows.decl d has
  have signed := signed_run settings (operations ++ [.collect tree]) d
  rw [← eq_run_of_collect collected, same] at signed
  obtain ⟨signature, signed⟩ := Option.isSome_iff_exists.1 (signed routine)
  refine ⟨o.body, signature, o.scope?_eq hn, same ▸ signed, ?_⟩
  rw [o.onward.paramTypes opens.has opens.listed]
  rw [opens.signature listed, signed, Option.any_some, decide_eq_true_iff] at fits
  have written : o.moment.after.env.paramTypes o.body = [] ↔ tree.writesParams n = false := by
    rw [opens.params, o.node]
    exact SyntaxTree.recordedParams_eq_nil_iff
  split_ifs with writes
  · refine (fits.resolve_right fun none => ?_).symm
    simp [written.1 none] at writes
  · exact written.2 (by simpa using writes)

theorem omittingUnit_params : ∃ model after d body signature,
    ((start {}).run []).collect omittingUnit = (.ok model, after) ∧ omittingUnit.ListedOnce ∧
    model.annotations.declaration? ⟨2⟩ = some d ∧ model.annotations.scope? ⟨2⟩ = some body ∧
    (after.env.declaration d).routine = some signature ∧ signature.params = [.untyped] ∧
    after.env.paramTypes body = [] := by
  have once : omittingUnit.ListedOnce := by decide
  have hk : omittingUnit.kind ⟨2⟩ = .routineImplementation "Run" .procedure := rfl
  have omits : omittingUnit.writesParams ⟨2⟩ = false := by decide
  obtain ⟨model, after, collected, attached, params⟩ := collect_omittingUnit
  obtain ⟨body, signature, scope, routine, none⟩ := params_of_body {} [] collected once hk attached
  rw [routine, Option.map_some, Option.some_inj] at params
  rw [omits] at none
  exact ⟨model, after, _, body, signature, collected, once, attached, scope, routine, params, none⟩

/-- The body of a method sees a name that its structured type sees, exactly if it hides the name, if
the type has a member of the name, or if the name stands for the same around the body and around the
type. Around the body is the scope that it stands in; a type may be declared further inside. -/
theorem method_body_sees (settings : Settings) (operations : List Operation)
    (collected : ((start settings).run operations).collect tree = (.ok model, after))
    {earlier later : List BodyVisit} {visit : BodyVisit}
    (split : ((start settings).run operations).bodies tree = earlier ++ visit :: later)
    (last : ∀ other ∈ later, other.node ≠ visit.node) {struct : StructId}
    (owner : visit.owner? = some struct)
    (own : ¬((start settings).run operations).env.Has (.struct struct)) :
    ∃ body outer, model.annotations.scope? visit.node = some body ∧
      (after.env.scopes.get (after.env.membersOf struct)).parent = some outer ∧
      ∀ name, after.env.find (after.env.membersOf struct) name ≠ [] →
        (after.env.SeesLike body (after.env.membersOf struct) name ↔
          after.env.symbols.shallowFind body name ≠ [] ∨ after.env.findInStruct struct name ≠ [] ∨
            after.env.find visit.scope name = after.env.find outer name) := by
  obtain ⟨c⟩ := nonempty_chronicle (valid_run settings operations) collected
  have visits : ∃ other ∈ visited c.moments, other.node = visit.node :=
    ⟨visit, by simp [c.bodies, split], rfl⟩
  obtain ⟨o⟩ := c.nonempty_opening_of_visit visits
  have same := o.eq_visit split rfl last
  have founded := (valid_run settings (operations ++ [.collect tree])).founded
  rw [← eq_run_of_collect collected] at founded
  have wf := founded.wellFormed
  have opens := o.opens
  have onward := o.onward
  have declaring : (after.env.scopes.get o.body).declaring = some struct := by
    rw [onward.declaring _ opens.has, opens.declaring, ← same, owner]
  have kind : (after.env.scopes.get o.body).kind ≠ .file := by
    rw [onward.grows.kind _ opens.has, opens.scopeKind]
    simp
  have parent : (after.env.scopes.get o.body).parent = some visit.scope := by
    rw [onward.grows.parent _ opens.has, opens.parent, ← same]
  have has : after.env.Has (.struct struct) :=
    wf.coherent.exist _ _ (onward.grows.has _ opens.has) (.declaring declaring)
  have members := wf.memberScope struct has
  obtain ⟨place, belongs⟩ := c.onward.owned struct own has
  obtain ⟨outer, houter⟩ : ∃ outer,
      (after.env.scopes.get (after.env.membersOf struct)).parent = some outer := by
    refine Option.ne_none_iff_exists'.1 fun none => ?_
    rw [wf.rooted _ place none, founded.kind] at members
    cases members
  have body : (tree.kind visit.node).isBody = true := same ▸ opens.kind
  refine ⟨o.body, outer, o.scope?_eq body, houter, fun name visible => ?_⟩
  exact Environment.seesLike_membersOf_iff wf.coherent declaring kind parent belongs
    (by simp [members]) houter visible

theorem boxUnit_sees : ∃ model after visit struct body,
    ((start {}).run []).collect boxUnit = (.ok model, after) ∧
    ((start {}).run []).bodies boxUnit = [visit] ∧ visit.owner? = some struct ∧
    ¬((start {}).run []).env.Has (.struct struct) ∧ model.annotations.scope? ⟨3⟩ = some body ∧
    ∀ name, after.env.find (after.env.membersOf struct) name ≠ [] →
      after.env.SeesLike body (after.env.membersOf struct) name := by
  obtain ⟨model, after, collected, parent⟩ := collect_boxUnit
  obtain ⟨visit, bodies, found⟩ := List.map_eq_singleton_iff.1 bodies_boxUnit
  simp only [Prod.mk.injEq] at found
  obtain ⟨node, scope, owner⟩ := found
  have own : ¬((start {}).run []).env.Has (.struct ⟨2⟩) := Nat.lt_irrefl 2
  have split : ((start {}).run []).bodies boxUnit = [] ++ visit :: [] := bodies
  obtain ⟨body, outer, opened, houter, sees⟩ :=
    method_body_sees {} [] collected split (by simp) owner own
  obtain rfl := Option.some.inj (parent.symm.trans houter)
  rw [node] at opened
  refine ⟨model, after, visit, _, body, collected, bodies, owner, own, opened, ?_⟩
  exact fun name visible => (sees name visible).2 (.inr (.inr (by rw [scope])))

end Session

end Pascal
