import Mathlib
import Pascal.Proofs.Completeness
import Pascal.Proofs.Session.Discarding

/-!
# Analyzed units and later work

The analysis of a unit closes its scopes, so later work makes no declarations in them. Two things
stay open all the same: a structured type that a unit only announces can be described by a later
unit, and a helper can be registered in a closed scope. Apart from these, resolving an analyzed unit
again gives what it gave before, as long as the units that it depends on are closed too. These are
the units that it uses, directly or by way of others, and the units in which the types of constants
are declared.

## Main results

- `Session.analyzed_unit_immune`: the names of an analyzed unit stay, and what resolution finds out
  about it stays unless it is disturbed.
-/

namespace Pascal

open Environment

namespace Environment

/-- One unit uses another: it is the System unit, or a declaration of the one names it. -/
def Uses (env : Environment) (unit other : Option ScopeId) : Prop :=
  other = none ∨ ∃ d used, env.Has (.decl d) ∧ env.unitOf (.decl d) = unit ∧
    (env.declaration d).unitScope = some used ∧ env.unitOf (.scope used) = other

/-- One unit uses another, directly or by way of further units. -/
def UsesIndirectly (env : Environment) : Option ScopeId → Option ScopeId → Prop :=
  Relation.ReflTransGen env.Uses

/-- The constants of a unit and of the units that it uses have types from units that are used where
they are declared. -/
def ConstantsAtHome (env : Environment) (unit : Option ScopeId) : Prop :=
  ∀ d, env.Has (.decl d) → env.UsesIndirectly unit (env.unitOf (.decl d)) →
    (env.declaration d).kind = .constant → ∀ y ∈ (env.declaration d).refs,
      env.UsesIndirectly (env.unitOf (.decl d)) (env.unitOf y)

section Uses

variable {env : Environment} {unit other : Option ScopeId}

/-- Constants apart, a unit depends only on the units that it uses. -/
theorem Sees.usesIndirectly (h : env.Sees unit other) (constants : env.ConstantsAtHome unit) :
    env.UsesIndirectly unit other := by
  induction h with
  | refl => exact .refl
  | tail _ draws ih =>
    obtain rfl | ⟨d, y, hd, rfl, ⟨hy, ⟨used, hused, rfl⟩ | hk⟩, rfl⟩ := draws
    · exact ih.tail (.inl rfl)
    · exact ih.tail (.inr ⟨d, used, hd, rfl, hused, rfl⟩)
    · exact ih.trans (constants d hd ih hk y hy)

/-- Used units are among the files there are. -/
theorem file_of_usesIndirectly {file : ScopeId} {P : ScopeId → Prop}
    (files : ∀ s, env.Has (.scope s) → (env.scopes.get s).kind = .file → P s)
    (h : env.UsesIndirectly unit (some file)) : unit = some file ∨ P file := by
  obtain heq | ⟨_, -, heq | ⟨d, used, -, -, -, hused⟩⟩ := Relation.ReflTransGen.cases_tail h
  · exact .inl heq.symm
  · cases heq
  · have hkind := ScopeTree.kind_of_fileScopeOf? hused
    refine .inr (files file ?_ hkind)
    by_contra hge
    rw [ScopeTree.get_eq_default (Nat.le_of_not_lt hge)] at hkind
    cases hkind

theorem constantsAtHome_of_refs (h : ∀ i < env.symbols.size,
    (env.declaration ⟨i⟩).kind = .constant → (env.declaration ⟨i⟩).refs = []) :
    env.ConstantsAtHome unit := by
  intro d hd _ hconstant y hy
  have none : (env.declaration d).refs = [] := h d.index hd hconstant
  cases none ▸ hy

end Uses

/-- A scope takes no more declarations. -/
structure Closed (env : Environment) (s : ScopeId) : Prop where
  has : env.Has (.scope s)
  frozen : (env.scopes.get s).frozen

theorem WellFormed.closed_freezeScope {env : Environment} (wf : env.WellFormed) {f : ScopeId}
    (hf : env.Has (.scope f)) : (env.freezeScope f).Closed f :=
  have frozen := wf.frozen_freezeScope hf ScopeTree.mem_subtree_self
  ⟨has_freezeScope.2 frozen.1, frozen.2⟩

/-- Nothing that freezing leaves open has been made use of where a unit depends on it: there are no
new helpers, and what was announced only is not described yet. -/
structure Undisturbed (unit : Option ScopeId) (env env' : Environment) : Prop where
  helpers : ∀ s, .scope s ∈ env.seen unit → ∀ ty,
    env'.scopes.shallowHelper? s ty = env.scopes.shallowHelper? s ty
  announced : ∀ id, .struct id ∈ env.seen unit → (env.types.structInfo id).forward = true →
    (env'.types.structInfo id).forward = true

section Agreement

variable {env mid env' : Environment} {unit : Option ScopeId} {may : ScopeId → Prop}

theorem Agree.trans {W W' : Set Entity} (h : Agree W env mid) (g : Agree W' mid env')
    (hw : W ⊆ W') : Agree W env env' where
  closed := h.closed
  has := h.has
  structs := h.structs.trans g.structs
  target := g.target.trans h.target
  parent s hs := (g.parent s (hw hs)).trans (h.parent s hs)
  kind s hs := (g.kind s (hw hs)).trans (h.kind s hs)
  imports s hs := (g.imports s (hw hs)).trans (h.imports s hs)
  declaring s hs := (g.declaring s (hw hs)).trans (h.declaring s hs)
  helper s hs ty := (g.helper s (hw hs) ty).trans (h.helper s hs ty)
  listed s hs := (g.listed s (hw hs)).trans (h.listed s hs)
  named s hs n := (g.named s (hw hs) n).trans (h.named s hs n)
  decl d hd := (g.decl d (hw hd)).trans (h.decl d hd)
  struct id hid := (g.struct id (hw hid)).trans (h.struct id hid)
  enum id hid := (g.enum id (hw hid)).trans (h.enum id hid)

theorem Extends.structs_le (h : env.Extends env') :
    env.types.structs.size ≤ env'.types.structs.size := by
  by_contra hlt
  have hin : env.Has (.struct ⟨env'.types.structs.size⟩) := by
    simp only [Has]
    omega
  exact Nat.lt_irrefl _ (h.has _ hin)

/-- Later work agrees on everything that a unit depends on if it may not write there, or finds it
frozen. -/
theorem Later.agree (later : Later env may env env') (wf : env.WellFormed) (he : env.Extends env')
    (shut : ∀ s, .scope s ∈ env.seen unit → (env.scopes.get s).frozen ∨ ¬may s)
    (h : Undisturbed unit env env') : Agree (env.seen unit) env env' where
  closed _ hx _ hr := wf.coherent.closed_seen hx hr
  has _ hx := hx.1
  structs := he.structs_le
  target := later.target
  parent s hs := he.parent s hs.1
  kind s hs := he.kind s hs.1
  imports s hs := later.imports s hs.1 (shut s hs)
  declaring s hs := later.declaring s hs.1
  helper := h.helpers
  listed s hs := by simp only [SymbolTable.declarationsIn, later.names s hs.1 (shut s hs)]
  named s hs n := by simp only [SymbolTable.findFolded, later.names s hs.1 (shut s hs)]
  decl d hd := he.decl d hd.1
  struct id hid := by
    apply later.struct id hid.1
    cases hf : (env.types.structInfo id).forward with
    | false => exact .inl rfl
    | true => exact .inr (h.announced id hid hf)
  enum id hid := later.enum id hid.1

theorem WellFormed.agree_freezeScope (wf : env.WellFormed) (unit : Option ScopeId) (f : ScopeId) :
    Agree (env.seen unit) env (env.freezeScope f) := by
  have later := @later_freezeScope (fun _ => False) env f
  refine later.agree wf (extends_freezeScope env f) (fun _ _ => .inr id) ⟨?_, fun _ _ hf => hf⟩
  intro s hs ty
  simp only [ScopeTree.shallowHelper?, later.helpers s hs.1 id]

end Agreement

end Environment

namespace Session

/-- The units that an operation analyzes. -/
def analyzedBy (session : Session) : Operation → List Model
  | .analyze tree => (session.analyze tree).1.toOption.toList
  | .analyzeBatch trees => (session.analyzeBatch trees).1.toOption.getD []
  | _ => []

/-- The file scopes of the units that operations analyze, one after the other. -/
def analyzedIn (session : Session) : List Operation → List ScopeId
  | [] => []
  | operation :: rest =>
    (session.analyzedBy operation).map (·.scope) ++ (session.perform operation).analyzedIn rest

/-- What an analysis comes from: a unit was collected and was still open, its resolution gave the
model, and then its scopes were closed. -/
structure Analyzed (mid env : Environment) (collected model : Model) : Prop where
  wellFormed : mid.WellFormed
  opened : Open mid collected
  sealed : collected.annotations.sealed = collected.annotations.issues.size
  resolved : mid.resolve collected = (.ok (), model)
  closed : env = mid.freezeScope model.scope

section Immunity

variable {session : Session} {tree : SyntaxTree} {model : Model}

/-- The issues that collection leaves are all marked as its own. -/
theorem sealed_of_collect (h : (session.collect tree).1 = .ok model) :
    model.annotations.sealed = model.annotations.issues.size := by
  obtain ⟨name, state, -, -, -, rfl, -⟩ := collect_eq_of_ok h
  rfl

theorem Valid.analyzed (h : session.Valid) (hm : (session.analyze tree).1 = .ok model) :
    ∃ mid collected, Analyzed mid (session.analyze tree).2.env collected model := by
  have effect := h.collects tree
  have sealed := @sealed_of_collect session tree
  simp only [Session.analyze, Session.resolve] at hm ⊢
  generalize session.collect tree = ran at hm effect sealed ⊢
  rcases ran with ⟨cause | collected, mid⟩
  · simp at hm
  · refine ⟨mid.env, collected, ?_⟩
    have wf := effect.valid.founded.wellFormed
    have opened := effect.model collected rfl
    dsimp only at hm ⊢
    cases hran : mid.env.resolve collected with
    | mk outcome found =>
      simp only [hran] at hm ⊢
      rcases outcome with cause | ⟨⟩
      · simp at hm
      · cases hm
        exact ⟨wf, opened, sealed rfl, hran, rfl⟩

/-- A unit that depends on closed units only sees closed scopes only. -/
theorem Valid.frozen_of_seen (h : session.Valid) {unit : Option ScopeId}
    (closed : ∀ file, session.env.Sees unit (some file) → (session.env.scopes.get file).frozen)
    {s : ScopeId} (hs : .scope s ∈ session.env.seen unit) : (session.env.scopes.get s).frozen := by
  obtain ⟨hin, hsees⟩ := hs
  refine h.founded.wellFormed.frozen_of_unit hin (fun _ => h.founded.frozen) fun file hf => ?_
  refine closed file ?_
  rwa [← hf]

variable {mid env env' : Environment} {collected : Model} {may : ScopeId → Prop}

theorem Analyzed.scope (h : Analyzed mid env collected model) : model.scope = collected.scope := by
  have hran := h.resolved
  rw [resolve_eq] at hran
  exact congrArg (·.2.scope) hran.symm

theorem Analyzed.has (h : Analyzed mid env collected model) : mid.Has (.scope model.scope) :=
  h.scope ▸ h.opened.has

/-- The names of an analyzed unit stay. -/
theorem Analyzed.names (h : Analyzed mid env collected model) (later : env.Later may env env')
    {s : ScopeId} (hs : s ∈ env.scopes.subtree model.scope) :
    env'.symbols.namesOf s = env.symbols.namesOf s := by
  have hclosed := h.closed
  subst hclosed
  obtain ⟨hin, hfrozen⟩ := h.wellFormed.frozen_freezeScope h.has hs
  exact later.names s (has_freezeScope.2 hin) (.inl hfrozen)

/-- What was found out about an analyzed unit can be found out again. -/
theorem Analyzed.resolve_again (h : Analyzed mid env collected model)
    (agree : Environment.Agree (env.seen (some model.scope)) env env') :
    ∃ again, env'.resolve model = (.ok (), again) ∧
      model.annotations.SameFindings again.annotations := by
  have hclosed := h.closed
  subst hclosed
  have hscope := h.scope
  have grows := extends_freezeScope mid model.scope
  have first := h.wellFormed.agree_freezeScope (some model.scope) model.scope
  have agree' := first.trans agree (h.wellFormed.coherent.seen_subset grows)
  have hin : .scope collected.scope ∈ mid.seen (some model.scope) := by
    refine ⟨h.opened.has, ?_⟩
    rw [unitOf, ScopeTree.fileScopeOf?_of_file h.opened.kind, hscope]
    exact Environment.Sees.refl _
  have within : collected.annotations.Within (mid.seen (some model.scope)) :=
    hscope ▸ h.opened.annotations
  exact agree'.resolve_again hin within h.sealed.le h.resolved

end Immunity

/-! ## Units that are analyzed are closed -/

section Closing

variable {session : Session} {model : Model} {s : ScopeId}

theorem Works.closed {after : Session} (works : session.Works after) (h : session.env.Closed s) :
    after.env.Closed s :=
  ⟨works.grows.has _ h.has, works.later.frozen s h.has h.frozen⟩

/-- Scopes stay closed, also those of units that are discarded. -/
theorem Valid.closed_perform (h : session.Valid) (hs : session.env.Closed s)
    (operation : Operation) : (session.perform operation).env.Closed s := by
  cases operation with
  | discard name =>
    change (session.discard name).2.env.Closed s
    unfold Session.discard
    split
    · have wf := h.founded.wellFormed
      refine ⟨((wf.unmoved_discardScope _).has _).2 hs.has, ?_⟩
      exact (congrArg Scope.frozen (wf.get_discardScope ..)).trans hs.frozen
    · exact hs
  | _ => exact (h.worksPerform (by simp)).closed hs

theorem Valid.closed_run (h : session.Valid) (hs : session.env.Closed s)
    (operations : List Operation) : (session.run operations).env.Closed s := by
  induction operations generalizing session with
  | nil => exact hs
  | cons operation rest ih => exact ih (h.perform operation) (h.closed_perform hs operation)

theorem Valid.closed_analyze (h : session.Valid) {tree : SyntaxTree}
    (hok : (session.analyze tree).1 = .ok model) :
    (session.analyze tree).2.env.Closed model.scope := by
  obtain ⟨mid, collected, analysis⟩ := h.analyzed hok
  rw [analysis.closed]
  exact analysis.wellFormed.closed_freezeScope analysis.has

theorem Valid.closed_freezeAll (h : session.Valid) {models : List (Nat × Model)}
    (hm : ∀ entry ∈ models, session.env.Has (.scope entry.2.scope)) :
    ∀ entry ∈ models, (models.foldl (fun session entry => session.freeze entry.2)
      session).env.Closed entry.2.scope := by
  induction models generalizing session with
  | nil => simp
  | cons first rest ih =>
    rw [List.forall_mem_cons] at hm ⊢
    have works := h.freeze first.2
    refine ⟨?_, ih works.valid fun entry hentry => works.grows.has _ (hm.2 entry hentry)⟩
    have others := freezeAll_keeps (keeps_works _).freeze works.valid.works rest
    exact others.closed (h.founded.wellFormed.closed_freezeScope hm.1)

theorem Valid.closed_analyzeBatch (h : session.Valid) {trees : List SyntaxTree}
    {models : List Model} (hok : (session.analyzeBatch trees).1 = .ok models)
    (hm : model ∈ models) : (session.analyzeBatch trees).2.env.Closed model.scope := by
  obtain ⟨collected, retried, hcollected, hretried, rfl, heq⟩ := analyzeBatch_eq_ok hok
  have keeps := keeps_works session
  have first := stage_collectAll keeps.collect h.works trees (dependencyOrder trees)
  have second := stage_retryAll keeps.retryImports first.after (first.given _ hcollected)
  obtain ⟨entry, hentry, rfl⟩ := List.mem_map.1 hm
  rw [heq]
  refine second.after.valid.closed_freezeAll ?_ entry (List.mem_mergeSort.1 hentry)
  intro other hother
  obtain ⟨given, hgiven, rfl⟩ := List.mem_map.1 hother
  exact (second.given _ hretried given hgiven).has

theorem Valid.closed_analyzedBy (h : session.Valid) {operation : Operation}
    (hm : model ∈ session.analyzedBy operation) :
    (session.perform operation).env.Closed model.scope := by
  cases operation with
  | analyze tree =>
    refine h.closed_analyze ?_
    simp only [analyzedBy] at hm
    generalize (session.analyze tree).1 = outcome at hm ⊢
    cases outcome with
    | error cause => cases hm
    | ok given => rw [List.mem_singleton.1 hm]
  | analyzeBatch trees =>
    cases hok : (session.analyzeBatch trees).1 with
    | error cause => simp [analyzedBy, hok, Except.toOption] at hm
    | ok models =>
      exact h.closed_analyzeBatch hok (by simpa [analyzedBy, hok, Except.toOption] using hm)
  | collect | discard | resolve | typeOf => cases hm

/-- Units that have been analyzed are closed ever after. -/
theorem Valid.closed_analyzedIn (h : session.Valid) {operations : List Operation}
    (hs : s ∈ session.analyzedIn operations) : (session.run operations).env.Closed s := by
  induction operations generalizing session with
  | nil => cases hs
  | cons operation rest ih =>
    obtain hs | hs := List.mem_append.1 hs
    · obtain ⟨model, hm, rfl⟩ := List.mem_map.1 hs
      exact (h.perform operation).closed_run (h.closed_analyzedBy hm) rest
    · exact ih (h.perform operation) hs

end Closing

/-- Later work, discards apart, leaves the names of an analyzed unit as they are. If all units that
it uses, directly or by way of others, have been analyzed before, the units that it depends on are
closed, unless a constant has its type from elsewhere. Where they are closed, resolving the unit
again succeeds and finds out the same, unless a helper has been registered or an announced
structured type has been described where the unit depends on it. -/
theorem analyzed_unit_immune (settings : Settings) (past later : List Operation) (tree : SyntaxTree)
    (model : Model) (analyzed : (((start settings).run past).analyze tree).1 = .ok model)
    (kept : ∀ name, .discard name ∉ later) :
    let session := (((start settings).run past).analyze tree).2
    let after := session.run later
    (∀ s ∈ session.env.scopes.subtree model.scope, ∀ name,
      after.env.symbols.shallowFind s name = session.env.symbols.shallowFind s name) ∧
    ((∀ file, session.env.UsesIndirectly (some model.scope) (some file) →
        file = model.scope ∨ file ∈ (start settings).analyzedIn past) →
      session.env.ConstantsAtHome (some model.scope) →
      ∀ file, session.env.Sees (some model.scope) (some file) →
        (session.env.scopes.get file).frozen) ∧
    ((∀ file, session.env.Sees (some model.scope) (some file) →
        (session.env.scopes.get file).frozen) →
      session.env.Undisturbed (some model.scope) after.env →
      ∃ again, after.resolve model = (.ok (), again) ∧
        model.annotations.SameFindings again.annotations) := by
  intro session after
  have before := valid_run settings past
  have now : session.Valid := (before.analyze tree).valid
  have works : session.Works after := now.worksRun kept
  obtain ⟨mid, collected, analysis⟩ := before.analyzed analyzed
  refine ⟨?_, ?_, ?_⟩
  · intro s hs name
    exact congrArg (·.find (Name.fold name)) (analysis.names works.later hs)
  · intro used constants file sees
    obtain rfl | known := used file (sees.usesIndirectly constants)
    · exact (before.closed_analyze analyzed).frozen
    · have closed := (valid_start settings).closed_analyzedIn known
      exact ((before.analyze tree).closed closed).frozen
  · intro closed undisturbed
    apply analysis.resolve_again
    exact works.later.agree now.founded.wellFormed works.grows
      (fun s hs => .inl (now.frozen_of_seen closed hs)) undisturbed

/-! ## A unit that uses an analyzed unit -/

/-- Where no structured type is announced, the collection of a unit whose signatures describe no
types disturbs no other unit. -/
theorem Valid.undisturbed_collect {session : Session} (h : session.Valid) {tree : SyntaxTree}
    (described : ∀ id, session.env.Has (.struct id) →
      (session.env.types.structInfo id).forward = false)
    (signatures : ∀ n, tree.signatureDescribesType n = false) (unit : Option ScopeId) :
    session.env.Undisturbed unit (session.collect tree).2.env where
  helpers s hs ty := by
    have unreached : ¬session.Reached tree s := by
      intro hr
      exact Nat.not_le_of_lt hs.1 (hr.own_of described fun n _ _ _ => signatures n)
    simp only [ScopeTree.shallowHelper?, (h.collects tree).later.helpers s hs.1 unreached]
  announced id hid hf := by
    rw [described id hid.1] at hf
    cases hf

/-- A unit with a helper for the class of another unit. -/
def helpingUnit : SyntaxTree where
  nodes := #[{ kind := .unitReference "Base" },
    { kind := .usesClause, children := [⟨0⟩] },
    { kind := .typeReference "TBase" },
    { kind := .helperTarget, children := [⟨2⟩] },
    { kind := .structType .classHelper, children := [⟨3⟩] },
    { kind := .typeDeclaration "THelper", children := [⟨4⟩] },
    { kind := .typeSection, children := [⟨5⟩] },
    { kind := .unit "Helping", children := [⟨1⟩, ⟨6⟩] }]
  root := ⟨7⟩
  ordered := by decide

theorem signatures_helpingUnit (n : NodeId) : helpingUnit.signatureDescribesType n = false := by
  obtain ⟨_ | _ | _ | _ | _ | _ | _ | _ | i⟩ := n
  all_goals rfl

theorem complete_baseUnit (n : NodeId) : baseUnit.missing? n = none := by
  obtain ⟨_ | _ | _ | _ | _ | _ | i⟩ := n
  all_goals rfl

theorem complete_derivingUnit (n : NodeId) : derivingUnit.missing? n = none := by
  obtain ⟨_ | _ | _ | _ | _ | _ | _ | _ | _ | _ | i⟩ := n
  all_goals rfl

set_option synthInstance.maxSize 256 in
attribute [local irreducible] Text.lowercase in
/-- The name in the second unit is found in the first one, which is closed. There are no further
units, no constants with types that units declare, and no announced types. -/
theorem collect_derivingUnit_of_freeze :
    ∃ base mid, (start {}).collect baseUnit = (.ok base, mid) ∧
    ∃ model last, (mid.freeze base).collect derivingUnit = (.ok model, last) ∧
      (model.annotations.type? ⟨7⟩ = none ∧ model.annotations.scope? ⟨8⟩ = none ∧
        model.annotations.scope? ⟨9⟩ = some model.scope ∧
        last.env.find model.scope "TBase" = [⟨61⟩] ∧
        (last.env.declaration ⟨61⟩).scope = base.scope ∧
        (last.env.declaration ⟨61⟩).isRoutine = false ∧
        last.env.scopes.size = 7 ∧ (∀ i < 7, (last.env.scopes.get ⟨i⟩).kind = .file →
          ⟨i⟩ = model.scope ∨ ⟨i⟩ = base.scope) ∧
        last.env.symbols.size = 66 ∧ (∀ i < 66, (last.env.declaration ⟨i⟩).kind = .constant →
          (last.env.declaration ⟨i⟩).refs = []) ∧
        last.env.types.structs.size = 4 ∧
        ∀ i < 4, (last.env.types.structInfo ⟨i⟩).forward = false) :=
  exists_collected (by cbv)

attribute [local irreducible] Text.lowercase in
/-- The helper is registered in the unit that declares it. -/
theorem collect_helpingUnit : ∃ base mid, (start {}).collect baseUnit = (.ok base, mid) ∧
    ∃ model last, (mid.freeze base).collect derivingUnit = (.ok model, last) ∧
    ∃ other after, (last.freeze model).collect helpingUnit = (.ok other, after) ∧
      (after.env.symbols.shallowFind other.scope "THelper" = [⟨68⟩] ∧
        after.env.scopes.shallowHelper? other.scope (.struct ⟨2⟩) = some ⟨4⟩) :=
  exists_collected (by cbv)

/-- A pass over the unit types the name in the statement and nothing else. -/
theorem run_resolveNode_derivingUnit (env : Environment) (scope : ScopeId) {file : ScopeId}
    {s : TypingState} (opened : s.annotations.scope? ⟨9⟩ = some file)
    (plain : s.annotations.scope? ⟨8⟩ = none) :
    ((Typing.resolveNode ⟨env, derivingUnit⟩ scope ⟨9⟩).run s).2 =
      ((Typing.typeOf ⟨env, derivingUnit⟩ file ⟨7⟩).run s).2 := by
  let ctx : TypingContext := ⟨env, derivingUnit⟩
  have reference : ∀ inner, (Typing.resolveNode ctx inner ⟨0⟩).run s = ((), s) := by
    intro inner
    rw [Typing.resolveNode_eq]
    rfl
  have declaration : ∀ inner, (Typing.resolveNode ctx inner ⟨5⟩).run s = ((), s) := by
    intro inner
    rw [Typing.resolveNode_eq]
    rfl
  have uses : (Typing.resolveNode ctx file ⟨1⟩).run s = ((), s) := by
    rw [Typing.resolveNode_eq]
    exact reference _
  have types : (Typing.resolveNode ctx file ⟨6⟩).run s = ((), s) := by
    rw [Typing.resolveNode_eq]
    exact declaration _
  have named : ((Typing.resolveNode ctx file ⟨7⟩).run s).2 =
      ((Typing.typeOf ctx file ⟨7⟩).run s).2 := by
    rw [Typing.resolveNode_eq]
    rfl
  have statement : ((Typing.resolveNode ctx file ⟨8⟩).run s).2 =
      ((Typing.typeOf ctx file ⟨7⟩).run s).2 := by
    rw [Typing.resolveNode_eq, Typing.passNode, Typing.run_get_bind, plain]
    exact named
  rw [Typing.resolveNode_eq, Typing.passNode, Typing.run_get_bind, opened]
  change ((Typing.resolveNode ctx file ⟨1⟩ >>= fun _ => Typing.resolveNode ctx file ⟨6⟩ >>= fun _ =>
    Typing.resolveNode ctx file ⟨8⟩ >>= pure).run s).2 = _
  rw [Typing.run_bind, uses, Typing.run_bind, types]
  exact statement

/-- The name in the statement refers to what it is found to denote. -/
theorem occurrence?_derivingUnit (env : Environment) {model : Model} {d : DeclId}
    (htree : model.tree = derivingUnit) (fresh : model.annotations.type? ⟨7⟩ = none)
    (opened : model.annotations.scope? ⟨9⟩ = some model.scope)
    (plain : model.annotations.scope? ⟨8⟩ = none)
    (found : env.find model.scope "TBase" = [d])
    (noRoutine : (env.declaration d).isRoutine = false) :
    (env.resolved model).annotations.occurrence? ⟨7⟩ = some ⟨"TBase", some d⟩ := by
  let ctx : TypingContext := ⟨env, derivingUnit⟩
  have kind : ctx.tree.kind ⟨7⟩ = .nameReference "TBase" := rfl
  have mentioned : ctx.mentioned? ⟨7⟩ d [] = none := by
    simp [ctx, TypingContext.mentioned?, noRoutine]
  have concluded : ∀ sights, (ctx.conclude model.scope ⟨7⟩ sights).occurrence =
      some (⟨7⟩, ⟨"TBase", some d⟩) := by
    intro sights
    simp [TypingContext.conclude_nameReference kind, TypingContext.named, ctx, found,
      TypingContext.reference, mentioned]
  have hroot : derivingUnit.root = ⟨9⟩ := rfl
  rw [resolved, htree, hroot, run_resolveNode_derivingUnit env _ (by simpa using opened)
    (by simpa using plain), Typing.run_typeOf_of_none (by simp [fresh]), Finding.occurrence?_enter,
    concluded]
  rfl

/-- The analyses of the two units, from their collections. -/
theorem analyze_units {base model : Model} {mid last : Session}
    (hbase : (start {}).collect baseUnit = (.ok base, mid))
    (hmodel : (mid.freeze base).collect derivingUnit = (.ok model, last)) :
    (start {}).analyzedIn [.analyze baseUnit] = [base.scope] ∧
      ((start {}).run [.analyze baseUnit]).analyze derivingUnit =
        (.ok { model with annotations := (last.env.resolved model).annotations },
          last.freeze model) := by
  have first := analyze_of_complete hbase complete_baseUnit
  constructor
  · simp only [analyzedIn, analyzedBy, first]
    rfl
  · change ((start {}).analyze baseUnit).2.analyze derivingUnit = _
    rw [first]
    exact analyze_of_complete hmodel complete_derivingUnit

/-- The second unit uses the first one only, and names what that declares. -/
theorem analyze_derivingUnit :
    let past := (start {}).run [.analyze baseUnit]
    let session := (past.analyze derivingUnit).2
    ∃ model, (past.analyze derivingUnit).1 = .ok model ∧
      model.annotations.occurrence? ⟨7⟩ = some ⟨"TBase", some ⟨61⟩⟩ ∧
      (session.env.declaration ⟨61⟩).scope ∈ (start {}).analyzedIn [.analyze baseUnit] ∧
      (∀ file, session.env.UsesIndirectly (some model.scope) (some file) →
        file = model.scope ∨ file ∈ (start {}).analyzedIn [.analyze baseUnit]) ∧
      session.env.ConstantsAtHome (some model.scope) ∧
      ∀ id, session.env.Has (.struct id) → (session.env.types.structInfo id).forward = false := by
  intro past session
  obtain ⟨base, mid, hbase, collected, last, hcollected, fresh, plain, opened, found, home,
    noRoutine, scopes, files, symbols, constants, structs, described⟩ :=
      collect_derivingUnit_of_freeze
  obtain ⟨known, analyzed⟩ := analyze_units hbase hcollected
  have hsession : session = last.freeze collected := congrArg Prod.snd analyzed
  have htree := tree_of_collect (congrArg Prod.fst hcollected)
  rw [known, hsession]
  refine ⟨_, congrArg Prod.fst analyzed, occurrence?_derivingUnit last.env htree fresh opened plain
    found noRoutine, List.mem_singleton.2 home, fun file uses => ?_,
    constantsAtHome_of_refs (symbols ▸ constants), fun id hid => described id.index (structs ▸ hid)⟩
  have among : ∀ s, (last.env.freezeScope collected.scope).Has (.scope s) →
      ((last.env.freezeScope collected.scope).scopes.get s).kind = .file →
        s = collected.scope ∨ s = base.scope := by
    intro s hs hk
    rw [freezeScope_field Scope.kind fun _ _ => rfl] at hk
    have hin : last.env.Has (.scope s) := has_freezeScope.1 hs
    exact files s.index (hin.trans_eq scopes) hk
  rw [List.mem_singleton]
  obtain heq | hfile := file_of_usesIndirectly among uses
  · exact .inl (Option.some.inj heq).symm
  · exact hfile

/-- The unit is resolved again after a helper for the class that it names has been declared and
registered elsewhere. -/
theorem derivingUnit_immune :
    let past := (start {}).run [.analyze baseUnit]
    let session := (past.analyze derivingUnit).2
    let after := session.run [.collect helpingUnit]
    ∃ model again helping, (past.analyze derivingUnit).1 = .ok model ∧
      model.annotations.occurrence? ⟨7⟩ = some ⟨"TBase", some ⟨61⟩⟩ ∧
      (session.env.declaration ⟨61⟩).scope ∈ (start {}).analyzedIn [.analyze baseUnit] ∧
      after.env.symbols.shallowFind helping "THelper" = [⟨68⟩] ∧
      after.env.scopes.shallowHelper? helping (.struct ⟨2⟩) = some ⟨4⟩ ∧
      (∀ s ∈ session.env.scopes.subtree model.scope, ∀ name,
        after.env.symbols.shallowFind s name = session.env.symbols.shallowFind s name) ∧
      (∀ file, session.env.Sees (some model.scope) (some file) →
        (session.env.scopes.get file).frozen) ∧
      after.resolve model = (.ok (), again) ∧
      model.annotations.SameFindings again.annotations := by
  intro past session after
  obtain ⟨model, analyzed, named, home, used, constants, described⟩ := analyze_derivingUnit
  obtain ⟨base, mid, hbase, collected, last, hcollected, other, final, hother, declared, helper⟩ :=
    collect_helpingUnit
  have hafter : after = final := by
    change ((past.analyze derivingUnit).2.collect helpingUnit).2 = final
    rw [(analyze_units hbase hcollected).2, hother]
  obtain ⟨names, closed, resolution⟩ := analyzed_unit_immune {} [.analyze baseUnit]
    [.collect helpingUnit] derivingUnit model analyzed (by simp)
  have frozen := closed used constants
  have valid : session.Valid := ((valid_run {} [.analyze baseUnit]).analyze derivingUnit).valid
  obtain ⟨again, hagain, same⟩ := resolution frozen
    (valid.undisturbed_collect described signatures_helpingUnit _)
  exact ⟨model, again, other.scope, analyzed, named, home, hafter ▸ declared, hafter ▸ helper, names,
    frozen, hagain, same⟩

end Session

end Pascal
