import Mathlib.Logic.Relation
import Pascal.Proofs.Findings
import Pascal.Proofs.Trees

/-!
# Typing as a sequence of steps

A type is found at most once, and the operands of a node before the node. So a run of typing, of a
node or of a whole unit, is a sequence of steps, each of which takes a node that is not typed yet but
whose operands are, and records what is found out about it. What every step keeps holds after every
run.

## Main results

- `TypingContext.sound_conclude`: the findings about a node are what can be found out about it.
- `Typing.reaches_typeOf`, `Typing.reaches_resolveNode`: runs of typing are sequences of steps.
-/

namespace Pascal

open SyntaxTree

theorem NodeKind.isExpression_of_isReference {kind : NodeKind} (h : kind.isReference = true) :
    kind.isExpression = true := by
  cases kind with
  | nameReference | memberAccess => rfl
  | _ => cases h

namespace SyntaxTree

variable {tree : SyntaxTree} {n m c : NodeId}

/-- An invocation and the name or member that it calls. -/
def Calls (tree : SyntaxTree) (n c : NodeId) : Prop := (tree.callee? n).map (·.1) = some c

theorem calls_iff : tree.Calls n c ↔ tree.kind n = .invocation ∧ (tree.childIds n).head? = some c ∧
    (tree.kind c).isReference = true := by
  rw [List.head?_eq_getElem?, ← val_child?, Calls, callee?]
  cases tree.kind n with
  | invocation =>
    cases tree.child? n 0 with
    | none => simp
    | some callee =>
      by_cases hc : callee.1 = c
      · subst hc
        cases h : (tree.kind callee.1).isReference <;> simp [Option.filter, h]
      · simp [Option.filter, hc]
  | _ => simp

theorem Calls.mem (h : tree.Calls n c) : c ∈ tree.childIds n :=
  List.mem_of_head? (calls_iff.1 h).2.1

theorem Calls.kind_eq (h : tree.Calls n c) : tree.kind n = .invocation := (calls_iff.1 h).1

theorem Calls.isReference (h : tree.Calls n c) : (tree.kind c).isReference = true :=
  (calls_iff.1 h).2.2

theorem Calls.isExpression (h : tree.Calls n c) : (tree.kind n).isExpression = true := by
  rw [h.kind_eq]
  rfl

theorem Calls.isExpression_callee (h : tree.Calls n c) : (tree.kind c).isExpression = true :=
  NodeKind.isExpression_of_isReference h.isReference

theorem Calls.kind_ne (h : tree.Calls n c) : tree.kind c ≠ .invocation := by
  intro hk
  have hr := h.isReference
  rw [hk] at hr
  cases hr

/-- What is called calls nothing itself. -/
theorem Calls.not_calls (h : tree.Calls n c) : ¬tree.Calls c m := fun hc => h.kind_ne hc.kind_eq

theorem Calls.ne (h : tree.Calls n c) : c ≠ n := by
  rintro rfl
  exact Nat.lt_irrefl _ (tree.lt_of_mem_childIds h.mem)

/-- An operand is a child of the node, or it is the receiver of the member that the node calls. -/
theorem mem_operands {b : Below n} (h : b ∈ tree.operands n) :
    b.1 ∈ tree.childIds n ∨ ∃ c, tree.Calls n c ∧ b.1 ∈ tree.childIds c := by
  have listed : ∀ {n : NodeId} {i : Nat} {b : Below n}, tree.child? n i = some b →
      b.1 ∈ tree.childIds n := fun h => mem_childIds (mem_children_of_child? h)
  unfold operands at h
  cases hk : tree.kind n with
  | memberAccess | unaryExpression | parenthesized | dereference | addressOf =>
    simp only [hk, Option.mem_toList] at h
    exact .inl (listed h)
  | binaryExpression =>
    simp only [hk] at h
    split at h
    · rename_i left right hl hr
      obtain rfl | h := List.mem_cons.1 h
      · exact .inl (listed hl)
      · rw [List.mem_singleton] at h
        exact .inl (listed (h ▸ hr))
    · cases h
  | arrayConstructor =>
    simp only [hk] at h
    exact .inl (mem_childIds h)
  | invocation =>
    simp only [hk] at h
    cases hc : tree.child? n 0 with
    | none =>
      rw [hc] at h
      cases h
    | some callee =>
      simp only [hc, List.mem_append] at h
      obtain h | h := h
      · exact .inl (mem_childIds (List.mem_of_mem_tail h))
      · cases hk' : tree.kind callee.1 with
        | nameReference name => simp [hk'] at h
        | memberAccess name =>
          simp only [hk', List.mem_map, Option.mem_toList] at h
          obtain ⟨receiver, hr, rfl⟩ := h
          exact .inr ⟨callee.1, by simp [Calls, callee?, hk, hc, hk', NodeKind.isReference], listed hr⟩
        | _ =>
          simp only [hk', List.mem_singleton] at h
          exact .inl (listed (h ▸ hc))
  | _ => simp [hk] at h

theorem isExpression_of_mem_operands {b : Below n} (h : b ∈ tree.operands n) :
    (tree.kind n).isExpression = true := by
  unfold operands at h
  cases hk : tree.kind n with
  | memberAccess | unaryExpression | parenthesized | dereference | addressOf | binaryExpression
  | arrayConstructor | invocation => rfl
  | _ => simp [hk] at h

end SyntaxTree

/-! ## Recording -/

namespace Annotations

variable (a : Annotations) (n m : NodeId)

@[simp] theorem type?_pushIssue (issue : Issue) : (a.pushIssue issue).type? m = a.type? m := rfl

@[simp] theorem type?_setOccurrence (occurrence : Occurrence) :
    (a.setOccurrence n occurrence).type? m = a.type? m := rfl

@[simp] theorem type?_setInvocation (invocable : Invocable) :
    (a.setInvocation n invocable).type? m = a.type? m := rfl

@[simp] theorem occurrence?_pushIssue (issue : Issue) :
    (a.pushIssue issue).occurrence? m = a.occurrence? m := rfl

@[simp] theorem occurrence?_setType (ty : Ty) :
    (a.setType n ty).occurrence? m = a.occurrence? m := rfl

@[simp] theorem occurrence?_setInvocation (invocable : Invocable) :
    (a.setInvocation n invocable).occurrence? m = a.occurrence? m := rfl

@[simp] theorem invocation?_pushIssue (issue : Issue) :
    (a.pushIssue issue).invocation? m = a.invocation? m := rfl

@[simp] theorem invocation?_setType (ty : Ty) :
    (a.setType n ty).invocation? m = a.invocation? m := rfl

@[simp] theorem invocation?_setOccurrence (occurrence : Occurrence) :
    (a.setOccurrence n occurrence).invocation? m = a.invocation? m := rfl

end Annotations

namespace Finding

/-- Records a finding about a node, its type included. -/
def enter (finding : Finding) (tree : SyntaxTree) (n : NodeId) (s : TypingState) : TypingState :=
  let s := finding.record tree n (s.complain (tree.missing? n))
  { s with annotations := s.annotations.setType n finding.ty }

section Effects

variable (finding : Finding) (tree : SyntaxTree) (n m : NodeId) (s : TypingState)

theorem type?_enter : (finding.enter tree n s).annotations.type? m =
    if n = m then some finding.ty
    else finding.callee.elim (s.annotations.type? m) fun callee =>
      if callee.1 = m then some callee.2 else s.annotations.type? m := by
  simp only [enter, record, TypingState.complain, Annotations.type?_setType]
  cases finding.issue <;> cases finding.occurrence <;> cases finding.callee <;>
    cases finding.invocation <;> simp [Annotations.type?_setType]

theorem occurrence?_enter : (finding.enter tree n s).annotations.occurrence? m =
    finding.occurrence.elim (s.annotations.occurrence? m) fun occurrence =>
      if occurrence.1 = m then some occurrence.2 else s.annotations.occurrence? m := by
  simp only [enter, record, TypingState.complain, Annotations.occurrence?_setType]
  cases finding.issue <;> cases finding.occurrence <;> cases finding.callee <;>
    cases finding.invocation <;> simp [Annotations.occurrence?_setOccurrence]

theorem invocation?_enter : (finding.enter tree n s).annotations.invocation? m =
    finding.invocation.elim (s.annotations.invocation? m) fun invocation =>
      if n = m then some invocation else s.annotations.invocation? m := by
  simp only [enter, record, TypingState.complain, Annotations.invocation?_setType]
  cases finding.issue <;> cases finding.occurrence <;> cases finding.callee <;>
    cases finding.invocation <;> simp [Annotations.invocation?_setInvocation]

theorem issues_enter : (finding.enter tree n s).annotations.issues =
    finding.issue.elim s.annotations.issues fun (m, kind) =>
      s.annotations.issues.push { node := m, position := tree.position m, kind } := by
  simp only [enter, record]
  cases finding.issue <;> cases finding.occurrence <;> cases finding.callee <;>
    cases finding.invocation <;> rfl

@[simp] theorem scopes_enter :
    (finding.enter tree n s).annotations.scopes = s.annotations.scopes := by
  simp only [enter, record]
  cases finding.issue <;> cases finding.occurrence <;> cases finding.callee <;>
    cases finding.invocation <;> rfl

@[simp] theorem declarations_enter :
    (finding.enter tree n s).annotations.declarations = s.annotations.declarations := by
  simp only [enter, record]
  cases finding.issue <;> cases finding.occurrence <;> cases finding.callee <;>
    cases finding.invocation <;> rfl

@[simp] theorem sealed_enter :
    (finding.enter tree n s).annotations.sealed = s.annotations.sealed := by
  simp only [enter, record]
  cases finding.issue <;> cases finding.occurrence <;> cases finding.callee <;>
    cases finding.invocation <;> rfl

theorem deferred_enter :
    (finding.enter tree n s).deferred = finding.pending.toList ++ s.deferred := rfl

theorem violation_enter :
    (finding.enter tree n s).violation = (s.violation <|> tree.missing? n) := rfl

end Effects

end Finding

/-! ## What can be found out -/

/-- What can be found out about a node. -/
structure Finding.Sound (ctx : TypingContext) (n : NodeId) (finding : Finding) : Prop where
  /-- Apart from the node, only what it calls is typed. -/
  callee : ∀ c ty, finding.callee = some (c, ty) → ctx.tree.Calls n c
  /-- What a node calls is typed with it, and refers to something or to nothing. -/
  called : ∀ c, ctx.tree.Calls n c →
    (∃ ty, finding.callee = some (c, ty)) ∧ ∃ occurrence, finding.occurrence = some (c, occurrence)
  occurrence : ∀ m occurrence, finding.occurrence = some (m, occurrence) →
    m = n ∧ (ctx.tree.kind n).isReference = true ∨ ctx.tree.Calls n m
  named : (ctx.tree.kind n).isReference = true →
    ∃ occurrence, finding.occurrence = some (n, occurrence)
  /-- Only receivers of members are left open. -/
  pending : ∀ m, finding.pending = some m →
    ctx.isQualifier m = true ∧ (m = n ∨ ctx.tree.Calls n m)
  /-- Of a node that is left open nothing else is known. -/
  left : finding.pending = some n →
    finding.ty = .unknown ∧ ∃ name, finding.occurrence = some (n, ⟨name, none⟩)
  /-- The signature that is called gives the type and the declaration. -/
  invoked : ∀ inv, finding.invocation = some inv → finding.ty = inv.result ∧
    ((ctx.tree.kind n).isReference = true → ctx.isCallee n = false ∧
      ∃ occurrence, finding.occurrence = some (n, occurrence) ∧
        occurrence.declaration = inv.declaration) ∧
    (ctx.tree.kind n = .invocation → ∃ c occurrence, ctx.tree.Calls n c ∧
      finding.occurrence = some (c, occurrence) ∧ occurrence.declaration = inv.declaration)
  refused : ∀ m name arguments, finding.issue = some (m, .noApplicableOverload name arguments) →
    m = n ∧ (ctx.tree.kind n).isReference = false ∧ finding.invocation = none ∧
      finding.ty = .unknown
  ambiguous : ∀ m name chosen candidates,
    finding.issue = some (m, .ambiguousOverload name chosen candidates) →
    m = n ∧ (ctx.tree.kind n).isReference = false ∧ candidates.head? = some chosen ∧
      ∃ inv, finding.invocation = some inv ∧ ctx.env.types.signature inv = chosen

/-- What holds of every referral at a node: it is left open only for the receiver of a member, and
all it complains about is that a name refers to nothing. -/
def Referral.Proper (ctx : TypingContext) (n : NodeId) : Referral → Prop
  | .found _ _ => True
  | .pending => ctx.isQualifier n = true
  | .nothing complaint => ∀ kind ∈ complaint, ∃ name, kind = .unresolvedReference name

theorem Resolution.chosen?_eq_head? (resolution : Resolution) :
    resolution.chosen? = resolution.winners.head? := by
  cases resolution <;> rfl

namespace TypingContext

variable {ctx : TypingContext} {scope : ScopeId} {n : NodeId}

/-- In a tree in which each node has one parent, what is called is known to be a callee. -/
theorem isCallee_of_calls {m : NodeId} (single : ctx.tree.OneParent) (h : ctx.tree.Calls n m) :
    ctx.isCallee m = true := by
  obtain ⟨hk, hhead, -⟩ := calls_iff.1 h
  simp [isCallee, isFirstChild, single n m h.mem, hk, hhead]

theorem proper_unresolved (name : String) : (ctx.unresolved n name).Proper ctx n := by
  unfold unresolved
  split_ifs with h
  · exact h
  · rintro _ ⟨⟩
    exact ⟨name, rfl⟩

theorem proper_named (name : String) : (ctx.named scope n name).Proper ctx n := by
  unfold named
  split
  · trivial
  · exact proper_unresolved name

theorem proper_dotted : (ctx.dotted scope n).Proper ctx n := by
  unfold dotted
  split
  · rintro _ ⟨⟩
  · split
    · trivial
    · exact proper_unresolved _

theorem proper_valueMember (receiver : Ty) (name : String) :
    (ctx.valueMember scope receiver name).Proper ctx n := by
  unfold valueMember
  split
  · rintro _ ⟨⟩
  · split
    · trivial
    · rintro _ ⟨⟩
      exact ⟨_, rfl⟩

theorem proper_member (name : String) (receiver : Option Sight) :
    (ctx.member scope n name receiver).Proper ctx n := by
  unfold member
  split
  · rintro _ ⟨⟩
  · dsimp only
    split
    · trivial
    · split
      · exact proper_dotted
      · exact proper_valueMember ..

/-- A signature that is chosen among routines is that of one of them. -/
theorem exists_declaration_of_chosen {found : List DeclId} {arguments : List Ty} {inv : Invocable}
    (h : (ctx.env.types.choose (ctx.routines found) arguments).chosen? = some inv) :
    ∃ id ∈ found, inv.declaration = some id := by
  rw [Resolution.chosen?_eq_head?, TypeTable.choose, Resolution.winners_ofWinners] at h
  have best := Environment.mem_of_mem_best (List.mem_mergeSort.1 (List.mem_of_head? h))
  obtain ⟨id, mem, hid⟩ := List.mem_filterMap.1 best
  obtain ⟨routine, -, rfl⟩ := Option.map_eq_some_iff.1 hid
  exact ⟨id, mem, rfl⟩

section Shapes

theorem callee?_of_ne_invocation (hn : ctx.tree.kind n ≠ .invocation) :
    ctx.tree.callee? n = none := by
  unfold callee?
  split
  · contradiction
  · rfl

/-- A finding that names nothing and calls nothing. -/
theorem sound_plain {ty : Ty} {issue : Option (NodeId × IssueKind)}
    (hk : (ctx.tree.kind n).isReference = false) (hc : ctx.tree.callee? n = none)
    (hi : ∀ m kind, issue = some (m, kind) → ∃ message, kind = .malformedType message) :
    Finding.Sound ctx n { ty, issue } where
  callee := by simp
  called c h := by simp [SyntaxTree.Calls, hc] at h
  occurrence := by simp
  named h := by simp [hk] at h
  pending := by simp
  left := by simp
  invoked := by simp
  refused m name arguments h := by
    obtain ⟨_, hm⟩ := hi m _ h
    cases hm
  ambiguous m name chosen candidates h := by
    obtain ⟨_, hm⟩ := hi m _ h
    cases hm

theorem sound_settled (name : String) (resolution : Resolution) (arguments : List Ty)
    (hk : (ctx.tree.kind n).isReference = false) (hn : ctx.tree.kind n ≠ .invocation) :
    (ctx.settled n name resolution arguments).Sound ctx n where
  callee := by simp [settled]
  called c h := absurd h.kind_eq hn
  occurrence := by simp [settled]
  named h := by simp [hk] at h
  pending := by simp [settled]
  left := by simp [settled]
  invoked inv h := by
    refine ⟨?_, by simp [hk], fun h => absurd h hn⟩
    simp only [settled] at h
    simp only [settled, Resolution.result, h, Option.elim_some]
  refused m name arguments h := by
    cases resolution <;> simp [settled, complaint?] at h
    exact ⟨h.1.symm, hk, rfl, rfl⟩
  ambiguous m name chosen candidates h := by
    cases resolution <;> simp [settled, complaint?] at h
    obtain ⟨rfl, rfl, rfl, rfl⟩ := h
    exact ⟨rfl, hk, rfl, _, rfl, rfl⟩

theorem sound_reference (name : String) {referral : Referral} (hp : referral.Proper ctx n)
    (hk : (ctx.tree.kind n).isReference = true) : (ctx.reference n name referral).Sound ctx n := by
  have hn : ctx.tree.kind n ≠ .invocation := by
    intro h
    simp [h, NodeKind.isReference] at hk
  have uncalled : ∀ c, ¬ctx.tree.Calls n c := fun c h => hn h.kind_eq
  cases referral with
  | pending =>
    constructor <;> simp [reference, uncalled, hk]
    exact hp
  | nothing complaint =>
    cases complaint with
    | none => constructor <;> simp [reference, uncalled, hk]
    | some kind =>
      obtain ⟨_, rfl⟩ := hp kind rfl
      constructor <;> simp [reference, uncalled, hk]
  | found first others =>
    simp only [reference]
    cases hm : ctx.mentioned? n first others with
    | none => constructor <;> simp [uncalled, hk]
    | some chosen =>
      have alone : ctx.isCallee n = false := by
        unfold mentioned? at hm
        split_ifs at hm with h
        simp only [Bool.and_eq_true, Bool.not_eq_true'] at h
        exact h.1.2
      constructor <;> simp [uncalled, hk, hn, alone]

theorem sound_called {c : NodeId} (hc : ctx.tree.Calls n c) (name : String) (arguments : List Ty)
    {referral : Referral} (hp : referral.Proper ctx c) :
    (ctx.called n c name arguments referral).Sound ctx n := by
  have hn := hc.kind_eq
  have hk : (ctx.tree.kind n).isReference = false := by rw [hn]; rfl
  have only : ∀ m, ctx.tree.Calls n m ↔ c = m := fun m => by
    rw [SyntaxTree.Calls, show (ctx.tree.callee? n).map (·.1) = some c from hc, Option.some.injEq]
  cases referral with
  | pending =>
    constructor <;> simp [called, only, hk]
    exact hp
  | nothing complaint =>
    cases complaint with
    | none => constructor <;> simp [called, only, hk]
    | some kind =>
      obtain ⟨_, rfl⟩ := hp kind rfl
      constructor <;> simp [called, only, hk]
  | found first others =>
    simp only [called]
    split
    · have declared := @exists_declaration_of_chosen ctx (first :: others) arguments
      generalize ctx.env.types.choose (ctx.routines (first :: others)) arguments = resolution
        at declared
      cases resolution with
      | noApplicable =>
        constructor <;> simp [only, hk, settled, complaint?, Resolution.chosen?, Resolution.result]
      | resolved chosen =>
        obtain ⟨id, -, hid⟩ := declared rfl
        constructor <;> simp [only, hn, NodeKind.isReference, settled, complaint?,
          Resolution.chosen?, Resolution.result, hid]
      | ambiguous chosen _ =>
        obtain ⟨id, -, hid⟩ := declared rfl
        constructor <;> simp [only, hn, NodeKind.isReference, settled, complaint?,
          Resolution.chosen?, Resolution.result, hid]
        rintro _ _ _ _ rfl rfl rfl rfl
        exact ⟨rfl, rfl, rfl⟩
    · constructor <;> simp [only, hk]

end Shapes

theorem sound_applied (operator : Operator) (operands : List Ty)
    (hk : (ctx.tree.kind n).isReference = false) (hn : ctx.tree.kind n ≠ .invocation) :
    (ctx.applied n operator operands).Sound ctx n := by
  unfold applied
  split_ifs
  · exact sound_plain hk (callee?_of_ne_invocation hn) (by simp)
  · exact sound_settled _ _ _ hk hn

theorem sound_combined (operator : BinaryOperator) (left right : Ty)
    (hk : (ctx.tree.kind n).isReference = false) (hn : ctx.tree.kind n ≠ .invocation) :
    (ctx.combined n operator left right).Sound ctx n := by
  have plain : ∀ ty, Finding.Sound ctx n { ty } := fun ty =>
    sound_plain hk (callee?_of_ne_invocation hn) (by simp)
  cases operator with
  | is => exact plain _
  | as => cases right <;> exact plain _
  | _ => exact sound_applied _ _ hk hn

theorem sound_dereferenced (ty : Ty) (hk : (ctx.tree.kind n).isReference = false)
    (hc : ctx.tree.callee? n = none) : (ctx.dereferenced n ty).Sound ctx n := by
  have refused : ∀ m kind, some (n, IssueKind.malformedType
      ("Cannot dereference a value of type " ++ ctx.env.types.image ty)) = some (m, kind) →
      ∃ message, kind = .malformedType message := by
    rintro _ _ ⟨⟩
    exact ⟨_, rfl⟩
  unfold dereferenced
  cases ty.unaliased with
  | unknown => exact sound_plain hk hc (by simp)
  | pointer target _ _ =>
    dsimp only
    split_ifs
    · exact sound_plain hk hc refused
    · exact sound_plain hk hc (by simp)
  | _ => exact sound_plain hk hc refused

theorem sound_invoked (sights : List Sight) (hn : ctx.tree.kind n = .invocation) :
    (ctx.invoked scope n sights).Sound ctx n := by
  have hk : (ctx.tree.kind n).isReference = false := by rw [hn]; rfl
  unfold invoked
  cases hc : ctx.tree.child? n 0 with
  | none => exact sound_plain hk (by simp [callee?, hn, hc]) (by simp)
  | some callee =>
    dsimp only
    cases hk' : ctx.tree.kind callee.1 with
    | nameReference name =>
      refine sound_called ?_ name _ (proper_named name)
      simp [SyntaxTree.Calls, callee?, hn, hc, hk', NodeKind.isReference]
    | memberAccess name =>
      refine sound_called ?_ name _ (proper_member name _)
      simp [SyntaxTree.Calls, callee?, hn, hc, hk', NodeKind.isReference]
    | _ =>
      refine sound_plain hk ?_ (by simp)
      simp [callee?, hn, hc, hk', NodeKind.isReference]

/-- The findings about a node are what can be found out about it. -/
theorem sound_conclude (ctx : TypingContext) (scope : ScopeId) (n : NodeId) (sights : List Sight) :
    (ctx.conclude scope n sights).Sound ctx n := by
  have plain : (ctx.tree.kind n).isReference = false → ctx.tree.kind n ≠ .invocation →
      ∀ ty, Finding.Sound ctx n { ty } := fun hk hn ty =>
    sound_plain hk (callee?_of_ne_invocation hn) (by simp)
  unfold conclude
  cases hk : ctx.tree.kind n with
  | nameReference name =>
    exact sound_reference name (proper_named name) (by rw [hk]; rfl)
  | memberAccess name =>
    exact sound_reference name (proper_member name _) (by rw [hk]; rfl)
  | invocation => exact sound_invoked sights hk
  | _ =>
    have hr : (ctx.tree.kind n).isReference = false := by rw [hk]; rfl
    have hn : ctx.tree.kind n ≠ .invocation := by rw [hk]; exact NodeKind.noConfusion
    rcases sights with _ | ⟨first, _ | ⟨second, _ | _⟩⟩ <;>
    first
    | exact plain hr hn _
    | exact sound_combined _ _ _ hr hn
    | exact sound_applied _ _ hr hn
    | exact sound_dereferenced _ hr (callee?_of_ne_invocation hn)

end TypingContext

/-! ## Steps -/

/-- What is seen of a node that is typed. -/
def TypingState.sight (s : TypingState) (n : NodeId) : Sight where
  ty := (s.annotations.type? n).getD .unknown
  declaration := (s.annotations.occurrence? n).bind (·.declaration)
  isOpen := s.deferred.contains n

namespace Typing

variable {ctx : TypingContext} {scope : ScopeId} {n m k : NodeId} {s s' : TypingState}
  {allowed : ScopeId → NodeId → Prop}

/-- A type that is remembered is not found again. -/
theorem run_typeOf_of_some {ty : Ty} (h : s.annotations.type? n = some ty) :
    (typeOf ctx scope n).run s = (ty, s) := by
  rw [typeOf, run_get_bind, h]
  rfl

/-- A type that is not remembered is found from the operands. -/
theorem run_typeOf_of_none (h : s.annotations.type? n = none) :
    (typeOf ctx scope n).run s =
      let seen := survey ctx.tree (fun b : Below n => typeOf ctx scope b.1) s
      let finding := ctx.conclude scope n seen.1
      (finding.ty, finding.enter ctx.tree n seen.2) := by
  rw [typeOf, run_get_bind, h]
  simp only [run_bind, run_compute]
  rfl

/-- A type that is asked for is remembered. -/
theorem type?_typeOf (ctx : TypingContext) (scope : ScopeId) (n : NodeId) (s : TypingState) :
    ((typeOf ctx scope n).run s).2.annotations.type? n = some ((typeOf ctx scope n).run s).1 := by
  cases h : s.annotations.type? n with
  | some ty => simp only [run_typeOf_of_some h, h]
  | none => simp only [run_typeOf_of_none h, Finding.type?_enter, if_true]

/-- What is observed of an operand is what is seen of it then. -/
theorem run_observe_typeOf (b : Below n) :
    (observe (fun b => typeOf ctx scope b.1) b).run s =
      let after := ((typeOf ctx scope b.1).run s).2
      (after.sight b.1, after) := by
  rw [run_observe]
  simp only [TypingState.sight, type?_typeOf, Option.getD_some]

/-- One step of typing: a node is typed that was not typed yet, but whose operands were. In a tree in
which each node has one parent, its operands still look as they did when they were observed. -/
inductive Step (ctx : TypingContext) (allowed : ScopeId → NodeId → Prop) (s : TypingState) :
    TypingState → Prop
  | type {scope : ScopeId} {n : NodeId} {sights : List Sight} (permitted : allowed scope n)
    (fresh : s.annotations.type? n = none)
    (ready : ∀ b ∈ ctx.tree.operands n, (s.annotations.type? b.1).isSome)
    (seen : ctx.tree.OneParent → sights = (ctx.tree.operands n).map (s.sight ·.1)) :
    Step ctx allowed s ((ctx.conclude scope n sights).enter ctx.tree n s)

/-- A sequence of steps. -/
abbrev Steps (ctx : TypingContext) (allowed : ScopeId → NodeId → Prop) :
    TypingState → TypingState → Prop :=
  Relation.ReflTransGen (Step ctx allowed)

theorem Step.mono {allowed' : ScopeId → NodeId → Prop}
    (h : ∀ scope n, allowed scope n → allowed' scope n) (step : Step ctx allowed s s') :
    Step ctx allowed' s s' := by
  obtain ⟨permitted, fresh, ready, seen⟩ := step
  exact .type (h _ _ permitted) fresh ready seen

theorem Steps.mono {allowed' : ScopeId → NodeId → Prop}
    (h : ∀ scope n, allowed scope n → allowed' scope n) (steps : Steps ctx allowed s s') :
    Steps ctx allowed' s s' :=
  Relation.ReflTransGen.mono (fun _ _ step => Step.mono h step) _ _ steps

/-- What every step keeps holds after every sequence of steps. -/
theorem Steps.keeps {P : TypingState → Prop} (h : Steps ctx allowed s s') (hp : P s)
    (step : ∀ s s', P s → Step ctx allowed s s' → P s') : P s' := by
  induction h with
  | refl => exact hp
  | tail _ last ih => exact step _ _ ih last

/-- A node that is typed stays typed. -/
theorem isSome_type?_enter (finding : Finding) (tree : SyntaxTree)
    (h : (s.annotations.type? m).isSome) :
    ((finding.enter tree n s).annotations.type? m).isSome := by
  rw [Finding.type?_enter]
  split_ifs
  · rfl
  · cases finding.callee with
    | none => exact h
    | some callee =>
      simp only [Option.elim_some]
      split_ifs
      · rfl
      · exact h

theorem Step.isSome_type? (step : Step ctx allowed s s') (h : (s.annotations.type? m).isSome) :
    (s'.annotations.type? m).isSome := by
  obtain ⟨permitted, fresh, ready, seen⟩ := step
  exact isSome_type?_enter _ _ h

theorem Steps.isSome_type? (steps : Steps ctx allowed s s') (h : (s.annotations.type? m).isSome) :
    (s'.annotations.type? m).isSome :=
  steps.keeps h fun _ _ h step => step.isSome_type? h

/-- What is found out about a node that does not call it leaves another node typed as it was. -/
theorem type?_enter_of_ne {finding : Finding} (h : finding.Sound ctx n) (hn : n ≠ m)
    (hc : ¬ctx.tree.Calls n m) :
    (finding.enter ctx.tree n s).annotations.type? m = s.annotations.type? m := by
  rw [Finding.type?_enter, if_neg hn]
  cases hcallee : finding.callee with
  | none => rfl
  | some callee =>
    refine if_neg ?_
    rintro rfl
    exact hc (h.callee _ _ hcallee)

/-- A node that is still not typed after a step was neither taken nor called. -/
theorem ne_of_type?_enter {finding : Finding} (h : finding.Sound ctx n)
    (hm : (finding.enter ctx.tree n s).annotations.type? m = none) :
    n ≠ m ∧ ¬ctx.tree.Calls n m ∧ s.annotations.type? m = none := by
  have hn : n ≠ m := by
    rintro rfl
    simp [Finding.type?_enter] at hm
  have uncalled : ¬ctx.tree.Calls n m := by
    intro hc
    obtain ⟨⟨ty, hty⟩, -⟩ := h.called m hc
    simp [Finding.type?_enter, hn, hty] at hm
  exact ⟨hn, uncalled, (type?_enter_of_ne h hn uncalled).symm.trans hm⟩

theorem occurrence?_enter_of_ne {finding : Finding} (h : finding.Sound ctx n) (hn : n ≠ m)
    (hc : ¬ctx.tree.Calls n m) :
    (finding.enter ctx.tree n s).annotations.occurrence? m = s.annotations.occurrence? m := by
  rw [Finding.occurrence?_enter]
  cases ho : finding.occurrence with
  | none => rfl
  | some occurrence =>
    refine if_neg ?_
    rintro rfl
    obtain ⟨heq, -⟩ | hcalls := h.occurrence _ _ ho
    · exact hn heq.symm
    · exact hc hcalls

theorem mem_deferred_enter_of_ne {finding : Finding} (h : finding.Sound ctx n) (hn : n ≠ m)
    (hc : ¬ctx.tree.Calls n m) : m ∈ (finding.enter ctx.tree n s).deferred ↔ m ∈ s.deferred := by
  rw [Finding.deferred_enter, List.mem_append, Option.mem_toList]
  refine or_iff_right fun hp => ?_
  obtain rfl | hcalls := (h.pending m hp).2
  · exact hn rfl
  · exact hc hcalls

theorem sight_enter_of_ne {finding : Finding} (h : finding.Sound ctx n) (hn : n ≠ m)
    (hc : ¬ctx.tree.Calls n m) : (finding.enter ctx.tree n s).sight m = s.sight m := by
  have deferred := mem_deferred_enter_of_ne (s := s) h hn hc
  simp only [TypingState.sight, type?_enter_of_ne h hn hc, occurrence?_enter_of_ne h hn hc,
    List.contains_eq_mem, deferred]

/-- A node that no step takes or calls stays as it is. -/
theorem Steps.type?_eq (steps : Steps ctx allowed s s')
    (other : ∀ scope n, allowed scope n → n ≠ m ∧ ¬ctx.tree.Calls n m) :
    s'.annotations.type? m = s.annotations.type? m := by
  refine steps.keeps (P := fun now => now.annotations.type? m = s.annotations.type? m) rfl ?_
  rintro now _ ih ⟨permitted, fresh, ready, seen⟩
  obtain ⟨hn, hc⟩ := other _ _ permitted
  exact (type?_enter_of_ne (TypingContext.sound_conclude ..) hn hc).trans ih

/-- What is seen of a typed node stays the same as long as no step calls it. -/
theorem Steps.sight_eq (steps : Steps ctx allowed s s') (typed : (s.annotations.type? m).isSome)
    (uncalled : ∀ scope n, allowed scope n → ¬ctx.tree.Calls n m) : s'.sight m = s.sight m := by
  have kept : (s'.annotations.type? m).isSome ∧ s'.sight m = s.sight m := by
    refine steps.keeps (P := fun now => (now.annotations.type? m).isSome ∧ now.sight m = s.sight m)
      ⟨typed, rfl⟩ ?_
    rintro now _ ⟨typed, ih⟩ step
    refine ⟨step.isSome_type? typed, ?_⟩
    cases step with
    | @type scope n sights permitted fresh ready seen =>
      have hn : n ≠ m := by
        rintro rfl
        rw [fresh] at typed
        cases typed
      have sound := ctx.sound_conclude scope n sights
      exact (sight_enter_of_ne sound hn (uncalled scope n permitted)).trans ih
  exact kept.2

/-- In a tree in which each node has one parent, nothing before a node calls an operand of it. -/
theorem not_calls_operand (single : ctx.tree.OneParent) {b : Below n} (hb : b ∈ ctx.tree.operands n)
    (hm : m < n) : ¬ctx.tree.Calls m b.1 := by
  intro h
  obtain hchild | ⟨c, hc, hchild⟩ := mem_operands hb
  · obtain rfl := single.eq hchild h.mem
    exact Nat.lt_irrefl _ hm
  · obtain rfl := single.eq hchild h.mem
    exact hc.not_calls h

/-- Observing operands of a node is a sequence of steps before the node, after which they are typed
and look as they did when they were observed. -/
theorem reaches_survey
    (typing : ∀ b ∈ ctx.tree.operands n, ∀ s,
      Steps ctx (fun scope m => allowed scope m ∧ m < n) s ((typeOf ctx scope b.1).run s).2)
    (l : List (Below n)) (hl : ∀ b ∈ l, b ∈ ctx.tree.operands n) (s : TypingState) :
    let seen := (l.mapM (observe fun b : Below n => typeOf ctx scope b.1)).run s
    Steps ctx (fun scope m => allowed scope m ∧ m < n) s seen.2 ∧
      (∀ b ∈ l, (seen.2.annotations.type? b.1).isSome) ∧
      (ctx.tree.OneParent → seen.1 = l.map (seen.2.sight ·.1)) := by
  induction l generalizing s with
  | nil => exact ⟨.refl, by simp, fun _ => rfl⟩
  | cons b rest ih =>
    rw [List.forall_mem_cons] at hl
    simp only [run_mapM_cons, run_observe_typeOf]
    have first := typing b hl.1 s
    have typed : (((typeOf ctx scope b.1).run s).2.annotations.type? b.1).isSome := by
      rw [type?_typeOf]
      rfl
    generalize ((typeOf ctx scope b.1).run s).2 = mid at first typed
    obtain ⟨later, ready, seen⟩ := ih hl.2 mid
    refine ⟨first.trans later, ?_, fun single => ?_⟩
    · rw [List.forall_mem_cons]
      exact ⟨Steps.isSome_type? later typed, ready⟩
    · have same := Steps.sight_eq later typed fun _ m hm => not_calls_operand single hl.1 hm.2
      rw [List.map_cons, ← seen single, same]

/-- Typing a node is a sequence of steps. -/
theorem reaches_typeOf (closed : ∀ scope n, allowed scope n → ∀ b ∈ ctx.tree.operands n,
      allowed scope b.1) (h : allowed scope n) (s : TypingState) :
    Steps ctx allowed s ((typeOf ctx scope n).run s).2 := by
  induction hi : n.index using Nat.strong_induction_on generalizing n s allowed with
  | _ index ih =>
    cases ht : s.annotations.type? n with
    | some ty =>
      rewrite [run_typeOf_of_some ht]
      exact .refl
    | none =>
      rw [run_typeOf_of_none ht]
      have before : ∀ b ∈ ctx.tree.operands n, ∀ s,
          Steps ctx (fun scope m => allowed scope m ∧ m < n) s ((typeOf ctx scope b.1).run s).2 :=
        fun b hb s => ih b.1.index (hi ▸ b.2)
          (fun scope m hm inner hin =>
            ⟨closed scope m hm.1 inner hin, Nat.lt_trans inner.2 hm.2⟩)
          ⟨closed scope n h b hb, b.2⟩ s rfl
      obtain ⟨steps, ready, seen⟩ := reaches_survey before _ (fun _ => id) s
      -- The node itself is not touched before its operands are typed.
      have fresh := Steps.type?_eq (m := n) steps fun _ m hm =>
        ⟨fun heq => Nat.lt_irrefl _ (heq ▸ hm.2),
          fun hc => Nat.lt_asymm (ctx.tree.lt_of_mem_childIds hc.mem) hm.2⟩
      have surveyed := Steps.mono (fun _ _ hm => hm.1) steps
      exact surveyed.tail (.type h (fresh.trans ht) ready seen)

/-- A pass over a node leads to another node, in the scope that it stands in. -/
inductive Passes (tree : SyntaxTree) (scopes : NodeId → Option ScopeId) :
    ScopeId → NodeId → ScopeId → NodeId → Prop
  | here (scope : ScopeId) (n : NodeId) : Passes tree scopes scope n scope n
  | descend {scope inner scope' : ScopeId} {n child m : NodeId}
    (opens : duty (tree.kind n) (scopes n) scope = .descend inner) (listed : child ∈ tree.childIds n)
    (later : Passes tree scopes inner child scope' m) : Passes tree scopes scope n scope' m

theorem Passes.tail {tree : SyntaxTree} {scopes : NodeId → Option ScopeId}
    {scope inner scope' : ScopeId} {child : NodeId} (passes : Passes tree scopes scope n scope' m)
    (opens : duty (tree.kind m) (scopes m) scope' = .descend inner)
    (listed : child ∈ tree.childIds m) : Passes tree scopes scope n inner child := by
  induction passes with
  | here => exact .descend opens listed (.here _ _)
  | descend opens' listed' later ih => exact .descend opens' listed' (ih opens listed)

/-- Expressions are typed as a whole, and nothing else is. -/
theorem duty_eq_type_iff {kind : NodeKind} {opened : Option ScopeId} :
    duty kind opened scope = .type ↔ kind.isExpression = true := by
  unfold duty
  split_ifs with h
  · exact iff_of_true rfl h
  · refine iff_of_false ?_ h
    cases opened <;> split <;> exact NodeDuty.noConfusion

theorem Steps.scope?_eq (steps : Steps ctx allowed s s') (m : NodeId) :
    s'.annotations.scope? m = s.annotations.scope? m := by
  have kept : s'.annotations.scopes = s.annotations.scopes := by
    refine steps.keeps (P := fun now => now.annotations.scopes = s.annotations.scopes) rfl ?_
    rintro now _ ih ⟨permitted, fresh, ready, seen⟩
    rw [Finding.scopes_enter, ih]
  rw [Annotations.scope?, kept]
  rfl

theorem Steps.declaration?_eq (steps : Steps ctx allowed s s') (m : NodeId) :
    s'.annotations.declaration? m = s.annotations.declaration? m := by
  have kept : s'.annotations.declarations = s.annotations.declarations := by
    refine steps.keeps (P := fun now => now.annotations.declarations = s.annotations.declarations)
      rfl ?_
    rintro now _ ih ⟨permitted, fresh, ready, seen⟩
    rw [Finding.declarations_enter, ih]
  rw [Annotations.declaration?, kept]
  rfl

/-- Passes over children are a sequence of steps if each of them is. -/
theorem reaches_forM {scopes : NodeId → Option ScopeId} {inner : ScopeId} {l : List (Below n)}
    (pass : ∀ b ∈ l, ∀ s, (∀ m, s.annotations.scope? m = scopes m) →
      let after := ((resolveNode ctx inner b.1).run s).2
      Steps ctx allowed s after ∧ ∀ scope' m, Passes ctx.tree scopes inner b.1 scope' m →
        (ctx.tree.kind m).isExpression = true → (after.annotations.type? m).isSome)
    (hs : ∀ m, s.annotations.scope? m = scopes m) :
    let after := ((l.forM fun b => resolveNode ctx inner b.1).run s).2
    Steps ctx allowed s after ∧ ∀ b ∈ l, ∀ scope' m, Passes ctx.tree scopes inner b.1 scope' m →
      (ctx.tree.kind m).isExpression = true → (after.annotations.type? m).isSome := by
  induction l generalizing s with
  | nil => exact ⟨.refl, by simp⟩
  | cons b rest ih =>
    rw [List.forall_mem_cons] at pass
    obtain ⟨first, found⟩ := pass.1 s hs
    obtain ⟨later, others⟩ := ih pass.2 fun m => (Steps.scope?_eq first m).trans (hs m)
    refine ⟨first.trans later, ?_⟩
    rw [List.forall_mem_cons]
    exact ⟨fun scope' m passes hm => Steps.isSome_type? later (found scope' m passes hm), others⟩

/-- A pass over a subtree is a sequence of steps, after which every expression that it leads to is
typed. -/
theorem reaches_resolveNode
    (closed : ∀ scope n, allowed scope n → ∀ b ∈ ctx.tree.operands n, allowed scope b.1)
    {scopes : NodeId → Option ScopeId} (hs : ∀ m, s.annotations.scope? m = scopes m)
    (typed : ∀ scope' m, Passes ctx.tree scopes scope n scope' m →
      (ctx.tree.kind m).isExpression = true → allowed scope' m) :
    let after := ((resolveNode ctx scope n).run s).2
    Steps ctx allowed s after ∧ ∀ scope' m, Passes ctx.tree scopes scope n scope' m →
      (ctx.tree.kind m).isExpression = true → (after.annotations.type? m).isSome := by
  induction hi : n.index using Nat.strong_induction_on generalizing n scope s with
  | _ index ih =>
    rw [resolveNode_eq, passNode, run_get_bind, hs n]
    cases hd : duty (ctx.tree.kind n) (scopes n) scope with
    | ignore =>
      refine ⟨.refl, ?_⟩
      rintro scope' m passes hm
      cases passes with
      | here => simp [duty_eq_type_iff.2 hm] at hd
      | descend opens => simp [opens] at hd
    | type =>
      refine ⟨reaches_typeOf closed (typed scope n (.here scope n) (duty_eq_type_iff.1 hd)) s, ?_⟩
      rintro scope' m passes hm
      cases passes with
      | here =>
        rw [run_discard, type?_typeOf]
        rfl
      | descend opens => simp [opens] at hd
    | descend inner =>
      have listed : ∀ b ∈ ctx.tree.children n, b.1 ∈ ctx.tree.childIds n := fun _ =>
        mem_childIds
      obtain ⟨steps, found⟩ := reaches_forM (l := ctx.tree.children n) (fun b hb s hs =>
        ih b.1.index (hi ▸ b.2) hs
          (fun scope' m passes => typed scope' m (.descend hd (listed b hb) passes)) rfl) hs
      refine ⟨steps, fun scope' m passes hm => ?_⟩
      cases passes with
      | here => simp [duty_eq_type_iff.2 hm] at hd
      | descend opens hc later =>
        obtain rfl := NodeDuty.descend.inj (opens.symm.trans hd)
        rw [← map_val_children] at hc
        obtain ⟨b, hb, rfl⟩ := List.mem_map.1 hc
        exact found b hb scope' m later hm

/-- Whatever may be typed, typing a node is a sequence of steps. -/
theorem steps_typeOf (ctx : TypingContext) (scope : ScopeId) (n : NodeId) (s : TypingState) :
    Steps ctx (fun _ _ => True) s ((typeOf ctx scope n).run s).2 :=
  reaches_typeOf (fun _ _ _ _ _ => trivial) trivial s

theorem steps_resolveNode (ctx : TypingContext) (scope : ScopeId) (n : NodeId) (s : TypingState) :
    Steps ctx (fun _ _ => True) s ((resolveNode ctx scope n).run s).2 :=
  (reaches_resolveNode (fun _ _ _ _ _ => trivial) (fun _ => rfl) fun _ _ _ _ => trivial).1

end Typing

end Pascal
