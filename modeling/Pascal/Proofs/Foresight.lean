import Pascal.Proofs.Collection.Trace
import Pascal.Proofs.Completeness

/-!
# What will be found out

What is found out about a node that is asked for first is a function of the unit: the finding from
what will be seen of its operands, and so on down to the leaves. A run that starts in the middle of
other work finds out the same, unless it has been forgotten that a name was left open as the
beginning of a dotted unit name.

## Main results

- `Typing.Step.foreseen`: a step of typing finds out what was foreseen.
-/

namespace Pascal

open TypingContext Finding SyntaxTree Environment

/-- What a finding lets see of a node. -/
def Finding.sight (finding : Finding) (n : NodeId) : Sight where
  ty := finding.ty
  declaration := finding.occurrence.bind fun (m, occurrence) =>
    if m = n then occurrence.declaration else none
  isOpen := finding.pending = some n

namespace Sight

/-- What is seen of a node that is left open. -/
def undecided : Sight where
  ty := .unknown
  isOpen := true

/-- What is seen of a node of which nothing is known. -/
def blank : Sight where
  ty := .unknown

end Sight

namespace Environment

variable (env : Environment) (model : Model)

/-- What will be found out about a node of a unit when it is asked for first. -/
def foreseen (n : NodeId) : Finding :=
  if (model.tree.kind n).isExpression then
    TypingContext.conclude ⟨env, model.tree⟩ (model.scopeOf n) n
      ((model.tree.operands n).map fun b => (foreseen b.1).sight b.1)
  else { ty := model.typeOf n }
  termination_by n.index
  decreasing_by exact b.2

/-- What will be seen of a node when it is asked for first. -/
def foresight (n : NodeId) : Sight := (env.foreseen model n).sight n

/-- A node will refer to a routine when it is asked for first. -/
def foreseesRoutine (n : NodeId) : Bool :=
  (env.foresight model n).declaration.any fun id => (env.declaration id).isRoutine

/-- The dotted name that a node spells names a unit. -/
def NamesUnit (n : NodeId) : Prop := ∃ name, dottedName? ⟨env, model.tree⟩ n = some name ∧
    ∃ id ∈ env.find (model.scopeOf n) name, (env.declaration id).unitScope.isSome

/-- No dotted name around a node and inside another one names a unit. -/
def Undotted (n m : NodeId) : Prop :=
  ∀ k ∈ model.tree.ancestors m, n ∈ model.tree.ancestors k → ¬env.NamesUnit model k

/-- What is seen of a node inside `n` is what was foreseen, or it has been forgotten that the node was
left open, and no dotted name around it names a unit. -/
def Foresees (n m : NodeId) (sight : Sight) : Prop :=
  sight = env.foresight model m ∨
    env.foresight model m = .undecided ∧ sight = .blank ∧ env.Undotted model n m

section Equations

variable {env model} {n m : NodeId}

theorem foreseen_of_isExpression (h : (model.tree.kind n).isExpression = true) :
    env.foreseen model n = TypingContext.conclude ⟨env, model.tree⟩ (model.scopeOf n) n
      ((model.tree.operands n).map fun b => env.foresight model b.1) := by
  rw [foreseen, if_pos h]
  rfl

theorem foresight_of_not_isExpression (h : (model.tree.kind n).isExpression = false) :
    env.foresight model n = { ty := model.typeOf n } := by
  rw [foresight, foreseen, if_neg (by simp [h])]
  rfl

/-- Of a node that will be left open nothing else will be known. -/
theorem foresight_eq_undecided (h : (env.foresight model n).isOpen = true) :
    env.foresight model n = .undecided ∧
      isQualifier ⟨env, model.tree⟩ n = true := by
  cases hn : (model.tree.kind n).isExpression with
  | false =>
    rw [foresight_of_not_isExpression hn] at h
    cases h
  | true =>
    have sound := sound_conclude ⟨env, model.tree⟩ (model.scopeOf n) n
      ((model.tree.operands n).map fun b => env.foresight model b.1)
    rw [← foreseen_of_isExpression hn] at sound
    have pending : (env.foreseen model n).pending = some n := of_decide_eq_true h
    obtain ⟨hty, name, ho⟩ := sound.left pending
    refine ⟨?_, (sound.pending n pending).1⟩
    simp [foresight, sight, hty, ho, pending, Sight.undecided]

theorem Undotted.of_child (h : env.Undotted model n m) {k : NodeId}
    (single : model.tree.OneParent) (hm : m ∈ model.tree.childIds k) :
    env.Undotted model n k ∧ (n ∈ model.tree.ancestors k → ¬env.NamesUnit model k) := by
  unfold Undotted at h
  rw [single.ancestors hm, List.forall_mem_cons] at h
  exact ⟨h.2, h.1⟩

end Equations

end Environment

namespace TypingContext

variable {ctx : TypingContext} {scope : ScopeId} {n c : NodeId} {name : String}

/-! ## Findings as functions of what is looked at -/

theorem val_child?_zero (tree : SyntaxTree) (n : NodeId) :
    (tree.child? n 0).map (·.1) = (tree.childIds n).head? := by
  rw [List.head?_eq_getElem?, val_child?]

theorem conclude_looking_memberAccess (hk : ctx.tree.kind n = .memberAccess name)
    (look : NodeId → Sight) : ctx.conclude scope n ((ctx.tree.operands n).map fun b => look b.1) =
      ctx.reference n name (ctx.member scope n name ((ctx.tree.childIds n).head?.map look)) := by
  have operands : ctx.tree.operands n = (ctx.tree.child? n 0).toList := by
    simp only [operands, hk]
  rw [conclude_memberAccess hk, operands, ← val_child?_zero]
  cases ctx.tree.child? n 0 <;> rfl

theorem conclude_of_calls_memberAccess (hc : ctx.tree.Calls n c)
    (hk : ctx.tree.kind c = .memberAccess name) (look : NodeId → Sight) :
    ctx.conclude scope n ((ctx.tree.operands n).map fun b => look b.1) =
      ctx.called n c name ((ctx.tree.children n).tail.map fun b => (look b.1).ty)
        (ctx.member scope c name ((ctx.tree.childIds c).head?.map look)) := by
  obtain ⟨callee, hn, hcallee, rfl, -⟩ := exists_callee hc
  have operands : ctx.tree.operands n = (ctx.tree.children n).tail ++
      (ctx.tree.child? callee.1 0).toList.map callee.lift := by
    simp only [operands, hn, hcallee, hk]
  rw [conclude_invocation hn, operands, ← val_child?_zero]
  simp only [invoked, hcallee, hk]
  congr 1
  · rw [List.map_append, List.take_left' (by simp), List.map_map]
    rfl
  · congr 1
    cases ctx.tree.child? callee.1 0 <;> simp [Below.lift]

theorem conclude_of_calls_nameReference (hc : ctx.tree.Calls n c)
    (hk : ctx.tree.kind c = .nameReference name) (sights : List Sight) :
    ∃ arguments, ctx.conclude scope n sights =
      ctx.called n c name arguments (ctx.named scope c name) := by
  obtain ⟨callee, hn, hcallee, rfl, -⟩ := exists_callee hc
  rw [conclude_invocation hn]
  simp only [invoked, hcallee, hk]
  exact ⟨_, rfl⟩

/-- An invocation refers to nothing itself. -/
theorem sight_called (hc : c ≠ n) (arguments : List Ty) (referral : Referral) :
    (ctx.called n c name arguments referral).sight n =
      { ty := (ctx.called n c name arguments referral).ty } := by
  cases referral with
  | pending => simp [called, sight, hc]
  | nothing complaint => simp [called, sight, hc]
  | found first others =>
    simp only [called]
    split
    · simp [settled, sight, hc]
    · simp [sight, hc]

/-- A name that is called has the type of what it refers to, unless that is a routine. -/
theorem callee_called (alone : ctx.isCallee c = true) (arguments : List Ty) {referral : Referral}
    (h : (((ctx.reference c name referral).sight c).declaration.any fun id =>
      (ctx.env.declaration id).isRoutine) = false) :
    (ctx.called n c name arguments referral).callee =
      some (c, (ctx.reference c name referral).ty) := by
  cases referral with
  | pending => rfl
  | nothing complaint => rfl
  | found first others =>
    have unmentioned : ctx.mentioned? c first others = none := by simp [mentioned?, alone]
    simp only [reference, unmentioned, sight, Option.bind_some, if_pos, Option.any_some] at h
    simp [called, reference, unmentioned, h]

/-! ## Receivers that are left open -/

theorem exists_memberAccess_of_isQualifier (h : ctx.isQualifier n = true) :
    ∃ p name, ctx.tree.kind p = .memberAccess name ∧ (ctx.tree.childIds p).head? = some n := by
  simp only [isQualifier, isFirstChild] at h
  cases hp : ctx.tree.parent? n with
  | none => simp [hp] at h
  | some p =>
    simp only [hp, Bool.and_eq_true, decide_eq_true_eq] at h
    cases hk : ctx.tree.kind p with
    | memberAccess name => exact ⟨p, name, hk, h.2⟩
    | _ => simp [hk] at h

theorem member_undecided : ctx.member scope n name (some .undecided) = ctx.dotted scope n := rfl

/-- Once it is forgotten that the receiver was left open, its members are not looked for. -/
theorem member_blank : ctx.member scope n name (some .blank) = .nothing none := rfl

/-- A dotted name refers to nothing but units. -/
theorem unitScope_of_dotted {first : DeclId} {others : List DeclId}
    (h : ctx.dotted scope n = .found first others) :
    ∃ name, ctx.dottedName? n = some name ∧ first ∈ ctx.env.find scope name ∧
      (ctx.env.declaration first).unitScope.isSome := by
  unfold dotted at h
  cases hd : ctx.dottedName? n with
  | none => simp [hd] at h
  | some name =>
    simp only [hd] at h
    split at h
    next heq =>
      cases h
      have found := List.mem_filter.1 (heq.symm ▸ List.mem_cons_self)
      exact ⟨name, rfl, found.1, found.2⟩
    · simp only [unresolved] at h
      split_ifs at h

section Receivers

variable {b : NodeId} {look : NodeId → Sight}

theorem conclude_memberAccess_of_blank (hk : ctx.tree.kind n = .memberAccess name)
    (hb : (ctx.tree.childIds n).head? = some b) (h : look b = .blank) :
    ctx.conclude scope n ((ctx.tree.operands n).map fun b => look b.1) =
      ctx.reference n name (.nothing none) := by
  rw [conclude_looking_memberAccess hk, hb, Option.map_some, h, member_blank]

theorem conclude_memberAccess_of_undecided (hk : ctx.tree.kind n = .memberAccess name)
    (hb : (ctx.tree.childIds n).head? = some b) (h : look b = .undecided) :
    ctx.conclude scope n ((ctx.tree.operands n).map fun b => look b.1) =
      ctx.reference n name (ctx.dotted scope n) := by
  rw [conclude_looking_memberAccess hk, hb, Option.map_some, h, member_undecided]

theorem conclude_calls_of_blank (hc : ctx.tree.Calls n c)
    (hk : ctx.tree.kind c = .memberAccess name) (hb : (ctx.tree.childIds c).head? = some b)
    (h : look b = .blank) : ∃ arguments,
    ctx.conclude scope n ((ctx.tree.operands n).map fun b => look b.1) =
      ctx.called n c name arguments (.nothing none) := by
  rw [conclude_of_calls_memberAccess hc hk, hb, Option.map_some, h, member_blank]
  exact ⟨_, rfl⟩

theorem conclude_calls_of_undecided (hc : ctx.tree.Calls n c)
    (hk : ctx.tree.kind c = .memberAccess name) (hb : (ctx.tree.childIds c).head? = some b)
    (h : look b = .undecided) : ∃ arguments,
    ctx.conclude scope n ((ctx.tree.operands n).map fun b => look b.1) =
      ctx.called n c name arguments (ctx.dotted scope c) := by
  rw [conclude_of_calls_memberAccess hc hk, hb, Option.map_some, h, member_undecided]
  exact ⟨_, rfl⟩

end Receivers

section Units

variable (units : ctx.env.UnitsUntyped)
include units

/-- Units are no routines and no types, and have no type. -/
theorem of_unitScope {id : DeclId} (h : (ctx.env.declaration id).unitScope.isSome) :
    (ctx.env.declaration id).isRoutine = false ∧ (ctx.env.declaration id).isType = false ∧
      (ctx.env.declaration id).ty = .unknown := by
  obtain ⟨hk, hty⟩ := units id h
  obtain hk | hk := hk <;> simp [DeclarationSpec.isRoutine, DeclarationSpec.isType, hk, hty]

theorem ty_reference_dotted : (ctx.reference n name (ctx.dotted scope n)).ty = .unknown := by
  cases hd : ctx.dotted scope n with
  | pending => rfl
  | nothing complaint => rfl
  | found first others =>
    obtain ⟨_, -, -, hunit⟩ := unitScope_of_dotted hd
    obtain ⟨hr, -, hty⟩ := of_unitScope units hunit
    simp [reference, mentioned?, hr, hty]

theorem called_dotted (arguments : List Ty) :
    (ctx.called n c name arguments (ctx.dotted scope c)).ty = .unknown ∧
      (ctx.called n c name arguments (ctx.dotted scope c)).callee = some (c, .unknown) := by
  cases hd : ctx.dotted scope c with
  | pending => exact ⟨rfl, rfl⟩
  | nothing complaint => exact ⟨rfl, rfl⟩
  | found first others =>
    obtain ⟨_, -, -, hunit⟩ := unitScope_of_dotted hd
    obtain ⟨hr, ht, hty⟩ := of_unitScope units hunit
    have uncallable : Ty.unknown.callResult? = none := rfl
    simp [called, hr, ht, hty, uncallable]

end Units

end TypingContext

namespace Typing

variable {env : Environment} {model : Model} {n m k : NodeId} {s s' : TypingState}

/-- A node is typed in the innermost scope around it. -/
def Placed (model : Model) (scope : ScopeId) (n : NodeId) : Prop :=
  (model.tree.kind n).isExpression = true → scope = model.scopeOf n

/-- The node around a node is typed. -/
def Enclosed (tree : SyntaxTree) (a : Annotations) (m : NodeId) : Prop :=
  ∃ p, m ∈ tree.childIds p ∧ (a.type? p).isSome

theorem Enclosed.mono {tree : SyntaxTree} {a a' : Annotations} (h : Enclosed tree a m)
    (types : ∀ p, (a.type? p).isSome → (a'.type? p).isSome) : Enclosed tree a' m := by
  obtain ⟨p, hp, typed⟩ := h
  exact ⟨p, hp, types p typed⟩

/-- What is seen of a node inside `n` is what was foreseen, or it has been forgotten that it was left
open, and that makes no difference: the node around it is typed already, or no dotted name around it
names a unit. -/
def Agreed (env : Environment) (model : Model) (n : NodeId) (s : TypingState) (m : NodeId) : Prop :=
  s.sight m = env.foresight model m ∨
    env.foresight model m = .undecided ∧ s.sight m = .blank ∧
      (Enclosed model.tree s.annotations m ∨ env.Undotted model n m)

/-- What is known about the nodes inside `n` is what was foreseen. A name or member is seen in
another way once the invocation that calls it has been typed. -/
structure Foreseen (env : Environment) (model : Model) (n : NodeId) (s : TypingState) : Prop where
  untouched : ∀ m, s.annotations.type? m = none →
    s.annotations.occurrence? m = none ∧ m ∉ s.deferred
  others : ∀ m, (model.tree.kind m).isExpression = false → s.sight m = env.foresight model m
  inner : ∀ m, n ∈ model.tree.ancestors m → (model.tree.kind m).isExpression = true →
    (s.annotations.type? m).isSome → (∀ p, model.tree.Calls p m → s.annotations.type? p = none) →
    Agreed env model n s m
  top : ∀ ty, s.annotations.type? n = some ty →
    (∀ p, model.tree.Calls p n → s.annotations.type? p = none) ∨
      env.foreseesRoutine model n = false → ty = (env.foreseen model n).ty

/-- What is seen of a node right after the step that takes it. -/
theorem sight_enter_self {finding : Finding} {tree : SyntaxTree}
    (h : s.annotations.occurrence? n = none ∧ n ∉ s.deferred) :
    (finding.enter tree n s).sight n = finding.sight n := by
  have declaration : ((finding.enter tree n s).annotations.occurrence? n).bind (·.declaration) =
      (finding.sight n).declaration := by
    rw [occurrence?_enter, h.1]
    simp only [sight]
    cases finding.occurrence with
    | none => rfl
    | some occurrence =>
      simp only [Option.elim_some, Option.bind_some]
      split_ifs <;> rfl
  have isOpen : (finding.enter tree n s).deferred.contains n = (finding.sight n).isOpen := by
    simp [deferred_enter, sight, h.2]
  simp only [TypingState.sight, declaration, isOpen, type?_enter, if_pos, Option.getD_some]
  rfl

/-- A name that will be left open is the receiver of a member access. -/
theorem exists_memberAccess_of_undecided (h : env.foresight model m = .undecided) :
    ∃ p name, model.tree.kind p = .memberAccess name ∧
      (model.tree.childIds p).head? = some m := by
  have opened : (env.foresight model m).isOpen = true := by rw [h]; rfl
  exact exists_memberAccess_of_isQualifier (foresight_eq_undecided opened).2

section Operands

variable (single : model.tree.OneParent)
include single

/-- A name that will be left open is the receiver of the member access around it. -/
theorem memberAccess_of_undecided {p : NodeId} (hm : m ∈ model.tree.childIds p)
    (h : env.foresight model m = .undecided) :
    (∃ name, model.tree.kind p = .memberAccess name) ∧
      (model.tree.childIds p).head? = some m := by
  obtain ⟨p', name, hk, hhead⟩ := exists_memberAccess_of_undecided h
  obtain rfl := single.eq hm (List.mem_of_head? hhead)
  exact ⟨⟨name, hk⟩, hhead⟩

/-- A typed node is agreed on as long as an invocation around it is not typed. -/
theorem Foreseen.agreed (h : Foreseen env model n s) {p : NodeId} (hm : m ∈ model.tree.childIds p)
    (inside : p = n ∨ n ∈ model.tree.ancestors p) (typed : (s.annotations.type? m).isSome)
    (free : model.tree.kind p = .invocation → s.annotations.type? p = none) :
    Agreed env model n s m := by
  cases he : (model.tree.kind m).isExpression with
  | false => exact .inl (h.others m he)
  | true =>
    refine h.inner m ?_ he typed fun caller hc => ?_
    · rw [single.ancestors hm, List.mem_cons]
      exact inside.imp_left Eq.symm
    · obtain rfl := single.eq hm hc.mem
      exact free hc.kind_eq

/-- What is seen of the operands of a node that is about to be typed. -/
theorem Foreseen.agreed_operand (h : Foreseen env model n s)
    (inside : k = n ∨ n ∈ model.tree.ancestors k) (fresh : s.annotations.type? k = none)
    (ready : ∀ b ∈ model.tree.operands k, (s.annotations.type? b.1).isSome) {b : Below k}
    (hb : b ∈ model.tree.operands k) : Agreed env model n s b.1 := by
  obtain hchild | ⟨c, hc, hchild⟩ := mem_operands hb
  · exact h.agreed single hchild inside (ready b hb) fun _ => fresh
  · refine h.agreed single hchild (.inr ?_) (ready b hb) fun hk => absurd hk hc.kind_ne
    rw [single.ancestors hc.mem, List.mem_cons]
    exact inside.imp_left Eq.symm

end Operands

section Steps

variable (units : env.UnitsUntyped) (single : model.tree.OneParent)
include units single

/-- Of a member access nothing is found out if it has been forgotten that its receiver was left open.
That was foreseen, unless the member access itself would be left open or names a unit. -/
theorem foresees_member_of_forgotten {b : NodeId} {name : String}
    (hk : model.tree.kind k = .memberAccess name) (hb : (model.tree.childIds k).head? = some b)
    (undecided : env.foresight model b = .undecided) (blank : s.sight b = .blank)
    (undotted : env.Undotted model n b) :
    let found := TypingContext.conclude ⟨env, model.tree⟩ (model.scopeOf k) k
      ((model.tree.operands k).map fun b => s.sight b.1)
    found.ty = (env.foreseen model k).ty ∧
      (n ∈ model.tree.ancestors k → env.Foresees model n k (found.sight k)) := by
  intro found
  let ctx : TypingContext := ⟨env, model.tree⟩
  have expected : env.foreseen model k = _ :=
    foreseen_of_isExpression (by rw [hk]; rfl)
  obtain ⟨around, unnamed⟩ := undotted.of_child single (List.mem_of_head? hb)
  have actual : found = ctx.reference k name (.nothing none) :=
    conclude_memberAccess_of_blank hk hb blank
  rw [conclude_memberAccess_of_undecided hk hb undecided] at expected
  rw [Environment.Foresees, foresight, actual, expected]
  refine ⟨(ty_reference_dotted units).symm, fun hin => ?_⟩
  cases hd : ctx.dotted (model.scopeOf k) k with
  | found first others =>
    obtain ⟨dotted, hdotted, hfound, hunit⟩ := unitScope_of_dotted hd
    exact absurd ⟨dotted, hdotted, first, hfound, hunit⟩ (unnamed hin)
  | pending =>
    refine .inr ⟨?_, ?_, around⟩
    · simp [reference, sight, Sight.undecided]
    · simp [reference, sight, Sight.blank]
  | nothing complaint =>
    refine .inl ?_
    simp [reference, sight]

omit single in
/-- A call of a member has no type if it has been forgotten that the receiver was left open. That was
foreseen, since a unit cannot be called. -/
theorem sight_call_of_forgotten {b c : NodeId} {name : String} (hc : model.tree.Calls k c)
    (hk : model.tree.kind c = .memberAccess name) (hb : (model.tree.childIds c).head? = some b)
    (undecided : env.foresight model b = .undecided) (blank : s.sight b = .blank) :
    (TypingContext.conclude ⟨env, model.tree⟩ (model.scopeOf k) k
      ((model.tree.operands k).map fun b => s.sight b.1)).sight k = env.foresight model k := by
  let ctx : TypingContext := ⟨env, model.tree⟩
  obtain ⟨arguments, actual⟩ := @conclude_calls_of_blank ctx
    (model.scopeOf k) k c name b s.sight hc hk hb blank
  obtain ⟨arguments', expected⟩ : ∃ arguments, env.foreseen model k =
      ctx.called k c name arguments (ctx.dotted (model.scopeOf k) c) := by
    rw [foreseen_of_isExpression hc.isExpression]
    exact conclude_calls_of_undecided hc hk hb undecided
  have untyped : (ctx.called k c name arguments' (ctx.dotted (model.scopeOf k) c)).ty = .unknown :=
    (called_dotted units arguments').1
  rw [foresight, actual, expected, sight_called hc.ne, sight_called hc.ne, untyped]
  rfl

/-- A node inside `n` that is about to be typed gets the type that was foreseen. -/
theorem Foreseen.conclude (h : Foreseen env model n s)
    (inside : k = n ∨ n ∈ model.tree.ancestors k) (hk : (model.tree.kind k).isExpression = true)
    (fresh : s.annotations.type? k = none)
    (ready : ∀ b ∈ model.tree.operands k, (s.annotations.type? b.1).isSome) :
    let found := TypingContext.conclude ⟨env, model.tree⟩ (model.scopeOf k) k
      ((model.tree.operands k).map fun b => s.sight b.1)
    found.ty = (env.foreseen model k).ty ∧
      (n ∈ model.tree.ancestors k → env.Foresees model n k (found.sight k)) := by
  intro found
  by_cases same : ∀ b ∈ model.tree.operands k, s.sight b.1 = env.foresight model b.1
  · have equal : found = env.foreseen model k := by
      rw [foreseen_of_isExpression hk, ← List.map_congr_left same]
    rw [equal]
    exact ⟨rfl, fun _ => .inl rfl⟩
  simp only [not_forall] at same
  obtain ⟨b, hb, hne⟩ := same
  obtain heq | ⟨undecided, blank, lost⟩ := h.agreed_operand single inside fresh ready hb
  · exact absurd heq hne
  -- Only member accesses and calls of members look whether their receiver was left open.
  obtain hchild | ⟨c, hc, hchild⟩ := mem_operands hb
  · obtain ⟨⟨name, hname⟩, hhead⟩ := memberAccess_of_undecided single hchild undecided
    have undotted : env.Undotted model n b.1 := by
      refine lost.resolve_left ?_
      rintro ⟨p, hp, typed⟩
      rw [single.eq hchild hp, fresh] at typed
      cases typed
    exact foresees_member_of_forgotten units single hname hhead undecided blank undotted
  · obtain ⟨⟨name, hname⟩, hhead⟩ := memberAccess_of_undecided single hchild undecided
    have sight := sight_call_of_forgotten units hc hname hhead undecided blank
    exact ⟨congrArg Sight.ty sight, fun _ => .inl sight⟩

/-- An invocation that is about to be typed gives the name or member `n` that it calls the type that
was foreseen, unless that is a routine. -/
theorem Foreseen.callee (h : Foreseen env model n s) (hc : model.tree.Calls k n)
    (place : model.scopeOf k = model.scopeOf n)
    (ready : ∀ b ∈ model.tree.operands k, (s.annotations.type? b.1).isSome)
    (plain : env.foreseesRoutine model n = false) :
    (TypingContext.conclude ⟨env, model.tree⟩ (model.scopeOf k) k
      ((model.tree.operands k).map fun b => s.sight b.1)).callee =
        some (n, (env.foreseen model n).ty) := by
  let ctx : TypingContext := ⟨env, model.tree⟩
  have hr := hc.isReference
  have alone : ctx.isCallee n = true := isCallee_of_calls single hc
  have expected : env.foreseen model n = _ := foreseen_of_isExpression hc.isExpression_callee
  rw [foreseesRoutine, foresight] at plain
  cases hk : model.tree.kind n with
  | nameReference name =>
    obtain ⟨arguments, actual⟩ := @conclude_of_calls_nameReference ctx
      (model.scopeOf k) k n name hc hk ((model.tree.operands k).map fun b => s.sight b.1)
    rw [conclude_nameReference hk] at expected
    rw [expected] at plain ⊢
    rw [actual, place]
    exact callee_called alone arguments plain
  | memberAccess name =>
    rw [conclude_looking_memberAccess hk] at expected
    rw [TypingContext.conclude_of_calls_memberAccess hc hk, place]
    cases hb : (model.tree.childIds n).head? with
    | none =>
      rw [hb] at expected
      rw [expected] at plain ⊢
      exact callee_called alone _ plain
    | some b =>
      have hchild := List.mem_of_head? hb
      have typed : (s.annotations.type? b).isSome := by
        have receiver : ∃ b' ∈ model.tree.operands n, b'.1 = b := by
          rw [← val_child?_zero] at hb
          simpa only [operands, hk, Option.mem_toList, Option.map_eq_some_iff] using hb
        obtain ⟨b', hb', rfl⟩ := receiver
        obtain ⟨operand, hoperand, heq⟩ := hc.operands hb'
        exact heq ▸ ready operand hoperand
      rw [hb, Option.map_some] at expected
      rw [Option.map_some]
      obtain heq | ⟨undecided, blank, -⟩ := h.agreed single hchild (.inl rfl) typed (by simp [hk])
      · rw [heq]
        rw [expected] at plain ⊢
        exact callee_called alone _ plain
      · rw [undecided, member_undecided] at expected
        rw [blank, member_blank, expected, ty_reference_dotted units]
        rfl
  | _ => simp [hk, NodeKind.isReference] at hr

end Steps

/-! ## Runs -/

/-- Recording what was foreseen. -/
theorem Foreseen.enter (h : Foreseen env model n s) {found : Finding}
    (sound : found.Sound ⟨env, model.tree⟩ k) (fresh : s.annotations.type? k = none)
    (other : (model.tree.kind k).isExpression = false → found = {})
    (agreed : (model.tree.kind k).isExpression = true → n ∈ model.tree.ancestors k →
      env.Foresees model n k (found.sight k))
    (ty : k = n → found.ty = (env.foreseen model n).ty)
    (callee : model.tree.Calls k n → env.foreseesRoutine model n = false →
      found.callee = some (n, (env.foreseen model n).ty)) :
    Foreseen env model n (found.enter model.tree k s) := by
  have untouched := h.untouched k fresh
  constructor
  case untouched =>
    intro m hm
    obtain ⟨hkm, uncalled, before⟩ := ne_of_type?_enter sound hm
    have occurrence := occurrence?_enter_of_ne (s := s) sound hkm uncalled
    have deferred := mem_deferred_enter_of_ne (s := s) sound hkm uncalled
    obtain ⟨unnamed, undeferred⟩ := h.untouched m before
    exact ⟨occurrence.trans unnamed, fun hin => undeferred (deferred.1 hin)⟩
  case others =>
    intro m hm
    have uncalled : ¬model.tree.Calls k m := by
      intro hc
      simp [hc.isExpression_callee] at hm
    rw [← h.others m hm]
    by_cases hkm : k = m
    · subst hkm
      rw [sight_enter_self untouched, other hm]
      simp [TypingState.sight, sight, fresh, untouched]
    · have same := sight_enter_of_ne (s := s) sound hkm uncalled
      exact same
  case inner =>
    intro m hin hm typed free
    have free' : ∀ p, model.tree.Calls p m → k ≠ p ∧ s.annotations.type? p = none := by
      intro p hp
      obtain ⟨hkp, -, before⟩ := ne_of_type?_enter sound (free p hp)
      exact ⟨hkp, before⟩
    by_cases hkm : k = m
    · subst hkm
      rw [Agreed, sight_enter_self untouched]
      refine (agreed hm hin).imp_right ?_
      rintro ⟨undecided, blank, around⟩
      exact ⟨undecided, blank, .inr around⟩
    · have uncalled : ¬model.tree.Calls k m := fun hc => (free' k hc).1 rfl
      rw [type?_enter_of_ne sound hkm uncalled] at typed
      have before := h.inner m hin hm typed fun p hp => (free' p hp).2
      rw [Agreed, sight_enter_of_ne sound hkm uncalled]
      refine before.imp_right ?_
      rintro ⟨undecided, blank, lost⟩
      refine ⟨undecided, blank, ?_⟩
      exact lost.imp_left fun enclosed => enclosed.mono fun _ => isSome_type?_enter _ _
  case top =>
    intro now hnow apart
    by_cases hkn : k = n
    · rw [hkn, type?_enter, if_pos rfl, ty hkn] at hnow
      exact (Option.some.inj hnow).symm
    by_cases hc : model.tree.Calls k n
    · obtain free | plain := apart
      · exact absurd rfl (ne_of_type?_enter sound (free k hc)).1
      · rw [type?_enter, if_neg hkn, callee hc plain] at hnow
        simpa using hnow.symm
    · rw [type?_enter_of_ne sound hkn hc] at hnow
      refine h.top now hnow (apart.imp_left fun free p hp => ?_)
      exact (ne_of_type?_enter sound (free p hp)).2.2

section Collected

variable (units : env.UnitsUntyped) (single : model.tree.OneParent)
  (declarative : model.annotations.Declarative model.tree)

section Places

include single declarative

/-- An expression stands in the scope of the node around it. -/
theorem scopeOf_child (hm : m ∈ model.tree.childIds k)
    (he : (model.tree.kind m).isExpression = true) : model.scopeOf m = model.scopeOf k := by
  unfold Model.scopeOf
  rw [single.ancestors hm, List.findSome?_cons, declarative.scopes m he]

theorem Placed.operand {scope : ScopeId} (h : Placed model scope k) {b : Below k}
    (hb : b ∈ model.tree.operands k) : Placed model scope b.1 := by
  intro he
  rw [h (isExpression_of_mem_operands hb)]
  obtain hchild | ⟨c, hc, hchild⟩ := mem_operands hb
  · exact (scopeOf_child single declarative hchild he).symm
  · rw [scopeOf_child single declarative hchild he,
      scopeOf_child single declarative hc.mem hc.isExpression_callee]

end Places

include declarative in
/-- Nothing is known about the expressions of a unit right after its collection. -/
theorem foreseen_collected (env : Environment) (hn : (model.tree.kind n).isExpression = true) :
    Foreseen env model n { annotations := model.annotations } where
  untouched m _ := ⟨declarative.occurrences m, List.not_mem_nil⟩
  others m hm := by
    rw [foresight_of_not_isExpression hm]
    simp [TypingState.sight, declarative.occurrences m, Model.typeOf]
  inner m _ hm typed := by
    rw [declarative.types m hm] at typed
    cases typed
  top ty hty := by
    rw [declarative.types n hn] at hty
    cases hty

include units single declarative in
/-- A step of typing finds out what was foreseen. -/
theorem Step.foreseen (step : Step ⟨env, model.tree⟩ (Placed model) s s')
    (hn : (model.tree.kind n).isExpression = true) (h : Foreseen env model n s) :
    Foreseen env model n s' := by
  cases step with
  | @type scope k sights placed fresh ready seen =>
    have sound := sound_conclude ⟨env, model.tree⟩ scope k sights
    obtain rfl := seen single
    refine h.enter sound fresh (fun hk => conclude_of_not_isExpression hk)
      (fun hk hin => ?_) ?_ fun hc plain => ?_
    · obtain rfl := placed hk
      exact (h.conclude units single (.inr hin) hk fresh ready).2 hin
    · rintro rfl
      obtain rfl := placed hn
      exact (h.conclude units single (.inl rfl) hn fresh ready).1
    · obtain rfl := placed hc.isExpression
      exact h.callee units single hc (scopeOf_child single declarative hc.mem hn).symm ready plain

end Collected

/-- It is forgotten which nodes were left open. That makes no difference for nodes around which
another one is typed already, or no dotted name names a unit. -/
theorem Foreseen.forget (h : Foreseen env model n s)
    (settled : ∀ m ∈ s.deferred, n ∈ model.tree.ancestors m →
      env.foresight model m = .undecided →
      Enclosed model.tree s.annotations m ∨ env.Undotted model n m) :
    Foreseen env model n { annotations := s.annotations } := by
  have kept : ∀ m, m ∉ s.deferred →
      TypingState.sight { annotations := s.annotations } m = s.sight m := by
    intro m hm
    simp [TypingState.sight, hm]
  constructor
  case untouched => exact fun m hm => ⟨(h.untouched m hm).1, List.not_mem_nil⟩
  case others =>
    intro m hm
    have same := h.others m hm
    rw [kept m ?_, same]
    intro hin
    have opened : (s.sight m).isOpen = true := by simp [TypingState.sight, hin]
    rw [same, foresight_of_not_isExpression hm] at opened
    cases opened
  case inner =>
    intro m hin hm typed free
    by_cases deferred : m ∈ s.deferred
    · have opened : (s.sight m).isOpen = true := by simp [TypingState.sight, deferred]
      obtain same | ⟨-, blank, -⟩ := h.inner m hin hm typed free
      · rw [same] at opened
        obtain ⟨undecided, -⟩ := foresight_eq_undecided opened
        refine .inr ⟨undecided, ?_, settled m deferred hin undecided⟩
        have before := same.trans undecided
        simp only [TypingState.sight, Sight.undecided, Sight.mk.injEq] at before
        simp [TypingState.sight, Sight.blank, before.1, before.2.1]
      · rw [blank] at opened
        cases opened
    · rw [Agreed, kept m deferred]
      exact h.inner m hin hm typed free
  case top => exact h.top

end Typing

end Pascal
