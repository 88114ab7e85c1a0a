import Pascal.Proofs.Choice
import Pascal.Proofs.Session.MadeTypes
import Pascal.Proofs.Settled

/-!
# Where unknown types come from

If the declared types mention no unknown type, units apart, then an unknown type comes out of typing
for few reasons: an operand is unknown already, something is complained about, or a unit is named.
What is seen of an operand is unknown altogether or nothing unknown can be got out of it, the elements
of brackets apart, which no expression gets at.
-/

namespace Pascal

/-! ## Types -/

namespace Ty

mutual
/-- The unknown type stands somewhere in a type. -/
def mentionsUnknown : Ty → Bool
  | unknown => true
  | pointer target _ _ | array _ target | set target | classRef target | distinct _ target =>
    target.mentionsUnknown
  | procedural _ params result => anyMentionsUnknown params || result.mentionsUnknown
  | bracket elements => anyMentionsUnknown elements
  | _ => false
/-- The unknown type stands somewhere in one of several types. -/
def anyMentionsUnknown : List Ty → Bool
  | [] => false
  | ty :: rest => ty.mentionsUnknown || anyMentionsUnknown rest
end

/-- An expression can get at an unknown type through a value of the type. -/
def yieldsUnknown : Ty → Bool
  | unknown => true
  | pointer target _ _ | classRef target | distinct _ target => target.yieldsUnknown
  | procedural _ _ result => result.yieldsUnknown
  | _ => false

/-- A type is unknown altogether, or nothing unknown can be got out of it. -/
def Clear (ty : Ty) : Prop := ty = .unknown ∨ ty.yieldsUnknown = false

theorem yieldsUnknown_of_not_mentions {ty : Ty} (h : ty.mentionsUnknown = false) :
    ty.yieldsUnknown = false := by
  induction ty using Ty.induct with
  | pointer | classRef | distinct => simp_all [mentionsUnknown, yieldsUnknown]
  | procedural kind params result _ ih =>
    simp only [mentionsUnknown, Bool.or_eq_false_iff] at h
    exact ih h.2
  | _ => first | rfl | simp [mentionsUnknown] at h

theorem mem_of_not_anyMentionsUnknown {tys : List Ty} (h : anyMentionsUnknown tys = false) :
    ∀ ty ∈ tys, ty.mentionsUnknown = false := by
  induction tys with
  | nil => simp
  | cons ty rest ih =>
    simp only [anyMentionsUnknown, Bool.or_eq_false_iff] at h
    exact List.forall_mem_cons.2 ⟨h.1, ih h.2⟩

theorem eq_unknown {ty : Ty} (h : ty.isUnknown = true) : ty = .unknown := by
  cases ty <;> first | rfl | cases h

theorem ne_unknown {ty : Ty} (h : ty.yieldsUnknown = false) : ty ≠ .unknown := by
  rintro rfl
  cases h

theorem Clear.of_ne {ty : Ty} (h : ty.Clear) (hty : ty ≠ .unknown) : ty.yieldsUnknown = false :=
  h.resolve_left hty

theorem calculable_yieldsUnknown : Calculable fun ty => ty.yieldsUnknown = false where
  plain {ty} h := by cases ty <;> first | rfl | cases h
  joined _ _ := rfl

/-- Typing keeps types clear. -/
theorem hereditary_clear : Hereditary Clear where
  plain h := .inr (calculable_yieldsUnknown.plain h)
  joined _ _ := .inr rfl
  unknown := .inl rfl
  nil := .inr rfl
  address {target} h known := .inr (h.of_ne (by rintro rfl; cases known))
  bracket _ := .inr rfl
  target h := .inr (h.of_ne Ty.noConfusion)
  result h := .inr (h.of_ne Ty.noConfusion)
  referent h := .inr (h.of_ne Ty.noConfusion)
  represented h := .inr (h.of_ne Ty.noConfusion)

theorem yieldsUnknown_unaliased (ty : Ty) : ty.unaliased.yieldsUnknown = ty.yieldsUnknown := by
  fun_induction unaliased ty with
  | case1 name target ih => exact ih
  | case2 ty _ => rfl

/-- What a call of a value gives is known, if it gives anything. -/
theorem yieldsUnknown_of_callResult? {ty result : Ty} (h : ty.yieldsUnknown = false)
    (hr : ty.callResult? = some result) : result.yieldsUnknown = false := by
  rw [← yieldsUnknown_unaliased] at h
  unfold callResult? procedural? at hr
  cases hty : ty.unaliased with
  | procedural kind params target =>
    rw [hty] at hr h
    cases hr
    exact h
  | _ => simp [hty] at hr

end Ty

/-! ## Declarations -/

/-- Declared types mention no unknown type, except that units have no other. Routines have the types
of their signatures. -/
structure Environment.Clear (env : Environment) : Prop where
  units : ∀ d, (env.declaration d).isUnitName = true →
    (env.declaration d).ty = .unknown ∧ (env.declaration d).routine = none
  others : ∀ d, (env.declaration d).isUnitName = false →
    (env.declaration d).ty.mentionsUnknown = false
  routines : ∀ d signature, (env.declaration d).routine = some signature →
    (env.declaration d).ty = signature.ty

namespace Environment.Clear

variable {env : Environment} (clear : env.Clear)
include clear

theorem isUnitName {d : DeclId} (h : (env.declaration d).ty = .unknown) :
    (env.declaration d).isUnitName = true := by
  by_contra hn
  have mentions := clear.others d (Bool.not_eq_true _ ▸ hn)
  rw [h] at mentions
  cases mentions

theorem signatures (d : DeclId) (signature : RoutineSignature)
    (h : (env.declaration d).routine = some signature) :
    signature.Made fun ty => ty.yieldsUnknown = false := by
  have named : (env.declaration d).isUnitName = false := by
    by_contra hn
    have := (clear.units d (Bool.not_eq_false _ ▸ hn)).2
    cases h.symm.trans this
  have mentions := clear.others d named
  rw [clear.routines d signature h, RoutineSignature.ty, Ty.mentionsUnknown,
    Bool.or_eq_false_iff] at mentions
  exact ⟨fun p hp => Ty.yieldsUnknown_of_not_mentions
    (Ty.mem_of_not_anyMentionsUnknown mentions.1 p hp),
    Ty.yieldsUnknown_of_not_mentions mentions.2⟩

theorem declares : env.Declares Ty.Clear where
  types d := by
    cases hn : (env.declaration d).isUnitName with
    | true => exact .inl (clear.units d hn).1
    | false => exact .inr (Ty.yieldsUnknown_of_not_mentions (clear.others d hn))
  signatures d signature h :=
    have known := clear.signatures d signature h
    ⟨fun p hp => .inr (known.params p hp), .inr known.result⟩

end Environment.Clear

/-! ## Findings -/

namespace TypingContext

variable {ctx : TypingContext} {scope : ScopeId} {look : NodeId → Sight} {n c : NodeId}
  {name : String}

/-- A signature of a routine belongs to a declaration. -/
theorem exists_of_mem_routines {ids : List DeclId} {candidate : Invocable}
    (h : candidate ∈ ctx.routines ids) : ∃ d signature, candidate.declaration = some d ∧
      (ctx.env.declaration d).routine = some signature ∧ candidate.result = signature.result := by
  obtain ⟨d, -, hd⟩ := List.mem_filterMap.1 h
  obtain ⟨signature, hs, rfl⟩ := Option.map_eq_some_iff.1 hd
  exact ⟨d, signature, rfl, hs, rfl⟩

/-- If all candidates give something known, an unknown type is complained about. -/
theorem exists_issue_of_settled {candidates : List Invocable} {arguments : List Ty}
    (known : ∀ candidate ∈ candidates, candidate.result ≠ .unknown)
    (h : (ctx.settled n name (ctx.env.types.choose candidates arguments) arguments).ty = .unknown) :
    ctx.env.types.choose candidates arguments = .noApplicable ∧
      (ctx.settled n name (ctx.env.types.choose candidates arguments) arguments).issue =
        some (n, .noApplicableOverload name (arguments.map ctx.env.types.image)) := by
  have chosen := @TypeTable.mem_of_chosen ctx.env.types candidates arguments
  cases hc : ctx.env.types.choose candidates arguments with
  | noApplicable => exact ⟨rfl, rfl⟩
  | resolved candidate | ambiguous candidate =>
    rw [hc] at h chosen
    exact absurd h (known candidate (chosen rfl))

/-- A reference that is found calls a routine without arguments, or it is what it refers to. -/
theorem reference_found (ctx : TypingContext) (n : NodeId) (name : String) (first : DeclId)
    (others : List DeclId) :
    (∃ chosen ∈ ctx.routines (first :: others), ctx.reference n name (.found first others) =
      { ty := chosen.result
        occurrence := some (n, ⟨name, chosen.declaration⟩)
        invocation := some chosen }) ∨
    ctx.reference n name (.found first others) =
      { ty := (ctx.env.declaration first).ty, occurrence := some (n, ⟨name, some first⟩) } := by
  simp only [reference]
  cases hm : ctx.mentioned? n first others with
  | none => exact .inr rfl
  | some chosen =>
    unfold mentioned? at hm
    split_ifs at hm
    exact .inl ⟨chosen, TypeTable.mem_of_chosen hm, rfl⟩

/-- A call of what is found is refused, or it calls a routine, or a value or type. -/
theorem called_found (ctx : TypingContext) (n c : NodeId) (name : String) (arguments : List Ty)
    (first : DeclId) (others : List DeclId) :
    let call := ctx.called n c name arguments (.found first others)
    let declaration := ctx.env.declaration first
    call =
      { issue := some (n, .noApplicableOverload name (arguments.map ctx.env.types.image))
        occurrence := some (c, ⟨name, none⟩)
        callee := some (c, .unknown) } ∨
    (∃ chosen d, chosen ∈ ctx.routines (first :: others) ∧ chosen.declaration = some d ∧
      call.ty = chosen.result ∧ call.callee = some (c, (ctx.env.declaration d).ty) ∧
      call.occurrence = some (c, ⟨name, some d⟩)) ∨
    call =
      { ty := if declaration.isType then declaration.ty
          else declaration.ty.callResult?.getD .unknown
        occurrence := some (c, ⟨name, some first⟩)
        callee := some (c, declaration.ty) } := by
  intro call declaration
  have chosen := @TypeTable.mem_of_chosen ctx.env.types (ctx.routines (first :: others)) arguments
  cases hr : declaration.isRoutine with
  | false =>
    refine .inr (.inr ?_)
    simp only [call, called]
    rw [if_neg (by rw [hr]; decide)]
  | true =>
    simp only [call, called]
    rw [if_pos hr]
    cases hc : ctx.env.types.choose (ctx.routines (first :: others)) arguments with
    | noApplicable => exact .inl rfl
    | resolved candidate | ambiguous candidate =>
      rw [hc] at chosen
      obtain ⟨d, -, hd, -⟩ := exists_of_mem_routines (chosen rfl)
      refine .inr (.inl ⟨candidate, d, chosen rfl, hd, rfl, ?_, ?_⟩)
      · simp [Resolution.chosen?, hd]
      · simp [Resolution.chosen?, hd]

section Clear

variable (clear : ctx.env.Clear)
include clear

theorem result_ne_unknown {ids : List DeclId} {candidate : Invocable}
    (h : candidate ∈ ctx.routines ids) : candidate.result ≠ .unknown := by
  obtain ⟨d, signature, -, hs, hr⟩ := exists_of_mem_routines h
  exact hr ▸ Ty.ne_unknown (clear.signatures d signature hs).result

theorem isUnitName_of_mem_routines {ids : List DeclId} {candidate : Invocable} {d : DeclId}
    (h : candidate ∈ ctx.routines ids) (hd : candidate.declaration = some d) :
    (ctx.env.declaration d).isUnitName = false := by
  obtain ⟨_, signature, heq, hs, -⟩ := exists_of_mem_routines h
  cases hd.symm.trans heq
  by_contra hn
  cases hs.symm.trans (clear.units d (Bool.not_eq_false _ ▸ hn)).2

/-- What refers to a unit has no type. -/
theorem reference_of_isUnitName {referral : Referral} {occurrence : Occurrence} {d : DeclId}
    (ho : (ctx.reference n name referral).occurrence = some (n, occurrence))
    (hd : occurrence.declaration = some d) (hu : (ctx.env.declaration d).isUnitName = true) :
    (ctx.reference n name referral).ty = .unknown := by
  cases referral with
  | pending | nothing => rfl
  | found first others =>
    obtain ⟨chosen, hc, heq⟩ | heq := reference_found ctx n name first others
    · rw [heq] at ho
      cases ho
      cases (isUnitName_of_mem_routines clear hc hd).symm.trans hu
    · rw [heq] at ho ⊢
      cases ho
      cases hd
      exact (clear.units d hu).1

/-- What is called and refers to a unit has no type. -/
theorem called_of_isUnitName {arguments : List Ty} {referral : Referral} {occurrence : Occurrence}
    {d : DeclId} (ho : (ctx.called n c name arguments referral).occurrence = some (c, occurrence))
    (hd : occurrence.declaration = some d) (hu : (ctx.env.declaration d).isUnitName = true) :
    (ctx.called n c name arguments referral).callee = some (c, .unknown) := by
  cases referral with
  | pending | nothing => rfl
  | found first others =>
    obtain heq | ⟨chosen, d', hc, hd', -, callee, occurs⟩ | heq :=
      called_found ctx n c name arguments first others
    · rw [heq]
    · cases ho.symm.trans occurs
      cases hd
      cases (isUnitName_of_mem_routines clear hc hd').symm.trans hu
    · rw [heq] at ho ⊢
      cases ho
      cases hd
      simp only [(clear.units d hu).1]

/-- Why an operator gives something unknown. -/
theorem unknown_of_applied {operator : Operator} {operands : List Ty}
    (seen : ∀ ty ∈ operands, ty.Clear) (h : (ctx.applied n operator operands).ty = .unknown) :
    .unknown ∈ operands ∨ ∃ kind, (ctx.applied n operator operands).issue = some (n, kind) := by
  unfold applied at h ⊢
  split_ifs at h ⊢ with hu
  · obtain ⟨ty, hty, unknown⟩ := List.any_eq_true.1 hu
    exact .inl (Ty.eq_unknown unknown ▸ hty)
  · have known : ∀ ty ∈ operands, ty.unaliased.yieldsUnknown = false := by
      intro ty hty
      rw [Ty.yieldsUnknown_unaliased]
      refine (seen ty hty).of_ne ?_
      rintro rfl
      exact hu (List.any_eq_true.2 ⟨_, hty, rfl⟩)
    have made := Environment.made_operatorCandidates Ty.calculable_yieldsUnknown clear.signatures
      known operator
    exact .inr ⟨_, (exists_issue_of_settled
      (fun candidate hc => Ty.ne_unknown (made candidate hc).result) h).2⟩

/-- Why an expression with two operands gives something unknown. -/
theorem unknown_of_combined {operator : BinaryOperator} {left right : Ty} (hl : left.Clear)
    (hr : right.Clear) (h : (ctx.combined n operator left right).ty = .unknown) :
    left = .unknown ∨ right = .unknown ∨
      ∃ kind, (ctx.combined n operator left right).issue = some (n, kind) := by
  cases operator with
  | is => cases h
  | as =>
    cases right with
    | classRef target => exact absurd h (Ty.ne_unknown (hr.of_ne Ty.noConfusion))
    | _ => exact .inr (.inl h)
  | _ =>
    obtain hmem | issue := unknown_of_applied clear (by simpa using ⟨hl, hr⟩) h
    · simp only [List.mem_cons, List.not_mem_nil, or_false] at hmem
      exact hmem.imp Eq.symm fun h => .inl h.symm
    · exact .inr (.inr issue)

end Clear

/-- Why a pointer leads to something unknown. -/
theorem unknown_of_dereferenced {ty : Ty} (hty : ty.Clear)
    (h : (ctx.dereferenced n ty).ty = .unknown) :
    ty = .unknown ∨ ∃ kind, (ctx.dereferenced n ty).issue = some (n, kind) := by
  obtain rfl | known := hty
  · exact .inl rfl
  rw [← Ty.yieldsUnknown_unaliased] at known
  refine .inr ?_
  unfold dereferenced at h ⊢
  cases hu : ty.unaliased with
  | unknown =>
    rw [hu] at known
    cases known
  | pointer target isNil math =>
    rw [hu] at known h
    dsimp only at h ⊢
    split_ifs at h ⊢
    · exact ⟨_, rfl⟩
    · exact absurd h (Ty.ne_unknown known)
  | _ => exact ⟨_, rfl⟩

/-- Why an address is unknown. -/
theorem unknown_of_addressType {operand : Sight} (h : ctx.addressType operand = .unknown) :
    operand.ty = .unknown := by
  unfold addressType at h
  dsimp only at h
  split_ifs at h
  · exact h
  · cases h

theorem unresolved_ne_nothing_none : ctx.unresolved n name ≠ .nothing none := by
  unfold unresolved
  split_ifs <;> rintro ⟨⟩

/-- A name is looked for in vain without a complaint only if it is a member whose receiver is
unknown, names a unit or is left open. -/
theorem receiver_of_referral (hc : (ctx.tree.kind c).isReference = true)
    (h : ctx.referral scope look c = .nothing none) :
    ∃ name, ctx.tree.kind c = .memberAccess name ∧
      ∀ receiver, (ctx.tree.childIds c).head? = some receiver →
        (look receiver).ty = .unknown ∨ (ctx.unitNamed? (look receiver).declaration).isSome ∨
          (look receiver).isOpen = true := by
  unfold referral at h
  cases hk : ctx.tree.kind c with
  | nameReference name =>
    simp only [hk, named] at h
    split at h
    · cases h
    · exact absurd h unresolved_ne_nothing_none
  | memberAccess name =>
    refine ⟨name, rfl, fun receiver hr => ?_⟩
    simp only [hk, hr, Option.map_some, member] at h
    split at h
    · cases h
    · split_ifs at h with dotted
      · exact .inr (by simpa using dotted)
      · unfold valueMember at h
        split_ifs at h with unknown
        · exact .inl (Ty.eq_unknown unknown)
        · split at h <;> cases h
  | _ => simp [hk, NodeKind.isReference] at hc

end TypingContext

end Pascal
