import Pascal.Proofs.Collection.Invariants
import Pascal.Proofs.Steps

/-!
# The types that typing finds

A type that typing finds is the declared type of something, a type of the language, or made of the
types of operands in one of a few ways. So a property that all declared types have, and that is not
lost on these ways, holds of every type that is found.
-/

namespace Pascal

/-- A property that typing keeps. -/
structure Ty.Hereditary (T : Ty → Prop) : Prop extends Ty.Calculable T where
  unknown : T .unknown
  nil : T .nil
  address {target : Ty} (h : T target) (known : target.isUnknown = false) : T (.pointerTo target false)
  bracket {elements : List Ty} (h : ∀ ty ∈ elements, T ty) : T (.bracket elements)
  target {target : Ty} {isNil math : Bool} (h : T (.pointer target isNil math)) : T target
  result {kind : ProceduralKind} {params : List Ty} {result : Ty}
    (h : T (.procedural kind params result)) : T result
  referent {target : Ty} (h : T (.classRef target)) : T target
  represented {name : String} {target : Ty} (h : T (.distinct name target)) : T target

/-- Declared types have a property. -/
structure Environment.Declares (T : Ty → Prop) (env : Environment) : Prop where
  types : ∀ d, T (env.declaration d).ty
  signatures : ∀ d signature, (env.declaration d).routine = some signature → signature.Made T

/-- What is found out about a node has a property. -/
structure Finding.Made (T : Ty → Prop) (finding : Finding) : Prop where
  ty : T finding.ty
  callee : ∀ callee ∈ finding.callee, T callee.2
  invocation : ∀ inv ∈ finding.invocation, inv.Made T

/-- The types and signatures that are remembered have a property. -/
structure Annotations.Made (T : Ty → Prop) (a : Annotations) : Prop where
  types : ∀ n ty, a.type? n = some ty → T ty
  invocations : ∀ n inv, a.invocation? n = some inv → inv.Made T

variable {T : Ty → Prop}

/-! ## Operators -/

namespace Environment

variable {env : Environment}

theorem made_ofDeclaration? (h : ∀ d signature, (env.declaration d).routine = some signature →
      signature.Made T) {d : DeclId} {c : Invocable}
    (hc : Invocable.ofDeclaration? d (env.declaration d).toDeclarationSpec = some c) :
    c.Made T := by
  obtain ⟨signature, hs, rfl⟩ := Option.map_eq_some_iff.1 hc
  exact ⟨(h d signature hs).params, (h d signature hs).result⟩

/-- The signatures of an operator for an operand. -/
theorem made_candidates (hT : Ty.Calculable T)
    (h : ∀ d signature, (env.declaration d).routine = some signature → signature.Made T) {ty : Ty}
    (ht : T ty.unaliased) (operator : Operator) : ∀ c ∈ env.candidates ty operator, c.Made T := by
  have methods : ∀ id operator, ∀ c ∈ env.operatorMethods id operator, c.Made T := by
    intro id operator c hc
    obtain ⟨d, -, hc⟩ := List.mem_filterMap.1 hc
    dsimp only at hc
    split_ifs at hc
    exact made_ofDeclaration? h hc
  simp only [candidates, List.mem_eraseDups]
  generalize ty.unaliased = bare at ht
  cases operator with
  | binary operator =>
    have further : ∀ c ∈ Operator.onAnything operator, c.Made T :=
      Operator.made_of_plain hT (by cases operator <;> rfl)
    have builtin := Operator.made_builtinBinary hT env.types operator ht
    cases bare with
    | struct id => exact List.forall_mem_append.2 ⟨methods id _, further⟩
    | _ => exact List.forall_mem_append.2 ⟨builtin, further⟩
  | unary operator =>
    have builtin := Operator.made_builtinUnary hT env.types operator bare
    cases bare with
    | struct id => exact methods id _
    | _ => exact builtin

/-- The signatures of an operator for all its operands. -/
theorem made_operatorCandidates (hT : Ty.Calculable T)
    (h : ∀ d signature, (env.declaration d).routine = some signature → signature.Made T)
    {operands : List Ty} (ho : ∀ ty ∈ operands, T ty.unaliased) (operator : Operator) :
    ∀ c ∈ env.operatorCandidates operator operands, c.Made T := by
  intro c hc
  obtain ⟨ty, hty, hc⟩ := List.mem_flatMap.1 (List.mem_eraseDups.1 hc)
  exact made_candidates hT h (ho ty hty) operator c hc

end Environment

theorem Ty.Hereditary.unaliased (hT : Ty.Hereditary T) {ty : Ty} (h : T ty) : T ty.unaliased := by
  fun_induction Ty.unaliased ty with
  | case1 name target ih => exact ih (hT.represented h)
  | case2 ty _ => exact h

theorem Ty.Hereditary.callResult (hT : Ty.Hereditary T) {ty : Ty} (h : T ty) :
    T (ty.callResult?.getD .unknown) := by
  have bare := hT.unaliased h
  unfold Ty.callResult? Ty.procedural?
  split
  · rename_i heq
    rw [heq] at bare
    exact hT.result bare
  · exact hT.unknown

/-! ## Findings -/

/-- The signature that is chosen is one of the candidates. -/
theorem TypeTable.mem_of_chosen {types : TypeTable} {candidates : List Invocable}
    {arguments : List Ty} {c : Invocable} (h : (types.choose candidates arguments).chosen? = some c) :
    c ∈ candidates := by
  rw [Resolution.chosen?_eq_head?, choose, Resolution.winners_ofWinners] at h
  exact Environment.mem_of_mem_best (List.mem_mergeSort.1 (List.mem_of_head? h))

namespace TypingContext

variable {ctx : TypingContext} {scope : ScopeId} {n : NodeId}

theorem made_routines (h : ctx.env.Declares T) (ids : List DeclId) :
    ∀ c ∈ ctx.routines ids, c.Made T := by
  intro c hc
  obtain ⟨d, -, hc⟩ := List.mem_filterMap.1 hc
  exact Environment.made_ofDeclaration? h.signatures hc

theorem made_of_chosen {resolution : Resolution} (hT : Ty.Hereditary T)
    (h : ∀ c, resolution.chosen? = some c → c.Made T) : T resolution.result := by
  unfold Resolution.result
  cases hc : resolution.chosen? with
  | none => exact hT.unknown
  | some c => exact (h c hc).result

theorem made_plain {ty : Ty} {issue : Option (NodeId × IssueKind)} (h : T ty) :
    Finding.Made T { ty, issue } :=
  ⟨h, by simp, by simp⟩

theorem made_reference (hT : Ty.Hereditary T) (h : ctx.env.Declares T) (name : String)
    (referral : Referral) : (ctx.reference n name referral).Made T := by
  cases referral with
  | pending | nothing => exact ⟨hT.unknown, by simp [reference], by simp [reference]⟩
  | found first others =>
    simp only [reference]
    cases hm : ctx.mentioned? n first others with
    | none => exact ⟨h.types first, by simp, by simp⟩
    | some chosen =>
      have made : chosen.Made T := by
        unfold mentioned? at hm
        split_ifs at hm
        exact made_routines h _ _ (TypeTable.mem_of_chosen hm)
      exact ⟨made.result, by simp, by simpa using made⟩

theorem made_called (hT : Ty.Hereditary T) (h : ctx.env.Declares T) (callee : NodeId)
    (name : String) (arguments : List Ty) (referral : Referral) :
    (ctx.called n callee name arguments referral).Made T := by
  cases referral with
  | pending | nothing =>
    exact ⟨hT.unknown, by simpa [called] using hT.unknown, by simp [called]⟩
  | found first others =>
    simp only [called]
    split_ifs
    · have made : ∀ c, (ctx.env.types.choose (ctx.routines (first :: others)) arguments).chosen? =
          some c → c.Made T := fun c hc => made_routines h _ _ (TypeTable.mem_of_chosen hc)
      refine ⟨made_of_chosen hT made, ?_, made⟩
      dsimp only
      split
      · rintro _ hcallee
        obtain ⟨id, -, rfl⟩ := Option.map_eq_some_iff.1 hcallee
        exact h.types id
      · rintro _ ⟨⟩
        exact hT.unknown
    · exact ⟨h.types first, by simpa using h.types first, by simp⟩
    · exact ⟨hT.callResult (h.types first), by simpa using h.types first, by simp⟩

theorem made_applied (hT : Ty.Hereditary T) (h : ctx.env.Declares T) (operator : Operator)
    {operands : List Ty} (ho : ∀ ty ∈ operands, T ty) :
    (ctx.applied n operator operands).Made T := by
  unfold applied
  split_ifs
  · exact made_plain hT.unknown
  · have made : ∀ c, (ctx.env.resolveOperator operator operands).chosen? = some c → c.Made T :=
      fun c hc => Environment.made_operatorCandidates hT.toCalculable h.signatures
        (fun ty hty => hT.unaliased (ho ty hty)) operator c (TypeTable.mem_of_chosen hc)
    exact ⟨made_of_chosen hT made, by simp [settled], made⟩

theorem made_combined (hT : Ty.Hereditary T) (h : ctx.env.Declares T) (operator : BinaryOperator)
    {left right : Ty} (hl : T left) (hr : T right) :
    (ctx.combined n operator left right).Made T := by
  cases operator with
  | is => exact made_plain (hT.plain rfl)
  | as =>
    cases right with
    | classRef target => exact made_plain (hT.referent hr)
    | _ => exact made_plain hr
  | _ => exact made_applied hT h _ (by simpa using ⟨hl, hr⟩)

theorem made_dereferenced (hT : Ty.Hereditary T) {ty : Ty} (h : T ty) :
    (ctx.dereferenced n ty).Made T := by
  have bare := hT.unaliased h
  unfold dereferenced
  generalize ty.unaliased = pointer at bare
  cases pointer with
  | pointer target _ _ =>
    dsimp only
    split_ifs
    · exact made_plain hT.unknown
    · exact made_plain (hT.target bare)
  | _ => exact made_plain hT.unknown

theorem made_addressType (hT : Ty.Hereditary T) {operand : Sight} (h : T operand.ty) :
    T (ctx.addressType operand) := by
  unfold addressType
  dsimp only
  split_ifs with hc
  · exact h
  · simp only [Bool.or_eq_true, not_or, Bool.not_eq_true] at hc
    exact hT.address h hc.1

theorem made_invoked (hT : Ty.Hereditary T) (h : ctx.env.Declares T) {sights : List Sight}
    (hs : ∀ sight ∈ sights, T sight.ty) : (ctx.invoked scope n sights).Made T := by
  unfold invoked
  cases ctx.tree.child? n 0 with
  | none => exact made_plain hT.unknown
  | some callee =>
    dsimp only
    cases ctx.tree.kind callee.1 with
    | nameReference | memberAccess => exact made_called hT h ..
    | _ =>
      refine made_plain (hT.callResult ?_)
      cases hsight : sights[(ctx.tree.children n).tail.length]? with
      | none => exact hT.unknown
      | some sight => exact hs sight (List.mem_of_getElem? hsight)

/-- What is found out about a node has the property if what is seen of its operands has it. -/
theorem made_conclude (hT : Ty.Hereditary T) (h : ctx.env.Declares T) {sights : List Sight}
    (hs : ∀ sight ∈ sights, T sight.ty) : (ctx.conclude scope n sights).Made T := by
  have head : ∀ {finding : Sight → Finding}, (∀ sight, T sight.ty → (finding sight).Made T) →
      (sights.head?.elim {} finding).Made T := by
    intro finding hf
    cases hsight : sights.head? with
    | none => exact made_plain hT.unknown
    | some sight => exact hf sight (hs sight (List.mem_of_head? hsight))
  unfold conclude
  generalize ctx.tree.kind n = kind
  cases kind with
  | integerLiteral value =>
    refine made_plain (hT.plain ?_)
    simp only [IntegerTy.ofLiteral]
    split_ifs <;> rfl
  | realLiteral => exact made_plain (hT.plain rfl)
  | textLiteral value =>
    dsimp only
    split_ifs <;> exact made_plain (hT.plain rfl)
  | nilLiteral => exact made_plain hT.nil
  | nameReference | memberAccess => exact made_reference hT h ..
  | invocation => exact made_invoked hT h hs
  | binaryExpression operator =>
    match sights, hs with
    | [left, right], hs =>
      exact made_combined hT h operator (hs left (by simp)) (hs right (by simp))
    | [], _ | [_], _ | _ :: _ :: _ :: _, _ => exact made_plain hT.unknown
  | unaryExpression operator =>
    exact head fun sight ht => made_applied hT h _ (by simpa using ht)
  | parenthesized => exact head fun sight ht => made_plain ht
  | arrayConstructor =>
    refine made_plain (hT.bracket ?_)
    simpa using hs
  | dereference => exact head fun sight ht => made_dereferenced hT ht
  | addressOf => exact head fun sight ht => made_plain (made_addressType hT ht)
  | _ => exact made_plain hT.unknown

end TypingContext

/-! ## Runs -/

theorem Annotations.Made.enter {tree : SyntaxTree} {n : NodeId} {s : TypingState} {finding : Finding}
    (h : s.annotations.Made T) (hf : finding.Made T) :
    (finding.enter tree n s).annotations.Made T where
  types m ty ht := by
    rw [Finding.type?_enter] at ht
    split_ifs at ht
    · cases ht
      exact hf.ty
    · cases hc : finding.callee with
      | none =>
        rw [hc] at ht
        exact h.types m ty ht
      | some callee =>
        rw [hc, Option.elim_some] at ht
        split_ifs at ht
        · cases ht
          exact hf.callee callee (by simp [hc])
        · exact h.types m ty ht
  invocations m inv hi := by
    rw [Finding.invocation?_enter] at hi
    cases hc : finding.invocation with
    | none =>
      rw [hc] at hi
      exact h.invocations m inv hi
    | some called =>
      rw [hc, Option.elim_some] at hi
      split_ifs at hi
      · cases hi
        exact hf.invocation inv (by simp [hc])
      · exact h.invocations m inv hi

namespace Typing

variable {ctx : TypingContext} {I : TypingState → Prop} {Q : Sight → Prop}

section Kept

variable (seen : ∀ s n, I s → Q (s.sight n))
  (step : ∀ scope n sights s, I s → (∀ sight ∈ sights, Q sight) →
    I ((ctx.conclude scope n sights).enter ctx.tree n s))
  (scope : ScopeId) (n : NodeId) {s : TypingState} (hs : I s)
include seen step hs

/-- What is kept when a finding is recorded that follows from sights with a property is kept by a run
of typing, if everything that can be seen has the property. -/
theorem keeps_typeOf : I ((typeOf ctx scope n).run s).2 := by
  induction hi : n.index using Nat.strong_induction_on generalizing n s with
  | _ index ih =>
    cases ht : s.annotations.type? n with
    | some ty =>
      rw [run_typeOf_of_some ht]
      exact hs
    | none =>
      have observed : ∀ b ∈ ctx.tree.operands n, Sim (fun s s' => I s ∧ s' = s) Q
          (observe (fun b => typeOf ctx scope b.1) b)
          (observe (fun b => typeOf ctx scope b.1) b) := by
        rintro b - s _ ⟨hs, rfl⟩
        have after := ih b.1.index (hi ▸ b.2) b.1 hs rfl
        rw [run_observe_typeOf]
        exact ⟨rfl, seen _ _ after, after, rfl⟩
      rw [run_typeOf_of_none ht]
      obtain ⟨-, sights, after, -⟩ := Sim.mapM observed s s ⟨hs, rfl⟩
      exact step scope n _ _ after sights

theorem keeps_resolveNode : I ((resolveNode ctx scope n).run s).2 := by
  have typed : ∀ scope n, True → Sim (fun s s' => I s ∧ s' = s) (fun _ => True)
      (typeOf ctx scope n) (typeOf ctx scope n) := by
    rintro scope n - s _ ⟨hs, rfl⟩
    exact ⟨rfl, trivial, keeps_typeOf seen step scope n hs, rfl⟩
  exact (Sim.resolveNode (R := fun s s' => I s ∧ s' = s) (fun _ _ h _ => h.2 ▸ rfl)
    (fun _ _ _ _ _ _ => trivial) typed trivial n s s ⟨hs, rfl⟩).2.2.1

end Kept

theorem sight_made (hT : Ty.Hereditary T) {s : TypingState} (hs : s.annotations.Made T)
    (n : NodeId) : T (s.sight n).ty := by
  simp only [TypingState.sight]
  cases ht : s.annotations.type? n with
  | none => exact hT.unknown
  | some ty => exact hs.types n ty ht

section Made

variable (hT : Ty.Hereditary T) (h : ctx.env.Declares T)
include hT h

/-- Typing a node finds only types with the property. -/
theorem made_typeOf (scope : ScopeId) (n : NodeId) {s : TypingState} (hs : s.annotations.Made T) :
    let ran := (typeOf ctx scope n).run s
    T ran.1 ∧ ran.2.annotations.Made T := by
  have made : ((typeOf ctx scope n).run s).2.annotations.Made T :=
    keeps_typeOf (I := fun s => s.annotations.Made T) (Q := fun sight => T sight.ty)
      (fun _ n hs => sight_made hT hs n)
      (fun _ _ _ _ hs sights => hs.enter (TypingContext.made_conclude hT h sights)) scope n hs
  exact ⟨made.types n _ (type?_typeOf ctx scope n s), made⟩

/-- A pass over a subtree finds only types with the property. -/
theorem made_resolveNode (scope : ScopeId) (n : NodeId) {s : TypingState}
    (hs : s.annotations.Made T) : ((resolveNode ctx scope n).run s).2.annotations.Made T :=
  keeps_resolveNode (I := fun s => s.annotations.Made T) (Q := fun sight => T sight.ty)
    (fun _ n hs => sight_made hT hs n)
    (fun _ _ _ _ hs sights => hs.enter (TypingContext.made_conclude hT h sights)) scope n hs

end Made

end Typing

end Pascal
