import Pascal.Proofs.Circles
import Pascal.Proofs.Operators

/-!
# Meanings of comparisons

A comparison has a built-in meaning that takes operands of any type. It is not lost among operator
methods that outdo each other: an operand of structured type is taken by no callable parameter, and
without such an operand there are no methods, so callable forms differ at one position at most.

## Main results

- `Environment.resolveOperator_comparison`: a comparison always has a meaning.
-/

namespace Pascal

namespace TypeTable

variable {types : TypeTable} {arguments : List Ty} {candidates : List Invocable} {c : Invocable}

/-- Among orderly candidates one is best, if any takes the arguments. -/
theorem Orderly.exists_mem_winners (orderly : types.Orderly candidates arguments)
    (some : ∃ c ∈ candidates, types.Applies arguments c) :
    ∃ c, c ∈ (types.choose candidates arguments).winners := by
  by_contra none
  rw [not_exists, forall_not_mem_winners_iff] at none
  exact orderly.not_circle (exists_circle none some)

theorem exists_chosen_of_mem_winners (h : c ∈ (types.choose candidates arguments).winners) :
    ∃ chosen ∈ (types.choose candidates arguments).winners,
      (types.choose candidates arguments).chosen? = some chosen := by
  generalize types.choose candidates arguments = outcome at h
  cases outcome with
  | noApplicable => cases h
  | resolved chosen | ambiguous chosen _ => exact ⟨chosen, .head _, rfl⟩

/-- A structured type is not converted to a callable type, however both are wrapped. -/
theorem conversion_of_isProcedural (types : TypeTable) {argument parameter : Ty}
    (struct : argument.isStruct = true) (callable : parameter.isProcedural = true) :
    types.conversion argument parameter = .incompatible := by
  obtain ⟨id, hid⟩ := Ty.exists_struct_of_isStruct struct
  cases parameter with
  | procedural => exact types.conversion_of_isStruct struct rfl
  | distinct name target =>
    have callable : target.isProcedural = true := callable
    have differ : argument.unaliased ≠ target.unaliased := by
      intro same
      rw [Ty.isProcedural, Ty.procedural?, ← same, hid] at callable
      cases callable
    have other : argument ≠ .distinct name target := by
      rintro rfl
      exact differ rfl
    have unwrapped : types.conversion argument (.distinct name target) =
        if argument = .distinct name target then .exact
        else if argument.unaliased = target.unaliased then .promotion 0
        else types.bareConversion argument target.unaliased := rfl
    rw [unwrapped, if_neg other, if_neg differ, ← bareConversion_unaliased, hid]
    rw [Ty.isProcedural, Ty.procedural?] at callable
    split at callable
    next heq => rw [heq]; rfl
    next => cases callable
  | _ => cases callable

/-- A candidate has no callable parameter for an operand of structured type that it takes. -/
theorem Applies.form?_eq_none (applies : types.Applies arguments c) {i : Nat} {ty : Ty}
    (hi : arguments[i]? = some ty) (struct : ty.isStruct = true) : c.form? i = none := by
  cases hp : c.params[i]? with
  | none => simp [Invocable.form?, hp]
  | some parameter =>
    have mem : types.conversion ty parameter ∈ types.conversions arguments c :=
      List.mem_iff_getElem?.2 ⟨i, by rw [conversions, List.getElem?_zipWith, hi, hp]⟩
    have compatible := applies.2 _ mem
    rw [Invocable.form?, hp]
    by_contra callable
    refine compatible (types.conversion_of_isProcedural struct ?_)
    rw [Ty.isProcedural]
    cases hf : parameter.procedural? with
    | none => exact absurd (by simp [hf]) callable
    | some => rfl

end TypeTable

namespace Operator

variable {types : TypeTable} {operator : BinaryOperator} {ty : Ty} {c : Invocable}

/-- The built-in meanings of a comparison give a truth value, and none takes something callable. -/
theorem of_mem_builtins_comparison (comparison : operator.isComparison = true)
    (h : c ∈ builtins types (.binary operator) ty) :
    c.result = .bool ∧ ∀ parameter ∈ c.params, parameter.procedural? = none := by
  have all : (builtins types (.binary operator) ty).all (fun c =>
      c.result = .bool && c.params.all (·.procedural?.isNone)) = true := by
    cases ty with
    | pointer target isNil math => cases math <;> cases operator <;> first | rfl | cases comparison
    | array kind element => cases kind <;> cases operator <;> first | rfl | cases comparison
    | _ => cases operator <;> first | rfl | cases comparison
  simpa using List.all_eq_true.1 all c h

/-- The built-in meaning of a comparison for operands of any type. -/
theorem untyped_mem_builtins (types : TypeTable) (comparison : operator.isComparison = true)
    (ty : Ty) : between operator.intrinsicName .untyped .untyped .bool ∈
      builtins types (.binary operator) ty := by
  rw [builtins, onAnything, if_pos comparison]
  exact List.mem_append_right _ (.head _)

theorem applies_untyped (types : TypeTable) (name : String) (left right result : Ty) :
    types.Applies [left, right] (between name .untyped .untyped result) := by
  have taken : ∀ ty, types.conversion ty .untyped ≠ .incompatible := by
    intro ty
    rw [TypeTable.conversion, TypeTable.wrappedConversion]
    split_ifs <;> simp
  exact applies_between_iff.2 ⟨taken left, taken right⟩

end Operator

namespace Environment

variable {env : Environment} {operator : BinaryOperator} {left right : Ty}

/-- The candidates of a comparison have different callable forms at one position at most. -/
theorem orderly_comparison (env : Environment) (comparison : operator.isComparison = true)
    (left right : Ty) : env.types.Orderly
      (env.operatorCandidates (.binary operator) [left, right]) [left, right] := by
  intro i j hij hj first second
  obtain ⟨rfl, rfl⟩ : i = 0 ∧ j = 1 := by
    simp only [List.length_cons, List.length_nil] at hj
    omega
  obtain ⟨c, hc, -, -, takes, -, _, -, form, -⟩ := first
  obtain ⟨d, -, -, -, takes', -, _, -, form', -⟩ := second
  have leftPlain : left.isStruct = false := by
    rw [← Bool.not_eq_true]
    intro struct
    cases (takes.form?_eq_none rfl struct).symm.trans form
  have rightPlain : right.isStruct = false := by
    rw [← Bool.not_eq_true]
    intro struct
    cases (takes'.form?_eq_none rfl struct).symm.trans form'
  obtain ⟨ty, -, builtin⟩ :=
    (mem_operatorCandidates_iff_of_not_isStruct (by simp [leftPlain, rightPlain])).1 hc
  have uncallable := (Operator.of_mem_builtins_comparison comparison builtin).2
  obtain ⟨parameter, hp, callable⟩ := Option.bind_eq_some_iff.1 form
  rw [uncallable parameter (List.mem_of_getElem? hp)] at callable
  cases callable

/-- Whatever its operands are, a comparison has a meaning. If that is built in, it gives a truth
value. It is built in unless an operand is of structured type, and otherwise an operator method of
such an operand. -/
theorem resolveOperator_comparison (env : Environment) (operator : BinaryOperator)
    (comparison : operator.isComparison = true) (left right : Ty) :
    env.resolveOperator (.binary operator) [left, right] ≠ .noApplicable ∧
    ∃ chosen, (env.resolveOperator (.binary operator) [left, right]).chosen? = some chosen ∧
      (chosen.declaration = none → chosen.result = .bool) ∧
      (left.isStruct = false → right.isStruct = false → chosen.declaration = none) ∧
      (chosen.declaration.isSome → env.IsMethodOf (.binary operator) [left, right] chosen) := by
  have fallback : ∃ c ∈ env.operatorCandidates (.binary operator) [left, right],
      env.types.Applies [left, right] c :=
    ⟨_, mem_operatorCandidates_iff.2
      ⟨left, .head _, .inr (Operator.untyped_mem_builtins env.types comparison _)⟩,
      Operator.applies_untyped env.types _ left right .bool⟩
  obtain ⟨c, best⟩ := (env.orderly_comparison comparison left right).exists_mem_winners fallback
  obtain ⟨chosen, best, hchosen⟩ := TypeTable.exists_chosen_of_mem_winners best
  have mem := (TypeTable.applies_of_mem_winners best).1
  refine ⟨fun none => ?_, chosen, hchosen, fun undeclared => ?_, fun hl hr => ?_, fun declared => ?_⟩
  · exact TypeTable.choose_eq_noApplicable_iff.1 none chosen best
  · obtain ⟨ty, -, ⟨id, -, method⟩ | builtin⟩ := mem_operatorCandidates_iff.1 mem
    · obtain ⟨_, -, made⟩ := mem_operatorMethods_iff.1 method
      cases undeclared.symm.trans (declaration_of_ofDeclaration? made)
    · exact (Operator.of_mem_builtins_comparison comparison builtin).1
  · obtain ⟨ty, -, builtin⟩ :=
      (mem_operatorCandidates_iff_of_not_isStruct (by simp [hl, hr])).1 mem
    exact (Operator.isBuiltin_iff.1 (Operator.isBuiltin_of_mem builtin)).1
  · refine (isMethodOf_or_isBuiltin mem).resolve_right fun builtin => ?_
    rw [(Operator.isBuiltin_iff.1 builtin).1] at declared
    cases declared

/-- The signature of an equality between a record and something callable. -/
def handlerEquality (form : ProceduralKind) : RoutineSignature :=
  { kind := .operator, params := [.struct ⟨0⟩, .procedural form [] .void], required := 2
    result := .bool, declaring := some ⟨0⟩ }

/-- The declaration of such an equality. -/
def handlerMethod (form : ProceduralKind) : DeclarationSpec :=
  { name := "Equal", kind := .routine, ty := (handlerEquality form).ty
    routine := some (handlerEquality form) }

/-- A record with two equalities, which differ in the form of what they take. -/
def handlers : Environment :=
  let record : Environment :=
    { types := { structs := #[{ image := "THandler", kind := .record, scope := ⟨0⟩ }] } }
  ((record.add ⟨0⟩ (handlerMethod .reference)).2.add ⟨0⟩ (handlerMethod .method)).2

theorem declarationsIn_handlers :
    handlers.symbols.declarationsIn (handlers.membersOf ⟨0⟩) = [⟨0⟩, ⟨1⟩] := by
  rw [show handlers.membersOf ⟨0⟩ = ⟨0⟩ from rfl, handlers, add, SymbolTable.declarationsIn_add, add,
    SymbolTable.declarationsIn_add]
  simp [SymbolTable.declarationsIn, SymbolTable.namesOf, SymbolTable.size, SymbolTable.add]

/-- Whether a handler equals `nil` is decided by one of its two methods; whether a wrapped one is
less than `nil`, by a meaning that is built in. -/
theorem handlers_compared :
    (∃ chosen, (handlers.resolveOperator (.binary .equal) [.struct ⟨0⟩, .nil]).chosen? =
        some chosen ∧ chosen.declaration = some ⟨1⟩ ∧
        handlers.IsMethodOf (.binary .equal) [.struct ⟨0⟩, .nil] chosen) ∧
      ∃ chosen, (handlers.resolveOperator (.binary .lessThan)
          [.distinct "TKey" (.struct ⟨0⟩), .nil]).chosen? = some chosen ∧
        chosen.declaration = none ∧ chosen.result = .bool := by
  constructor
  · obtain ⟨-, chosen, hchosen, -, -, method⟩ :=
      resolveOperator_comparison handlers .equal rfl (.struct ⟨0⟩) .nil
    have methods : handlers.operatorMethods ⟨0⟩ (.binary .equal) =
        [⟨"Equal", (handlerEquality .reference).params, 2, .bool, some ⟨0⟩⟩,
          ⟨"Equal", (handlerEquality .method).params, 2, .bool, some ⟨1⟩⟩] := by
      rw [operatorMethods, declarationsIn_handlers]
      rfl
    have resolved : (handlers.resolveOperator (.binary .equal) [.struct ⟨0⟩, .nil]).chosen? =
        some ⟨"Equal", (handlerEquality .method).params, 2, .bool, some ⟨1⟩⟩ := by
      simp only [resolveOperator, operatorCandidates, candidates, List.flatMap_cons, Ty.unaliased,
        methods]
      decide +kernel
    cases hchosen.symm.trans resolved
    exact ⟨_, resolved, rfl, method rfl⟩
  · obtain ⟨-, chosen, hchosen, truth, -, method⟩ := resolveOperator_comparison handlers .lessThan
      rfl (.distinct "TKey" (.struct ⟨0⟩)) .nil
    have undeclared : chosen.declaration = none := by
      by_contra declared
      obtain ⟨operand, mem, id, method, hid, ⟨member, -, named⟩, -⟩ :=
        method (Option.isSome_iff_ne_none.2 declared)
      obtain rfl : id = ⟨0⟩ := by
        rcases List.mem_pair.1 mem with rfl | rfl
        · exact (Option.some.inj hid).symm
        · cases hid
      rw [declarationsIn_handlers, List.mem_pair] at member
      obtain rfl | rfl := member <;> exact absurd named (by decide +kernel)
    exact ⟨chosen, hchosen, undeclared, truth undeclared⟩

end Environment

end Pascal
