import Pascal.Proofs.Tables
import Pascal.Proofs.Winners

/-!
# Meanings of operators

An operator can mean an operator method of an operand of structured type, or one of the built-in
meanings that the types of the operands bring. No built-in meaning but a comparison takes an operand
of structured type, so next to such an operand only the methods are left to choose from.

## Main results

- `Environment.resolveOperator_struct`: an operand of structured type leaves the methods only.
-/

namespace Pascal

/-- The types that neither wrap another type nor stand for several. -/
def Ty.isBare : Ty → Bool
  | untyped | matcher _ | distinct _ _ => false
  | _ => true

theorem Ty.unaliased_of_isBare {ty : Ty} (bare : ty.isBare = true) : ty.unaliased = ty := by
  cases ty <;> first | rfl | cases bare

namespace TypeTable

variable {argument parameter : Ty}

theorem conversion_of_isBare (types : TypeTable) (bare : parameter.isBare = true) :
    types.conversion argument parameter =
      if argument = parameter then .exact
      else if argument.unaliased = parameter then .promotion 0
      else types.bareConversion argument.unaliased parameter := by
  rw [bareConversion_unaliased]
  cases parameter <;> first | rfl | cases bare

theorem conversion_of_unaliased_ne (types : TypeTable) (bare : parameter.isBare = true)
    (differ : argument.unaliased ≠ parameter) :
    types.conversion argument parameter = types.bareConversion argument.unaliased parameter := by
  have : argument ≠ parameter := by
    rintro rfl
    exact differ (Ty.unaliased_of_isBare bare)
  rw [conversion_of_isBare types bare, if_neg this, if_neg differ]

theorem conversion_of_unaliased_eq (types : TypeTable) (bare : parameter.isBare = true)
    (same : argument.unaliased = parameter) :
    types.conversion argument parameter = .exact ∨
      types.conversion argument parameter = .promotion 0 := by
  rw [conversion_of_isBare types bare, if_pos same]
  split_ifs
  · exact .inl rfl
  · exact .inr rfl

theorem conversion_matcher (types : TypeTable) {family : Matcher}
    (differ : argument ≠ .matcher family) :
    types.conversion argument (.matcher family) = .convertibleIf (family.accepts argument) := by
  rw [conversion, wrappedConversion, if_neg differ]

end TypeTable

/-- The types that no structured type is converted to: all but structured types themselves, types
that wrap others, and parameters without a type. -/
def Ty.excludesStructs : Ty → Bool
  | untyped | struct _ | distinct _ _ => false
  | _ => true

theorem Ty.exists_struct_of_isStruct {ty : Ty} (h : ty.isStruct = true) :
    ∃ id, ty.unaliased = .struct id := by
  obtain ⟨id, hid⟩ := Option.isSome_iff_exists.1 h
  exact ⟨id, struct?_eq_some_iff.1 hid⟩

theorem Matcher.accepts_of_struct {ty : Ty} {id : StructId} (h : ty.unaliased = .struct id)
    (family : Matcher) : family.accepts ty = false := by
  cases family <;>
    simp [accepts, Ty.isOrdinal, Ty.isInteger, Ty.integer?, Ty.isBoolean, Ty.isChar, Ty.isEnum, h]

/-- A structured type, however wrapped, is not converted to such a type. -/
theorem TypeTable.conversion_of_isStruct (types : TypeTable) {argument parameter : Ty}
    (struct : argument.isStruct = true) (excluded : parameter.excludesStructs = true) :
    types.conversion argument parameter = .incompatible := by
  obtain ⟨id, hid⟩ := Ty.exists_struct_of_isStruct struct
  have differ : argument.unaliased ≠ parameter := by
    rw [hid]
    rintro rfl
    cases excluded
  by_cases bare : parameter.isBare = true
  · rw [types.conversion_of_unaliased_ne bare differ, hid]
    cases parameter <;> first | rfl | cases excluded
  · obtain ⟨family, rfl⟩ : ∃ family, parameter = .matcher family := by
      cases parameter <;> first | exact ⟨_, rfl⟩ | exact absurd rfl bare | cases excluded
    have other : argument ≠ .matcher family := by
      rintro rfl
      exact differ rfl
    rw [types.conversion_matcher other, Matcher.accepts_of_struct hid]
    rfl

/-! ## Built-in meanings -/

namespace Operator

def isComparison : Operator → Bool
  | binary operator => operator.isComparison
  | unary _ => false

/-- The built-in meanings that an operand brings. -/
def builtins (types : TypeTable) : Operator → Ty → List Invocable
  | binary operator, ty => builtinBinary types operator ty ++ onAnything operator
  | unary _, .struct _ => []
  | unary operator, ty => builtinUnary types operator ty

/-- What a built-in meaning looks like: it is not declared, it takes as many operands as the
operator has, and unless it is a comparison it takes none of structured type. -/
def isBuiltin (operator : Operator) (c : Invocable) : Bool :=
  c.declaration.isNone && c.required = operator.arity && c.params.length = operator.arity &&
    (operator.isComparison || c.params.all Ty.excludesStructs)

theorem all_isBuiltin (types : TypeTable) (operator : Operator) (ty : Ty) :
    (builtins types operator ty).all (isBuiltin operator) = true := by
  cases operator with
  | unary operator => cases ty <;> cases operator <;> rfl
  | binary operator =>
    rw [builtins, List.all_append, Bool.and_eq_true]
    refine ⟨?_, by cases operator <;> rfl⟩
    cases ty with
    | pointer target isNil math => cases math <;> cases operator <;> rfl
    | array kind element => cases kind <;> cases operator <;> rfl
    | _ => cases operator <;> rfl

variable {types : TypeTable} {operator : Operator} {ty : Ty} {c : Invocable}

theorem isBuiltin_iff : isBuiltin operator c = true ↔
    c.declaration = none ∧ c.required = operator.arity ∧ c.params.length = operator.arity ∧
      (operator.isComparison = false →
        ∀ parameter ∈ c.params, parameter.excludesStructs = true) := by
  simp only [isBuiltin, Bool.and_eq_true, Option.isNone_iff_eq_none, decide_eq_true_eq,
    Bool.or_eq_true, List.all_eq_true, and_assoc, ← Bool.not_eq_true, ← or_iff_not_imp_left]

theorem isBuiltin_of_mem (h : c ∈ builtins types operator ty) : isBuiltin operator c = true :=
  List.all_eq_true.1 (all_isBuiltin types operator ty) c h

theorem length_of_applies (h : isBuiltin operator c = true) {operands : List Ty}
    (applies : types.Applies operands c) : operands.length = operator.arity := by
  obtain ⟨-, required, params, -⟩ := isBuiltin_iff.1 h
  have arity := applies.1
  simp only [Invocable.acceptsArity, Bool.and_eq_true, decide_eq_true_eq] at arity
  omega

theorem applies_between_iff {name : String} {left right p q r : Ty} :
    types.Applies [left, right] (between name p q r) ↔
      types.conversion left p ≠ .incompatible ∧ types.conversion right q ≠ .incompatible := by
  simp [TypeTable.Applies, TypeTable.conversions, between, Invocable.builtin,
    Invocable.acceptsArity]

/-- Next to an operand of structured type only a comparison has a built-in meaning. -/
theorem not_applies_of_isStruct (h : isBuiltin operator c = true)
    (arithmetic : operator.isComparison = false) {operands : List Ty} {operand : Ty}
    (mem : operand ∈ operands) (struct : operand.isStruct = true) :
    ¬types.Applies operands c := by
  rintro ⟨arity, compatible⟩
  obtain ⟨-, -, -, excluded⟩ := isBuiltin_iff.1 h
  simp only [Invocable.acceptsArity, Bool.and_eq_true, decide_eq_true_eq] at arity
  obtain ⟨i, hi, rfl⟩ := List.getElem_of_mem mem
  rw [TypeTable.conversions_eq_map, List.forall_mem_map] at compatible
  have pair : (operands[i], c.params[i]) ∈ operands.zip c.params :=
    List.mem_iff_getElem.2 ⟨i, by rw [List.length_zip]; omega, List.getElem_zip⟩
  exact compatible _ pair
    (types.conversion_of_isStruct struct (excluded arithmetic _ (List.getElem_mem _)))

end Operator

/-! ## Where candidates come from -/

namespace Environment

variable {env : Environment} {operator : Operator} {operands : List Ty} {ty : Ty} {c : Invocable}
  {id : StructId}

/-- The declaration is an operator method that stands among the members of a structured type, under
a name of the operator. -/
structure IsMethodFor (env : Environment) (operator : Operator) (id : StructId) (method : DeclId) :
    Prop where
  mem : method ∈ env.symbols.declarationsIn (env.membersOf id)
  isOperator : (env.declaration method).isOperator = true
  named : ∃ name ∈ operator.names, Name.sameAscii name (env.declaration method).name = true

theorem mem_operatorMethods_iff : c ∈ env.operatorMethods id operator ↔ ∃ method,
    env.IsMethodFor operator id method ∧
      Invocable.ofDeclaration? method (env.declaration method).toDeclarationSpec = some c := by
  simp only [operatorMethods, List.mem_filterMap, Option.ite_none_right_eq_some, Bool.and_eq_true,
    List.any_eq_true]
  constructor
  · rintro ⟨method, mem, ⟨isOperator, named⟩, made⟩
    exact ⟨method, ⟨mem, isOperator, named⟩, made⟩
  · rintro ⟨method, ⟨mem, isOperator, named⟩, made⟩
    exact ⟨method, mem, ⟨isOperator, named⟩, made⟩

/-- A method is known as the declaration that it comes from. -/
theorem declaration_of_ofDeclaration? {method : DeclId} {spec : DeclarationSpec}
    (h : Invocable.ofDeclaration? method spec = some c) : c.declaration = some method := by
  obtain ⟨routine, -, rfl⟩ := Option.map_eq_some_iff.1 h
  rfl

theorem mem_candidates_iff : c ∈ env.candidates ty operator ↔
    (∃ id, ty.struct? = some id ∧ c ∈ env.operatorMethods id operator) ∨
      c ∈ Operator.builtins env.types operator ty.unaliased := by
  simp only [candidates, List.mem_eraseDups, Ty.struct?_eq_some_iff]
  generalize ty.unaliased = bare
  cases operator <;> cases bare <;> simp [Operator.builtins, Operator.builtinBinary]

theorem mem_operatorCandidates_iff : c ∈ env.operatorCandidates operator operands ↔
    ∃ ty ∈ operands, (∃ id, ty.struct? = some id ∧ c ∈ env.operatorMethods id operator) ∨
      c ∈ Operator.builtins env.types operator ty.unaliased := by
  simp only [operatorCandidates, List.mem_eraseDups, List.mem_flatMap, mem_candidates_iff]

/-- Operands of no structured type bring built-in meanings only. -/
theorem mem_operatorCandidates_iff_of_not_isStruct (h : ∀ ty ∈ operands, ty.isStruct = false) :
    c ∈ env.operatorCandidates operator operands ↔
      ∃ ty ∈ operands, c ∈ Operator.builtins env.types operator ty.unaliased := by
  rw [mem_operatorCandidates_iff]
  refine exists_congr fun ty => and_congr_right fun mem => or_iff_right ?_
  rintro ⟨id, hid, -⟩
  have := h ty mem
  rw [Ty.isStruct, hid] at this
  cases this

/-- A candidate is the signature of an operator method of one of the operands. -/
def IsMethodOf (env : Environment) (operator : Operator) (operands : List Ty) (c : Invocable) :
    Prop :=
  ∃ operand ∈ operands, ∃ id method, operand.struct? = some id ∧
    env.IsMethodFor operator id method ∧
      Invocable.ofDeclaration? method (env.declaration method).toDeclarationSpec = some c

/-- Candidates are declared or built in. -/
theorem isMethodOf_or_isBuiltin (h : c ∈ env.operatorCandidates operator operands) :
    env.IsMethodOf operator operands c ∨ Operator.isBuiltin operator c = true := by
  obtain ⟨ty, hty, ⟨id, hid, hc⟩ | hc⟩ := mem_operatorCandidates_iff.1 h
  · obtain ⟨method, found, made⟩ := mem_operatorMethods_iff.1 hc
    exact .inl ⟨ty, hty, id, method, hid, found, made⟩
  · exact .inr (Operator.isBuiltin_of_mem hc)

end Environment

/-! ## Operands of structured type -/

/-- Candidates that do not take the arguments have no part in the choice. -/
theorem TypeTable.choose_filter {types : TypeTable} {candidates : List Invocable}
    {arguments : List Ty} {p : Invocable → Bool}
    (h : ∀ c ∈ candidates, types.Applies arguments c → p c = true) :
    types.choose (candidates.filter p) arguments = types.choose candidates arguments := by
  have same : types.applicable (candidates.filter p) arguments =
      types.applicable candidates arguments := by
    rw [applicable, applicable, List.filterMap_filter]
    refine List.filterMap_congr fun c hc => ?_
    split_ifs with pass
    · rfl
    · cases ranked : types.rank? arguments c with
      | none => rfl
      | some rank => exact absurd (h c hc (applies_of_rank? ranked)) pass
  rw [choose, choose, same]

namespace Environment

/-- Unless the operator is a comparison, an operand of structured type leaves only the declared
candidates to choose from. What is chosen or tied is then an operator method that stands among the
members of one of these operands under a name of the operator, and without such a method there is no
candidate at all. -/
theorem resolveOperator_struct (env : Environment) (operator : Operator) (operands : List Ty)
    (arithmetic : operator.isComparison = false)
    (struct : ∃ operand ∈ operands, operand.isStruct = true) :
    env.resolveOperator operator operands = env.types.choose
        ((env.operatorCandidates operator operands).filter (·.declaration.isSome)) operands ∧
      (∀ c ∈ (env.resolveOperator operator operands).winners,
        env.IsMethodOf operator operands c) ∧
      ((∀ operand ∈ operands, ∀ id, operand.struct? = some id →
          ∀ method, ¬env.IsMethodFor operator id method) →
        env.resolveOperator operator operands = .noApplicable) := by
  obtain ⟨operand, mem, struct⟩ := struct
  have declared : ∀ c ∈ env.operatorCandidates operator operands, env.types.Applies operands c →
      env.IsMethodOf operator operands c := by
    intro c hc applies
    refine (isMethodOf_or_isBuiltin hc).resolve_right fun builtin => ?_
    exact Operator.not_applies_of_isStruct builtin arithmetic mem struct applies
  have winners : ∀ c ∈ (env.resolveOperator operator operands).winners,
      env.IsMethodOf operator operands c := by
    intro c hc
    obtain ⟨hc, applies⟩ := TypeTable.applies_of_mem_winners hc
    exact declared c hc applies
  refine ⟨(TypeTable.choose_filter fun c hc applies => ?_).symm, winners, fun none => ?_⟩
  · obtain ⟨-, -, -, method, -, -, made⟩ := declared c hc applies
    rw [declaration_of_ofDeclaration? made]
    rfl
  · refine TypeTable.choose_eq_noApplicable_iff.2 fun c hc => ?_
    obtain ⟨operand, mem, id, method, hid, found, -⟩ := winners c hc
    exact none operand mem id hid method found

/-- The signature of an addition that a record gives itself. -/
def vectorSum : RoutineSignature :=
  { kind := .operator, params := [.struct ⟨0⟩, .struct ⟨0⟩], required := 2, result := .struct ⟨0⟩
    declaring := some ⟨0⟩ }

/-- A record whose only member is its addition. -/
def vectors : Environment :=
  (add { types := { structs := #[{ image := "TVector", kind := .record, scope := ⟨0⟩ }] } } ⟨0⟩
    { name := "Add", kind := .routine, ty := vectorSum.ty, routine := some vectorSum }).2

theorem declarationsIn_vectors :
    vectors.symbols.declarationsIn (vectors.membersOf ⟨0⟩) = [⟨0⟩] := by
  rw [show vectors.membersOf ⟨0⟩ = ⟨0⟩ from rfl, vectors, add, SymbolTable.declarationsIn_add]
  simp [SymbolTable.declarationsIn, SymbolTable.namesOf, SymbolTable.size]

/-- Two vectors are added by their method; a wrapped vector and a number are not subtracted, though
numbers are. -/
theorem vectors_operators :
    let sum : Invocable := ⟨"Add", vectorSum.params, 2, vectorSum.result, some ⟨0⟩⟩
    let pair : List Ty := [.struct ⟨0⟩, .struct ⟨0⟩]
    vectors.resolveOperator (.binary .add) pair = .resolved sum ∧
      vectors.IsMethodOf (.binary .add) pair sum ∧
      vectors.resolveOperator (.binary .subtract) [.distinct "TPoint" (.struct ⟨0⟩), .int] =
        .noApplicable := by
  intro sum pair
  have methods : vectors.operatorMethods ⟨0⟩ (.binary .add) = [sum] := by
    rw [operatorMethods, declarationsIn_vectors]
    rfl
  have resolved : vectors.resolveOperator (.binary .add) pair = .resolved sum := by
    simp only [pair, resolveOperator, operatorCandidates, candidates, List.flatMap_cons,
      Ty.unaliased, methods]
    decide +kernel
  refine ⟨resolved, ?_, ?_⟩
  · refine (resolveOperator_struct vectors (.binary .add) pair rfl ⟨_, .head _, rfl⟩).2.1 sum ?_
    rw [resolved]
    exact .head _
  · refine (resolveOperator_struct _ _ _ rfl ⟨_, .head _, rfl⟩).2.2 ?_
    rintro operand mem id hid method ⟨member, -, named⟩
    obtain rfl : id = ⟨0⟩ := by
      rcases List.mem_pair.1 mem with rfl | rfl
      · exact (Option.some.inj hid).symm
      · cases hid
    rw [declarationsIn_vectors, List.mem_singleton] at member
    subst member
    exact absurd named (by decide +kernel)

end Environment

end Pascal
