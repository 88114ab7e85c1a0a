import Pascal.Proofs.Operators

/-!
# Families of built-in meanings

The built-in meanings of a binary operator come in families: some are fixed, the others are made
from a pointer, a set or a dynamic array that an operand brings. The text of a meaning gives its
family away. Within a family, texts tell meanings apart as far as they tell apart the types that the
meanings are made from.
-/

namespace Pascal

/-! ## Texts, character by character -/

namespace TypeTable

/-- The texts of several types as characters. -/
def spellings (types : TypeTable) : List Ty → List Char
  | [] => []
  | [ty] => (types.image ty).toList
  | ty :: rest => (types.image ty).toList ++ ',' :: ' ' :: types.spellings rest

/-- The end of a signature: what follows the parameters. -/
def ending (types : TypeTable) (result : Ty) : List Char :=
  ')' :: if result.isVoid then [] else ':' :: ' ' :: (types.image result).toList

/-- The text of a signature as characters. -/
def spelling (types : TypeTable) (c : Invocable) : List Char :=
  c.name.toList ++ '(' :: types.spellings c.params ++ types.ending c.result

theorem toList_images (types : TypeTable) : ∀ tys, (types.images tys).toList = types.spellings tys
  | [] => rfl
  | [ty] => by simp only [images, spellings]
  | ty :: next :: rest => by
    simp only [images, spellings, String.toList_append, toList_images types (next :: rest)]
    simp

theorem toList_signature (types : TypeTable) (c : Invocable) :
    (types.signature c).toList = types.spelling c := by
  simp only [signature, spelling, ending, String.toList_append, toList_images]
  split_ifs <;> simp

theorem image_int (types : TypeTable) : types.image .int = "Integer" := by
  simp only [image, Ty.int]
  rfl

theorem signature_eq_iff {types : TypeTable} {c d : Invocable} :
    types.signature c = types.signature d ↔ types.spelling c = types.spelling d := by
  rw [← String.toList_inj, toList_signature, toList_signature]

end TypeTable

/-! ## What operands bring -/

/-- A pointer that can be reckoned with. -/
def Ty.mathPointer? : Ty → Option Ty
  | pointer target isNil true => some (pointer target isNil true)
  | _ => none

/-- An array whose values can be joined. -/
def Ty.dynamicArray? : Ty → Option Ty
  | array .dynamic element => some (array .dynamic element)
  | _ => none

/-- The set that an operand is, or may become. -/
def TypeTable.setOperand? (types : TypeTable) : Ty → Option Ty
  | .set element => some (.set element)
  | .bracket elements => some (.bracket [types.widest elements])
  | _ => none

theorem Ty.eq_of_mathPointer? {ty p : Ty} (h : ty.mathPointer? = some p) :
    ty = p ∧ ∃ target isNil, p = pointer target isNil true := by
  unfold mathPointer? at h
  split at h
  · cases h
    exact ⟨rfl, _, _, rfl⟩
  · cases h

theorem Ty.eq_of_dynamicArray? {ty a : Ty} (h : ty.dynamicArray? = some a) :
    ty = a ∧ ∃ element, a = array .dynamic element := by
  unfold dynamicArray? at h
  split at h
  · cases h
    exact ⟨rfl, _, rfl⟩
  · cases h

/-- The types that neither wrap nor stand for others, that are shown as results, and that do not
count in a rank as numbers and callable forms do. -/
def Ty.isNeutral (ty : Ty) : Bool :=
  ty.isBare && !ty.isVoid && ty.integer?.isNone && ty.procedural?.isNone

theorem Ty.isNeutral_iff {ty : Ty} : ty.isNeutral = true ↔
    ty.isBare = true ∧ ty.isVoid = false ∧ ty.integer? = none ∧ ty.procedural? = none := by
  simp [isNeutral, and_assoc]

theorem Ty.isNeutral_of_mathPointer? {ty p : Ty} (h : ty.mathPointer? = some p) :
    p.isNeutral = true := by
  obtain ⟨-, target, isNil, rfl⟩ := eq_of_mathPointer? h
  rfl

theorem TypeTable.isNeutral_of_setOperand? {types : TypeTable} {ty s : Ty}
    (h : types.setOperand? ty = some s) : s.isNeutral = true := by
  cases ty <;> cases h <;> rfl

theorem Ty.isStruct_of_mathPointer? {ty p : Ty} (h : ty.unaliased.mathPointer? = some p) :
    ty.isStruct = false := by
  rw [isStruct, struct?]
  generalize ty.unaliased = bare at h
  cases bare <;> first | rfl | cases h

theorem TypeTable.isStruct_of_setOperand? {types : TypeTable} {ty s : Ty}
    (h : types.setOperand? ty.unaliased = some s) : ty.isStruct = false := by
  rw [Ty.isStruct, Ty.struct?]
  generalize ty.unaliased = bare at h
  cases bare <;> first | rfl | cases h

/-! ## Conversions between what operands bring -/

/-- The ways no worse than a conversion at no distance. -/
def Conversion.near : List Conversion := [.exact, .promotion 0, .convertible 0]

namespace TypeTable

variable {types : TypeTable} {operand bare other p q s t : Ty}

/-- Pointers do not become numbers. -/
theorem conversion_int_of_mathPointer? (types : TypeTable)
    (h : operand.unaliased.mathPointer? = some p) :
    types.conversion operand .int = .incompatible := by
  obtain ⟨hp, target, isNil, rfl⟩ := Ty.eq_of_mathPointer? h
  rw [types.conversion_of_unaliased_ne rfl (by rw [hp]; exact Ty.noConfusion), hp]
  cases isNil <;> rfl

/-- Dynamic arrays of different types do not take each other's values. -/
theorem conversion_of_dynamicArray? (types : TypeTable)
    (h : operand.unaliased.dynamicArray? = some p) (h' : other.dynamicArray? = some q)
    (differ : p ≠ q) : types.conversion operand q = .incompatible := by
  obtain ⟨hp, element, rfl⟩ := Ty.eq_of_dynamicArray? h
  obtain ⟨-, element', rfl⟩ := Ty.eq_of_dynamicArray? h'
  rw [types.conversion_of_unaliased_ne rfl (hp ▸ differ), hp]
  rfl

/-- How pointers are shown. -/
theorem head?_image_pointer (types : TypeTable) (target : Ty) (isNil math : Bool) :
    (types.image (.pointer target isNil math)).toList.head? =
      some (if isNil then 'n' else if target = .untyped then 'P' else '^') := by
  cases isNil with
  | true => simp [image]
  | false => cases target <;> simp [image]

/-- Pointers of different types that are shown alike take each other's values only as `nil`. -/
theorem exists_nil_of_image_eq (h : operand.unaliased.mathPointer? = some p)
    (h' : other.mathPointer? = some q) (differ : p ≠ q) (alike : types.image p = types.image q)
    (reached : types.conversion operand q ≠ .incompatible) :
    ∃ x y, p = .pointer x true true ∧ q = .pointer y true true := by
  obtain ⟨hp, target, isNil, rfl⟩ := Ty.eq_of_mathPointer? h
  obtain ⟨-, target', isNil', rfl⟩ := Ty.eq_of_mathPointer? h'
  rw [types.conversion_of_unaliased_ne rfl (hp ▸ differ), hp, bareConversion] at reached
  -- The first characters tell `nil`, untyped and typed pointers apart.
  have heads := congrArg (·.toList.head?) alike
  simp only [head?_image_pointer, Option.some.injEq] at heads
  cases isNil <;> cases isNil'
  · by_cases hu : target = .untyped <;> by_cases hu' : target' = .untyped
    · exact absurd (by rw [hu, hu']) differ
    · simp [hu, hu'] at heads
    · simp [hu, hu'] at heads
    · have typed {ty : Ty} (h : ty ≠ .untyped) : ty.isUntyped = false := by
        cases ty <;> first | rfl | exact absurd rfl h
      have unequal : target ≠ target' := fun same => differ (by rw [same])
      simp [pointerConversion, typed hu, typed hu', unequal, Conversion.convertibleIf] at reached
  · by_cases hu : target = .untyped <;> simp [hu] at heads
  · by_cases hu : target' = .untyped <;> simp [hu] at heads
  · exact ⟨_, _, rfl, rfl⟩

/-- As `nil`, pointers take each other's values. -/
theorem near_of_nil {x : Ty} (h : operand.unaliased = .pointer x true true) (y : Ty) :
    types.conversion operand (.pointer y true true) ∈ Conversion.near := by
  by_cases same : operand.unaliased = .pointer y true true
  · have := types.conversion_of_unaliased_eq rfl same
    exact List.mem_append_left [.convertible 0] (List.mem_pair.2 this)
  · rw [types.conversion_of_unaliased_ne rfl same, h]
    exact .tail _ (.head _)

theorem conversion_matcher_of_mathPointer? (types : TypeTable)
    (h : operand.unaliased.mathPointer? = some p) :
    types.conversion operand (.matcher .pointerMathOperand) = .convertible 0 := by
  obtain ⟨hp, target, isNil, rfl⟩ := Ty.eq_of_mathPointer? h
  rw [types.conversion_matcher (by rintro rfl; cases hp), Matcher.accepts, hp]
  rfl

theorem setOperand?_setOperand? (h : types.setOperand? bare = some s) :
    types.setOperand? s = some s := by
  cases bare <;> cases h <;> rfl

/-- A set of one type becomes a set of another type by conversion of its elements, or not at all. -/
theorem conversion_of_setOperand? (h : types.setOperand? operand.unaliased = some s)
    (h' : types.setOperand? other = some t) (reached : types.conversion operand t ≠ .incompatible) :
    types.conversion operand t = .convertible 0 ∨
      s = t ∧ types.conversion operand t ∈ [.exact, .promotion 0] := by
  have bare := (Ty.isNeutral_iff.1 (isNeutral_of_setOperand? h')).1
  -- An operand of the very type brings this type, also as a bracketed list: of one element it is
  -- the widest.
  by_cases same : operand.unaliased = t
  · have : s = t := by
      rw [same, setOperand?_setOperand? h', Option.some.injEq] at h
      exact h.symm
    refine .inr ⟨this, ?_⟩
    rw [List.mem_pair]
    exact types.conversion_of_unaliased_eq bare same
  · refine .inl ?_
    rw [types.conversion_of_unaliased_ne bare same] at reached ⊢
    have possible (condition : Bool) (h : Conversion.convertibleIf condition ≠ .incompatible) :
        Conversion.convertibleIf condition = .convertible 0 := by
      cases condition
      · exact absurd rfl h
      · rfl
    generalize operand.unaliased = bare at h reached ⊢
    cases bare <;> cases h <;> cases other <;> cases h' <;>
      first | exact possible _ reached | exact absurd rfl reached

theorem near_of_setOperand? (h : types.setOperand? operand.unaliased = some s)
    (h' : types.setOperand? other = some t) (reached : types.conversion operand t ≠ .incompatible) :
    types.conversion operand t ∈ Conversion.near := by
  obtain converted | ⟨-, same⟩ := conversion_of_setOperand? h h' reached
  · rw [converted]
    decide
  · exact List.mem_append_left [.convertible 0] same

theorem conversion_of_setOperand?_ne (h : types.setOperand? operand.unaliased = some s)
    (h' : types.setOperand? other = some t) (reached : types.conversion operand t ≠ .incompatible)
    (differ : s ≠ t) : types.conversion operand t = .convertible 0 :=
  (conversion_of_setOperand? h h' reached).resolve_right fun same => differ same.1

end TypeTable

/-! ## Cues -/

namespace Operator

/-- The built-in meanings of an operator whose parameters do not depend on the operands. -/
def fixed (target : Target) (operator : BinaryOperator) : List Invocable :=
  onInteger target operator ++ onBoolean operator ++ onVariant operator ++
    onJoinable .string operator ++ onAnything operator

variable {types : TypeTable} {operator : BinaryOperator} {ty : Ty} {c d : Invocable}

/-- The character that follows the opening of a text. -/
def lead (opening text : List Char) : Option Char :=
  if opening <+: text then text[opening.length]? else none

/-- What a text gives away of the parameters. -/
inductive Cue where
  | pointer | offset | set | array | none
  deriving DecidableEq

/-- Pointers are shown as `^…`, `Pointer` or `nil`, sets as `set of …` or `[…]`, and dynamic arrays
as `array of …`. None of these begins like a type of the fixed meanings. -/
def cue (operator : BinaryOperator) (text : List Char) : Cue :=
  match lead (operator.intrinsicName.toList ++ ['(']) text with
  | some '^' | some 'P' | some 'n' => .pointer
  | some 's' | some '[' => .set
  | some 'a' => .array
  | _ =>
    match lead (operator.intrinsicName.toList ++ "(Integer, ".toList) text with
    | some '^' | some 'P' | some 'n' => .offset
    | _ => .none

theorem lead_append {text : List Char} {first : Char} (h : text.head? = some first)
    (opening rest : List Char) : lead opening (opening ++ (text ++ rest)) = some first := by
  obtain ⟨chars, rfl⟩ := List.head?_eq_some_iff.1 h
  rw [lead, if_pos (List.prefix_append _ _), List.getElem?_append_right (Nat.le_refl _),
    Nat.sub_self]
  rfl

/-- The texts of these meanings do not depend on what is declared. -/
theorem spellings_fixed (types : TypeTable) (operator : BinaryOperator) :
    (fixed types.target operator).map types.spelling =
      (fixed {} operator).map ({} : TypeTable).spelling := by
  cases operator <;> rfl

theorem nodup_spellings_fixed (types : TypeTable) (operator : BinaryOperator) :
    ((fixed types.target operator).map types.spelling).Nodup := by
  rw [spellings_fixed]
  cases operator <;> decide +kernel

/-- The built-in meanings of a unary operator are told apart by their texts. -/
theorem nodup_spellings_unary (types : TypeTable) (operator : UnaryOperator) (ty : Ty) :
    ((builtins types (.unary operator) ty).map types.spelling).Nodup := by
  have closed (ty : Ty) (h : ty ∈ [.variant .normal, .void]) :
      ((builtins types (.unary operator) ty).map types.spelling).Nodup := by
    have same : (builtins types (.unary operator) ty).map types.spelling =
        (builtins {} (.unary operator) ty).map ({} : TypeTable).spelling := by
      rcases List.mem_pair.1 h with rfl | rfl <;> cases operator <;> rfl
    rw [same]
    rcases List.mem_pair.1 h with rfl | rfl <;> cases operator <;> decide +kernel
  cases ty with
  | struct id => exact List.nodup_nil
  | variant kind => exact closed (.variant .normal) (.head _)
  | _ => exact closed .void (.tail _ (.head _))

theorem cue_fixed (h : c ∈ fixed types.target operator) :
    cue operator (types.spelling c) = .none := by
  have all : ∀ text ∈ (fixed types.target operator).map types.spelling,
      cue operator text = .none := by
    rw [spellings_fixed]
    cases operator <;> decide +kernel
  exact all _ (List.mem_map_of_mem h)

section Cues

variable {p q r s : Ty} {first : Char}

theorem spelling_between (types : TypeTable) (name : String) (p q r : Ty) :
    types.spelling (between name p q r) = (name.toList ++ ['(']) ++
      ((types.image p).toList ++ (',' :: ' ' :: ((types.image q).toList ++ types.ending r))) := by
  simp [TypeTable.spelling, between, Invocable.builtin, TypeTable.spellings]

theorem lead_first (h : (types.image p).toList.head? = some first) :
    lead (operator.intrinsicName.toList ++ ['('])
      (types.spelling (between operator.intrinsicName p q r)) = some first := by
  rw [spelling_between]
  exact lead_append h _ _

theorem lead_second (h : (types.image q).toList.head? = some first) :
    lead (operator.intrinsicName.toList ++ "(Integer, ".toList)
      (types.spelling (between operator.intrinsicName .int q r)) = some first := by
  have text : types.spelling (between operator.intrinsicName .int q r) =
      operator.intrinsicName.toList ++ "(Integer, ".toList ++
        ((types.image q).toList ++ types.ending r) := by
    rw [spelling_between, TypeTable.image_int]
    simp
  rw [text]
  exact lead_append h _ _

theorem cue_pointer (h : ty.mathPointer? = some p) :
    cue operator (types.spelling (between operator.intrinsicName p q r)) = .pointer := by
  obtain ⟨-, target, isNil, rfl⟩ := Ty.eq_of_mathPointer? h
  rw [cue, lead_first (types.head?_image_pointer target isNil true)]
  split_ifs <;> rfl

theorem cue_offset (h : ty.mathPointer? = some p) :
    cue operator (types.spelling (between operator.intrinsicName .int p r)) = .offset := by
  obtain ⟨-, target, isNil, rfl⟩ := Ty.eq_of_mathPointer? h
  have head : (types.image .int).toList.head? = some 'I' := by
    rw [TypeTable.image_int]
    rfl
  rw [cue, lead_first head, lead_second (types.head?_image_pointer target isNil true)]
  split_ifs <;> rfl

theorem cue_set (h : types.setOperand? ty = some s) :
    cue operator (types.spelling (between operator.intrinsicName s q r)) = .set := by
  have head : (types.image s).toList.head? = some 's' ∨
      (types.image s).toList.head? = some '[' := by
    cases ty <;> cases h <;> simp [TypeTable.image]
  rcases head with head | head
  · rw [cue, lead_first head]
    rfl
  · rw [cue, lead_first head]
    rfl

theorem cue_array (h : ty.dynamicArray? = some s) :
    cue operator (types.spelling (between operator.intrinsicName s q r)) = .array := by
  obtain ⟨-, element, rfl⟩ := Ty.eq_of_dynamicArray? h
  have head : (types.image (.array .dynamic element)).toList.head? = some 'a' := by
    simp [TypeTable.image]
  rw [cue, lead_first head]
  rfl

end Cues

/-! ## What built-in meanings are made from -/

/-- The meaning of an operator between two pointers. -/
def gap (operator : BinaryOperator) (p : Ty) : Invocable :=
  between operator.intrinsicName p (.matcher .pointerMathOperand)
    (if operator = .add then p else .int)

/-- What a built-in meaning is made from, with the cue that its text gives. -/
inductive MadeFrom (types : TypeTable) (operator : BinaryOperator) (ty : Ty) :
    Cue → Invocable → Prop
  | fixed {c : Invocable} (mem : c ∈ fixed types.target operator) :
    MadeFrom types operator ty .none c
  | step {p : Ty} (hp : ty.mathPointer? = some p) :
    MadeFrom types operator ty .pointer (between operator.intrinsicName p .int p)
  | gap {p : Ty} (hp : ty.mathPointer? = some p) (kind : operator ∈ [.add, .subtract]) :
    MadeFrom types operator ty .pointer (gap operator p)
  | offset {p : Ty} (hp : ty.mathPointer? = some p) :
    MadeFrom types operator ty .offset (between operator.intrinsicName .int p p)
  | set {s : Ty} (hs : types.setOperand? ty = some s)
      (kind : operator ∈ [.add, .subtract, .multiply]) :
    MadeFrom types operator ty .set (between operator.intrinsicName s s s)
  | array {a : Ty} (ha : ty.dynamicArray? = some a) :
    MadeFrom types operator ty .array (between operator.intrinsicName a a a)

theorem MadeFrom.cue_eq {k : Cue} (h : MadeFrom types operator ty k c) :
    cue operator (types.spelling c) = k := by
  cases h with
  | fixed mem => exact cue_fixed mem
  | step hp => exact cue_pointer hp
  | gap hp => exact cue_pointer hp
  | offset hp => exact cue_offset hp
  | set hs => exact cue_set hs
  | array ha => exact cue_array ha

theorem madeFrom_onPointer {p : Ty} (hp : ty.mathPointer? = some p) (h : c ∈ onPointer p operator) :
    ∃ k, MadeFrom types operator ty k c := by
  cases operator with
  | add =>
    simp only [onPointer, List.mem_cons, List.not_mem_nil, or_false] at h
    rcases h with rfl | rfl | rfl
    · exact ⟨_, .step hp⟩
    · exact ⟨_, .offset hp⟩
    · exact ⟨_, .gap hp (.head _)⟩
  | subtract =>
    rcases List.mem_pair.1 h with rfl | rfl
    · exact ⟨_, .step hp⟩
    · exact ⟨_, .gap hp (.tail _ (.head _))⟩
  | _ => cases h

theorem madeFrom_onSet {s : Ty} (hs : types.setOperand? ty = some s) (h : c ∈ onSet s operator) :
    ∃ k, MadeFrom types operator ty k c := by
  cases operator <;> cases h <;> first | exact ⟨_, .set hs (by decide)⟩ | contradiction

theorem madeFrom_onJoinable {a : Ty} (ha : ty.dynamicArray? = some a)
    (h : c ∈ onJoinable a operator) : ∃ k, MadeFrom types operator ty k c := by
  cases operator <;> cases h <;> first | exact ⟨_, .array ha⟩ | contradiction

theorem mem_fixed_iff {target : Target} : c ∈ fixed target operator ↔
    c ∈ onInteger target operator ∨ c ∈ onBoolean operator ∨ c ∈ onVariant operator ∨
      c ∈ onJoinable .string operator ∨ c ∈ onAnything operator := by
  simp only [Operator.fixed, List.mem_append, or_assoc]

theorem exists_madeFrom (h : c ∈ builtins types (.binary operator) ty) :
    ∃ k, MadeFrom types operator ty k c := by
  have fixed (h : c ∈ fixed types.target operator) : ∃ k, MadeFrom types operator ty k c :=
    ⟨_, .fixed h⟩
  rw [mem_fixed_iff] at fixed
  obtain h | h := List.mem_append.1 h
  · cases ty with
    | pointer target isNil math =>
      cases math with
      | true => exact madeFrom_onPointer rfl h
      | false => cases h
    | set element => exact madeFrom_onSet rfl h
    | bracket elements => exact madeFrom_onSet rfl h
    | array kind element =>
      cases kind with
      | dynamic => exact madeFrom_onJoinable rfl h
      | _ => cases h
    | integer ty => exact fixed (.inl h)
    | decimal kind size =>
      refine fixed (.inl ?_)
      cases operator <;> first | exact h | cases h
    | boolean kind => exact fixed (.inr (.inl h))
    | variant kind => exact fixed (.inr (.inr (.inl h)))
    | text kind => exact fixed (.inr (.inr (.inr (.inl h))))
    | _ => cases h
  · exact fixed (.inr (.inr (.inr (.inr h))))

/-! ## Meanings that are shown alike -/

section Alike

variable {p q r s t : Ty}

/-- Meanings that are shown alike and begin with texts of one length begin with the same text. -/
theorem image_eq_of_spelling_eq {name : String} {p' q' r' : Ty}
    (text : types.spelling (between name p q r) = types.spelling (between name p' q' r'))
    (length : (types.image p).toList.length = (types.image p').toList.length) :
    types.image p = types.image p' ∧ (types.image q).toList ++ types.ending r =
      (types.image q').toList ++ types.ending r' := by
  rw [spelling_between, spelling_between] at text
  obtain ⟨first, rest⟩ := List.append_inj (List.append_cancel_left text) length
  exact ⟨String.toList_inj.1 first, List.cons.inj (List.cons.inj rest).2 |>.2⟩

theorem length_spelling_between (types : TypeTable) (name : String) (p q r : Ty) :
    (types.spelling (between name p q r)).length =
      name.toList.length + 3 + (types.image p).toList.length + (types.image q).toList.length +
        (types.ending r).length := by
  rw [spelling_between]
  simp only [List.length_append, List.length_cons, List.length_nil]
  omega

theorem ending_eq_of_image_eq (hs : s.isNeutral = true) (ht : t.isNeutral = true)
    (alike : types.image s = types.image t) : types.ending s = types.ending t := by
  rw [TypeTable.ending, TypeTable.ending, alike, (Ty.isNeutral_iff.1 hs).2.1,
    (Ty.isNeutral_iff.1 ht).2.1]

theorem spelling_self_eq (name : String) (hs : s.isNeutral = true) (ht : t.isNeutral = true)
    (alike : types.image s = types.image t) :
    types.spelling (between name s s s) = types.spelling (between name t t t) := by
  rw [spelling_between, spelling_between, alike, ending_eq_of_image_eq hs ht alike]

theorem spelling_gap_eq (hs : s.isNeutral = true) (ht : t.isNeutral = true)
    (alike : types.image s = types.image t) :
    types.spelling (gap operator s) = types.spelling (gap operator t) := by
  have ending := ending_eq_of_image_eq hs ht alike
  simp only [gap, spelling_between, alike]
  split_ifs <;> simp only [ending]

theorem length_ending (neutral : s.isNeutral = true) :
    (types.ending s).length = 3 + (types.image s).toList.length := by
  rw [TypeTable.ending, (Ty.isNeutral_iff.1 neutral).2.1]
  simp only [Bool.false_eq_true, if_false, List.length_cons]
  omega

/-- A meaning whose operands and result have one type is shown by the text of this type. -/
theorem image_eq_of_spelling_eq_self {name : String} (hs : s.isNeutral = true) (ht : t.isNeutral = true)
    (text : types.spelling (between name s s s) = types.spelling (between name t t t)) :
    types.image s = types.image t := by
  refine (image_eq_of_spelling_eq text ?_).1
  have length := congrArg List.length text
  rw [length_spelling_between, length_spelling_between, length_ending hs,
    length_ending ht] at length
  omega

theorem image_eq_of_spelling_eq_gap (hs : s.isNeutral = true) (ht : t.isNeutral = true)
    (text : types.spelling (gap operator s) = types.spelling (gap operator t)) :
    types.image s = types.image t := by
  refine (image_eq_of_spelling_eq text ?_).1
  have length := congrArg List.length text
  simp only [gap, length_spelling_between] at length
  split_ifs at length
  · rw [length_ending hs, length_ending ht] at length
    omega
  · omega

/-- A pointer and a number are not shown like two pointers. -/
theorem spelling_step_ne_gap :
    types.spelling (between operator.intrinsicName p .int r) ≠
      types.spelling (gap operator p) := by
  intro text
  have rest := congrArg List.head? (image_eq_of_spelling_eq text rfl).2
  rw [TypeTable.image_int, TypeTable.image, Matcher.image] at rest
  exact absurd rest (by simp)

end Alike

end Operator

end Pascal
