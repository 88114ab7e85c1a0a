import Mathlib.Algebra.Group.Int.Defs
import Mathlib.Algebra.Group.Nat.Defs
import Pascal.Proofs.FoundTypes

/-!
# The widths of integer types

The ends of the ranges of integer types, and the distances between them, can be computed in 128 bits
if the types have one to fifteen bytes: a type of no bytes has no sign bit, and one of sixteen is too
wide. The integer types of the language have one, two, four or eight bytes. A conversion between
types in which only these occur is therefore computed without leaving 128 bits.
-/

namespace Pascal

/-! ## Ranges in 128 bits -/

namespace IntegerTy

/-- A type of one, two, four or eight bytes. -/
def Standard (ty : IntegerTy) : Prop := ty.size ∈ [1, 2, 4, 8]

instance : DecidablePred Standard := fun ty => inferInstanceAs (Decidable (ty.size ∈ [1, 2, 4, 8]))

/-- A number, if it has a place in 128 bits with a sign. -/
def wide? (value : Int) : Option Int :=
  if -2 ^ 127 ≤ value ∧ value < 2 ^ 127 then some value else none

/-- A power of two, as the one bit that is shifted by a number of digits. -/
def power? (digits : Nat) : Option Int :=
  if digits < 128 then wide? (2 ^ digits) else none

/-- The number of bits beside the sign. -/
def magnitude? (ty : IntegerTy) : Option Nat :=
  if 0 < ty.bits then some (ty.bits - 1) else none

/-- The least value of the type, in 128 bits. -/
def min? (ty : IntegerTy) : Option Int := do
  if ty.signed then wide? (-(← power? (← ty.magnitude?))) else some 0

/-- The greatest value of the type, in 128 bits. -/
def max? (ty : IntegerTy) : Option Int := do
  if ty.signed then wide? ((← power? (← ty.magnitude?)) - 1)
  else wide? ((← power? ty.bits) - 1)

/-- Whether the value lies in the range of the type, in 128 bits. -/
def contains? (ty : IntegerTy) (value : Int) : Option Bool := do
  let least ← ty.min?
  let greatest ← ty.max?
  return least ≤ value && value ≤ greatest

/-- Whether every value of the type is a value of `other`, in 128 bits. -/
def fitsIn? (ty other : IntegerTy) : Option Bool := do
  let least ← ty.min?
  let bound ← other.min?
  if bound ≤ least then
    let greatest ← ty.max?
    let bound ← other.max?
    return greatest ≤ bound
  else return false

/-- The distance of two ranges, in 128 bits; the sum of the two distances has no sign. -/
def distance? (ty other : IntegerTy) : Option Nat := do
  let low ← wide? ((← ty.min?) - (← other.min?))
  let high ← wide? ((← ty.max?) - (← other.max?))
  let sum := low.natAbs + high.natAbs
  if sum < 2 ^ 128 then some (Number.nearestDouble sum) else none

/-- The type of an integer literal, in 128 bits. -/
def ofLiteral? (value : Nat) : Option IntegerTy := do
  if ← integer.contains? value then return integer
  else if ← int64.contains? value then return int64
  else return uInt64

/-- A type of one to fifteen bytes. -/
def Narrow (ty : IntegerTy) : Prop := 1 ≤ ty.size ∧ ty.size ≤ 15

instance : DecidablePred Narrow := fun _ => inferInstanceAs (Decidable (_ ∧ _))

variable {ty other : IntegerTy}

theorem Standard.narrow (h : ty.Standard) : ty.Narrow := by
  have size : ty.size = 1 ∨ ty.size = 2 ∨ ty.size = 4 ∨ ty.size = 8 := by simpa [Standard] using h
  unfold Narrow
  omega

theorem pow_bounds {digits bound : Nat} (h : digits ≤ bound) :
    (0 : Int) < Nat.pow 2 digits ∧ (Nat.pow 2 digits : Int) ≤ 2 ^ bound := by
  constructor
  · exact_mod_cast Nat.two_pow_pos digits
  · exact_mod_cast Nat.pow_le_pow_right Nat.two_pos h

theorem power?_eq {digits : Nat} (h : digits ≤ 120) :
    power? digits = some (Nat.pow 2 digits : Int) := by
  have bounds := pow_bounds h
  have cast : (2 : Int) ^ digits = (Nat.pow 2 digits : Int) := by exact_mod_cast rfl
  rw [power?, if_pos (by omega), wide?, cast, if_pos (by omega)]

namespace Narrow

theorem bits_bounds (h : ty.Narrow) : 8 ≤ ty.bits ∧ ty.bits ≤ 120 := by
  have := h.1
  have := h.2
  unfold bits
  omega

/-- The ends of the ranges lie far inside of 128 bits. -/
theorem bounds (h : ty.Narrow) :
    -2 ^ 119 ≤ ty.min ∧ ty.min ≤ 0 ∧ 0 ≤ ty.max ∧ ty.max < 2 ^ 120 := by
  have bits := h.bits_bounds
  have half := pow_bounds (show ty.bits - 1 ≤ 119 by omega)
  have whole := pow_bounds bits.2
  unfold min max
  split_ifs <;> omega

theorem magnitude?_eq (h : ty.Narrow) : ty.magnitude? = some (ty.bits - 1) :=
  if_pos (Nat.lt_of_lt_of_le (by decide) h.bits_bounds.1)

theorem min?_eq (h : ty.Narrow) : ty.min? = some ty.min := by
  have bits := h.bits_bounds
  have bounds := h.bounds
  have half := power?_eq (show ty.bits - 1 ≤ 120 by omega)
  unfold min? min at *
  cases signed : ty.signed with
  | false => rfl
  | true =>
    simp only [signed, if_true, h.magnitude?_eq, half, Option.bind_eq_bind, Option.bind_some]
      at bounds ⊢
    exact if_pos (by omega)

theorem max?_eq (h : ty.Narrow) : ty.max? = some ty.max := by
  have bits := h.bits_bounds
  have bounds := h.bounds
  have half := power?_eq (show ty.bits - 1 ≤ 120 by omega)
  have whole := power?_eq bits.2
  unfold max? max at *
  cases signed : ty.signed with
  | false =>
    simp only [signed, Bool.false_eq_true, if_false, whole, Option.bind_eq_bind, Option.bind_some]
      at bounds ⊢
    exact if_pos (by omega)
  | true =>
    simp only [signed, if_true, h.magnitude?_eq, half, Option.bind_eq_bind, Option.bind_some]
      at bounds ⊢
    exact if_pos (by omega)

theorem contains?_eq (h : ty.Narrow) (value : Int) :
    ty.contains? value = some (ty.contains value) := by
  simp [contains?, contains, h.min?_eq, h.max?_eq]

theorem fitsIn?_eq (h : ty.Narrow) (ho : other.Narrow) :
    ty.fitsIn? other = some (ty.fitsIn other) := by
  simp only [fitsIn?, fitsIn, h.min?_eq, h.max?_eq, ho.min?_eq, ho.max?_eq, Option.bind_eq_bind,
    Option.bind_some]
  split_ifs with hle <;> simp [hle]

/-- Distances are computed without loss. -/
theorem distance?_eq (h : ty.Narrow) (ho : other.Narrow) :
    ty.distance? other = some (ty.distance other) := by
  have bounds := h.bounds
  have bounds' := ho.bounds
  have low : wide? (ty.min - other.min) = some (ty.min - other.min) := if_pos (by omega)
  have high : wide? (ty.max - other.max) = some (ty.max - other.max) := if_pos (by omega)
  have sum : (ty.min - other.min).natAbs + (ty.max - other.max).natAbs < 2 ^ 128 := by omega
  simp only [distance?, distance, h.min?_eq, h.max?_eq, ho.min?_eq, ho.max?_eq, low, high,
    Option.bind_eq_bind, Option.bind_some]
  exact if_pos sum

end Narrow

-- Without a byte there is no sign bit, and the ends of a range of sixteen bytes are too far away.
example : (IntegerTy.mk 0 true).min? = none ∧ (IntegerTy.mk 16 false).max? = none := by decide

theorem Standard.min?_eq (h : ty.Standard) : ty.min? = some ty.min := h.narrow.min?_eq

theorem Standard.max?_eq (h : ty.Standard) : ty.max? = some ty.max := h.narrow.max?_eq

theorem Standard.fitsIn?_eq (h : ty.Standard) (ho : other.Standard) :
    ty.fitsIn? other = some (ty.fitsIn other) := h.narrow.fitsIn?_eq ho.narrow

theorem Standard.distance?_eq (h : ty.Standard) (ho : other.Standard) :
    ty.distance? other = some (ty.distance other) := h.narrow.distance?_eq ho.narrow

theorem ofLiteral?_eq (value : Nat) : ofLiteral? value = some (ofLiteral value) := by
  have integer : integer.Narrow := by decide
  have int64 : int64.Narrow := by decide
  simp only [ofLiteral?, ofLiteral, integer.contains?_eq, int64.contains?_eq, Option.bind_eq_bind,
    Option.bind_some]
  split_ifs <;> rfl

end IntegerTy

/-! ## Types of standard widths -/

namespace Ty

mutual
/-- The integer types that occur in a type. -/
def integers : Ty → List IntegerTy
  | .integer ty => [ty]
  | .pointer target _ _ | .classRef target | .distinct _ target => target.integers
  | .array _ element | .set element => element.integers
  | .procedural _ params result => integersAll params ++ result.integers
  | .bracket elements => integersAll elements
  | _ => []
/-- The integer types that occur in several types. -/
def integersAll : List Ty → List IntegerTy
  | [] => []
  | ty :: rest => ty.integers ++ integersAll rest
end

/-- Every integer type that occurs in the type has a standard width. -/
def Standard (ty : Ty) : Prop := ∀ i ∈ ty.integers, i.Standard

instance : DecidablePred Standard := fun ty =>
  inferInstanceAs (Decidable (∀ i ∈ ty.integers, i.Standard))

theorem mem_integersAll {tys : List Ty} {i : IntegerTy} :
    i ∈ integersAll tys ↔ ∃ ty ∈ tys, i ∈ ty.integers := by
  induction tys with
  | nil => simp [integersAll]
  | cons ty rest ih => simp [integersAll, ih]

variable {target element result : Ty} {params elements : List Ty}

@[simp] theorem standard_integer {ty : IntegerTy} : (integer ty).Standard ↔ ty.Standard :=
  List.forall_mem_singleton

@[simp] theorem standard_pointer {isNil math : Bool} :
    (pointer target isNil math).Standard ↔ target.Standard :=
  Iff.rfl

@[simp] theorem standard_classRef : (classRef target).Standard ↔ target.Standard := Iff.rfl

@[simp] theorem standard_distinct {name : String} :
    (distinct name target).Standard ↔ target.Standard :=
  Iff.rfl

@[simp] theorem standard_array {kind : ArrayKind} :
    (array kind element).Standard ↔ element.Standard :=
  Iff.rfl

@[simp] theorem standard_set : (set element).Standard ↔ element.Standard := Iff.rfl

@[simp] theorem standard_bracket : (bracket elements).Standard ↔ ∀ ty ∈ elements, ty.Standard := by
  change (∀ i ∈ integersAll elements, i.Standard) ↔ _
  simp only [mem_integersAll]
  grind [Standard]

@[simp] theorem standard_procedural {kind : ProceduralKind} :
    (procedural kind params result).Standard ↔
      (∀ ty ∈ params, ty.Standard) ∧ result.Standard := by
  change (∀ i ∈ integersAll params ++ result.integers, i.Standard) ↔ _
  simp only [List.mem_append, mem_integersAll]
  grind [Standard]

theorem standard_of_integers_nil {ty : Ty} (h : ty.integers = []) : ty.Standard := by
  simp [Standard, h]

@[simp] theorem standard_unaliased {ty : Ty} : ty.unaliased.Standard ↔ ty.Standard := by
  fun_induction unaliased ty <;> grind [standard_distinct]

end Ty

namespace Ty

theorem standard_of_isPlain {ty : Ty} (h : ty.isPlain = true) : ty.Standard := by
  cases ty with
  | integer ty => simpa [isPlain, IntegerTy.Standard] using h
  | untyped | void | decimal | boolean | text | variant | matcher =>
    exact standard_of_integers_nil rfl
  | _ => cases h

/-- Types are made of types of standard widths. -/
theorem formative_standard : Formative Standard where
  unknown := standard_of_integers_nil rfl
  untyped := standard_of_integers_nil rfl
  void := standard_of_integers_nil rfl
  struct _ := standard_of_integers_nil rfl
  enum _ := standard_of_integers_nil rfl
  pointer _ h := standard_pointer.2 h
  array _ h := standard_array.2 h
  set h := standard_set.2 h
  procedural _ hp hr := standard_procedural.2 ⟨hp, hr⟩
  classRef h := standard_classRef.2 h
  distinct _ h := standard_distinct.2 h

/-- Typing keeps to the standard widths. -/
theorem hereditary_standard : Hereditary Standard where
  plain := standard_of_isPlain
  joined {elements} types h := by
    rw [standard_bracket] at h ⊢
    cases elements with
    | nil => simpa [TypeTable.widest] using formative_standard.void
    | cons ty rest => simpa [TypeTable.widest] using h _ (types.mem_widest ty rest)
  unknown := formative_standard.unknown
  nil := standard_of_integers_nil rfl
  address h _ := standard_pointer.2 h
  bracket := standard_bracket.2
  target := standard_pointer.1
  result h := (standard_procedural.1 h).2
  referent := standard_classRef.1
  represented := standard_distinct.1

end Ty

/-! ## Conversions in 128 bits -/

namespace TypeTable

/-- What can be told of a conversion before the wrappers are looked through. -/
def wrappedConversion? (argument parameter : Ty) (bare : Option Conversion) : Option Conversion :=
  if argument = parameter then some .exact
  else
    match parameter with
    | .untyped => some .untyped
    | .matcher family => some (.convertibleIf (family.accepts argument))
    | _ => if argument.unaliased = parameter.unaliased then some (.promotion 0) else bare

/-- The way from a number or text of one kind to another. Only the distance of two integer types
takes arithmetic on ranges. -/
def simpleConversion? : Ty → Ty → Option Conversion
  | .integer a, .integer b => do
    let distance ← a.distance? b
    if ← a.fitsIn? b then some (.promotion distance) else some (.convertible distance)
  | argument, parameter => some (simpleConversion argument parameter)

mutual
/-- The way from an argument type, whose wrappers are looked through, to an unwrapped parameter
type. -/
def bareConversion? (types : TypeTable) : Ty → Ty → Option Conversion
  | .distinct _ target, parameter => types.bareConversion? target parameter
  | .integer ty, parameter => simpleConversion? (.integer ty) parameter
  | .bracket elements, parameter =>
    match parameter with
    | .set element => (types.allConvert? elements element).map .convertibleIf
    | .array .openOfConst _ => some (.convertible 0)
    | .array _ element => (types.allConvert? elements element).map .convertibleIf
    | .bracket (target :: _) => (types.allConvert? elements target).map .convertibleIf
    | _ => some (types.bareConversion (.bracket elements) parameter)
  | .set source, parameter =>
    match parameter with
    | .set target =>
      (wrappedConversion? source target (types.bareConversion? source target.unaliased)).map
        fun way => .convertibleIf (way ≠ .incompatible)
    | _ => some (types.bareConversion (.set source) parameter)
  | argument, parameter => some (types.bareConversion argument parameter)
/-- Whether every element reaches the target type, up to the first that does not. -/
def allConvert? (types : TypeTable) : List Ty → Ty → Option Bool
  | [], _ => some true
  | element :: rest, target =>
    if element.isVoid then types.allConvert? rest target
    else
      (wrappedConversion? element target (types.bareConversion? element target.unaliased)).bind
        fun way => if way = .incompatible then some false else types.allConvert? rest target
end

/-- The way from an argument type to a parameter type, with its ranges computed in 128 bits. -/
def conversion? (types : TypeTable) (argument parameter : Ty) : Option Conversion :=
  wrappedConversion? argument parameter (types.bareConversion? argument parameter.unaliased)

theorem wrappedConversion?_some (argument parameter : Ty) (bare : Conversion) :
    wrappedConversion? argument parameter (some bare) =
      some (wrappedConversion argument parameter bare) := by
  unfold wrappedConversion? wrappedConversion
  split_ifs
  · rfl
  · cases parameter <;> rfl
  · cases parameter <;> rfl

theorem simpleConversion?_eq {argument parameter : Ty} (ha : argument.Standard)
    (hp : parameter.Standard) :
    simpleConversion? argument parameter = some (simpleConversion argument parameter) := by
  fun_cases simpleConversion? argument parameter with
  | case1 a b =>
    rw [Ty.standard_integer] at ha hp
    simp only [ha.distance?_eq hp, ha.fitsIn?_eq hp, simpleConversion, Option.bind_eq_bind,
      Option.bind_some]
    split_ifs <;> rfl
  | case2 => rfl

theorem allConvert?_eq {types : TypeTable} {elements : List Ty} {target : Ty}
    (h : ∀ element ∈ elements, types.bareConversion? element target.unaliased =
      some (types.bareConversion element target.unaliased)) :
    types.allConvert? elements target = some (types.allConvert elements target) := by
  induction elements with
  | nil => rfl
  | cons element rest ih =>
    rw [List.forall_mem_cons] at h
    simp only [allConvert?, allConvert, h.1, wrappedConversion?_some, ih h.2, Option.bind_some]
    generalize wrappedConversion element target
      (types.bareConversion element target.unaliased) = way
    cases element.isVoid <;> cases way <;> rfl

theorem bareConversion?_eq (types : TypeTable) {argument parameter : Ty} (ha : argument.Standard)
    (hp : parameter.Standard) :
    types.bareConversion? argument parameter = some (types.bareConversion argument parameter) := by
  induction argument using Ty.induct generalizing parameter with
  | integer ty => exact simpleConversion?_eq ha hp
  | distinct name target ih => exact ih (Ty.standard_distinct.1 ha) hp
  | set source ih =>
    cases parameter with
    | set target =>
      rw [Ty.standard_set] at ha hp
      simp only [bareConversion?, bareConversion, ih ha (Ty.standard_unaliased.2 hp),
        wrappedConversion?_some, Option.map_some]
    | _ => rfl
  | bracket elements ih =>
    rw [Ty.standard_bracket] at ha
    have all : ∀ {target : Ty}, target.Standard →
        types.allConvert? elements target = some (types.allConvert elements target) :=
      fun ht => allConvert?_eq fun element he => ih element he (ha element he)
        (Ty.standard_unaliased.2 ht)
    cases parameter with
    | set element => simp only [bareConversion?, bareConversion, all (Ty.standard_set.1 hp)]; rfl
    | array kind element =>
      rw [Ty.standard_array] at hp
      cases kind with
      | openOfConst => rfl
      | _ => simp only [bareConversion?, bareConversion, all hp]; rfl
    | bracket targets =>
      cases targets with
      | nil => rfl
      | cons target rest =>
        simp only [bareConversion?, bareConversion, all (Ty.standard_bracket.1 hp target (by simp))]
        rfl
    | _ => rfl
  | _ => rfl

/-- Conversions are computed without loss. -/
theorem conversion?_eq (types : TypeTable) {argument parameter : Ty} (ha : argument.Standard)
    (hp : parameter.Standard) :
    types.conversion? argument parameter = some (types.conversion argument parameter) := by
  rw [conversion?, types.bareConversion?_eq ha (Ty.standard_unaliased.2 hp),
    wrappedConversion?_some, conversion]

/-! ## Choices in 128 bits -/

/-- Takes the remaining arguments into account, up to one that cannot be taken. -/
def rankFrom? (types : TypeTable) (rank : Rank) : List Ty → List Ty → Option (Option Rank)
  | argument :: arguments, parameter :: params =>
    (types.conversion? argument parameter).bind fun conversion =>
      match conversion with
      | .incompatible => some none
      | conversion => types.rankFrom? (rank.add conversion parameter) arguments params
  | _, _ => some (some rank)

/-- A candidate with its rank, if it takes the arguments. -/
def ranked? (types : TypeTable) (arguments : List Ty) (candidate : Invocable) :
    Option (Option (Invocable × Rank)) :=
  if candidate.acceptsArity arguments.length then
    (types.rankFrom? {} arguments candidate.params).map (·.map (candidate, ·))
  else some none

/-- The best candidate for the arguments, or the best ones when they are tied, with all ranges
computed in 128 bits. -/
def choose? (types : TypeTable) (candidates : List Invocable) (arguments : List Ty) :
    Option Resolution := do
  let ranked ← candidates.mapM (types.ranked? arguments)
  return .ofWinners <| (best (ranked.filterMap id)).mergeSort
    fun left right => types.declarationOrder left right ≠ .gt

theorem rankFrom?_eq (types : TypeTable) (rank : Rank) {arguments params : List Ty}
    (ha : ∀ ty ∈ arguments, ty.Standard) (hp : ∀ ty ∈ params, ty.Standard) :
    types.rankFrom? rank arguments params = some (types.rankFrom rank arguments params) := by
  induction arguments generalizing rank params with
  | nil => rfl
  | cons argument arguments ih =>
    cases params with
    | nil => rfl
    | cons parameter params =>
      rw [List.forall_mem_cons] at ha hp
      simp only [rankFrom?, rankFrom, types.conversion?_eq ha.1 hp.1, Option.bind_some]
      cases types.conversion argument parameter with
      | incompatible => rfl
      | _ => exact ih _ ha.2 hp.2

theorem ranked?_eq (types : TypeTable) {arguments : List Ty} {candidate : Invocable}
    (ha : ∀ ty ∈ arguments, ty.Standard) (hc : candidate.Made Ty.Standard) :
    types.ranked? arguments candidate =
      some ((types.rank? arguments candidate).map (candidate, ·)) := by
  unfold ranked? rank?
  split_ifs
  · rw [types.rankFrom?_eq {} ha hc.params, Option.map_some]
  · rfl

/-- The choice among signatures is computed without loss. -/
theorem choose?_eq (types : TypeTable) {candidates : List Invocable} {arguments : List Ty}
    (hc : ∀ c ∈ candidates, c.Made Ty.Standard) (ha : ∀ ty ∈ arguments, ty.Standard) :
    types.choose? candidates arguments = some (types.choose candidates arguments) := by
  have ranked : candidates.mapM (types.ranked? arguments) =
      some (candidates.map fun c => (types.rank? arguments c).map (c, ·)) := by
    induction candidates with
    | nil => rfl
    | cons c rest ih =>
      rw [List.forall_mem_cons] at hc
      simp [types.ranked?_eq ha hc.1, ih hc.2]
  simp [choose?, ranked, choose, applicable, List.filterMap_map]

end TypeTable

end Pascal
