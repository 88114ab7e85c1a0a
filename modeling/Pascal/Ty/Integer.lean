import Pascal.Number.Double

/-!
# Integer types

A two's-complement integer type is its width in bytes and whether it has a sign.
-/

namespace Pascal

/-- A two's-complement integer type of `size` bytes. -/
structure IntegerTy where
  size : Nat
  signed : Bool
  deriving Repr, DecidableEq, Inhabited

namespace IntegerTy

def shortInt : IntegerTy := ⟨1, true⟩
def smallInt : IntegerTy := ⟨2, true⟩
def integer : IntegerTy := ⟨4, true⟩
def int64 : IntegerTy := ⟨8, true⟩
def byte : IntegerTy := ⟨1, false⟩
def word : IntegerTy := ⟨2, false⟩
def cardinal : IntegerTy := ⟨4, false⟩
def uInt64 : IntegerTy := ⟨8, false⟩

def bits (ty : IntegerTy) : Nat := 8 * ty.size

def min (ty : IntegerTy) : Int :=
  if ty.signed then -(Nat.pow 2 (ty.bits - 1) : Int) else 0

def max (ty : IntegerTy) : Int :=
  if ty.signed then (Nat.pow 2 (ty.bits - 1) : Int) - 1 else (Nat.pow 2 ty.bits : Int) - 1

/-- Whether the value lies in the range of the type. -/
def contains (ty : IntegerTy) (value : Int) : Bool :=
  ty.min ≤ value && value ≤ ty.max

/-- Whether `other` is at least as wide. The sign does not matter. -/
def isWithinLimit (ty other : IntegerTy) : Bool := ty.size ≤ other.size

def isSameRange (ty other : IntegerTy) : Bool :=
  ty.size == other.size && ty.signed == other.signed

/-- Whether every value of the type is a value of `other`. -/
def fitsIn (ty other : IntegerTy) : Bool :=
  other.min ≤ ty.min && ty.max ≤ other.max

/-- The distance of the lower ends plus the distance of the upper ends, as a double. -/
def distance (ty other : IntegerTy) : Nat :=
  Number.nearestDouble ((ty.min - other.min).natAbs + (ty.max - other.max).natAbs)

/-- The name a type is shown by. Widths without a name of their own show only their sign. -/
def image (ty : IntegerTy) : String :=
  match ty.size, ty.signed with
  | 1, true => "ShortInt"
  | 2, true => "SmallInt"
  | 4, true => "Integer"
  | 8, true => "Int64"
  | 1, false => "Byte"
  | 2, false => "Word"
  | 4, false => "Cardinal"
  | 8, false => "UInt64"
  | _, true => "<signed integer>"
  | _, false => "<unsigned integer>"

/-- The first of `Integer`, `Int64` and `UInt64` that holds the value of a literal. -/
def ofLiteral (value : Nat) : IntegerTy :=
  if integer.contains value then integer
  else if int64.contains value then int64
  else uInt64

/-- A range fits into another exactly when every value it contains is contained there. -/
theorem fitsIn_iff {ty other : IntegerTy} (h : ty.min ≤ ty.max) :
    ty.fitsIn other ↔ ∀ v, ty.contains v → other.contains v := by
  simp only [fitsIn, contains, Bool.and_eq_true, decide_eq_true_eq]
  constructor
  · intro ⟨h₁, h₂⟩ v ⟨h₃, h₄⟩
    omega
  · intro hv
    have h₁ := hv ty.min ⟨by omega, h⟩
    have h₂ := hv ty.max ⟨h, by omega⟩
    omega

end IntegerTy

end Pascal
