/-!
# Numerals

The decimal numerals of JSON documents and the numbers they stand for. A numeral without fraction
and exponent stands for a whole number if that fits into 64 bits; every other numeral stands for a
double. The double is computed from the first digits that fit into 64 bits and one power of ten, so
it may differ from the nearest double in its last digit.
-/

namespace Pascal.Json

/-- The parts of a written number, digits in the order written. -/
structure Numeral where
  negative : Bool := false
  whole : List Nat
  /-- The digits behind the point; none if there is no point. -/
  fraction : List Nat := []
  /-- Whether the exponent is negative, and its digits. -/
  exponent : Option (Bool × List Nat) := none
  deriving Repr, DecidableEq, Inhabited

/-- The number that a numeral stands for. -/
inductive NumberValue where
  /-- A whole number below 2^64. -/
  | natural (value : Nat)
  /-- A negative whole number, given without its sign; at most 2^63. -/
  | negated (value : Nat)
  | double (value : Float)

namespace Numeral

def significandLimit : Nat := Nat.pow 2 64 - 1

/-- Takes in digits as long as the significand stays within its limit; gives the significand and
the digits left over. -/
def takeDigits (significand : Nat) : List Nat → Nat × List Nat
  | [] => (significand, [])
  | digit :: rest =>
    let next := significand * 10 + digit
    if significandLimit < next then (significand, digit :: rest) else takeDigits next rest

def powerOfTen (n : Nat) : Float := Float.ofScientific 1 false n

/-- A double divided by a power of ten, in steps that a double can hold. -/
def shrink (f : Float) (n : Nat) : Float :=
  if n ≤ 308 then f / powerOfTen n
  else if f == 0 then f
  else shrink (f / powerOfTen 308) (n - 308)
  termination_by n

/-- A significand times a power of ten, if a double can hold it. -/
def scaled? (significand : Nat) (exponent : Int) : Option Float :=
  let f := significand.toUInt64.toFloat
  if exponent < 0 then some (shrink f exponent.natAbs)
  else if 308 < exponent then if significand = 0 then some f else none
  else
    let product := f * powerOfTen exponent.toNat
    if product.isInf then none else some product

/-- The number written by the digits of an exponent. -/
def exponentValue (digits : List Nat) : Nat := digits.foldl (fun n digit => n * 10 + digit) 0

/-- The double that the parts stand for, without the sign. -/
def double? (n : Numeral) : Option Float :=
  let (kept, dropped) := takeDigits 0 n.whole
  let (significand, left) := takeDigits kept n.fraction
  let shift : Int := dropped.length - ((n.fraction.length - left.length : Nat) : Int)
  match n.exponent with
  | none => scaled? significand shift
  | some (negative, digits) =>
    let exponent := exponentValue digits
    if Nat.pow 2 31 ≤ exponent then if significand = 0 || negative then some 0 else none
    else scaled? significand (if negative then shift - exponent else shift + exponent)

/-- The number that a numeral stands for, unless it is too large. -/
def value? (n : Numeral) : Option NumberValue :=
  let (significand, left) := takeDigits 0 n.whole
  if n.fraction.isEmpty && n.exponent.isNone && left.isEmpty then
    if !n.negative then some (.natural significand)
    else if 0 < significand && significand ≤ Nat.pow 2 63 then some (.negated significand)
    else some (.double (-significand.toUInt64.toFloat))
  else
    n.double?.map fun f => .double (if n.negative then -f else f)

end Numeral

/-- The double nearest to the number, or the number itself if it is a double. -/
def NumberValue.toDouble : NumberValue → Float
  | natural value => value.toUInt64.toFloat
  | negated value => -value.toUInt64.toFloat
  | double value => value

end Pascal.Json
