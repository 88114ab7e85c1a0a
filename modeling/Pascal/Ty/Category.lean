import Pascal.Ty.Basic

/-!
# Categories of types

Questions about what a type is. Distinct types belong to the category of the type they wrap;
only the three special types `unknown`, `untyped` and `void` are recognised bare.
-/

namespace Pascal

namespace Ty

def isUnknown : Ty → Bool
  | unknown => true
  | _ => false

def isUntyped : Ty → Bool
  | untyped => true
  | _ => false

def isVoid : Ty → Bool
  | void => true
  | _ => false

def integer? (ty : Ty) : Option IntegerTy :=
  match ty.unaliased with
  | integer i => some i
  | _ => none

def struct? (ty : Ty) : Option StructId :=
  match ty.unaliased with
  | struct id => some id
  | _ => none

theorem struct?_eq_some_iff {ty : Ty} {id : StructId} :
    ty.struct? = some id ↔ ty.unaliased = .struct id := by
  rw [struct?]
  cases ty.unaliased <;> simp

def pointerTarget? (ty : Ty) : Option Ty :=
  match ty.unaliased with
  | pointer target _ _ => some target
  | _ => none

/-- The form and the result of a callable type. -/
def procedural? (ty : Ty) : Option (ProceduralKind × Ty) :=
  match ty.unaliased with
  | procedural kind _ result => some (kind, result)
  | _ => none

/-- The result of calling a value of the type. -/
def callResult? (ty : Ty) : Option Ty := ty.procedural?.map (·.2)

def isInteger (ty : Ty) : Bool := ty.integer?.isSome

def isDecimal (ty : Ty) : Bool :=
  match ty.unaliased with
  | decimal _ _ => true
  | _ => false

def isNumeric (ty : Ty) : Bool := ty.isInteger || ty.isDecimal

def isBoolean (ty : Ty) : Bool :=
  match ty.unaliased with
  | boolean _ => true
  | _ => false

def isChar (ty : Ty) : Bool :=
  match ty.unaliased with
  | text kind => kind.isChar
  | _ => false

def isString (ty : Ty) : Bool :=
  match ty.unaliased with
  | text kind => !kind.isChar
  | _ => false

def isText (ty : Ty) : Bool :=
  match ty.unaliased with
  | text _ => true
  | _ => false

def isEnum (ty : Ty) : Bool :=
  match ty.unaliased with
  | enum _ => true
  | _ => false

/-- Types whose values are counted: integers, truth values, characters and enumerations. -/
def isOrdinal (ty : Ty) : Bool := ty.isInteger || ty.isBoolean || ty.isChar || ty.isEnum

def isStruct (ty : Ty) : Bool := ty.struct?.isSome

def isPointer (ty : Ty) : Bool := ty.pointerTarget?.isSome

def isNil (ty : Ty) : Bool :=
  match ty.unaliased with
  | pointer _ isNil _ => isNil
  | _ => false

def isArray (ty : Ty) : Bool :=
  match ty.unaliased with
  | array _ _ => true
  | _ => false

def isDynamicArray (ty : Ty) : Bool :=
  match ty.unaliased with
  | array kind _ => kind = .dynamic
  | _ => false

def isSet (ty : Ty) : Bool :=
  match ty.unaliased with
  | set _ => true
  | _ => false

def isProcedural (ty : Ty) : Bool := ty.procedural?.isSome

def isClassRef (ty : Ty) : Bool :=
  match ty.unaliased with
  | classRef _ => true
  | _ => false

def isVariant (ty : Ty) : Bool :=
  match ty.unaliased with
  | variant _ => true
  | _ => false

end Ty

/-- Whether the family holds the type of an argument. -/
def Matcher.accepts (family : Matcher) (ty : Ty) : Bool :=
  match family with
  | anyOrdinal => ty.isOrdinal
  | anySet =>
    match ty.unaliased with
    | .set _ | .bracket _ => true
    | _ => false
  | pointerMathOperand =>
    match ty.unaliased with
    | .pointer _ _ math => math
    | .array kind _ => kind ≠ .openOfConst
    | _ => false

end Pascal
