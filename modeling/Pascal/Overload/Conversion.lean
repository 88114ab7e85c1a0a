import Pascal.Ty.Heritage

/-!
# Conversions

How an argument of one type reaches a parameter of another.
-/

namespace Pascal

/-- How an argument reaches a parameter, from the best way to none. -/
inductive Conversion where
  /-- The types are the same. -/
  | exact
  /-- A lossless widening, a step up the heritage, or `nil` for a reference. -/
  | promotion (distance : Nat)
  /-- Implicit, but lossy or with a change of representation. -/
  | convertible (distance : Nat)
  /-- A variant unpacked when the program runs. -/
  | fromVariant
  /-- The parameter takes anything. -/
  | untyped
  | incompatible
  deriving Repr, DecidableEq, Inhabited

namespace Conversion

/-- The rank of the way; lower is better. -/
def tier : Conversion → Nat
  | exact => 0
  | promotion _ => 1
  | convertible _ => 2
  | fromVariant => 3
  | untyped => 4
  | incompatible => 5

/-- How far the way is, where that can be told. -/
def distance : Conversion → Nat
  | promotion distance | convertible distance => distance
  | _ => 0

/-- A conversion that is possible on a condition. -/
def convertibleIf (condition : Bool) : Conversion :=
  if condition then convertible 0 else incompatible

end Conversion

namespace TypeTable

/-- The way from a structured type up to another. -/
def upcast (types : TypeTable) (sub sup : StructId) : Conversion :=
  match types.inheritanceDistance sub sup with
  | some depth => .promotion depth
  | none => .incompatible

/-- What can be told of a conversion before the wrappers of the types are looked through; `bare` is
the way between what they wrap. -/
def wrappedConversion (argument parameter : Ty) (bare : Conversion) : Conversion :=
  if argument = parameter then .exact
  else
    match parameter with
    | .untyped => .untyped
    | .matcher family => .convertibleIf (family.accepts argument)
    | _ => if argument.unaliased = parameter.unaliased then .promotion 0 else bare

/-- The way from a number or text of one kind to another. -/
def simpleConversion : Ty → Ty → Conversion
  | .integer a, .integer b =>
    if a.fitsIn b then .promotion (a.distance b) else .convertible (a.distance b)
  | .integer _, .decimal _ _ => .convertible 0
  | .decimal _ a, .decimal _ b =>
    if a ≤ b then .promotion (b - a) else .convertible (a - b)
  | .text a, .text b =>
    match a.isChar, b.isChar with
    | true, false => .promotion 1
    | false, true => .incompatible
    | _, _ => .convertible 0
  | .boolean _, .boolean _ => .convertible 0
  | _, .variant _ => .convertible 0
  | _, _ => .incompatible

def pointerConversion (types : TypeTable) (target : Ty) (isNil : Bool) (parameter : Ty) :
    Conversion :=
  if isNil then if types.acceptsNil parameter then .promotion 0 else .incompatible
  else
    match parameter with
    | .pointer other _ _ =>
      if other.isUntyped then .promotion 0
      else .convertibleIf (target.isUntyped || target = other)
    | .variant _ => .convertible 0
    | _ => .incompatible

mutual
/-- The way from an argument type, whose wrappers are looked through, to an unwrapped parameter
type that differs from it. -/
def bareConversion (types : TypeTable) : Ty → Ty → Conversion
  | .distinct _ target, parameter => types.bareConversion target parameter
  | .unknown, _ => .convertible 0
  | .struct sub, parameter =>
    match parameter with
    | .struct sup => types.upcast sub sup
    | _ => .incompatible
  | .classRef sub, parameter =>
    match parameter with
    | .classRef sup =>
      match sub.struct?, sup.struct? with
      | some sub, some sup => types.upcast sub sup
      | _, _ => .incompatible
    | .variant _ => .convertible 0
    | _ => .incompatible
  | .pointer target isNil _, parameter => types.pointerConversion target isNil parameter
  | .variant _, parameter =>
    match parameter with
    | .variant _ => .convertible 0
    | .struct _ => .incompatible
    | _ => .fromVariant
  | .bracket elements, parameter =>
    match parameter with
    | .variant _ => .convertible 0
    | .set element => .convertibleIf (types.allConvert elements element)
    | .array .openOfConst _ => .convertible 0
    | .array _ element => .convertibleIf (types.allConvert elements element)
    | .bracket [] => .convertibleIf elements.isEmpty
    | .bracket (target :: _) => .convertibleIf (types.allConvert elements target)
    | _ => .incompatible
  | .set source, parameter =>
    match parameter with
    | .variant _ => .convertible 0
    | .set target =>
      .convertibleIf
        (wrappedConversion source target (types.bareConversion source target.unaliased)
          ≠ .incompatible)
    | _ => .incompatible
  | .array _ source, parameter =>
    match parameter with
    | .variant _ => .convertible 0
    | .array .openArray target => if source = target then .promotion 0 else .incompatible
    | .array .openOfConst _ => .convertible 0
    | _ => .incompatible
  | .procedural _ params result, parameter =>
    match parameter with
    | .variant _ => .convertible 0
    | .procedural _ params' result' =>
      .convertibleIf (params = params' && result = result')
    | _ => .incompatible
  | argument, parameter => simpleConversion argument parameter
/-- Whether every element reaches the target type; an element without a value is no hindrance. -/
def allConvert (types : TypeTable) : List Ty → Ty → Bool
  | [], _ => true
  | element :: rest, target =>
    (element.isVoid ||
      wrappedConversion element target (types.bareConversion element target.unaliased)
        ≠ .incompatible) && types.allConvert rest target
end

/-- The way from an argument type to a parameter type. -/
def conversion (types : TypeTable) (argument parameter : Ty) : Conversion :=
  wrappedConversion argument parameter (types.bareConversion argument parameter.unaliased)

end TypeTable

end Pascal
