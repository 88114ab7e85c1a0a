import Pascal.Ty.Table

/-!
# Sizes

The width of the values of a type, and the widest of several types.
-/

namespace Pascal.TypeTable

/-- The width of a type, given the widths of the enumerations it may be an alias of. -/
def sizeWith (types : TypeTable) (enumSize : EnumId → Option Nat) : Ty → Option Nat
  | .integer i => some i.size
  | .decimal _ size => some size
  | .boolean kind => some kind.size
  | .text .ansiChar => some 1
  | .text .wideChar => some 2
  | .text .shortString => some 256
  | .text _ => some types.target.pointerSize
  | .struct id =>
    if (types.structInfo id).kind.isReference then some types.target.pointerSize else none
  | .enum id => enumSize id
  | .pointer .. | .classRef _ => some types.target.pointerSize
  | .procedural .procedureOfObject .. | .procedural .method .. =>
    some (types.target.pointerSize * 2)
  | .procedural .. => some types.target.pointerSize
  | .array .dynamic _ => some types.target.pointerSize
  | .variant _ => some (if types.target.pointerSize = 8 then 24 else 16)
  | .distinct _ target => types.sizeWith enumSize target
  | _ => none

/-- The width of an enumeration: that of its base type, or one byte. A base type can only mention
enumerations declared before. -/
def enumSize? (types : TypeTable) (id : EnumId) : Option Nat :=
  match (types.enumInfo id).base with
  | none => some 1
  | some base =>
    types.sizeWith
      (fun earlier => if _h : earlier.index < id.index then types.enumSize? earlier else none) base
  termination_by id.index

/-- The width of a type in bytes, if it is known. -/
def sizeOf? (types : TypeTable) (ty : Ty) : Option Nat :=
  types.sizeWith types.enumSize? ty

/-- The first type of greatest width among `best` and the others; an unknown width counts as zero. -/
def widestFrom (types : TypeTable) (best : Ty) : List Ty → Ty
  | [] => best
  | ty :: rest =>
    let wider := (types.sizeOf? best).getD 0 < (types.sizeOf? ty).getD 0
    types.widestFrom (if wider then ty else best) rest

/-- The first type of greatest width, or `void` when there is none. -/
def widest (types : TypeTable) : List Ty → Ty
  | [] => .void
  | ty :: rest => types.widestFrom ty rest

end Pascal.TypeTable
