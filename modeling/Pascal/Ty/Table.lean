import Pascal.Target
import Pascal.Ty.Category

/-!
# Type table

The table that gives structured types and enumerations their identity and keeps what is known
about each. A structured type may be announced first and described later; its identity stays.
-/

namespace Pascal

/-- What is known about a structured type. -/
structure StructInfo where
  image : String
  kind : StructKind
  scope : ScopeId
  /-- The types it is derived from, as they were written. -/
  parents : List Ty := []
  helperFor : Option Ty := none
  /-- Whether the type is only announced so far. -/
  forward : Bool := false
  deriving Repr, Inhabited, DecidableEq

/-- What is known about an enumeration. -/
structure EnumInfo where
  image : String
  scope : ScopeId
  /-- The type that fixes the width, if one is given. -/
  base : Option Ty := none
  elements : List String := []
  deriving Repr, Inhabited, DecidableEq

/-- The structured types and enumerations declared so far. -/
structure TypeTable where
  target : Target := {}
  structs : Array StructInfo := #[]
  enums : Array EnumInfo := #[]
  deriving Repr, Inhabited

namespace TypeTable

def structInfo (types : TypeTable) (id : StructId) : StructInfo :=
  types.structs.getD id.index default

def enumInfo (types : TypeTable) (id : EnumId) : EnumInfo :=
  types.enums.getD id.index default

/-- Gives a structured type its identity. Its heritage is described later. -/
def declareStruct (types : TypeTable) (image : String) (kind : StructKind) (scope : ScopeId)
    (forward : Bool) : StructId × TypeTable :=
  (⟨types.structs.size⟩,
    { types with structs := types.structs.push { image, kind, scope, forward } })

/-- Describes the heritage of a structured type, which is from then on no mere announcement. -/
def completeStruct (types : TypeTable) (id : StructId) (parents : List Ty)
    (helperFor : Option Ty) : TypeTable :=
  { types with structs :=
      types.structs.modify id.index fun info => { info with parents, helperFor, forward := false } }

def declareEnum (types : TypeTable) (image : String) (scope : ScopeId) (base : Option Ty) :
    EnumId × TypeTable :=
  (⟨types.enums.size⟩, { types with enums := types.enums.push { image, scope, base } })

/-- Adds an element at the end of an enumeration. -/
def addElement (types : TypeTable) (id : EnumId) (element : String) : TypeTable :=
  { types with enums :=
      types.enums.modify id.index fun info => { info with elements := info.elements ++ [element] } }

def isClass (types : TypeTable) (ty : Ty) : Bool :=
  match ty.struct? with
  | some id => (types.structInfo id).kind = .classType
  | none => false

def acceptsNil (types : TypeTable) : Ty → Bool
  | .pointer .. | .classRef _ | .procedural .. => true
  | .struct id => (types.structInfo id).kind.isReference
  | .array kind _ => kind = .dynamic
  | .text kind => !kind.isChar
  | _ => false

end TypeTable

end Pascal
