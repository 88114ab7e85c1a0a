import Pascal.Ty.Basic

/-!
# Declarations

A declaration gives a name a meaning: a unit, a type, a routine, a variable and so on.
-/

namespace Pascal

/-- What a declared name stands for. -/
inductive DeclarationKind where
  | unit | unitImport | type | var | constant | field | property | parameter | routine
  | enumElement
  deriving Repr, DecidableEq, Inhabited

/-- The forms of routines. -/
inductive RoutineKind where
  | constructor | destructor | function | procedure | operator
  deriving Repr, DecidableEq, Inhabited

/-- The part of a unit that a declaration stands in. Only the interface is seen by other units. -/
inductive Section where
  | interface | implementation
  deriving Repr, DecidableEq, Inhabited

/-- What a routine takes and gives. -/
structure RoutineSignature where
  kind : RoutineKind
  params : List Ty
  /-- How many arguments a call has to give. -/
  required : Nat
  result : Ty
  /-- The structured type that the routine is a method of. -/
  declaring : Option StructId := none
  deriving Repr, DecidableEq, Inhabited

def RoutineSignature.ty (signature : RoutineSignature) : Ty :=
  .procedural (if signature.declaring.isSome then .method else .procedure) signature.params
    signature.result

/-- A declaration before it has a scope. -/
structure DeclarationSpec where
  name : String
  kind : DeclarationKind
  ty : Ty
  part : Section := .interface
  node : Option NodeId := none
  routine : Option RoutineSignature := none
  /-- The file scope that the name of a unit stands for. -/
  unitScope : Option ScopeId := none
  deriving Repr, Inhabited

/-- A declaration in its scope. -/
structure Declaration extends DeclarationSpec where
  scope : ScopeId
  /-- The name with the names of the enclosing scopes in front of it. -/
  qualifiedName : String
  deriving Repr, Inhabited

namespace DeclarationSpec

def isType (declaration : DeclarationSpec) : Bool := declaration.kind = .type

def isRoutine (declaration : DeclarationSpec) : Bool := declaration.kind = .routine

/-- Whether the declaration gives an operator a meaning. -/
def isOperator (declaration : DeclarationSpec) : Bool :=
  match declaration.routine with
  | some routine => routine.kind = .operator
  | none => false

end DeclarationSpec

end Pascal
