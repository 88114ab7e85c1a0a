import Pascal.Environment
import Pascal.Settings.Basic

/-!
# The System unit

The declarations that every unit can use without being told: the intrinsic types and the further
names given to them, the truth values, the root class and interface, and the intrinsic routines.
-/

namespace Pascal

/-- The name of the unit that every unit can use. -/
def systemName : String := "System"

/-- The scope of the System unit and the roots of all heritage. -/
structure SystemUnit where
  scope : ScopeId
  rootClass : StructId
  rootInterface : StructId
  deriving Repr, DecidableEq, Inhabited

namespace SystemUnit

/-- A routine that every unit can call. -/
structure IntrinsicRoutine where
  name : String
  kind : RoutineKind
  params : List Ty
  required : Nat
  result : Ty

def routines : List IntrinsicRoutine :=
  [⟨"Assigned", .function, [.untyped], 1, .bool⟩,
    ⟨"SizeOf", .function, [.untyped], 1, .int⟩,
    ⟨"Ord", .function, [.matcher .anyOrdinal], 1, .int64⟩,
    ⟨"Chr", .function, [.byte], 1, .char⟩,
    ⟨"Length", .function, [.untyped], 1, .int⟩,
    ⟨"Inc", .procedure, [.matcher .anyOrdinal, .int64], 1, .void⟩,
    ⟨"Dec", .procedure, [.matcher .anyOrdinal, .int64], 1, .void⟩,
    ⟨"Exit", .procedure, [.untyped], 0, .void⟩,
    ⟨"FreeAndNil", .procedure, [.untyped], 1, .void⟩]

/-- Makes several declarations in a scope, one after the other. -/
def addAll (env : Environment) (scope : ScopeId) (specs : List DeclarationSpec) : Environment :=
  specs.foldl (fun env spec => (env.add scope spec).2) env

def typeSpec (name : String) (ty : Ty) : DeclarationSpec := { name, kind := .type, ty }

def routineSpec (name : String) (signature : RoutineSignature) : DeclarationSpec :=
  { name, kind := .routine, ty := signature.ty, routine := some signature }

/-- The declaration of a method without optional parameters. -/
def methodSpec (owner : StructId) (name : String) (kind : RoutineKind) (params : List Ty)
    (result : Ty) : DeclarationSpec :=
  routineSpec name
    { kind, params, required := params.length, result, declaring := some owner }

/-- Declares a structured type without parents, with a scope for its members. -/
def addStruct (env : Environment) (scope : ScopeId) (name : String) (kind : StructKind) :
    StructId × Environment :=
  let (members, scopes) := env.scopes.create .type (some scope) name
  let (id, types) := env.types.declareStruct name kind members false
  let env := { env with scopes := scopes.setDeclaring members (some id), types }
  (id, (env.add scope (typeSpec name (.struct id))).2)

def classMethods (id : StructId) : List DeclarationSpec :=
  [methodSpec id "Create" .constructor [] (.struct id),
    methodSpec id "Destroy" .destructor [] .void,
    methodSpec id "Free" .procedure [] .void,
    methodSpec id "ClassName" .function [] .string,
    methodSpec id "InheritsFrom" .function [.classRef (.struct id)] .bool]

def interfaceMethods (id : StructId) : List DeclarationSpec :=
  [methodSpec id "_AddRef" .function [] .int, methodSpec id "_Release" .function [] .int]

/-- The names that the System unit declares in front of its structured types. -/
def leadingSpecs (settings : Settings) (scope : ScopeId) : List DeclarationSpec :=
  { name := systemName, kind := .unit, ty := .unknown, unitScope := some scope } ::
    (Intrinsic.all.map fun intrinsic => typeSpec intrinsic.image (intrinsic.ty settings.target)) ++
    (settings.intrinsicAliases.map fun (name, intrinsic) =>
      typeSpec name (intrinsic.ty settings.target)) ++
    ["True", "False"].map fun name => { name, kind := .constant, ty := .bool }

/-- The tables with the System unit in them, and nothing else. -/
def build (settings : Settings) : SystemUnit × Environment :=
  let (scope, scopes) := ({} : ScopeTree).create .system none systemName
  let env : Environment := { scopes, types := { target := settings.target } }
  let env := addAll env scope (leadingSpecs settings scope)
  let (rootClass, env) := addStruct env scope "TObject" .classType
  let env := addAll env (env.membersOf rootClass) (classMethods rootClass)
  let env := addAll env scope [typeSpec "TClass" (.classRef (.struct rootClass))]
  let (rootInterface, env) := addStruct env scope "IInterface" .interface
  let env := addAll env (env.membersOf rootInterface) (interfaceMethods rootInterface)
  let env := addAll env scope <| routines.map fun r =>
    routineSpec r.name { kind := r.kind, params := r.params, required := r.required, result := r.result }
  let env := { env with scopes := env.scopes.freeze scope }
  ({ scope, rootClass, rootInterface }, env)

end SystemUnit

end Pascal
