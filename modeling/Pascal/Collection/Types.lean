import Pascal.Collection.Basic

/-!
# Collecting types

The types written in declarations, and the sections that declare types, variables, constants and
members.

A section of types is collected in three steps, so that its declarations may refer to structured
types and enumerations declared further down: first those get their identity, then the remaining
types are declared in order, then the structured types get their heritage and members.
-/

namespace Pascal

namespace Environment

/-- The type of the first of several declarations that declares a type. -/
def typeNamed? (env : Environment) (found : List DeclId) : Option Ty :=
  found.findSome? fun id =>
    let declaration := env.declaration id
    if declaration.isType then some declaration.ty else none

/-- The structured type of the first of several declarations that declares one. -/
def structNamed? (env : Environment) (found : List DeclId) : Option StructId :=
  found.findSome? fun id =>
    let declaration := env.declaration id
    match declaration.ty with
    | .struct struct => if declaration.isType then some struct else none
    | _ => none

/-- The type that a dotted name denotes by its qualifier: a type of a unit, or one nested in a
structured type. -/
def qualifiedType? (env : Environment) (scope : ScopeId) (qualifier member : String) : Option Ty :=
  let qualified := env.find scope qualifier
  match qualified.findSome? fun id => (env.declaration id).unitScope with
  | some unit => env.typeNamed? (env.findInUnit scope unit member)
  | none => do
    let owner ← (← env.typeNamed? qualified).struct?
    env.typeNamed? (env.findInStruct owner member)

/-- The type that a possibly dotted name denotes in a scope. -/
def namedType? (env : Environment) (scope : ScopeId) (name : String) : Option Ty :=
  match env.typeNamed? (env.find scope name) with
  | some ty => some ty
  | none => do
    let (qualifier, member) ← Name.splitLast name
    env.qualifiedType? scope qualifier member

/-- The announced structured type that a name declares in a scope, with its declaration. -/
def placeholder? (env : Environment) (scope : ScopeId) (name : String) :
    Option (DeclId × StructId) :=
  (env.symbols.shallowFind scope name).findSome? fun id =>
    let declaration := env.declaration id
    match declaration.ty with
    | .struct struct =>
      if declaration.isType && (env.types.structInfo struct).forward then some (id, struct) else none
    | _ => none

/-- The type of an inherited property that a structured type publishes again. -/
def inheritedPropertyType (env : Environment) (struct : StructId) (name : String) : Ty :=
  let property := (env.findInStruct struct name).find? fun id =>
    (env.declaration id).kind = .property
  property.elim .unknown fun id => (env.declaration id).ty

end Environment

namespace Collecting

/-- The type that a possibly dotted name denotes; a name that denotes none is an issue. -/
def namedType (ctx : CollectionContext) (n : NodeId) (scope : ScopeId) (name : String) :
    Collecting Ty := do
  match (← getEnv).namedType? scope name with
  | some ty => pure ty
  | none =>
    issue ctx n (.unresolvedReference name)
    pure .unknown

/-- The identity of a structured type declared in a scope: the one it was announced with, or a new
one. -/
def structIdentity (scope : ScopeId) (name : String) (kind : StructKind) (n : NodeId)
    (forward : Bool) : Collecting StructId := do
  match (← getEnv).placeholder? scope name with
  | some (id, struct) =>
    annotate (·.setDeclaration n id)
    pure struct
  | none =>
    let struct ← declareStruct name kind scope forward
    discard <| declareAt n scope { name, kind := .type, ty := .struct struct }
    pure struct

/-- An enumeration. Its elements are declared both around it and as its members. -/
def enumeration (ctx : CollectionContext) (scope : ScopeId) (name : String) (n : NodeId) :
    Collecting Ty := do
  let id ← declareEnum name scope
  let members := ((← getEnv).types.enumInfo id).scope
  annotate fun a => (a.setType n (.enum id)).setScope n members
  for element in ctx.tree.childIds n do
    match ctx.tree.kind element with
    | .enumElement name =>
      updateEnv fun env => { env with types := env.types.addElement id name }
      let spec : DeclarationSpec := { name, kind := .enumElement, ty := .enum id }
      discard <| declareAt element scope spec
      discard <| declareAt element members spec
    | _ => malformed (ctx.tree.unexpected element "enum_element")
  pure (.enum id)

/-- The parent of a class or interface that names none; the roots themselves have none. -/
def implicitParents (ctx : CollectionContext) (env : Environment) (struct : StructId) : List Ty :=
  let derivedFrom (root : StructId) : List Ty := if root = struct then [] else [.struct root]
  match (env.types.structInfo struct).kind with
  | .classType => derivedFrom ctx.rootClass
  | .interface => derivedFrom ctx.rootInterface
  | _ => []

section Steps

variable (ctx : CollectionContext) {n : NodeId}

/-- The parameters that a list of names declares, behind those declared so far. A parameter without
a default makes all before it required as well. -/
def addParams (names : List String) (hasDefault : Bool) (ty : Ty) (params : List Ty)
    (required : Nat) : List Ty × Nat :=
  let params := params ++ names.map fun _ => ty
  (params, if hasDefault || names.isEmpty then required else params.length)

/-- What a routine takes and gives. A constructor gives the structured type that it belongs to. -/
def signature (resolve : Below n → ScopeId → Collecting Ty) (scope : ScopeId) (kind : RoutineKind)
    (declaring : Option StructId) : Collecting RoutineSignature := do
  let mut params : List Ty := []
  let mut required := 0
  let mut result := Ty.void
  for part in ctx.tree.children n do
    match ctx.tree.kind part.1 with
    | .parameter names hasDefault =>
      let ty ← match ctx.tree.child? part.1 0 with
        | some type => resolve (part.lift type) scope
        | none => pure .untyped
      (params, required) := addParams names hasDefault ty params required
    | .returnType => result ← resolve (part.lift (← child ctx part.1 0)) scope
    | _ => pure ()
  match kind, declaring with
  | .constructor, some struct => result := .struct struct
  | _, _ => pure ()
  pure { kind, params, required, result, declaring }

def routineDeclaration (name : String) (kind : RoutineKind)
    (resolve : Below n → ScopeId → Collecting Ty) (scope : ScopeId)
    (declaring : Option StructId) : Collecting Unit := do
  let signature ← signature ctx resolve scope kind declaring
  discard <| declareAt n scope
    { name, kind := .routine, ty := signature.ty, routine := some signature }

def varSection (resolve : Below n → ScopeId → Collecting Ty) (scope : ScopeId)
    (kind : DeclarationKind) : Collecting Unit := do
  for declaration in ctx.tree.children n do
    match ctx.tree.kind declaration.1 with
    | .varDeclaration names =>
      let ty ← resolve (declaration.lift (← child ctx declaration.1 0)) scope
      for name in names do
        discard <| declareAt declaration.1 scope { name, kind, ty }
    | _ => malformed (ctx.tree.unexpected declaration.1 "var_declaration")

/-- A section of constants. Without a type, a constant has the type of its value. -/
def constSection (resolve : Below n → ScopeId → Collecting Ty) (scope : ScopeId) :
    Collecting Unit := do
  for declaration in ctx.tree.children n do
    match ctx.tree.kind declaration.1 with
    | .constDeclaration name typed =>
      let first ← child ctx declaration.1 0
      let ty ← if typed then resolve (declaration.lift first) scope
        else constantType ctx first.1 scope
      discard <| declareAt declaration.1 scope { name, kind := .constant, ty }
    | _ => malformed (ctx.tree.unexpected declaration.1 "const_declaration")

/-- A type of a section that is neither a structured type nor an enumeration. -/
def otherType (resolve : Below n → ScopeId → Collecting Ty) (scope : ScopeId)
    (declaration : NodeId) (name : String) (type : Below n) : Collecting Unit := do
  let resolved ← resolve type scope
  let ty := if ctx.tree.kind type.1 = .distinctType then .distinct name resolved else resolved
  discard <| declareAt declaration scope { name, kind := .type, ty }

def typeSection (resolve : Below n → ScopeId → Collecting Ty)
    (body : Below n → StructId → Collecting Unit) (scope : ScopeId) : Collecting Unit := do
  let mut structs : Array (Below n × StructId) := #[]
  let mut others : Array (NodeId × String × Below n) := #[]
  for declaration in ctx.tree.children n do
    match ctx.tree.kind declaration.1 with
    | .typeDeclaration name =>
      let type := declaration.lift (← child ctx declaration.1 0)
      match ctx.tree.kind type.1 with
      | .structType kind =>
        let struct ← structIdentity scope name kind declaration.1 false
        annotate (·.setType type.1 (.struct struct))
        structs := structs.push (type, struct)
      | .forwardStructType kind =>
        let struct ← structIdentity scope name kind declaration.1 true
        annotate (·.setType type.1 (.struct struct))
      | .enumType =>
        let ty ← enumeration ctx scope name type.1
        discard <| declareAt declaration.1 scope { name, kind := .type, ty }
      | _ => others := others.push (declaration.1, name, type)
    | _ => malformed (ctx.tree.unexpected declaration.1 "type_declaration")
  for (declaration, name, type) in others do
    otherType ctx resolve scope declaration name type
  for (type, struct) in structs do
    body type struct

/-- The types that a structured type is derived from and the type it helps, as they are written. -/
def heritage (resolve : Below n → ScopeId → Collecting Ty) (enclosing : ScopeId) :
    Collecting (List Ty × Option Ty) := do
  let mut parents : Array Ty := #[]
  let mut helped : Option Ty := none
  for part in ctx.tree.children n do
    match ctx.tree.kind part.1 with
    | .ancestorList =>
      for ancestor in ctx.tree.children part.1 do
        parents := parents.push (← resolve (part.lift ancestor) enclosing)
    | .helperTarget => helped := some (← resolve (part.lift (← child ctx part.1 0)) enclosing)
    | _ => pure ()
  pure (parents.toList, helped)

def member (resolve : Below n → ScopeId → Collecting Ty)
    (body : Below n → StructId → Collecting Unit) (scope : ScopeId) (struct : StructId)
    (part : Below n) : Collecting Unit := do
  let resolveIn (inner : Below part.1) (scope : ScopeId) := resolve (part.lift inner) scope
  match ctx.tree.kind part.1 with
  | .fieldDeclaration names =>
    let ty ← resolveIn (← child ctx part.1 0) scope
    for name in names do
      discard <| declareAt part.1 scope { name, kind := .field, ty }
  | .propertyDeclaration name =>
    let ty ← match ctx.tree.child? part.1 0 with
      | some type => resolveIn type scope
      | none => pure ((← getEnv).inheritedPropertyType struct name)
    discard <| declareAt part.1 scope { name, kind := .property, ty }
  | .routineDeclaration name kind =>
    routineDeclaration ctx name kind resolveIn scope (some struct)
  | .typeSection => typeSection ctx resolveIn (fun inner => body (part.lift inner)) scope
  | .varSection => varSection ctx resolveIn scope .field
  | .constSection => constSection ctx resolveIn scope
  | _ => pure ()

/-- The heritage and the members of a structured type. A helper becomes active around its own
declaration. -/
def structMembers (resolve : Below n → ScopeId → Collecting Ty)
    (body : Below n → StructId → Collecting Unit) (struct : StructId) : Collecting Unit := do
  let env ← getEnv
  let scope := env.membersOf struct
  let enclosing := (env.scopes.get scope).parent.getD scope
  annotate (·.setScope n scope)
  let (written, helped) ← heritage ctx resolve enclosing
  let parents := if written.isEmpty then implicitParents ctx env struct else written
  updateEnv fun env => { env with types := env.types.completeStruct struct parents helped }
  if let some target := helped then
    updateEnv fun env =>
      { env with scopes := env.scopes.registerHelper enclosing target struct }
  for part in ctx.tree.children n do
    member ctx resolve body scope struct part

/-- The type that a node denotes, given the types of the nodes before it and how the members of a
structured type without a name are collected. -/
def typeAt (resolve : Below n → ScopeId → Collecting Ty) (members : StructId → Collecting Unit)
    (scope : ScopeId) : Collecting Ty := do
  match ctx.tree.kind n with
  | .typeReference name => namedType ctx n scope name
  | .pointerType math => return .pointerTo (← resolve (← child ctx n 0) scope) math
  | .arrayType kind =>
    match ctx.tree.child? n 0 with
    | some element => return .array kind (← resolve element scope)
    | none => pure (.array .openOfConst .untyped)
  | .setType => return .set (← resolve (← child ctx n 0) scope)
  | .proceduralType kind =>
    let signature ← signature ctx resolve scope .function none
    pure (.procedural kind signature.params signature.result)
  | .classRefType => return .classRef (← resolve (← child ctx n 0) scope)
  | .distinctType => resolve (← child ctx n 0) scope
  | .enumType => enumeration ctx scope "" n
  | .structType kind =>
    let struct ← declareStruct "" kind scope false
    members struct
    pure (.struct struct)
  | .forwardStructType _ =>
    issue ctx n (.malformedType "Forward declaration outside a type section")
    pure .unknown
  | _ => malformed (ctx.tree.unexpected n "type node")

end Steps

mutual
/-- The type that a node denotes, recorded at the node. -/
def resolveType (ctx : CollectionContext) (n : NodeId) (scope : ScopeId) : Collecting Ty := do
  let ty ← typeAt ctx (fun (inner : Below n) scope => resolveType ctx inner.1 scope)
    (fun struct => structBody ctx n struct) scope
  annotate (·.setType n ty)
  pure ty
  termination_by (n.index, 1)
  decreasing_by
  · exact Prod.Lex.left _ _ inner.2
  · exact Prod.Lex.right _ Nat.zero_lt_one
/-- The heritage and the members of a structured type described at a node. -/
def structBody (ctx : CollectionContext) (n : NodeId) (struct : StructId) : Collecting Unit :=
  structMembers ctx (fun (inner : Below n) scope => resolveType ctx inner.1 scope)
    (fun (inner : Below n) struct => structBody ctx inner.1 struct) struct
  termination_by (n.index, 0)
  decreasing_by
  · exact Prod.Lex.left _ _ inner.2
  · exact Prod.Lex.left _ _ inner.2
end

end Collecting

end Pascal
