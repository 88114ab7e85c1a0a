import Pascal.Collection.Types

/-!
# Collecting a unit

The uses clauses, sections and routines of a unit.
-/

namespace Pascal

namespace Environment

/-- The structured type that the qualifier of a method names, possibly nested in others. -/
def ownerStruct? (env : Environment) (scope : ScopeId) (owner : String) : Option StructId :=
  match Name.segments owner with
  | [] => none
  | first :: rest =>
    rest.foldl
      (fun outer segment => outer.bind fun id => env.structNamed? (env.findInStruct id segment))
      (env.structNamed? (env.find scope first))

/-- The declaration that a routine with a body completes: a routine of its name without a body that
takes the same parameters, or the only one left if the body repeats no parameters. -/
def linkedDeclaration? (env : Environment) (implemented : List DeclId) (scope : ScopeId)
    (name : String) (params : List Ty) : Option DeclId :=
  let unlinked := (env.symbols.shallowFind scope name).filter fun id =>
    (env.declaration id).isRoutine && !implemented.contains id
  match unlinked.find? fun id => (env.declaration id).routine.any (·.params = params) with
  | some id => some id
  | none =>
    match unlinked with
    | [only] => if params.isEmpty then some only else none
    | _ => none

end Environment

namespace Collecting

/-- Makes a unit visible, if it is known. -/
def importUnit (ctx : CollectionContext) (reference : NodeId) (name : String) :
    Collecting Unit := do
  if let some unit := ctx.unitScope name then
    updateEnv fun env => { env with scopes := env.scopes.addImport ctx.file unit }
    discard <| declareAt reference ctx.file
      { name, kind := .unitImport, ty := .unknown, unitScope := some unit }

/-- The units that a uses clause names. A unit that is not known is an issue. -/
def usesClause (ctx : CollectionContext) (n : NodeId) : Collecting Unit := do
  for reference in ctx.tree.childIds n do
    match ctx.tree.kind reference with
    | .unitReference name =>
      if (ctx.unitScope name).isSome then importUnit ctx reference name
      else issue ctx reference (.unresolvedReference name)
    | _ => malformed (ctx.tree.unexpected reference "unit_reference")

/-- The structured type that a routine with a body belongs to by the qualifier of its name. A
qualifier that names none is an issue. -/
def methodOwner (ctx : CollectionContext) (n : NodeId) (scope : ScopeId) (owner : Option String) :
    Collecting (Option StructId) := do
  match owner with
  | none => pure none
  | some owner =>
    match (← getEnv).ownerStruct? scope owner with
    | some struct => pure (some struct)
    | none =>
      issue ctx n (.unresolvedReference owner)
      pure none

/-- The declaration of a routine with a body: the one it completes, or, without a qualifier, a new
one. A method that completes no declaration is an issue. -/
def bodyDeclaration (ctx : CollectionContext) (n : NodeId) (scope members : ScopeId)
    (name simpleName : String) (qualified : Bool) (signature : RoutineSignature) :
    Collecting (Option DeclId) := do
  let s ← get
  match s.env.linkedDeclaration? s.implemented members simpleName signature.params with
  | some id => pure (some id)
  | none =>
    if qualified then
      if signature.declaring.isSome then issue ctx n (.unresolvedReference name)
      pure none
    else
      let id ← declare scope
        { name := simpleName, kind := .routine, ty := signature.ty, node := some n
          routine := some signature }
      pure (some id)

/-- Declares the parameters of a routine in the scope of its body, with the types recorded for them. -/
def declareParameters (ctx : CollectionContext) (n : NodeId) (body : ScopeId) :
    Collecting Unit := do
  for part in ctx.tree.childIds n do
    match ctx.tree.kind part with
    | .parameter names _ =>
      let annotations := (← get).annotations
      let recorded := (ctx.tree.child? part 0).bind fun type => annotations.type? type.1
      for name in names do
        discard <| declareAt part body { name, kind := .parameter, ty := recorded.getD .untyped }
    | _ => pure ()

/-- Declares what a body can name beside its parameters: the receiver of a method and the result of
a function. -/
def declareImplicit (body : ScopeId) (declaring : Option StructId) (signature : RoutineSignature) :
    Collecting Unit := do
  if let some struct := declaring then
    discard <| declare body { name := "Self", kind := .var, ty := .struct struct }
  if (signature.kind = .function || signature.kind = .operator) && !signature.result.isVoid then
    discard <| declare body { name := "Result", kind := .var, ty := signature.result }

/-- A routine with a body, up to the local declarations; gives the scope of the body. -/
def routineHead (ctx : CollectionContext) (n : NodeId) (scope : ScopeId) (name : String)
    (kind : RoutineKind) : Collecting ScopeId := do
  let split := Name.splitLast name
  let simpleName := split.elim name (·.2)
  let declaring ← methodOwner ctx n scope (split.map (·.1))
  let members := declaring.elim scope (← getEnv).membersOf
  let own ← signature ctx (fun (inner : Below n) scope => resolveType ctx inner.1 scope) members
    kind declaring
  let declaration ← bodyDeclaration ctx n scope members name simpleName split.isSome own
  if let some id := declaration then
    modify fun s => { s with implemented := id :: s.implemented }
    annotate (·.setDeclaration n id)
  let body ← createScope .routine scope simpleName
  setDeclaring body declaring
  annotate (·.setScope n body)
  declareParameters ctx n body
  let env ← getEnv
  let completed := declaration.bind fun id => (env.declaration id).routine
  declareImplicit body declaring (completed.getD own)
  pure body

/-- Whether a child of a routine with a body declares something local to it. -/
def isLocal : NodeKind → Bool
  | .varSection | .constSection | .typeSection | .routineImplementation _ _ => true
  | _ => false

/-- A section or a routine; anything else declares nothing. -/
def item (ctx : CollectionContext) (n : NodeId) (scope : ScopeId) : Collecting Unit := do
  let resolve (inner : Below n) (scope : ScopeId) := resolveType ctx inner.1 scope
  match ctx.tree.kind n with
  | .usesClause => usesClause ctx n
  | .typeSection =>
    typeSection ctx resolve (fun inner struct => structBody ctx inner.1 struct) scope
  | .varSection => varSection ctx resolve scope .var
  | .constSection => constSection ctx resolve scope
  | .routineDeclaration name kind => routineDeclaration ctx name kind resolve scope none
  | .routineImplementation name kind =>
    let body ← routineHead ctx n scope name kind
    (ctx.tree.children n).forM fun part => do
      if isLocal (ctx.tree.kind part.1) then item ctx part.1 body
  | _ => pure ()
  termination_by n.index
  decreasing_by exact part.2

/-- A part of a unit: one of its two sections, or an item that stands in neither. -/
def unitPart (ctx : CollectionContext) (n : NodeId) : Collecting Unit := do
  let enter (part : Section) : Collecting Unit := do
    modify fun s => { s with part }
    (ctx.tree.childIds n).forM fun child => item ctx child ctx.file
  match ctx.tree.kind n with
  | .interfaceSection => enter .interface
  | .implementationSection => enter .implementation
  | _ => item ctx n ctx.file

def unit (ctx : CollectionContext) (root : NodeId) : Collecting Unit := do
  annotate (·.setScope root ctx.file)
  (ctx.tree.childIds root).forM (unitPart ctx)

def partOf (tree : SyntaxTree) (n : NodeId) : Section :=
  if (tree.ancestors n).any fun outer => tree.kind outer = .implementationSection then
    .implementation
  else .interface

/-- The uses of units that are not known so far, in the order in which they were found. -/
def pendingImports (tree : SyntaxTree) (annotations : Annotations) : List (NodeId × String) :=
  annotations.issues.toList.filterMap fun issue =>
    match issue.isUnresolved, tree.kind issue.node with
    | true, .unitReference name => some (issue.node, name)
    | _, _ => none

/-- Makes units visible whose uses were not known before but are now. -/
def retryImports (ctx : CollectionContext) : Collecting Unit := do
  for (reference, name) in pendingImports ctx.tree (← get).annotations do
    if (ctx.unitScope name).isSome then
      modify fun s => { s with part := partOf ctx.tree reference }
      importUnit ctx reference name
      annotate (·.retainIssues (·.node ≠ reference))

end Collecting

end Pascal
