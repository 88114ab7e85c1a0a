import Pascal.Collection.Unit
import Pascal.Session.System
import Pascal.Typing.Pass

/-!
# Sessions

A session holds the System unit and every unit collected so far. A unit is collected first, which
declares its names, and resolved afterwards, which types its expressions against everything
collected so far.
-/

namespace Pascal

/-- A unit of a session: its name as it is written, and its file scope. -/
structure UnitEntry where
  name : String
  scope : ScopeId
  deriving Repr, DecidableEq, Inhabited

/-- The System unit and every unit collected so far. -/
structure Session where
  settings : Settings
  system : SystemUnit
  env : Environment
  units : Std.HashMap FoldedName UnitEntry := {}

namespace Session

/-- A session with no units but the System unit. -/
def start (settings : Settings) : Session :=
  let (system, env) := SystemUnit.build settings
  { settings, system, env }

/-- The unit registered under a name, sought under the name itself and then in each of the
namespaces of the settings. -/
def registered? (session : Session) (name : String) : Option UnitEntry :=
  let spellings := name :: session.settings.unitScopeNames.map fun space => space ++ "." ++ name
  spellings.findSome? fun spelling => session.units[Name.fold spelling]?

/-- The file scope of the unit that a name refers to. -/
def unitScope? (session : Session) (name : String) : Option ScopeId :=
  if Name.same name systemName then some session.system.scope
  else (session.registered? name).map (·.scope)

/-- The names of the units, as they are written, in ascending order. -/
def unitNames (session : Session) : List String :=
  (session.units.values.map (·.name)).mergeSort

/-- What the collection of a unit needs to know. -/
def collectionContext (session : Session) (tree : SyntaxTree) (file : ScopeId) :
    CollectionContext where
  tree
  file
  unitScope := session.unitScope?
  rootClass := session.system.rootClass
  rootInterface := session.system.rootInterface

/-- Forgets what is declared in a file scope and takes the scope out of the tree. -/
def discardScope (session : Session) (file : ScopeId) : Session :=
  let env := session.env
  let symbols := (env.scopes.subtree file).foldl SymbolTable.unregister env.symbols
  { session with env := { env with symbols, scopes := env.scopes.detach file } }

/-- Whether a unit of the name can no longer be collected. -/
def isTaken (session : Session) (name : String) : Bool :=
  session.units.contains (Name.fold name) || Name.same name systemName

/-- Collects a unit under a name that is free: declares its names in a new file scope. A failure
leaves no trace of the unit but the identities that were given out. -/
def collectNamed (session : Session) (name : String) (tree : SyntaxTree) :
    Except AnalysisError Model × Session :=
  let (file, scopes) := session.env.scopes.create .file (some session.system.scope) name
  let env := { session.env with scopes }
  let (_, env) := env.add file
    { name, kind := .unit, ty := .unknown, unitScope := some file }
  let ctx := session.collectionContext tree file
  match (Collecting.unit ctx tree.root).run.run { env } with
  | (.error cause, state) =>
    (.error cause, { session with env := state.env }.discardScope file)
  | (.ok (), state) =>
    let model := { name, scope := file, tree, annotations := state.annotations.sealIssues }
    (.ok model, { session with
      env := state.env
      units := session.units.insert (Name.fold name) { name, scope := file } })

/-- The first pass over a unit. A tree that is no unit and a name that is taken are refused. -/
def collect (session : Session) (tree : SyntaxTree) : Except AnalysisError Model × Session :=
  match tree.kind tree.root with
  | .unit name =>
    if session.isTaken name then (.error (.duplicateUnit name), session)
    else session.collectNamed name tree
  | _ => (.error (.malformedTree (tree.unexpected tree.root "unit")), session)

/-- The second pass over a unit. It can be repeated. -/
def resolve (session : Session) (model : Model) : Except AnalysisError Unit × Model :=
  session.env.resolve model

/-- The type of a node, found now unless it is known. -/
def typeOf (session : Session) (model : Model) (n : NodeId) : Except AnalysisError Ty × Model :=
  session.env.typeOf model n

/-- Closes the scopes of a unit for declarations. -/
def freeze (session : Session) (model : Model) : Session :=
  { session with env := { session.env with scopes := session.env.scopes.freeze model.scope } }

/-- Takes a unit out of the session; gives whether there was one of the name. -/
def discard (session : Session) (name : String) : Bool × Session :=
  match session.units[Name.fold name]? with
  | some entry =>
    (true, { session with units := session.units.erase (Name.fold name) }.discardScope entry.scope)
  | none => (false, session)

/-- Both passes over one unit, after which it takes no more declarations. -/
def analyze (session : Session) (tree : SyntaxTree) : Except AnalysisError Model × Session :=
  match session.collect tree with
  | (.error cause, session) => (.error cause, session)
  | (.ok model, session) =>
    match session.resolve model with
    | (.error cause, _) => (.error cause, session)
    | (.ok (), model) => (.ok model, session.freeze model)

end Session

end Pascal
