import Pascal.Lookup.Members
import Pascal.Model.Annotations
import Pascal.Typing.Expression

/-!
# Collection

The first pass over a unit declares its names. It works on the tables of the session and on the
annotations of the unit at once; a failure keeps what was done before it.
-/

namespace Pascal

/-- What stays the same during the collection of a unit. -/
structure CollectionContext where
  tree : SyntaxTree
  file : ScopeId
  /-- The file scope of a unit that can be used, by its name. -/
  unitScope : String → Option ScopeId
  /-- The class that classes without a parent are derived from. -/
  rootClass : StructId
  /-- The interface that interfaces without a parent are derived from. -/
  rootInterface : StructId

/-- What collection changes. -/
structure CollectionState where
  env : Environment
  annotations : Annotations := {}
  /-- The part of the unit that is being collected. -/
  part : Section := .interface
  /-- The routines that have a body in this unit. -/
  implemented : List DeclId := []
  /-- What was found out while the values of constants were typed. -/
  constants : Annotations := {}

/-- The computations of the pass. -/
abbrev Collecting := ExceptT AnalysisError (StateM CollectionState)

namespace Collecting

def annotate (change : Annotations → Annotations) : Collecting Unit :=
  modify fun s => { s with annotations := change s.annotations }

def updateEnv (change : Environment → Environment) : Collecting Unit :=
  modify fun s => { s with env := change s.env }

def getEnv : Collecting Environment := return (← get).env

def issue (ctx : CollectionContext) (n : NodeId) (kind : IssueKind) : Collecting Unit :=
  annotate (·.pushIssue { node := n, position := ctx.tree.position n, kind })

/-- Stops because of a malformed tree. -/
def malformed {α : Type} (cause : TreeError) : Collecting α := throw (.malformedTree cause)

/-- The child that a node cannot do without. -/
def child (ctx : CollectionContext) (n : NodeId) (index : Nat) : Collecting (Below n) :=
  match ctx.tree.child n index with
  | .ok child => pure child
  | .error cause => malformed cause

/-- Makes a declaration in the part of the unit that is being collected. -/
def declare (scope : ScopeId) (spec : DeclarationSpec) : Collecting DeclId := do
  let s ← get
  match s.env.declare scope { spec with part := s.part } with
  | .ok (id, env) =>
    set { s with env }
    pure id
  | .error cause => throw cause

/-- Makes a declaration and records it at the node that makes it. -/
def declareAt (n : NodeId) (scope : ScopeId) (spec : DeclarationSpec) : Collecting DeclId := do
  let id ← declare scope { spec with node := some n }
  annotate (·.setDeclaration n id)
  pure id

def createScope (kind : ScopeKind) (parent : ScopeId) (name : String) : Collecting ScopeId := do
  let s ← get
  let (id, scopes) := s.env.scopes.create kind (some parent) name
  set { s with env := { s.env with scopes } }
  pure id

/-- Records the structured type that a scope belongs to. -/
def setDeclaring (scope : ScopeId) (declaring : Option StructId) : Collecting Unit :=
  updateEnv fun env => { env with scopes := env.scopes.setDeclaring scope declaring }

/-- Gives a structured type its identity and a scope for its members. -/
def declareStruct (name : String) (kind : StructKind) (scope : ScopeId) (forward : Bool) :
    Collecting StructId := do
  let members ← createScope .type scope name
  let s ← get
  let (id, types) := s.env.types.declareStruct name kind members forward
  set { s with env := { s.env with types } }
  setDeclaring members (some id)
  pure id

/-- Gives an enumeration its identity and a scope for its elements. -/
def declareEnum (name : String) (scope : ScopeId) : Collecting EnumId := do
  let elements ← createScope .enum scope name
  let s ← get
  let (id, types) := s.env.types.declareEnum name elements none
  set { s with env := { s.env with types } }
  pure id

/-- The type of the value of a constant. What is found out on the way is kept apart from what is
known about the unit. -/
def constantType (ctx : CollectionContext) (n : NodeId) (scope : ScopeId) : Collecting Ty := do
  let s ← get
  let (ty, typed) := Typing.typeOf { env := s.env, tree := ctx.tree } scope n |>.run
    { annotations := s.constants }
  set { s with constants := typed.annotations }
  match typed.violation with
  | some cause => malformed cause
  | none => pure ty

end Collecting

end Pascal
