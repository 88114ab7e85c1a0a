import Pascal.Ty.Basic

/-!
# Scope tree

Scopes nest the way the text of a program does: the System scope encloses one file scope for each
unit, and those enclose the scopes of types, enumerations and routines. A scope is created below
its parent, so an enclosing scope always has a smaller identity.
-/

namespace Pascal

/-- What a scope is the scope of. -/
inductive ScopeKind where
  | system | file | type | enum | routine
  deriving Repr, DecidableEq, Inhabited

/-- A region of text with its own names. -/
structure Scope where
  kind : ScopeKind
  name : String
  parent : Option ScopeId := none
  children : List ScopeId := []
  /-- The file scopes of the used units, in the order in which they are used. -/
  imports : List ScopeId := []
  /-- The structured type that owns a type scope, or whose method a routine scope belongs to. -/
  declaring : Option StructId := none
  /-- Whether the scope takes no more declarations. -/
  frozen : Bool := false
  /-- The helper active for each type. -/
  helpers : List (Ty × StructId) := []
  deriving Repr, Inhabited

/-- The scopes created so far. -/
structure ScopeTree where
  scopes : Array Scope := #[]
  deriving Repr, Inhabited

namespace ScopeTree

def get (tree : ScopeTree) (id : ScopeId) : Scope :=
  tree.scopes.getD id.index default

def modify (tree : ScopeTree) (id : ScopeId) (change : Scope → Scope) : ScopeTree :=
  { tree with scopes := tree.scopes.modify id.index change }

def size (tree : ScopeTree) : Nat := tree.scopes.size

/-- Whether a scope created below `parent` starts frozen. Units below the System scope never do. -/
def startsFrozen (tree : ScopeTree) : Option ScopeId → Bool
  | some parent => (tree.get parent).frozen && (tree.get parent).kind ≠ .system
  | none => false

def create (tree : ScopeTree) (kind : ScopeKind) (parent : Option ScopeId) (name : String) :
    ScopeId × ScopeTree :=
  let id : ScopeId := ⟨tree.size⟩
  let tree' : ScopeTree :=
    { scopes := tree.scopes.push { kind, name, parent, frozen := tree.startsFrozen parent } }
  match parent with
  | some parent =>
    (id, tree'.modify parent fun scope => { scope with children := scope.children ++ [id] })
  | none => (id, tree')

/-- The scope itself, then every enclosing scope, innermost first. -/
def chain (tree : ScopeTree) (id : ScopeId) : List ScopeId :=
  match (tree.get id).parent with
  | some parent => if parent.index < id.index then id :: tree.chain parent else [id]
  | none => [id]
  termination_by id.index

/-- The nearest enclosing file scope, the scope itself included. -/
def fileScopeOf? (tree : ScopeTree) (id : ScopeId) : Option ScopeId :=
  (tree.chain id).find? fun level => (tree.get level).kind = .file

/-- The scopes of a generation and all below, generation by generation; `rounds` bounds the number
of generations. -/
def generations (tree : ScopeTree) (rounds : Nat) (current : List ScopeId) : List ScopeId :=
  match rounds, current with
  | 0, _ => []
  | _, [] => []
  | rounds + 1, current =>
    current ++ tree.generations rounds (current.flatMap fun id => (tree.get id).children)

/-- The scope and every scope nested in it, parents before children. Every generation has larger
identities than the one before, so there are no more generations than scopes. -/
def subtree (tree : ScopeTree) (id : ScopeId) : List ScopeId :=
  tree.generations (tree.size + 1) [id]

/-- Adds a used unit behind those used so far. -/
def addImport (tree : ScopeTree) (scope used : ScopeId) : ScopeTree :=
  tree.modify scope fun s => { s with imports := s.imports ++ [used] }

/-- Records the structured type that a scope belongs to. -/
def setDeclaring (tree : ScopeTree) (scope : ScopeId) (declaring : Option StructId) : ScopeTree :=
  tree.modify scope fun s => { s with declaring }

/-- Makes `helper` the active helper for `target` in a scope, in place of an earlier one. -/
def registerHelper (tree : ScopeTree) (scope : ScopeId) (target : Ty) (helper : StructId) :
    ScopeTree :=
  tree.modify scope fun s =>
    { s with helpers := (target, helper) :: s.helpers.filter fun entry => entry.1 ≠ target }

/-- The helper registered for a type in the scope itself. -/
def shallowHelper? (tree : ScopeTree) (scope : ScopeId) (target : Ty) : Option StructId :=
  (tree.get scope).helpers.lookup target

/-- Closes a scope and everything nested in it for declarations. -/
def freeze (tree : ScopeTree) (scope : ScopeId) : ScopeTree :=
  (tree.subtree scope).foldl (fun tree id => tree.modify id ({ · with frozen := true })) tree

/-- Takes a scope out of the tree: it is no child of its parent and is used by no unit. -/
def detach (tree : ScopeTree) (scope : ScopeId) : ScopeTree :=
  let tree' :=
    match (tree.get scope).parent with
    | some parent =>
      tree.modify parent fun s => { s with children := s.children.filter (· ≠ scope) }
    | none => tree
  { tree' with scopes :=
      tree'.scopes.map fun s => { s with imports := s.imports.filter (· ≠ scope) } }

end ScopeTree

end Pascal
