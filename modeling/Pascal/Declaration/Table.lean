import Pascal.Declaration.Basic
import Pascal.Error
import Pascal.Name
import Pascal.Scope.Tree
import Std.Data.HashMap

/-!
# Symbol table

The declarations of every scope, in the order in which they were made and by name. Declaring a name
again adds to what it stands for; it replaces nothing.
-/

namespace Pascal

/-- The declarations of one scope: in order, and in order for each name. -/
structure ScopeNames where
  ordered : Array DeclId := #[]
  byName : Std.HashMap FoldedName (Array DeclId) := {}
  deriving Inhabited

namespace ScopeNames

def find (names : ScopeNames) (name : FoldedName) : List DeclId :=
  (names.byName.getD name #[]).toList

def add (names : ScopeNames) (name : FoldedName) (id : DeclId) : ScopeNames where
  ordered := names.ordered.push id
  byName := names.byName.insert name ((names.byName.getD name #[]).push id)

end ScopeNames

/-- The declarations of all scopes. -/
structure SymbolTable where
  declarations : Array Declaration := #[]
  byScope : Std.HashMap ScopeId ScopeNames := {}
  deriving Inhabited

/-- A name with the names of the scopes around it in front; the System scope has no part in it. -/
def ScopeTree.qualify (scopes : ScopeTree) (scope : ScopeId) (name : String) : String :=
  let outer := (scopes.chain scope).map scopes.get |>.filter (·.kind ≠ .system) |>.map (·.name)
  Name.dotted (outer.reverse ++ [name])

namespace SymbolTable

def get (symbols : SymbolTable) (id : DeclId) : Declaration :=
  symbols.declarations.getD id.index default

def size (symbols : SymbolTable) : Nat := symbols.declarations.size

def namesOf (symbols : SymbolTable) (scope : ScopeId) : ScopeNames :=
  symbols.byScope.getD scope {}

/-- The declarations of a folded name in one scope, in order. -/
def findFolded (symbols : SymbolTable) (scope : ScopeId) (name : FoldedName) : List DeclId :=
  (symbols.namesOf scope).find name

/-- The declarations of a name in one scope, in order. -/
def shallowFind (symbols : SymbolTable) (scope : ScopeId) (name : String) : List DeclId :=
  symbols.findFolded scope (Name.fold name)

/-- The declarations of one scope, in order. -/
def declarationsIn (symbols : SymbolTable) (scope : ScopeId) : List DeclId :=
  (symbols.namesOf scope).ordered.toList

/-- Makes a declaration behind those made so far. -/
def add (symbols : SymbolTable) (scopes : ScopeTree) (scope : ScopeId) (spec : DeclarationSpec) :
    DeclId × SymbolTable :=
  let id : DeclId := ⟨symbols.size⟩
  let declaration :=
    { spec with scope, qualifiedName := scopes.qualify scope spec.name : Declaration }
  (id, {
    declarations := symbols.declarations.push declaration
    byScope := symbols.byScope.insert scope ((symbols.namesOf scope).add (Name.fold spec.name) id) })

/-- Makes a declaration, unless the scope is frozen. -/
def declare (symbols : SymbolTable) (scopes : ScopeTree) (scope : ScopeId)
    (spec : DeclarationSpec) : Except AnalysisError (DeclId × SymbolTable) :=
  if (scopes.get scope).frozen then .error (.frozenScope (scopes.get scope).name)
  else .ok (symbols.add scopes scope spec)

/-- Forgets the declarations of a scope. They keep their identities. -/
def unregister (symbols : SymbolTable) (scope : ScopeId) : SymbolTable :=
  { symbols with byScope := symbols.byScope.erase scope }

end SymbolTable

end Pascal
