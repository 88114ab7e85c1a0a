import Pascal.Environment

/-!
# Looking up names

A name is sought outwards from the scope in which it is used. The first level that declares it
settles what it stands for.
-/

namespace Pascal.Environment

/-- The declarations made for a folded name by the nearest ancestors that have any. Ancestors come
nearest first; `matched` is the distance of those that have some, once there are any. -/
def inheritedFrom (env : Environment) (name : FoldedName) (matched : Option Nat) :
    List (StructId × Nat) → List DeclId
  | [] => []
  | (ancestor, depth) :: rest =>
    if matched.any (· < depth) then []
    else
      match env.symbols.findFolded (env.membersOf ancestor) name with
      | [] => env.inheritedFrom name matched rest
      | found => found ++ env.inheritedFrom name (some depth) rest

/-- The members of a structured type with a folded name: its own, else those of the nearest
ancestors that have any. -/
def findMembers (env : Environment) (id : StructId) (name : FoldedName) : List DeclId :=
  match env.symbols.findFolded (env.membersOf id) name with
  | [] => env.inheritedFrom name none (env.types.ancestors id)
  | own => own

/-- The members of a structured type with a name. -/
def findInStruct (env : Environment) (id : StructId) (name : String) : List DeclId :=
  env.findMembers id (Name.fold name)

/-- The declarations of a folded name that a unit shows to others: those of its interface. -/
def exported (env : Environment) (unit : ScopeId) (name : FoldedName) : List DeclId :=
  (env.symbols.findFolded unit name).filter fun id => (env.declaration id).part = .interface

/-- The declarations of a folded name shown by the first used unit that shows any. -/
def imported (env : Environment) (name : FoldedName) : List ScopeId → List DeclId
  | [] => []
  | unit :: rest =>
    match env.exported unit name with
    | [] => env.imported name rest
    | found => found

/-- What one scope contributes to a folded name: its own declarations, else the members of the
structured type it belongs to, else, in the scope of a unit, what the used units show. -/
def findAtLevel (env : Environment) (level : ScopeId) (name : FoldedName) : List DeclId :=
  let scope := env.scopes.get level
  match env.symbols.findFolded level name with
  | [] =>
    match scope.declaring.elim [] (env.findMembers · name) with
    | [] => if scope.kind = .file then env.imported name scope.imports else []
    | members => members
  | own => own

/-- What a folded name stands for at the first of several levels that declares it. -/
def findAlong (env : Environment) (name : FoldedName) : List ScopeId → List DeclId
  | [] => []
  | level :: outer =>
    match env.findAtLevel level name with
    | [] => env.findAlong name outer
    | found => found

/-- What a name stands for in a scope: its declarations at the innermost level that has any. -/
def find (env : Environment) (scope : ScopeId) (name : String) : List DeclId :=
  env.findAlong (Name.fold name) (env.scopes.chain scope)

/-- What a name qualified by a unit stands for. A unit sees all of its own declarations, everyone
else only its interface. -/
def findInUnit (env : Environment) (context unit : ScopeId) (name : String) : List DeclId :=
  if env.scopes.fileScopeOf? context = some unit then env.symbols.shallowFind unit name
  else env.exported unit (Name.fold name)

end Pascal.Environment
