import Pascal.Lookup.Names

/-!
# Looking up members

A member is sought on the type of its receiver and, where the type has none of the name, on the
helper that is active for the type.
-/

namespace Pascal.Environment

/-- The helper that one scope contributes: its own, else, in the scope of a unit, the one of the
unit used last. -/
def helperAtLevel? (env : Environment) (target : Ty) (level : ScopeId) : Option StructId :=
  let scope := env.scopes.get level
  match env.scopes.shallowHelper? level target with
  | some helper => some helper
  | none =>
    if scope.kind = .file then
      scope.imports.reverse.findSome? fun unit => env.scopes.shallowHelper? unit target
    else none

/-- The helper active for exactly this type, from the innermost scope that has one. -/
def activeHelper? (env : Environment) (context : ScopeId) (target : Ty) : Option StructId :=
  (env.scopes.chain context).findSome? (env.helperAtLevel? target)

/-- The types whose helpers apply to a type: itself, then its ancestors. A reference to a class is
helped like the class. -/
def helperTargets (env : Environment) (ty : Ty) : List Ty :=
  let target :=
    match ty.unaliased with
    | .classRef target => target
    | _ => ty
  match target.struct? with
  | some id => target :: (env.types.ancestors id).map fun (ancestor, _) => .struct ancestor
  | none => [target]

/-- The helper active for a type as seen from a scope. -/
def helperFor? (env : Environment) (context : ScopeId) (ty : Ty) : Option StructId :=
  (env.helperTargets ty).findSome? (env.activeHelper? context)

/-- What a member name stands for on the receiver type itself. Pointers and references to classes
are looked through. -/
def findDirectMember (env : Environment) (receiver : Ty) (name : FoldedName) : List DeclId :=
  match receiver.unaliased with
  | .struct id => env.findMembers id name
  | .classRef target | .pointer target _ _ => target.struct?.elim [] (env.findMembers · name)
  | .enum id => env.symbols.findFolded (env.types.enumInfo id).scope name
  | _ => []

/-- What a member name stands for on a receiver, seen from a scope. -/
def findMember (env : Environment) (context : ScopeId) (receiver : Ty) (name : String) :
    List DeclId :=
  let name := Name.fold name
  match env.findDirectMember receiver name with
  | [] => (env.helperFor? context receiver).elim [] (env.findMembers · name)
  | found => found

end Pascal.Environment
