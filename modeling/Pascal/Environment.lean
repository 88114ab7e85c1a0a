import Pascal.Declaration.Table
import Pascal.Ty.Heritage
import Pascal.Ty.Image
import Pascal.Ty.Intrinsic
import Pascal.Ty.Size

/-!
# Environments

Everything that names and types are looked up in: the scope tree, the symbol table and the type
table, which refer to each other by identity.
-/

namespace Pascal

/-- The tables that names and types are looked up in. -/
structure Environment where
  scopes : ScopeTree := {}
  symbols : SymbolTable := {}
  types : TypeTable := {}
  deriving Inhabited

namespace Environment

def declaration (env : Environment) (id : DeclId) : Declaration := env.symbols.get id

def add (env : Environment) (scope : ScopeId) (spec : DeclarationSpec) : DeclId × Environment :=
  let (id, symbols) := env.symbols.add env.scopes scope spec
  (id, { env with symbols })

/-- Makes a declaration in a scope, unless it is frozen. -/
def declare (env : Environment) (scope : ScopeId) (spec : DeclarationSpec) :
    Except AnalysisError (DeclId × Environment) :=
  match env.symbols.declare env.scopes scope spec with
  | .ok (id, symbols) => .ok (id, { env with symbols })
  | .error cause => .error cause

/-- The scope of the members of a structured type. -/
def membersOf (env : Environment) (id : StructId) : ScopeId := (env.types.structInfo id).scope

end Environment

end Pascal
