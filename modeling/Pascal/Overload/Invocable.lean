import Pascal.Declaration.Basic
import Pascal.Ty.Image

/-!
# Invocables

What can be called: declared routines and the built-in meanings of operators.
-/

namespace Pascal

/-- A signature that arguments are matched against. -/
structure Invocable where
  name : String
  params : List Ty
  /-- How many arguments a call has to give. -/
  required : Nat
  result : Ty
  /-- The declaration it comes from; a built-in meaning has none. -/
  declaration : Option DeclId := none
  deriving Repr, DecidableEq, Inhabited

namespace Invocable

/-- A built-in meaning, which takes exactly its parameters. -/
def builtin (name : String) (params : List Ty) (result : Ty) : Invocable :=
  { name, params, required := params.length, result }

/-- The signature of a declared routine; other declarations have none. -/
def ofDeclaration? (id : DeclId) (declaration : DeclarationSpec) : Option Invocable :=
  declaration.routine.map fun routine =>
    { name := declaration.name
      params := routine.params
      required := routine.required
      result := routine.result
      declaration := some id }

/-- Whether a call may give this many arguments. -/
def acceptsArity (invocable : Invocable) (count : Nat) : Bool :=
  invocable.required ≤ count && count ≤ invocable.params.length

end Invocable

/-- The text of a signature: name, parameters and result, if it has one. -/
def TypeTable.signature (types : TypeTable) (invocable : Invocable) : String :=
  let returns := if invocable.result.isVoid then "" else ": " ++ types.image invocable.result
  invocable.name ++ "(" ++ types.images invocable.params ++ ")" ++ returns

end Pascal
