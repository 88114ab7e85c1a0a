import Pascal.Ty.Table

/-!
# Heritage

The ancestors of a structured type and how many steps away they are. Parents that are no
structured types are passed over, and a heritage that runs in a circle is walked once.
-/

namespace Pascal.TypeTable

/-- The structured types among the parents of a structured type, in the order written. -/
def parentStructs (types : TypeTable) (id : StructId) : List StructId :=
  (types.structInfo id).parents.filterMap Ty.struct?

/-- The candidates that have not been seen, each at its first occurrence. -/
def unseen (seen : List StructId) : List StructId → List StructId
  | [] => []
  | id :: rest =>
    if id ∈ seen then unseen seen rest else id :: unseen (id :: seen) rest

/-- The ancestors of a generation that have not been seen, generation by generation; `rounds`
bounds the number of generations. -/
def generations (types : TypeTable) (rounds depth : Nat) (current seen : List StructId) :
    List (StructId × Nat) :=
  match rounds with
  | 0 => []
  | rounds + 1 =>
    match unseen seen (current.flatMap types.parentStructs) with
    | [] => []
    | next =>
      next.map (·, depth + 1) ++ types.generations rounds (depth + 1) next (next ++ seen)

/-- Every ancestor of a structured type with its distance, nearest first. A generation that is not
the last brings at least one new type, so there are fewer generations than types. -/
def ancestors (types : TypeTable) (id : StructId) : List (StructId × Nat) :=
  types.generations types.structs.size 0 [id] [id]

/-- The number of steps from `sub` up to `sup`, if it is an ancestor or the type itself. -/
def inheritanceDistance (types : TypeTable) (sub sup : StructId) : Option Nat :=
  if sub = sup then some 0
  else (types.ancestors sub).findSome? fun (id, depth) => if id = sup then some depth else none

/-- Whether values of `ty` are values of `other` by heritage. -/
def isSubTypeOf (types : TypeTable) : Ty → Ty → Bool
  | .struct sub, .struct sup => (types.inheritanceDistance sub sup).isSome
  | .classRef sub, .classRef sup => types.isSubTypeOf sub sup
  | ty, other => ty = other

end Pascal.TypeTable
