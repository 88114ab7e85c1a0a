import Pascal.Overload.Conversion
import Pascal.Overload.Invocable

/-!
# Choosing an overload

Every argument is matched against its parameter. The candidates that take all arguments are ranked:
those that take them unchanged come first, then the one whose worst conversion is best, then the
least total distance, then the most signed parameters, then the preferred callable forms.
-/

namespace Pascal

/-- How well a candidate takes the arguments of a call. -/
structure Rank where
  /-- Every argument is taken unchanged. -/
  exact : Bool := true
  worst : Nat := 0
  /-- The sum of the distances, added up as doubles. -/
  distance : Nat := 0
  /-- The number of parameters of a signed integer type. -/
  signed : Nat := 0
  /-- The callable form of each parameter that is one. -/
  forms : List (Option ProceduralKind) := []
  deriving Repr, DecidableEq

namespace Rank

def add (rank : Rank) (conversion : Conversion) (parameter : Ty) : Rank where
  exact := rank.exact && conversion = .exact
  worst := max rank.worst conversion.tier
  distance := Number.addDouble rank.distance conversion.distance
  signed := rank.signed + (if parameter.integer?.any (·.signed) then 1 else 0)
  forms := rank.forms ++ [parameter.procedural?.map (·.1)]

/-- The first position at which both have a callable form and the forms differ decides. -/
def compareForms : List (Option ProceduralKind) → List (Option ProceduralKind) → Ordering
  | some mine :: rest, some theirs :: rest' =>
    if mine = theirs then compareForms rest rest' else compare theirs.preference mine.preference
  | _ :: rest, _ :: rest' => compareForms rest rest'
  | _, _ => .eq

/-- Which of two ranks is better; the better one is less. -/
def compare (left right : Rank) : Ordering :=
  (Ord.compare right.exact left.exact).then <|
    (Ord.compare left.worst right.worst).then <|
      (Ord.compare left.distance right.distance).then <|
        (Ord.compare right.signed left.signed).then <|
          compareForms left.forms right.forms

end Rank

/-- The outcome of choosing among candidates. -/
inductive Resolution where
  | resolved (chosen : Invocable)
  /-- Several candidates are best; `chosen` is the first of them and heads the list. -/
  | ambiguous (chosen : Invocable) (others : List Invocable)
  | noApplicable
  deriving Repr, DecidableEq

namespace Resolution

def chosen? : Resolution → Option Invocable
  | resolved chosen => some chosen
  | ambiguous chosen _ => some chosen
  | noApplicable => none

/-- The candidates among which there is no better one, the chosen one first. -/
def winners : Resolution → List Invocable
  | resolved chosen => [chosen]
  | ambiguous chosen others => chosen :: others
  | noApplicable => []

def result (resolution : Resolution) : Ty := resolution.chosen?.elim .unknown (·.result)

/-- The outcome when these candidates are best. -/
def ofWinners : List Invocable → Resolution
  | [] => noApplicable
  | [chosen] => resolved chosen
  | chosen :: others => ambiguous chosen others

end Resolution

namespace TypeTable

/-- Takes the remaining arguments into account, unless one of them cannot be taken. -/
def rankFrom (types : TypeTable) (rank : Rank) : List Ty → List Ty → Option Rank
  | argument :: arguments, parameter :: params =>
    match types.conversion argument parameter with
    | .incompatible => none
    | conversion => types.rankFrom (rank.add conversion parameter) arguments params
  | _, _ => some rank

/-- The rank of a candidate, if it takes the arguments. -/
def rank? (types : TypeTable) (arguments : List Ty) (candidate : Invocable) : Option Rank :=
  if candidate.acceptsArity arguments.length then types.rankFrom {} arguments candidate.params
  else none

/-- Declared routines in the order of their declaration, then the built-in meanings; equals by the
text of their signature. -/
def declarationOrder (types : TypeTable) (left right : Invocable) : Ordering :=
  let byOrigin : Ordering :=
    match left.declaration, right.declaration with
    | some a, some b => compare a.index b.index
    | some _, none => .lt
    | none, some _ => .gt
    | none, none => .eq
  byOrigin.then (compare (types.signature left) (types.signature right))

/-- The candidates that take the arguments, each with its rank. -/
def applicable (types : TypeTable) (candidates : List Invocable) (arguments : List Ty) :
    List (Invocable × Rank) :=
  candidates.filterMap fun candidate => (types.rank? arguments candidate).map (candidate, ·)

/-- The ranked candidates than which none is better. -/
def best (ranked : List (Invocable × Rank)) : List Invocable :=
  ranked.filter (fun (_, rank) => ranked.all fun (_, other) => other.compare rank ≠ .lt)
    |>.map (·.1)

/-- The best candidate for the arguments, or the best ones when they are tied. -/
def choose (types : TypeTable) (candidates : List Invocable) (arguments : List Ty) : Resolution :=
  .ofWinners <|
    (best (types.applicable candidates arguments)).mergeSort
      fun left right => types.declarationOrder left right ≠ .gt

end TypeTable

end Pascal
