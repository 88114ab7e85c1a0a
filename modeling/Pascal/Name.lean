import Pascal.Text.Lowercase

/-!
# Names

Identifiers are compared without regard to case. A `FoldedName` is what remains of a name once its
case is taken away; every table of names is keyed by it.
-/

namespace Pascal

/-- A name without its case. -/
structure FoldedName where
  text : String
  deriving Repr, DecidableEq, Hashable, Inhabited

namespace Name

def fold (name : String) : FoldedName := ⟨Text.lowercase name⟩

/-- Whether two spellings denote the same name. -/
def same (left right : String) : Bool := fold left == fold right

/-- Whether two spellings agree up to the case of the letters `a` to `z`. -/
def sameAscii (left right : String) : Bool :=
  left.toList.map Char.toLower == right.toList.map Char.toLower

def dotted (segments : List String) : String := ".".intercalate segments

/-- The segments of a dotted name; a name without dots is its only segment. -/
def segments (name : String) : List String :=
  (name.toList.splitOn '.').map String.ofList

/-- A dotted name cut at its last dot into qualifier and member, if it has a dot. -/
def splitLast (name : String) : Option (String × String) :=
  match (segments name).reverse with
  | [] => none
  | [_] => none
  | member :: rest => some (dotted rest.reverse, member)

end Name

end Pascal
