/-!
# Errors

Why a syntax tree or a unit is rejected. Everything else that is wrong with a program is an issue
of its model and does not stop the analysis.
-/

namespace Pascal

/-- A place in the text of a unit. -/
structure Position where
  line : Nat := 0
  column : Nat := 0
  deriving Repr, DecidableEq, Inhabited

/-- How a syntax tree breaks the layout of its nodes. -/
inductive TreeError where
  | missingChild (kind : String) (position : Position) (index : Nat)
  | unexpectedKind (expected found : String) (position : Position)
  deriving Repr, DecidableEq

/-- Why a unit cannot be analysed. -/
inductive AnalysisError where
  | malformedTree (cause : TreeError)
  | duplicateUnit (name : String)
  | frozenScope (scope : String)
  deriving Repr, DecidableEq

def TreeError.message : TreeError → String
  | missingChild kind position index =>
    s!"Node '{kind}' at {position.line}:{position.column} is missing required child #{index}"
  | unexpectedKind expected found position =>
    s!"Expected {expected} at {position.line}:{position.column}, found '{found}'"

def AnalysisError.message : AnalysisError → String
  | malformedTree cause => cause.message
  | duplicateUnit name => s!"Unit '{name}' is already part of this session"
  | frozenScope scope => s!"Scope '{scope}' is frozen and cannot accept new declarations"

end Pascal
