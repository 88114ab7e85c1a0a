import Pascal.Model.Issue
import Pascal.Overload.Invocable
import Pascal.Tree.Basic
import Std.Data.HashMap

/-!
# Annotations

What the analysis of a unit finds out about the nodes of its tree. The declarations of the unit are
collected first and sealed; its expressions are resolved afterwards, as often as one likes.
-/

namespace Pascal

/-- The use of a name and the declaration it stands for, if any. -/
structure Occurrence where
  name : String
  declaration : Option DeclId
  deriving Repr, DecidableEq, Inhabited

/-- What is known about the nodes of a tree. -/
structure Annotations where
  types : Std.HashMap NodeId Ty := {}
  /-- The scope that a node opens. -/
  scopes : Std.HashMap NodeId ScopeId := {}
  /-- The declaration that a node makes; the first of several. -/
  declarations : Std.HashMap NodeId DeclId := {}
  occurrences : Std.HashMap NodeId Occurrence := {}
  /-- The signature chosen for a call or an operator. -/
  invocations : Std.HashMap NodeId Invocable := {}
  issues : Array Issue := #[]
  /-- How many issues, from the first on, were found by collection. -/
  sealed : Nat := 0
  deriving Inhabited

namespace Annotations

def type? (a : Annotations) (n : NodeId) : Option Ty := a.types[n]?

def scope? (a : Annotations) (n : NodeId) : Option ScopeId := a.scopes[n]?

def declaration? (a : Annotations) (n : NodeId) : Option DeclId := a.declarations[n]?

def occurrence? (a : Annotations) (n : NodeId) : Option Occurrence := a.occurrences[n]?

def invocation? (a : Annotations) (n : NodeId) : Option Invocable := a.invocations[n]?

def setType (a : Annotations) (n : NodeId) (ty : Ty) : Annotations :=
  { a with types := a.types.insert n ty }

def clearTypes (a : Annotations) : Annotations := { a with types := {} }

def setScope (a : Annotations) (n : NodeId) (scope : ScopeId) : Annotations :=
  { a with scopes := a.scopes.insert n scope }

def clearScopes (a : Annotations) : Annotations := { a with scopes := {} }

/-- Records the declaration a node makes, unless one is recorded already. -/
def setDeclaration (a : Annotations) (n : NodeId) (id : DeclId) : Annotations :=
  { a with declarations :=
      if a.declarations.contains n then a.declarations else a.declarations.insert n id }

def clearDeclarations (a : Annotations) : Annotations := { a with declarations := {} }

def setOccurrence (a : Annotations) (n : NodeId) (occurrence : Occurrence) : Annotations :=
  { a with occurrences := a.occurrences.insert n occurrence }

def clearOccurrences (a : Annotations) : Annotations := { a with occurrences := {} }

def setInvocation (a : Annotations) (n : NodeId) (invocable : Invocable) : Annotations :=
  { a with invocations := a.invocations.insert n invocable }

def pushIssue (a : Annotations) (issue : Issue) : Annotations :=
  { a with issues := a.issues.push issue }

/-- Keeps the issues that pass a test. -/
def retainIssues (a : Annotations) (keep : Issue → Bool) : Annotations :=
  let issues := a.issues.filter keep
  { a with issues, sealed := min a.sealed issues.size }

/-- Marks the issues found so far as found by collection. -/
def sealIssues (a : Annotations) : Annotations := { a with sealed := a.issues.size }

/-- Forgets what resolution found out and keeps what collection did. -/
def resetResolution (a : Annotations) (tree : SyntaxTree) : Annotations :=
  { a with
    types := a.types.filter fun n _ => !(tree.kind n).isExpression
    occurrences := {}
    invocations := {}
    issues := a.issues.take a.sealed }

theorem toList_issues_resetResolution (a : Annotations) (tree : SyntaxTree) :
    (a.resetResolution tree).issues.toList = a.issues.toList.take a.sealed := by
  simp [resetResolution]

end Annotations

end Pascal
