import Pascal.Typing.Basic

/-!
# Typing references

What a name or a member access refers to, and the type it has. A routine that is mentioned without
being called, and whose address is not taken, is called without arguments.
-/

namespace Pascal.Typing

/-- Notes that a name refers to nothing. The receiver of a member access may still turn out to be
the beginning of a dotted unit name. -/
def unresolved (ctx : TypingContext) (n : NodeId) (name : String) : Typing Unit :=
  if ctx.isQualifier n then modify fun s => { s with deferred := n :: s.deferred }
  else issue ctx n (.unresolvedReference name)

def resolveName (ctx : TypingContext) (scope : ScopeId) (n : NodeId) (name : String) :
    Typing (List DeclId) := do
  let found := ctx.env.find scope name
  if found.isEmpty then unresolved ctx n name
  pure found

/-- The file scope of the unit that a reference was found to name. -/
def unitOf (ctx : TypingContext) (n : NodeId) : Typing (Option ScopeId) := do
  match (← get).annotations.occurrence? n with
  | some { declaration := some id, .. } =>
    let declaration := ctx.env.declaration id
    match declaration.kind with
    | .unit | .unitImport => pure declaration.unitScope
    | _ => pure none
  | _ => pure none

/-- The declarations that a dotted name refers to when it names a unit as a whole. -/
def resolveDotted (ctx : TypingContext) (scope : ScopeId) (n : NodeId) : Typing (List DeclId) := do
  match ctx.dottedName? n with
  | some dotted =>
    let units := (ctx.env.find scope dotted).filter fun id =>
      (ctx.env.declaration id).unitScope.isSome
    if units.isEmpty then unresolved ctx n dotted
    pure units
  | none => pure []

/-- The declarations that a member access refers to when its receiver is a value. -/
def resolveValueMember (ctx : TypingContext) (scope : ScopeId) (n : NodeId) (receiver : Ty)
    (name : String) : Typing (List DeclId) := do
  if receiver.isUnknown then pure []
  else
    let found := ctx.env.findMember scope receiver name
    if found.isEmpty then
      issue ctx n (.unresolvedReference (ctx.env.types.image receiver ++ "." ++ name))
    pure found

/-- The declarations that a member access refers to: members of a unit, units with a dotted name, or
members of a value. -/
def resolveMember (ctx : TypingContext) (scope : ScopeId) (n : NodeId) (name : String)
    (typeOf : Below n → Typing Ty) : Typing (List DeclId) := do
  match ← child ctx n 0 with
  | none => pure []
  | some receiver =>
    let receiverType ← typeOf receiver
    let unit ← unitOf ctx receiver.1
    let inUnit := unit.elim [] (ctx.env.findInUnit scope · name)
    if !inUnit.isEmpty then pure inUnit
    else if unit.isSome || (← get).deferred.contains receiver.1 then resolveDotted ctx scope n
    else resolveValueMember ctx scope n receiverType name

def referenceType (ctx : TypingContext) (n : NodeId) (name : String) (found : List DeclId) :
    Typing Ty := do
  match found with
  | [] =>
    recordOccurrence n name none
    pure .unknown
  | first :: _ =>
    let declaration := ctx.env.declaration first
    let called :=
      if declaration.isRoutine && !ctx.isCallee n && !ctx.isAddressOperand n then
        (ctx.env.types.choose (ctx.routines found) []).chosen?
      else none
    match called with
    | some chosen =>
      recordOccurrence n name chosen.declaration
      annotate (·.setInvocation n chosen)
      pure chosen.result
    | none =>
      recordOccurrence n name (some first)
      pure declaration.ty

end Pascal.Typing
