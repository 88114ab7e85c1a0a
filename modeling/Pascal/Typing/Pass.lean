import Pascal.Model.Basic
import Pascal.Tree.Walk
import Pascal.Typing.Expression

/-!
# Resolving a unit

The pass over a whole unit that types every expression in it, each in the scope it stands in.
-/

namespace Pascal

namespace Typing

/-- One visit of the pass, given how the children of the node are passed over from a scope. The
context is the scope that the node stands in. Declared types and assembly are left alone, and so is
a routine without a body. -/
def visitNode (ctx : TypingContext) (enter : ScopeId → Typing Unit) (category : NodeCategory)
    (n : NodeId) (scope : ScopeId) : Typing (Flow ScopeId) := do
  let opened := (← get).annotations.scope? n
  match category with
  | .unit =>
    enter (opened.getD scope)
    return .skip scope
  | .typeDeclaration | .asmBlock => return .skip scope
  | .routine =>
    if let some body := opened then enter body
    return .skip scope
  | .nameReference | .invocation | .binaryExpression | .unaryExpression =>
    discard (typeOf ctx scope n)
    return .skip scope
  | .other =>
    if (ctx.tree.kind n).isExpression then
      discard (typeOf ctx scope n)
      return .skip scope
    else
      match opened with
      | some inner =>
        enter inner
        return .skip scope
      | none => return .descend scope

/-- The visits of the pass to the nodes before `bound`. The children of a node that opens a scope are
walked over one by one, each from that scope. -/
def visitBefore (ctx : TypingContext) (bound : Nat) (category : NodeCategory) (n : NodeId)
    (scope : ScopeId) : Typing (Flow ScopeId) :=
  if _h : n.index < bound then
    let enter (inner : ScopeId) : Typing Unit := (ctx.tree.children n).forM fun child =>
      discard (walk ctx.tree ⟨visitBefore ctx n.index⟩ child.1 inner)
    visitNode ctx enter category n scope
  else pure (.skip scope)
  termination_by bound

/-- The visitor of the pass over a node and what is below it. -/
def resolver (ctx : TypingContext) (n : NodeId) : Visitor Typing ScopeId where
  visit := visitBefore ctx (n.index + 1)

/-- The pass over a subtree that stands in a scope. -/
def resolveNode (ctx : TypingContext) (scope : ScopeId) (n : NodeId) : Typing Unit :=
  discard (walk ctx.tree (resolver ctx n) n scope)

end Typing

namespace Environment

/-- Runs a typing computation on the annotations of a model. The first breach of the layout of the
tree is its error; what was found is kept in any case. -/
def runTyping {α : Type} (env : Environment) (model : Model)
    (computation : TypingContext → Typing α) : Except AnalysisError α × Model :=
  let (value, state) := computation { env, tree := model.tree } |>.run
    { annotations := model.annotations }
  let outcome :=
    match state.violation with
    | some cause => .error (.malformedTree cause)
    | none => .ok value
  (outcome, { model with annotations := state.annotations })

/-- Types every expression of a unit afresh. -/
def resolve (env : Environment) (model : Model) : Except AnalysisError Unit × Model :=
  let fresh := { model with annotations := model.annotations.resetResolution model.tree }
  env.runTyping fresh fun ctx => Typing.resolveNode ctx model.scope model.tree.root

/-- The type of one node, found now unless it is remembered. -/
def typeOf (env : Environment) (model : Model) (n : NodeId) : Except AnalysisError Ty × Model :=
  match model.annotations.type? n with
  | some ty => (.ok ty, model)
  | none => env.runTyping model fun ctx => Typing.typeOf ctx (model.scopeOf n) n

end Environment

end Pascal
