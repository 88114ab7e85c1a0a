import Pascal.Session.Basic

/-!
# Batches

Several units analysed together. Units are collected after those they use; units that use each other
in a circle keep the order in which they are given, and what they use of each other is looked up
again once all are collected.
-/

namespace Pascal

/-- The name of the unit that a tree describes; empty if it describes none. -/
def SyntaxTree.unitName (tree : SyntaxTree) : String :=
  match tree.kind tree.root with
  | .unit name => name
  | _ => ""

/-- For each tree of a batch the trees whose units it uses. -/
def batchDependencies (trees : List SyntaxTree) : List (List Nat) :=
  let names := trees.map fun tree => Name.fold tree.unitName
  trees.map fun tree =>
    tree.nodes.toList.filterMap fun node =>
      match node.kind with
      | .unitReference name =>
        let key := Name.fold name
        names.findIdx? (· == key)
      | _ => none

/-- The trees not yet placed all of whose dependencies are, apart from themselves. -/
def readyTrees (dependencies : List (List Nat)) (placed : List Nat) : List Nat :=
  (List.range dependencies.length).filter fun i =>
    !placed.contains i && ((dependencies[i]?).getD []).all fun d => d = i || placed.contains d

/-- Places the trees that are ready, round by round, behind those placed so far; `rounds` bounds the
number of rounds. -/
def placeTrees (dependencies : List (List Nat)) (rounds : Nat) (placed : List Nat) : List Nat :=
  match rounds with
  | 0 => placed
  | rounds + 1 =>
    match readyTrees dependencies placed with
    | [] => placed
    | ready => placeTrees dependencies rounds (placed ++ ready)

/-- An order in which used trees come before their users. Trees that depend on a circle are appended
as they are given. A round places at least one tree, so there are no more rounds than trees. -/
def dependencyOrder (trees : List SyntaxTree) : List Nat :=
  let dependencies := batchDependencies trees
  let placed := placeTrees dependencies trees.length []
  placed ++ (List.range trees.length).filter fun i => !placed.contains i

namespace Session

/-- Collects the trees at several positions, until one fails. -/
def collectAll (session : Session) (trees : List SyntaxTree) :
    List Nat → Except AnalysisError (List (Nat × Model)) × Session
  | [] => (.ok [], session)
  | i :: rest =>
    match trees[i]? with
    | none => session.collectAll trees rest
    | some tree =>
      match session.collect tree with
      | (.error cause, session) => (.error cause, session)
      | (.ok model, session) =>
        match session.collectAll trees rest with
        | (.error cause, session) => (.error cause, session)
        | (.ok models, session) => (.ok ((i, model) :: models), session)

/-- Looks up again the units used by a unit that were not known when it was collected. -/
def retryImports (session : Session) (model : Model) : Except AnalysisError Model × Session :=
  let ctx := session.collectionContext model.tree model.scope
  let (outcome, state) := (Collecting.retryImports ctx).run.run
    { env := session.env, annotations := model.annotations }
  let session := { session with env := state.env }
  match outcome with
  | .error cause => (.error cause, session)
  | .ok () => (.ok { model with annotations := state.annotations }, session)

/-- Looks up again the units used by several units, until one fails. -/
def retryAll (session : Session) :
    List (Nat × Model) → Except AnalysisError (List (Nat × Model)) × Session
  | [] => (.ok [], session)
  | (i, model) :: rest =>
    match session.retryImports model with
    | (.error cause, session) => (.error cause, session)
    | (.ok model, session) =>
      match session.retryAll rest with
      | (.error cause, session) => (.error cause, session)
      | (.ok models, session) => (.ok ((i, model) :: models), session)

/-- Resolves several units, until one fails. -/
def resolveAll (session : Session) :
    List (Nat × Model) → Except AnalysisError (List (Nat × Model))
  | [] => .ok []
  | (i, model) :: rest =>
    match session.resolve model with
    | (.error cause, _) => .error cause
    | (.ok (), model) =>
      match session.resolveAll rest with
      | .error cause => .error cause
      | .ok models => .ok ((i, model) :: models)

/-- Both passes over all units of a batch, after which they take no more declarations. The models
are given in the order of the trees. -/
def analyzeBatch (session : Session) (trees : List SyntaxTree) :
    Except AnalysisError (List Model) × Session :=
  match session.collectAll trees (dependencyOrder trees) with
  | (.error cause, session) => (.error cause, session)
  | (.ok collected, session) =>
    match session.retryAll collected with
    | (.error cause, session) => (.error cause, session)
    | (.ok retried, session) =>
      match session.resolveAll retried with
      | .error cause => (.error cause, session)
      | .ok resolved =>
        let session := resolved.foldl (fun session (_, model) => session.freeze model) session
        let inOrder := resolved.mergeSort fun a b => a.1 ≤ b.1
        (.ok (inOrder.map (·.2)), session)

end Session

end Pascal
