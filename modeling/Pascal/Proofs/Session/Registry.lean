import Pascal.Proofs.Resolution
import Pascal.Proofs.Session.Moves

/-!
# Units after a failed analysis

An analysis collects units, looks at their uses again and resolves them. A collection that fails
takes its unit out again. A failure after that leaves behind every unit collected so far, and a unit
that was left behind is refused when it is submitted again.

## Main results

- `Session.failed_analysis_units`: the failures after which a session knows the same units as
  before.
-/

namespace Pascal

namespace Session

/-- Two sessions know the same units. -/
def SameUnits (session after : Session) : Prop :=
  after.unitNames = session.unitNames ∧ ∀ name, after.unitScope? name = session.unitScope? name

section Collections

variable {session : Session} {tree : SyntaxTree}

theorem sameUnits_of_env (session : Session) (env : Environment) :
    session.SameUnits { session with env } := ⟨rfl, fun _ => rfl⟩

/-- A collection that fails changes the tables only. -/
theorem collect_of_error {cause : AnalysisError} (h : (session.collect tree).1 = .error cause) :
    ∃ env, (session.collect tree).2 = { session with env } := by
  unfold collect at h ⊢
  split
  · split_ifs
    · exact ⟨session.env, rfl⟩
    · rename_i name hroot hfree
      simp only [hroot, hfree, collectNamed_eq] at h ⊢
      generalize session.collecting name tree = ran at h
      rcases ran with ⟨_ | ⟨⟩, state⟩
      · exact ⟨_, rfl⟩
      · simp at h
  · exact ⟨session.env, rfl⟩

/-- A collection that succeeds registers the unit under a name that was free. -/
theorem collect_of_ok {model : Model} (h : (session.collect tree).1 = .ok model) :
    ∃ name env, tree.kind tree.root = .unit name ∧ session.isTaken name = false ∧
      (session.collect tree).2 = { session with
        env
        units := session.units.insert (Name.fold name) { name, scope := session.nextFile } } := by
  obtain ⟨name, state, hroot, hfree, -, -, heq⟩ := collect_eq_of_ok h
  exact ⟨name, state.env, hroot, hfree, heq⟩

end Collections

/-! ## Units that stay -/

/-- The units of a session are still registered in another. -/
structure Retains (session after : Session) : Prop where
  settings : after.settings = session.settings
  system : after.system = session.system
  units : ∀ (key : FoldedName) entry, session.units[key]? = some entry →
    after.units[key]? = some entry

section Staying

variable {session mid after : Session} {tree : SyntaxTree}

theorem Retains.trans (h : session.Retains mid) (g : mid.Retains after) : session.Retains after :=
  ⟨g.settings.trans h.settings, g.system.trans h.system,
    fun key entry hentry => g.units key entry (h.units key entry hentry)⟩

theorem retains_env (session : Session) (env : Environment) :
    session.Retains { session with env } :=
  ⟨rfl, rfl, fun _ _ h => h⟩

theorem retains_collect (session : Session) (tree : SyntaxTree) :
    session.Retains (session.collect tree).2 := by
  cases hc : (session.collect tree).1 with
  | error cause =>
    obtain ⟨env, heq⟩ := collect_of_error hc
    rw [heq]
    exact session.retains_env env
  | ok model =>
    obtain ⟨name, env, -, hfree, heq⟩ := collect_of_ok hc
    rw [heq]
    refine ⟨rfl, rfl, fun key entry hentry => ?_⟩
    have hne : Name.fold name ≠ key := by
      rintro rfl
      simp [isTaken, Std.HashMap.contains_eq_isSome_getElem?, hentry] at hfree
    simpa [Std.HashMap.getElem?_insert, hne] using hentry

theorem keeps_retains (session : Session) : Keeps (session.Retains ·) fun _ _ => True where
  collect h tree := ⟨h.trans (retains_collect _ tree), fun _ _ => trivial, fun _ _ => trivial⟩
  retryImports {mid model} h _ := by
    obtain ⟨env, -, heq⟩ := mid.retryImports_snd model
    exact ⟨heq ▸ h.trans (mid.retains_env env), fun _ _ => trivial, fun _ _ => trivial⟩
  freeze h _ := h.trans (retains_env _ _)

theorem retains_collectAll (session : Session) (trees : List SyntaxTree) (order : List Nat) :
    session.Retains (session.collectAll trees order).2 :=
  (stage_collectAll (keeps_retains session).collect (session.retains_env _) trees order).after

theorem retains_retryAll (session : Session) (models : List (Nat × Model)) :
    session.Retains (session.retryAll models).2 :=
  (stage_retryAll (keeps_retains session).retryImports (session.retains_env _)
    fun _ _ => trivial).after

/-- A unit that was collected and stays is new to the session, and is refused from then on. -/
theorem Retains.left_behind (h : (session.collect tree).2.Retains after) (valid : session.Valid)
    {model : Model} (hok : (session.collect tree).1 = .ok model) :
    ¬session.SameUnits after ∧ ∃ name, tree.kind tree.root = .unit name ∧
      (after.collect tree).1 = .error (.duplicateUnit name) := by
  obtain ⟨name, env, hroot, hfree, heq⟩ := collect_of_ok hok
  rw [heq] at h
  have entry : after.units[Name.fold name]? = some { name, scope := session.nextFile } :=
    h.units _ _ (by simp)
  simp only [isTaken, Bool.or_eq_false_iff] at hfree
  have scope : after.unitScope? name = some session.nextFile := by
    simp [unitScope?, hfree.2, registered?, entry]
  constructor
  · rintro ⟨-, same⟩
    have before := valid.has_unitScope ((same name).symm.trans scope)
    exact Nat.lt_irrefl _ before
  · refine ⟨name, hroot, ?_⟩
    have taken : after.isTaken name = true := by
      simp [isTaken, Std.HashMap.contains_eq_isSome_getElem?, entry]
    simp [collect, hroot, taken]

end Staying

/-! ## Failures -/

/-- The tree that is collected first when several are analysed together. -/
def firstTree? (trees : List SyntaxTree) : Option SyntaxTree :=
  (dependencyOrder trees).head?.bind fun i => trees[i]?

section Failures

variable {session : Session}

theorem mem_placeTrees_lt {dependencies : List (List Nat)} {rounds i : Nat} {placed : List Nat}
    (hp : ∀ j ∈ placed, j < dependencies.length)
    (hi : i ∈ placeTrees dependencies rounds placed) : i < dependencies.length := by
  induction rounds generalizing placed with
  | zero => exact hp i hi
  | succ rounds ih =>
    unfold placeTrees at hi
    split at hi
    · exact hp i hi
    · refine ih (fun j hj => ?_) hi
      obtain hj | hj := List.mem_append.1 hj
      · exact hp j hj
      · exact List.mem_range.1 (List.mem_filter.1 hj).1

/-- Only trees that there are come up. -/
theorem mem_dependencyOrder_lt {trees : List SyntaxTree} {i : Nat}
    (h : i ∈ dependencyOrder trees) : i < trees.length := by
  simp only [dependencyOrder, List.mem_append] at h
  obtain h | h := h
  · simpa [batchDependencies] using mem_placeTrees_lt (by simp) h
  · exact List.mem_range.1 (List.mem_filter.1 h).1

theorem analyze_of_error {tree : SyntaxTree} {cause : AnalysisError}
    (h : (session.analyze tree).1 = .error cause) :
    (session.analyze tree).2 = (session.collect tree).2 := by
  unfold analyze at h ⊢
  generalize session.collect tree = ran at h
  rcases ran with ⟨_ | model, mid⟩
  · rfl
  · dsimp only at h ⊢
    generalize mid.resolve model = resolved at h
    rcases resolved with ⟨_ | ⟨⟩, model⟩
    · rfl
    · simp at h

/-- A batch that fails gets as far as its first tree. -/
theorem analyzeBatch_of_error {trees : List SyntaxTree} {cause : AnalysisError}
    (h : (session.analyzeBatch trees).1 = .error cause) :
    ∃ tree ∈ trees, firstTree? trees = some tree ∧
      ((∃ cause, (session.collect tree).1 = .error cause ∧
          (session.analyzeBatch trees).2 = (session.collect tree).2) ∨
        ∃ model, (session.collect tree).1 = .ok model ∧
          (session.collect tree).2.Retains (session.analyzeBatch trees).2) := by
  unfold analyzeBatch at h ⊢
  cases horder : dependencyOrder trees with
  | nil => simp [horder, collectAll, retryAll, resolveAll] at h
  | cons i rest =>
    have hi : i < trees.length := mem_dependencyOrder_lt (horder ▸ List.mem_cons_self ..)
    refine ⟨trees[i], List.getElem_mem hi, by simp [firstTree?, horder, hi], ?_⟩
    rw [horder] at h
    simp only [collectAll, List.getElem?_eq_getElem hi] at h ⊢
    generalize session.collect trees[i] = ran at h ⊢
    rcases ran with ⟨cause' | model, first⟩
    · exact .inl ⟨cause', rfl, rfl⟩
    · refine .inr ⟨model, rfl, ?_⟩
      have collected := first.retains_collectAll trees rest
      dsimp only at h ⊢
      generalize first.collectAll trees rest = ran at h collected ⊢
      rcases ran with ⟨_ | models, second⟩
      · exact collected
      · have retried := collected.trans (second.retains_retryAll ((i, model) :: models))
        dsimp only at h ⊢
        generalize second.retryAll ((i, model) :: models) = ran at h retried ⊢
        rcases ran with ⟨_ | models, third⟩
        · exact retried
        · dsimp only at h ⊢
          cases hresolved : third.resolveAll models with
          | error cause => exact retried
          | ok models => simp [hresolved] at h

/-- A pass over several units that succeeds passes over each of them. -/
theorem resolveAll_eq_ok {models results : List (Nat × Model)}
    (hok : session.resolveAll models = .ok results) :
    results = models.map fun entry => (entry.1, (session.resolve entry.2).2) := by
  induction models generalizing results with
  | nil =>
    cases hok
    rfl
  | cons entry rest ih =>
    unfold resolveAll at hok
    generalize hran : session.resolve entry.2 = ran at hok
    obtain ⟨cause | ⟨⟩, model⟩ := ran
    · cases hok
    · dsimp only at hok
      split at hok
      · cases hok
      · rename_i others hothers
        cases hok
        rw [List.map_cons, hran, ih hothers]

/-- The stages of a batch that succeeds. -/
theorem analyzeBatch_eq_ok {trees : List SyntaxTree} {models : List Model}
    (hok : (session.analyzeBatch trees).1 = .ok models) :
    ∃ collected retried,
      (session.collectAll trees (dependencyOrder trees)).1 = .ok collected ∧
      let mid := (session.collectAll trees (dependencyOrder trees)).2
      (mid.retryAll collected).1 = .ok retried ∧
      let last := (mid.retryAll collected).2
      let resolved := retried.map fun entry => (entry.1, (last.resolve entry.2).2)
      models = (resolved.mergeSort fun a b => a.1 ≤ b.1).map (·.2) ∧
        (session.analyzeBatch trees).2 =
          resolved.foldl (fun session entry => session.freeze entry.2) last := by
  unfold analyzeBatch at hok ⊢
  generalize session.collectAll trees (dependencyOrder trees) = ran at hok
  obtain ⟨cause | collected, mid⟩ := ran
  · cases hok
  · dsimp only at hok ⊢
    generalize hretried : mid.retryAll collected = ran at hok
    obtain ⟨cause | retried, last⟩ := ran
    · cases hok
    · dsimp only at hok ⊢
      split at hok
      · cases hok
      · rename_i resolved hresolved
        cases hok
        refine ⟨collected, retried, rfl, ?_⟩
        simp only [hretried, ← resolveAll_eq_ok hresolved]
        trivial

/-- After a failed analysis of one unit, a session knows the same units as before exactly if the
collection of the unit has failed; after a failed analysis of several, exactly if the first
collection has failed. In all other cases a unit is left behind and is refused when it is submitted
again. -/
theorem failed_analysis_units (settings : Settings) (operations : List Operation) :
    let session := (start settings).run operations
    (∀ tree cause, (session.analyze tree).1 = .error cause →
      let after := (session.analyze tree).2
      (session.SameUnits after ↔ ∃ cause, (session.collect tree).1 = .error cause) ∧
      (¬session.SameUnits after → ∃ name, tree.kind tree.root = .unit name ∧
        (after.collect tree).1 = .error (.duplicateUnit name))) ∧
    (∀ trees cause, (session.analyzeBatch trees).1 = .error cause →
      let after := (session.analyzeBatch trees).2
      (session.SameUnits after ↔ ∃ tree cause, firstTree? trees = some tree ∧
        (session.collect tree).1 = .error cause) ∧
      (¬session.SameUnits after → ∃ tree ∈ trees, ∃ name, tree.kind tree.root = .unit name ∧
        (after.collect tree).1 = .error (.duplicateUnit name))) := by
  intro session
  have valid : session.Valid := valid_run settings operations
  refine ⟨fun tree cause herror => ?_, fun trees cause herror => ?_⟩
  · intro after
    have heq : after = (session.collect tree).2 := analyze_of_error herror
    cases hc : (session.collect tree).1 with
    | error cause' =>
      obtain ⟨env, henv⟩ := collect_of_error hc
      have same : session.SameUnits after := heq ▸ henv ▸ session.sameUnits_of_env env
      exact ⟨⟨fun _ => ⟨cause', rfl⟩, fun _ => same⟩, fun hnot => absurd same hnot⟩
    | ok model =>
      have stays : (session.collect tree).2.Retains after := heq ▸ retains_env _ _
      obtain ⟨hnot, refused⟩ := stays.left_behind valid hc
      exact ⟨⟨fun same => absurd same hnot, by simp⟩, fun _ => refused⟩
  · intro after
    obtain ⟨tree, htree, hfirst, ⟨cause', hc, heq⟩ | ⟨model, hc, stays⟩⟩ :=
      analyzeBatch_of_error herror
    · obtain ⟨env, henv⟩ := collect_of_error hc
      have same : session.SameUnits after := by
        rw [show after = (session.collect tree).2 from heq, henv]
        exact session.sameUnits_of_env env
      exact ⟨⟨fun _ => ⟨tree, cause', hfirst, hc⟩, fun _ => same⟩, fun hnot => absurd same hnot⟩
    · obtain ⟨hnot, name, refused⟩ := stays.left_behind valid hc
      refine ⟨⟨fun same => absurd same hnot, ?_⟩, fun _ => ⟨tree, htree, name, refused⟩⟩
      rintro ⟨other, cause', hother, hfailed⟩
      cases hfirst.symm.trans hother
      simp [hc] at hfailed

end Failures

/-! ## Units with nothing but expressions -/

/-- What is known after its collection about a unit with nothing but expressions. -/
def bareModel (name : String) (tree : SyntaxTree) (file : ScopeId) : Model where
  name
  scope := file
  tree
  annotations := (({} : Annotations).setScope tree.root file).sealIssues

theorem type?_bareModel (name : String) (tree : SyntaxTree) (file : ScopeId) (n : NodeId) :
    (bareModel name tree file).annotations.type? n = none :=
  Std.HashMap.getElem?_empty

section Bare

variable {session : Session} {tree : SyntaxTree} {name : String} {top : NodeId} {kind : NodeKind}

/-- Expressions declare nothing. -/
theorem unitPart_of_isExpression {ctx : CollectionContext} {n : NodeId}
    (h : (ctx.tree.kind n).isExpression = true) : Collecting.unitPart ctx n = pure () := by
  unfold Collecting.unitPart
  rw [Collecting.item]
  generalize ctx.tree.kind n = kind at h
  cases kind with
  | integerLiteral | realLiteral | textLiteral | nilLiteral | nameReference | memberAccess
  | invocation | binaryExpression | unaryExpression | parenthesized | arrayConstructor
  | dereference | addressOf => rfl
  | _ => cases h

theorem isTaken_start (settings : Settings) (h : Name.same name systemName = false) :
    (start settings).isTaken name = false := by
  simp [isTaken, start, h]

theorem collect_bare (free : session.isTaken name = false)
    (hroot : tree.kind tree.root = .unit name)
    (hchildren : ∀ child ∈ tree.childIds tree.root, (tree.kind child).isExpression = true) :
    session.collect tree = (.ok (bareModel name tree session.nextFile), { session with
        env := session.env.openUnit session.system.scope name
        units := session.units.insert (Name.fold name) { name, scope := session.nextFile } }) := by
  let ctx := session.collectionContext tree session.nextFile
  have parts : ∀ l : List NodeId, (∀ child ∈ l, (tree.kind child).isExpression = true) →
      l.forM (Collecting.unitPart ctx) = pure () := by
    intro l hl
    induction l with
    | nil => rfl
    | cons child rest ih =>
      rw [List.forall_mem_cons] at hl
      have first : Collecting.unitPart ctx child = pure () := unitPart_of_isExpression hl.1
      rw [List.forM, first, ih hl.2]
      rfl
  have ran : session.collecting name tree = (.ok (),
      { env := session.env.openUnit session.system.scope name
        annotations := ({} : Annotations).setScope tree.root session.nextFile }) := by
    change ((Collecting.annotate (·.setScope tree.root session.nextFile) >>= fun _ =>
      List.forM (tree.childIds tree.root) (Collecting.unitPart ctx) : Collecting Unit).run.run _) = _
    rw [parts _ hchildren]
    rfl
  simp only [collect, hroot, free, collectNamed_eq, ran]
  rfl

/-- Resolving a unit with one expression is typing it. -/
theorem resolved_bare (env : Environment) (hroot : tree.kind tree.root = .unit name)
    (hchildren : tree.childIds tree.root = [top]) (htop : (tree.kind top).isExpression = true)
    (file : ScopeId) :
    env.resolved (bareModel name tree file) =
      ((Typing.typeOf ⟨env, tree⟩ file top).run
        { annotations := (bareModel name tree file).annotations.resetResolution tree }).2 := by
  let ctx : TypingContext := ⟨env, tree⟩
  let fresh := (bareModel name tree file).annotations.resetResolution tree
  have opened : fresh.scope? tree.root = some file := by
    rw [Annotations.scope?_resetResolution]
    simp [bareModel, Annotations.scope?, Annotations.setScope, Annotations.sealIssues]
  have entered : Typing.duty (tree.kind tree.root) (some file) file = .descend file := by
    rw [hroot]
    rfl
  have only : ∃ h, tree.children tree.root = [⟨top, h⟩] := by
    have listed := tree.map_val_children tree.root
    rw [hchildren, List.map_eq_singleton_iff] at listed
    obtain ⟨b, hb, rfl⟩ := listed
    exact ⟨b.2, hb⟩
  obtain ⟨before, only⟩ := only
  have child : (Typing.resolveNode ctx file top) =
      (do let _ ← get; Functor.discard (Typing.typeOf ctx file top)) := by
    rw [Typing.resolveNode_eq, Typing.passNode]
    simp only [ctx, Typing.duty, htop, if_true]
  change ((Typing.resolveNode ctx file tree.root).run { annotations := fresh }).2 = _
  rw [Typing.resolveNode_eq, Typing.passNode, Typing.run_get_bind, opened]
  simp only [ctx, entered, only, List.forM, bind_pure_unit]
  rw [child, Typing.run_get_bind, Typing.run_discard]

/-- A unit with a single expression in it. -/
def expressionUnit (name : String) (kind : NodeKind) : SyntaxTree where
  nodes := #[{ kind }, { kind := .unit name, children := [⟨0⟩] }]
  root := ⟨1⟩
  ordered := by
    intro i hi child hc
    match i, hi with
    | 0, _ => cases hc
    | 1, _ =>
      cases List.mem_singleton.1 hc
      decide

theorem collect_expressionUnit (free : session.isTaken name = false)
    (hk : kind.isExpression = true) :
    session.collect (expressionUnit name kind) =
      (.ok (bareModel name (expressionUnit name kind) session.nextFile), { session with
        env := session.env.openUnit session.system.scope name
        units := session.units.insert (Name.fold name) { name, scope := session.nextFile } }) :=
  collect_bare free rfl fun _ hc => List.mem_singleton.1 hc ▸ hk

theorem resolved_expressionUnit (env : Environment) (hk : kind.isExpression = true)
    (file : ScopeId) :
    env.resolved (bareModel name (expressionUnit name kind) file) =
      ((Typing.typeOf ⟨env, expressionUnit name kind⟩ file ⟨0⟩).run
        { annotations := (bareModel name (expressionUnit name kind) file).annotations.resetResolution
            (expressionUnit name kind) }).2 :=
  @resolved_bare (expressionUnit name kind) name ⟨0⟩ env rfl rfl hk file

end Bare

/-! ## A unit that is left behind -/

/-- A unit with parentheses around nothing. -/
def brokenUnit : SyntaxTree := expressionUnit "Broken" .parenthesized

/-- Typing the parentheses reports that something is missing. -/
theorem run_typeOf_brokenUnit {annotations : Annotations} (env : Environment) (scope : ScopeId)
    (untyped : annotations.type? ⟨0⟩ = none) : ∃ after,
    (Typing.typeOf ⟨env, brokenUnit⟩ scope ⟨0⟩).run { annotations } = (.unknown, after) ∧
      after.violation = some (.missingChild "parenthesized" {} 0) := by
  rw [Typing.typeOf]
  simp only [StateT.run_bind, StateT.run_get, pure_bind, untyped]
  exact ⟨_, rfl, rfl⟩

theorem analyze_brokenUnit {session : Session} (free : session.isTaken "Broken" = false) :
    ∃ cause, (session.analyze brokenUnit).1 = .error cause := by
  have hk : NodeKind.parenthesized.isExpression = true := rfl
  have violation : ∀ env : Environment,
      (env.resolved (bareModel "Broken" (expressionUnit "Broken" .parenthesized)
        session.nextFile)).violation = some (.missingChild "parenthesized" {} 0) := by
    intro env
    rw [resolved_expressionUnit env hk]
    obtain ⟨after, hran, hviolation⟩ := run_typeOf_brokenUnit env session.nextFile
      (Annotations.type?_resetResolution _ brokenUnit ⟨0⟩)
    exact (congrArg (·.2.violation) hran).trans hviolation
  refine ⟨.malformedTree (.missingChild "parenthesized" {} 0), ?_⟩
  simp only [analyze, brokenUnit, collect_expressionUnit free hk, resolve, Environment.resolve_eq,
    violation]

/-- The unit is known after its failed analysis and is refused when it is submitted again. -/
theorem brokenUnit_left_behind :
    let session := (start {}).run []
    let after := (session.analyze brokenUnit).2
    (∃ cause, (session.analyze brokenUnit).1 = .error cause) ∧ ¬session.SameUnits after ∧
      ∃ name, brokenUnit.kind brokenUnit.root = .unit name ∧
        (after.collect brokenUnit).1 = .error (.duplicateUnit name) := by
  intro session after
  have free : session.isTaken "Broken" = false := by
    simp [session, run, isTaken, start]
    decide
  obtain ⟨cause, herror⟩ := analyze_brokenUnit free
  obtain ⟨exact_condition, refused⟩ := (failed_analysis_units {} []).1 brokenUnit cause herror
  have changed : ¬session.SameUnits after := by
    intro same
    obtain ⟨cause, hcause⟩ := exact_condition.1 same
    have collected : (session.collect brokenUnit).1 = .ok _ :=
      congrArg Prod.fst (collect_expressionUnit free rfl)
    cases collected.symm.trans hcause
  exact ⟨⟨cause, herror⟩, changed, refused changed⟩

end Session

end Pascal
