import Pascal.Proofs.Collection.Trace
import Pascal.Proofs.Session.Basic

/-!
# The moves of a session

Whatever is asked of a session, its tables and its units change in five ways only: a unit is
collected and registered, a collection fails and its unit is taken out again, the uses of a unit are
looked at again, a unit is closed for declarations, a unit is discarded. What each of these moves
keeps holds in every session.

## Main results

- `SystemUnit.steps_build`: the tables that a session starts from come about in steps.
- `Session.Moves.keeps`: what every move keeps holds at the end of a sequence.
- `Session.moves_run`: everything that can be asked of a session is a sequence of moves.
-/

namespace Pascal

/-! ## The start -/

namespace SystemUnit

/-- The tables with nothing but an empty System scope. -/
def blank (settings : Settings) : Environment where
  scopes := (({} : ScopeTree).create .system none systemName).2
  types := { target := settings.target }

theorem findFolded_blank (settings : Settings) (s : ScopeId) (n : FoldedName) :
    (blank settings).symbols.findFolded s n = [] := by
  simp [blank, SymbolTable.findFolded, SymbolTable.namesOf, ScopeNames.find]

section Steps

variable {file : ScopeId} {known : ScopeId → Prop}

theorem steps_addAll (env : Environment) (scope : ScopeId) {specs : List DeclarationSpec}
    (hspecs : ∀ spec ∈ specs, spec.UnitUntyped) :
    env.Steps file known (addAll env scope specs) := by
  induction specs generalizing env with
  | nil => exact .refl
  | cons spec rest ih =>
    simp only [List.forall_mem_cons] at hspecs
    exact .head (.declare scope spec hspecs.1) (ih _ hspecs.2)

theorem unitUntyped_typeSpec (name : String) (ty : Ty) : (typeSpec name ty).UnitUntyped :=
  DeclarationSpec.unitUntyped_of_none rfl

theorem unitUntyped_routineSpec (name : String) (signature : RoutineSignature) :
    (routineSpec name signature).UnitUntyped :=
  DeclarationSpec.unitUntyped_of_none rfl

theorem unitUntyped_leadingSpecs (settings : Settings) (scope : ScopeId) :
    ∀ spec ∈ leadingSpecs settings scope, spec.UnitUntyped := by
  intro spec hspec
  simp only [leadingSpecs, List.cons_append, List.mem_cons, List.mem_append, List.mem_map] at hspec
  obtain rfl | (⟨_, -, rfl⟩ | ⟨_, -, rfl⟩) | ⟨_, -, rfl⟩ := hspec
  · exact fun _ => ⟨.inl rfl, rfl⟩
  · exact unitUntyped_typeSpec _ _
  · exact unitUntyped_typeSpec _ _
  · exact DeclarationSpec.unitUntyped_of_none rfl

theorem unitUntyped_classMethods (id : StructId) :
    ∀ spec ∈ classMethods id, spec.UnitUntyped := by
  simp [classMethods, methodSpec, unitUntyped_routineSpec]

theorem unitUntyped_interfaceMethods (id : StructId) :
    ∀ spec ∈ interfaceMethods id, spec.UnitUntyped := by
  simp [interfaceMethods, methodSpec, unitUntyped_routineSpec]

theorem steps_addStruct (env : Environment) (scope : ScopeId) (name : String) (kind : StructKind) :
    env.Steps file known (addStruct env scope name kind).2 :=
  .head (.create .type scope name (by simp)) <| .head (.types _) <|
    .head (.adapt ⟨env.scopes.size⟩ (fun _ => some ⟨env.types.structs.size⟩) Scope.helpers) <|
      .single (.declare scope _ (unitUntyped_typeSpec name _))

theorem steps_addRoot (env : Environment) (name : String) (kind : StructKind)
    {methods : StructId → List DeclarationSpec}
    (hmethods : ∀ id, ∀ spec ∈ methods id, spec.UnitUntyped) :
    env.Steps file known (addRoot env name kind methods) :=
  (steps_addStruct env ⟨0⟩ name kind).trans (steps_addAll _ _ (hmethods _))

/-- The structured types and the routines of the System unit are declared after its other names, and
the unit is closed last. -/
theorem steps_build_of_leading (settings : Settings) (file : ScopeId) (known : ScopeId → Prop) :
    ∃ env, (addAll (blank settings) ⟨0⟩ (leadingSpecs settings ⟨0⟩)).Steps file known env ∧
      (build settings).2 = env.freezeScope ⟨0⟩ := by
  let named := addAll (blank settings) ⟨0⟩ (leadingSpecs settings ⟨0⟩)
  let rooted := addRoot named "TObject" .classType classMethods
  let referring := addAll rooted ⟨0⟩
    [typeSpec "TClass" (.classRef (.struct (addStruct named ⟨0⟩ "TObject" .classType).1))]
  let opened := addRoot referring "IInterface" .interface interfaceMethods
  let finished := addAll opened ⟨0⟩ (routines.map fun r => routineSpec r.name
    { kind := r.kind, params := r.params, required := r.required, result := r.result })
  have rootClass : named.Steps file known rooted :=
    steps_addRoot named "TObject" .classType unitUntyped_classMethods
  have reference : rooted.Steps file known referring :=
    steps_addAll rooted ⟨0⟩ (by simpa using unitUntyped_typeSpec _ _)
  have rootInterface : referring.Steps file known opened :=
    steps_addRoot referring "IInterface" .interface unitUntyped_interfaceMethods
  have callable : opened.Steps file known finished :=
    steps_addAll opened ⟨0⟩ (by simp [unitUntyped_routineSpec])
  exact ⟨finished, rootClass.trans <| reference.trans <| rootInterface.trans callable, rfl⟩

/-- The tables that a session starts from come about in steps, with the System unit closed last. -/
theorem steps_build (settings : Settings) (file : ScopeId) (known : ScopeId → Prop) :
    ∃ env, (blank settings).Steps file known env ∧
      (build settings).2 = env.freezeScope ⟨0⟩ := by
  obtain ⟨env, steps, built⟩ := steps_build_of_leading settings file known
  have leading : (blank settings).Steps file known _ :=
    steps_addAll _ ⟨0⟩ (unitUntyped_leadingSpecs settings ⟨0⟩)
  exact ⟨env, leading.trans steps, built⟩

end Steps

end SystemUnit

namespace Session

/-! ## Moves -/

/-- The units that can be used in a session. -/
def Known (session : Session) (used : ScopeId) : Prop :=
  ∃ name, session.unitScope? name = some used

/-- One move of a session. -/
inductive Move (session : Session) : Session → Prop
  /-- A unit is collected under a name that is free. -/
  | register {name : String} {env : Environment} (free : session.isTaken name = false)
      (steps : (session.env.openUnit session.system.scope name).Steps session.nextFile
        session.Known env) :
    Move session { session with
      env
      units := session.units.insert (Name.fold name) { name, scope := session.nextFile } }
  /-- A collection fails, and its unit is taken out again. -/
  | withdraw {name : String} {env : Environment}
      (steps : (session.env.openUnit session.system.scope name).Steps session.nextFile
        session.Known env) :
    Move session { session with env := env.discardScope session.nextFile }
  /-- The uses of a unit are looked at again. -/
  | revisit {file : ScopeId} {env : Environment}
      (steps : session.env.Steps file session.Known env) : Move session { session with env }
  | freeze (file : ScopeId) : Move session { session with env := session.env.freezeScope file }
  | discard {name : String} {entry : UnitEntry}
      (hentry : session.units[Name.fold name]? = some entry) :
    Move session { session with
      env := session.env.discardScope entry.scope
      units := session.units.erase (Name.fold name) }

/-- A sequence of moves of valid sessions. -/
abbrev Moves : Session → Session → Prop :=
  Relation.ReflTransGen fun session after => session.Valid ∧ session.Move after

section Sequences

variable {session after : Session}

/-- What every move keeps holds at the end of a sequence. -/
theorem Moves.keeps {P : Session → Prop}
    (step : ∀ {session after : Session}, session.Valid → session.Move after → P session → P after)
    (moves : session.Moves after) (h : P session) : P after := by
  induction moves with
  | refl => exact h
  | tail _ move ih => exact step move.1 move.2 ih

theorem steps_collecting (session : Session) {name : String} {tree : SyntaxTree}
    (hname : tree.kind tree.root = .unit name) :
    Collecting.Steps (session.collectionContext tree session.nextFile)
      { env := session.env.openUnit session.system.scope name }
      (session.collecting name tree).2 := by
  have root : (tree.kind tree.root).isExpression = false := by rw [hname]; rfl
  exact Collecting.steps_unit (session.collectionContext tree session.nextFile) root _

theorem Valid.moves_collect (h : session.Valid) (tree : SyntaxTree) :
    session.Moves (session.collect tree).2 := by
  unfold collect
  split
  next name hname =>
    split_ifs with taken
    · exact .refl
    · have steps := (session.steps_collecting hname).tables
      rw [collectNamed_eq]
      generalize session.collecting name tree = ran at steps
      obtain ⟨_ | ⟨⟩, state⟩ := ran
      · exact .single ⟨h, .withdraw steps⟩
      · exact .single ⟨h, .register (by simpa using taken) steps⟩
  · exact .refl

theorem retryImports_snd (session : Session) (model : Model) :
    ∃ env, session.env.Steps model.scope session.Known env ∧
      (session.retryImports model).2 = { session with env } := by
  have steps := (Collecting.steps_retryImports
    (session.collectionContext model.tree model.scope)
    { env := session.env, annotations := model.annotations }).tables
  simp only [Session.retryImports]
  generalize (Collecting.retryImports (session.collectionContext model.tree model.scope)).run.run
    { env := session.env, annotations := model.annotations } = ran at steps ⊢
  obtain ⟨cause | ⟨⟩, state⟩ := ran <;> exact ⟨state.env, steps, rfl⟩

/-- All work but a discard is a sequence of moves. -/
theorem keeps_moves (session : Session) :
    Keeps (fun after => session.Works after ∧ session.Moves after)
      (fun after model => Open after.env model) where
  collect h tree :=
    ((keeps_works session).collect h.1 tree).and (h.2.trans (h.1.valid.moves_collect tree))
  retryImports {mid model} h hm := by
    refine ((keeps_works session).retryImports h.1 hm).and (h.2.trans ?_)
    obtain ⟨env, steps, heq⟩ := mid.retryImports_snd model
    rw [heq]
    exact .single ⟨h.1.valid, .revisit steps⟩
  freeze h model := ⟨(keeps_works session).freeze h.1 model, h.2.tail ⟨h.1.valid, .freeze _⟩⟩

theorem Valid.moves_perform (h : session.Valid) (operation : Operation) :
    session.Moves (session.perform operation) := by
  cases operation with
  | discard name =>
    change session.Moves (session.discard name).2
    unfold Session.discard
    split
    next entry hentry => exact .single ⟨h, .discard hentry⟩
    · exact .refl
  | _ => exact ((keeps_moves session).perform ⟨h.works, .refl⟩ (by simp)).2

theorem Valid.moves_run (h : session.Valid) (operations : List Operation) :
    session.Moves (session.run operations) := by
  induction operations generalizing session with
  | nil => exact .refl
  | cons operation rest ih => exact (h.moves_perform operation).trans (ih (h.perform operation))

/-- Everything that can be asked of a session is a sequence of moves. -/
theorem moves_run (settings : Settings) (operations : List Operation) :
    (start settings).Moves ((start settings).run operations) :=
  (valid_start settings).moves_run operations

/-- What blank tables have, and every change of the tables keeps, holds in every session. -/
theorem env_run {P : Environment → Prop} (settings : Settings) (operations : List Operation)
    (blank : P (SystemUnit.blank settings))
    (opened : ∀ {env : Environment} (system : ScopeId) (name : String), P env →
      P (env.openUnit system name))
    (step : ∀ {env env' : Environment} {file : ScopeId} {known : ScopeId → Prop},
      env.Step file known env' → P env → P env')
    (frozen : ∀ {env : Environment} (file : ScopeId), P env → P (env.freezeScope file))
    (discarded : ∀ {env : Environment} (file : ScopeId), P env → P (env.discardScope file)) :
    P ((start settings).run operations).env := by
  refine (moves_run settings operations).keeps (P := fun session => P session.env) ?_ ?_
  · intro session after _ move h
    cases move with
    | register free steps => exact steps.keeps step (opened _ _ h)
    | withdraw steps => exact discarded _ (steps.keeps step (opened _ _ h))
    | revisit steps => exact steps.keeps step h
    | freeze file => exact frozen file h
    | discard => exact discarded _ h
  · obtain ⟨env, steps, built⟩ := SystemUnit.steps_build settings ⟨0⟩ fun _ => False
    change P (SystemUnit.build settings).2
    rw [built]
    exact frozen ⟨0⟩ (steps.keeps step blank)

end Sequences

end Session

end Pascal
