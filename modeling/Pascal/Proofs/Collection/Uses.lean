import Pascal.Proofs.Collection.Growth

/-!
# The uses of a unit

The entries of the uses clauses of a unit are the only nodes at which units are recorded, and they
alone let units be imported. An entry whose unit is known is imported when the clause is collected.
The others are left pending, and are imported, in the order in which they stand, when they are looked
up again.
-/

namespace Pascal

open ScopeTree SyntaxTree

namespace SyntaxTree

/-- The entries of a uses clause; any other node has none. -/
def clauseEntries (tree : SyntaxTree) (n : NodeId) : List NodeId :=
  if tree.kind n = .usesClause then tree.childIds n else []

/-- The entries of the uses clauses in a part of a unit. -/
def partEntries (tree : SyntaxTree) (n : NodeId) : List NodeId :=
  if tree.kind n = .interfaceSection ∨ tree.kind n = .implementationSection then
    (tree.childIds n).flatMap tree.clauseEntries
  else tree.clauseEntries n

/-- The entries of all uses clauses of a unit, in the order in which they are written. -/
def usesEntries (tree : SyntaxTree) : List NodeId :=
  (tree.childIds tree.root).flatMap tree.partEntries

/-- The unit that an entry names, as far as it is known. -/
def usedScope? (tree : SyntaxTree) (known : String → Option ScopeId) (n : NodeId) :
    Option ScopeId :=
  (tree.kind n).usedUnit?.bind known

/-- An entry that names a unit that is not known. -/
def missingUse? (tree : SyntaxTree) (known : String → Option ScopeId) (n : NodeId) :
    Option (NodeId × String) :=
  (tree.kind n).usedUnit?.bind fun name => if (known name).isSome then none else some (n, name)

end SyntaxTree

/-- The file scope of the unit recorded at an entry. -/
def Annotations.recordedUnit? (a : Annotations) (env : Environment) (n : NodeId) :
    Option ScopeId :=
  (a.declaration? n).bind fun d => (env.declaration d).unitScope

theorem Annotations.declaration?_setDeclaration (a : Annotations) (n m : NodeId) (id : DeclId) :
    (a.setDeclaration n id).declaration? m =
      if n = m then (a.declaration? m).or (some id) else a.declaration? m := by
  simp only [declaration?, setDeclaration]
  split <;> grind

/-- What a unit imports, and the units recorded at the entries of its uses clauses. Nothing is recorded
at an entry without a unit. -/
structure Environment.Tracks (env : Environment) (tree : SyntaxTree) (file : ScopeId)
    (used : List ScopeId) (unitAt : NodeId → Option ScopeId) (a : Annotations) : Prop where
  has : env.Has (.scope file)
  imports : (env.scopes.get file).imports = used
  recorded : ∀ n unit, (tree.kind n).usedUnit?.isSome → unitAt n = some unit →
    ∃ d, a.declaration? n = some d ∧ env.Has (.decl d) ∧ (env.declaration d).unitScope = some unit
  unrecorded : ∀ n, (tree.kind n).usedUnit?.isSome → unitAt n = none → a.declaration? n = none

namespace Environment

variable {env env' : Environment} {tree : SyntaxTree} {file : ScopeId} {used : List ScopeId}
  {unitAt : NodeId → Option ScopeId} {a : Annotations}

theorem Tracks.recordedUnit? (h : env.Tracks tree file used unitAt a) {n : NodeId}
    (hn : (tree.kind n).usedUnit?.isSome) : a.recordedUnit? env n = unitAt n := by
  cases hu : unitAt n with
  | none => simp [Annotations.recordedUnit?, h.unrecorded n hn hu]
  | some unit =>
    obtain ⟨d, hd, -, hunit⟩ := h.recorded n unit hn hu
    simp [Annotations.recordedUnit?, hd, hunit]

/-- What is recorded at an entry is there. -/
theorem Tracks.has_declaration (h : env.Tracks tree file used unitAt a) {n : NodeId} {d : DeclId}
    (hn : (tree.kind n).usedUnit?.isSome) (hd : a.declaration? n = some d) : env.Has (.decl d) := by
  cases hu : unitAt n with
  | none => cases (h.unrecorded n hn hu).symm.trans hd
  | some unit =>
    obtain ⟨d', hd', hin, -⟩ := h.recorded n unit hn hu
    cases hd'.symm.trans hd
    exact hin

/-- Tables that grow and keep the imports of the unit keep what is tracked. -/
theorem Tracks.extend (h : env.Tracks tree file used unitAt a) (he : env.Extends env')
    (same : (env'.scopes.get file).imports = (env.scopes.get file).imports) :
    env'.Tracks tree file used unitAt a where
  has := he.has _ h.has
  imports := same.trans h.imports
  recorded n unit hn hu := by
    obtain ⟨d, hd, hin, hunit⟩ := h.recorded n unit hn hu
    exact ⟨d, hd, he.has _ hin, by rw [he.decl d hin, hunit]⟩
  unrecorded := h.unrecorded

theorem Tracks.congr {a' : Annotations} (h : env.Tracks tree file used unitAt a)
    (same : ∀ n, (tree.kind n).usedUnit?.isSome → a'.declaration? n = a.declaration? n) :
    env.Tracks tree file used unitAt a' where
  has := h.has
  imports := h.imports
  recorded n unit hn hu := by
    rw [same n hn]
    exact h.recorded n unit hn hu
  unrecorded n hn hu := by rw [same n hn, h.unrecorded n hn hu]

theorem Step.imports {other : ScopeId} {known : ScopeId → Prop} (step : env.Step other known env')
    (hs : env.Has (.scope file)) (hne : file ≠ other) :
    (env'.scopes.get file).imports = (env.scopes.get file).imports := by
  cases step with
  | declare | types => rfl
  | create kind parent name _ =>
    exact (congrArg Scope.imports (get_create kind (some parent) name hs)).trans rfl
  | adapt => exact get_modify_field Scope.imports _ fun _ => rfl
  | use => exact congrArg Scope.imports (get_modify_of_ne _ hne)

/-- The collection of a unit changes the imports of no other. -/
theorem Steps.imports {other : ScopeId} {known : ScopeId → Prop} (steps : env.Steps other known env')
    (hs : env.Has (.scope file)) (hne : file ≠ other) :
    (env'.scopes.get file).imports = (env.scopes.get file).imports := by
  induction steps with
  | refl => rfl
  | tail earlier step ih =>
    have hmid := Nat.lt_of_lt_of_le hs (Steps.grown earlier).size
    exact (step.imports hmid hne).trans ih

/-- A unit is imported and recorded at its entry, unless one is recorded there. -/
theorem Tracks.importUnit (h : env.Tracks tree file used unitAt a) (n : NodeId) (name : String)
    (unit : ScopeId) (part : Section) :
    (env.importUnit file unit (Collecting.importSpec name n unit part)).Tracks tree file (used ++ [unit])
      (fun m => (unitAt m).or (if n = m then some unit else none))
      (a.setDeclaration n ⟨env.symbols.size⟩) := by
  have he := extends_importUnit env file unit (Collecting.importSpec name n unit part)
  have new : (env.importUnit file unit (Collecting.importSpec name n unit part)).Has
      (.decl ⟨env.symbols.size⟩) := has_add.2 (.inr rfl)
  refine ⟨he.has _ h.has, ?_, fun m other hm hu => ?_, fun m hm hu => ?_⟩
  · have changed := get_modify (s := file)
      (fun s => { s with imports := s.imports ++ [unit] }) h.has
    rw [if_pos rfl] at changed
    exact (congrArg Scope.imports changed).trans (congrArg (· ++ [unit]) h.imports)
  · rw [Annotations.declaration?_setDeclaration]
    cases hold : unitAt m with
    | some old =>
      obtain ⟨d, hd, hin, hunit⟩ := h.recorded m old hm hold
      have hsame : old = other := by simpa [hold] using hu
      exact ⟨d, by simp [hd], he.has _ hin, by rw [he.decl d hin, hunit, hsame]⟩
    | none =>
      obtain ⟨rfl, rfl⟩ : n = m ∧ unit = other := by simpa [hold] using hu
      refine ⟨⟨env.symbols.size⟩, by simp [h.unrecorded n hm hold], new, ?_⟩
      exact congrArg DeclarationSpec.unitScope declaration_importUnit_new.2
  · obtain ⟨hold, hne⟩ : unitAt m = none ∧ n ≠ m := by simpa using hu
    rw [Annotations.declaration?_setDeclaration, if_neg hne, h.unrecorded m hm hold]

end Environment

namespace Collecting

/-- The pending entries are those with an issue about their name. -/
theorem pendingImports_eq (tree : SyntaxTree) (a : Annotations) :
    pendingImports tree a = a.issues.toList.filterMap fun issue =>
      if issue.isUnresolved then (tree.kind issue.node).usedUnit?.map (issue.node, ·) else none := by
  unfold pendingImports
  congr 1
  funext issue
  cases issue.isUnresolved
  · rfl
  · generalize tree.kind issue.node = kind
    cases kind <;> rfl

theorem pendingImports_pushIssue (tree : SyntaxTree) (a : Annotations) (issue : Issue) :
    pendingImports tree (a.pushIssue issue) = pendingImports tree a ++
      (if issue.isUnresolved then (tree.kind issue.node).usedUnit?.map (issue.node, ·)
        else none).toList := by
  simp only [pendingImports_eq, Annotations.pushIssue, Array.toList_push, List.filterMap_append]
  grind

/-- What is known of the uses of a unit once some entries of its uses clauses are done. -/
structure Follows (ctx : CollectionContext) (done : List NodeId) (σ : CollectionState) : Prop where
  references : ∀ n ∈ done, (ctx.tree.kind n).usedUnit?.isSome
  tracks : σ.env.Tracks ctx.tree ctx.file (done.filterMap (ctx.tree.usedScope? ctx.unitScope))
    (fun n => if n ∈ done then ctx.tree.usedScope? ctx.unitScope n else none) σ.annotations
  unfrozen : (σ.env.scopes.get ctx.file).frozen = false
  pending : pendingImports ctx.tree σ.annotations =
    done.filterMap (ctx.tree.missingUse? ctx.unitScope)

section Collections

variable {ctx : CollectionContext} {done entries : List NodeId} {σ : CollectionState}

theorem Follows.extend (h : Follows ctx done σ) {env : Environment} (he : σ.env.Extends env)
    (imports : (env.scopes.get ctx.file).imports = (σ.env.scopes.get ctx.file).imports)
    (frozen : (env.scopes.get ctx.file).frozen = (σ.env.scopes.get ctx.file).frozen) :
    Follows ctx done { σ with env } :=
  { h with tracks := h.tracks.extend he imports, unfrozen := frozen.trans h.unfrozen }

theorem Follows.setDeclaration (h : Follows ctx done σ) {n : NodeId}
    (hn : (ctx.tree.kind n).usedUnit? = none) (id : DeclId) :
    Follows ctx done { σ with annotations := σ.annotations.setDeclaration n id } := by
  refine { h with tracks := h.tracks.congr fun m hm => ?_ }
  rw [Annotations.declaration?_setDeclaration, if_neg]
  rintro rfl
  simp [hn] at hm

/-- Nothing but a uses clause concerns the uses of a unit. -/
theorem invariant_follows (ctx : CollectionContext) (done : List NodeId) :
    Invariant ctx (fun _ => True) (Follows ctx done) where
  formative := by constructor <;> intros <;> trivial
  declared _ _ := trivial
  results _ _ _ _ := trivial
  recorded _ _ _ _ := trivial
  constant h _ _ := ⟨trivial, { h with }⟩
  setType h _ _ _ _ _ := { h with tracks := { h.tracks with } }
  setScope h _ _ _ _ := { h with tracks := { h.tracks with } }
  setDeclaration h n id hn := h.setDeclaration (NodeKind.usedUnit?_of_isDeclaration hn) id
  issue h issue hn _ := by
    refine { h with tracks := { h.tracks with }, pending := ?_ }
    rw [pendingImports_pushIssue, hn, h.pending]
    simp
  notes h _ _ := { h with }
  attach h n id hn := h.setDeclaration hn id
  declare h scope spec _ := h.extend (Environment.extends_add ..) rfl rfl
  createScope h kind parent name _ := by
    have same := get_create kind (some parent) name h.tracks.has
    exact h.extend (Environment.extends_createScope ..) ((congrArg Scope.imports same).trans rfl)
      ((congrArg Scope.frozen same).trans rfl)
  setDeclaring h scope declaring := h.extend (Environment.extends_setDeclaring ..)
    (get_modify_field Scope.imports _ fun _ => rfl)
    (get_modify_field Scope.frozen _ fun _ => rfl)
  registerHelper h scope target helper _ := h.extend (Environment.extends_registerHelper ..)
    (get_modify_field Scope.imports _ fun _ => rfl)
    (get_modify_field Scope.frozen _ fun _ => rfl)
  declareStruct h _ _ _ _ := { h with tracks := { h.tracks with } }
  completeStruct h _ _ _ _ _ := { h with tracks := { h.tracks with } }
  declareEnum h _ _ := { h with tracks := { h.tracks with } }
  addElement h _ _ := { h with tracks := { h.tracks with } }

theorem Follows.entry_known (h : Follows ctx done σ) {n : NodeId} {name : String} {unit : ScopeId}
    (hn : (ctx.tree.kind n).usedUnit? = some name) (hu : ctx.unitScope name = some unit) :
    Follows ctx (done ++ [n]) ((importUnit ctx n name).run.run σ).2 := by
  have scope : ctx.tree.usedScope? ctx.unitScope n = some unit := by
    simp [usedScope?, hn, hu]
  have missing : ctx.tree.missingUse? ctx.unitScope n = none := by
    simp [missingUse?, hn, hu]
  have tracks := h.tracks.importUnit n name unit σ.part
  rw [run_import hu h.unfrozen]
  refine ⟨?_, ?_, ?_, ?_⟩
  · simpa [or_imp, forall_and, hn] using h.references
  · rw [List.filterMap_append, List.filterMap_cons_some scope, List.filterMap_nil]
    convert tracks using 2 with m
    by_cases hm : n = m
    · subst hm
      by_cases hd : n ∈ done <;> simp [hd, scope]
    · simp [hm, Ne.symm hm]
  · refine Eq.trans ?_ h.unfrozen
    exact get_modify_field Scope.frozen (fun s => { s with imports := _ }) fun _ => rfl
  · rw [List.filterMap_append, List.filterMap_cons_none missing, List.filterMap_nil,
      List.append_nil]
    exact h.pending

theorem Follows.entry_missing (h : Follows ctx done σ) {n : NodeId} {name : String}
    (hn : (ctx.tree.kind n).usedUnit? = some name) (hu : ctx.unitScope name = none) :
    Follows ctx (done ++ [n])
      ((issue ctx n (.unresolvedReference name)).run.run σ).2 := by
  have scope : ctx.tree.usedScope? ctx.unitScope n = none := by
    simp [usedScope?, hn, hu]
  have missing : ctx.tree.missingUse? ctx.unitScope n = some (n, name) := by
    simp [missingUse?, hn, hu]
  refine ⟨?_, ?_, h.unfrozen, ?_⟩
  · simpa [or_imp, forall_and, hn] using h.references
  · rw [List.filterMap_append, List.filterMap_cons_none scope, List.filterMap_nil,
      List.append_nil]
    refine { h.tracks with recorded := fun m unit hm hu => ?_, unrecorded := fun m hm hu => ?_ }
    · refine h.tracks.recorded m unit hm ?_
      grind
    · refine h.tracks.unrecorded m hm ?_
      grind
  · rw [List.filterMap_append, List.filterMap_cons_some missing, List.filterMap_nil, ← h.pending]
    refine (pendingImports_pushIssue ..).trans ?_
    simp [Issue.isUnresolved, hn]

/-- A computation that succeeds does away with some entries of uses clauses, and what it gives has a
property. -/
def Settles {α : Type} (ctx : CollectionContext) (entries : List NodeId) (Q : α → Prop)
    (m : Collecting α) : Prop :=
  ∀ done σ, Follows ctx done σ → ∀ a, (m.run.run σ).1 = .ok a →
    Follows ctx (done ++ entries) (m.run.run σ).2 ∧ Q a

section Rules

variable {α β : Type} {P : α → Prop} {Q : β → Prop}

theorem Keeps.settles {m : Collecting α} (h : ∀ done, Keeps (Follows ctx done) P m) :
    Settles ctx [] P m := by
  intro done σ hσ a ha
  rw [List.append_nil]
  exact ⟨(h done σ hσ).1, (h done σ hσ).2 a ha⟩

theorem Settles.bind {rest : List NodeId} {m : Collecting α} {k : α → Collecting β}
    (h : Settles ctx entries P m) (hk : ∀ a, P a → Settles ctx rest Q (k a)) :
    Settles ctx (entries ++ rest) Q (m >>= k) := by
  intro done σ hσ b hok
  have first := h done σ hσ
  simp only [run_bind] at hok ⊢
  generalize m.run.run σ = ran at first hok
  obtain ⟨cause | a, σ'⟩ := ran
  · cases hok
  · obtain ⟨follows, ha⟩ := first a rfl
    rw [← List.append_assoc]
    exact hk a ha _ σ' follows b hok

/-- A loop over the entries of a clause that is never left early. -/
theorem Settles.each {l : List NodeId} {f : NodeId → PUnit → Collecting (ForInStep PUnit)}
    (h : ∀ n ∈ l, Settles ctx [n] (· = .yield PUnit.unit) (f n PUnit.unit)) :
    Settles ctx l (fun _ => True) (ForIn.forIn l PUnit.unit f) := by
  induction l with
  | nil => exact Keeps.settles fun _ => Keeps.pure trivial
  | cons n rest ih =>
    simp only [List.forall_mem_cons] at h
    rw [List.forIn_cons]
    rw [← List.singleton_append]
    refine Settles.bind h.1 ?_
    rintro _ rfl
    exact ih h.2

theorem Settles.forM {l : List NodeId} {entriesOf : NodeId → List NodeId}
    {m : NodeId → Collecting Unit} (h : ∀ x ∈ l, Settles ctx (entriesOf x) (fun _ => True) (m x)) :
    Settles ctx (l.flatMap entriesOf) (fun _ => True) (l.forM m) := by
  induction l with
  | nil => exact Keeps.settles fun _ => Keeps.pure trivial
  | cons x rest ih =>
    simp only [List.forall_mem_cons] at h
    exact h.1.bind fun _ _ => ih h.2

end Rules

theorem settles_usesClause (n : NodeId) :
    Settles ctx (ctx.tree.childIds n) (fun _ => True) (usesClause ctx n) := by
  have next : Settles ctx [] (· = ForInStep.yield PUnit.unit) (pure (.yield PUnit.unit)) :=
    Keeps.settles fun _ => Keeps.pure rfl
  have loop : Settles ctx [] (fun _ => True) (pure ()) := Keeps.settles fun _ => Keeps.pure trivial
  rw [← List.append_nil (ctx.tree.childIds n)]
  refine Settles.bind (Settles.each fun m _ => ?_) fun _ _ => loop
  rw [← List.append_nil [m]]
  split
  · rename_i name hk
    have hn : (ctx.tree.kind m).usedUnit? = some name := by rw [hk]; rfl
    split
    · rename_i hknown
      obtain ⟨unit, hu⟩ := Option.isSome_iff_exists.1 hknown
      have imported : Settles ctx [m] (fun _ => True) (importUnit ctx m name) :=
        fun done σ hσ _ _ => ⟨hσ.entry_known hn hu, trivial⟩
      exact imported.bind fun _ _ => next
    · rename_i hknown
      have left : Settles ctx [m] (fun _ => True) (issue ctx m (.unresolvedReference name)) :=
        fun done σ hσ _ _ => ⟨hσ.entry_missing hn (by simpa using hknown), trivial⟩
      exact left.bind fun _ _ => next
  · have refused : Settles ctx [m] (fun _ : PUnit => True)
        (malformed (ctx.tree.unexpected m "unit_reference")) := by
      rintro done σ hσ _ ⟨⟩
    exact refused.bind fun _ _ => next

theorem settles_item (n : NodeId) :
    Settles ctx (ctx.tree.clauseEntries n) (fun _ => True) (item ctx n ctx.file) := by
  unfold clauseEntries
  split_ifs with hk
  · have clause : item ctx n ctx.file = usesClause ctx n := by rw [item, hk]
    rw [clause]
    exact settles_usesClause n
  · exact Keeps.settles fun done => (invariant_follows ctx done).item n hk ctx.file

theorem settles_unitPart (n : NodeId) :
    Settles ctx (ctx.tree.partEntries n) (fun _ => True) (unitPart ctx n) := by
  have enter : ∀ part : Section, Settles ctx ((ctx.tree.childIds n).flatMap ctx.tree.clauseEntries)
      (fun _ => True) (do
        modify fun s => { s with part }
        (ctx.tree.childIds n).forM fun child => item ctx child ctx.file) := by
    intro part
    have noted : Settles ctx [] (fun _ => True) (modify fun s => { s with part }) :=
      Keeps.settles fun done => Keeps.modify fun σ hσ => { hσ with }
    exact noted.bind fun _ _ => Settles.forM fun child _ => settles_item child
  unfold unitPart
  dsimp only
  split
  · rename_i hk
    rw [partEntries, if_pos (.inl hk)]
    exact enter .interface
  · rename_i hk
    rw [partEntries, if_pos (.inr hk)]
    exact enter .implementation
  · rename_i hi hm
    rw [partEntries, if_neg (not_or.2 ⟨hi, hm⟩)]
    exact settles_item n

/-- The collection of a unit does away with its uses clauses. -/
theorem settles_unit (hroot : (ctx.tree.kind ctx.tree.root).isExpression = false) :
    Settles ctx ctx.tree.usesEntries (fun _ => True) (unit ctx ctx.tree.root) := by
  have opened : Settles ctx [] (fun _ => True) (annotate (·.setScope ctx.tree.root ctx.file)) :=
    Keeps.settles fun done => (invariant_follows ctx done).annotateScope hroot (.inr rfl)
  exact opened.bind fun _ _ => Settles.forM fun n _ => settles_unitPart n

end Collections

/-! ## Looking up again -/

/-- A loop whose rounds all succeed. -/
theorem run_each {A : Type} {f : A → PUnit → Collecting (ForInStep PUnit)}
    {P : List A → CollectionState → Prop} (l : List A)
    (round : ∀ done x σ, x ∈ l → P done σ → ∃ σ',
      (f x PUnit.unit).run.run σ = (.ok (.yield PUnit.unit), σ') ∧ P (done ++ [x]) σ')
    (done : List A) (σ : CollectionState) (h : P done σ) :
    ∃ σ', (do
      ForIn.forIn l PUnit.unit f
      pure () : Collecting Unit).run.run σ = (.ok (), σ') ∧ P (done ++ l) σ' := by
  induction l generalizing done σ with
  | nil => exact ⟨σ, rfl, by simpa using h⟩
  | cons x rest ih =>
    obtain ⟨mid, hmid, hdone⟩ := round done x σ (by simp) h
    obtain ⟨last, hlast, hall⟩ :=
      ih (fun done y σ hy => round done y σ (List.mem_cons_of_mem x hy)) _ mid hdone
    refine ⟨last, ?_, by simpa using hall⟩
    rw [List.forIn_cons, bind_assoc, run_bind, hmid]
    exact hlast

theorem usedUnit?_of_pending {tree : SyntaxTree} {a : Annotations} {entry : NodeId × String}
    (h : entry ∈ pendingImports tree a) : (tree.kind entry.1).usedUnit? = some entry.2 := by
  rw [pendingImports_eq] at h
  obtain ⟨issue, -, h⟩ := List.mem_filterMap.1 h
  split_ifs at h
  obtain ⟨name, hname, rfl⟩ := Option.map_eq_some_iff.1 h
  exact hname

/-- The units of the pending entries that are known by now are imported behind the others. -/
theorem tracks_retryImports {ctx : CollectionContext} {σ : CollectionState} {used : List ScopeId}
    {unitAt : NodeId → Option ScopeId}
    (h : σ.env.Tracks ctx.tree ctx.file used unitAt σ.annotations)
    (unfrozen : (σ.env.scopes.get ctx.file).frozen = false) :
    let pending := pendingImports ctx.tree σ.annotations
    ∃ σ', (retryImports ctx).run.run σ = (.ok (), σ') ∧
      σ'.env.Tracks ctx.tree ctx.file (used ++ pending.filterMap fun entry => ctx.unitScope entry.2)
        (fun n => (unitAt n).or
          (if n ∈ pending.map (·.1) then ctx.tree.usedScope? ctx.unitScope n else none))
        σ'.annotations := by
  intro pending
  let P (done : List (NodeId × String)) (σ : CollectionState) : Prop :=
    σ.env.Tracks ctx.tree ctx.file (used ++ done.filterMap fun entry => ctx.unitScope entry.2)
      (fun n => (unitAt n).or
        (if n ∈ done.map (·.1) then ctx.tree.usedScope? ctx.unitScope n else none))
      σ.annotations ∧ (σ.env.scopes.get ctx.file).frozen = false
  have start : P [] σ := ⟨by simpa using h, unfrozen⟩
  unfold retryImports
  rw [run_get_bind]
  refine Exists.imp (fun σ' h => ⟨h.1, h.2.1⟩) (run_each (P := P) pending ?_ [] σ start)
  rintro done ⟨n, name⟩ σ hentry ⟨tracks, unfrozen⟩
  have hn := usedUnit?_of_pending hentry
  dsimp only at hn ⊢
  cases hu : ctx.unitScope name with
  | none =>
    have scope : ctx.tree.usedScope? ctx.unitScope n = none := by
      simp [usedScope?, hn, hu]
    refine ⟨σ, rfl, ?_, unfrozen⟩
    convert tracks using 1
    · simp [hu]
    · funext m
      grind
  | some unit =>
    have scope : ctx.tree.usedScope? ctx.unitScope n = some unit := by
      simp [usedScope?, hn, hu]
    have next := tracks.importUnit n name unit (partOf ctx.tree n)
    let σ' : CollectionState := { σ with
      part := partOf ctx.tree n
      env := σ.env.importUnit ctx.file unit (importSpec name n unit (partOf ctx.tree n))
      annotations := (σ.annotations.setDeclaration n ⟨σ.env.symbols.size⟩).retainIssues
        (·.node ≠ n) }
    refine ⟨σ', ?_, ?_, ?_⟩
    · have imported := @run_import ctx { σ with part := partOf ctx.tree n } n name unit hu unfrozen
      rw [Option.isSome_some, if_pos rfl, run_bind]
      change ((importUnit ctx n name >>= _ : Collecting _).run.run
        { σ with part := partOf ctx.tree n }) = _
      rw [run_bind, imported]
      rfl
    · refine Environment.Tracks.congr (a := σ.annotations.setDeclaration n ⟨σ.env.symbols.size⟩) ?_
        fun _ _ => rfl
      convert next using 1
      · simp [hu]
      · funext m
        grind
    · refine Eq.trans ?_ unfrozen
      exact get_modify_field Scope.frozen (fun s => { s with imports := _ }) fun _ => rfl

end Collecting

end Pascal
