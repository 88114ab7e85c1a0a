import Pascal.Proofs.Collection.Uses

/-!
# Routines and their bodies

A collection comes to the routines with a body one after the other, the local ones after those they
are local to. Each is read, and then its declaration is sought among the routines that have no body
so far. So what a collection does about bodies is told by the list of its visits to them.
-/

namespace Pascal

namespace Collecting

/-! ## Visits -/

/-- A routine with a body at the moment when its declaration is sought. -/
structure BodyVisit where
  node : NodeId
  /-- The scope it stands in. -/
  scope : ScopeId
  name : String
  /-- The tables when it is come to. -/
  arrival : Environment
  reading : BodyReading
  /-- The state in which its declaration is sought. -/
  sought : CollectionState
  /-- The declaration it gets, found or new. -/
  declaration : Option DeclId
  /-- The tables with its declaration. -/
  left : Environment

namespace BodyVisit

variable (visit : BodyVisit)

/-- What stands in front of the last segment of the name. -/
def qualifier? : Option String := (Name.splitLast visit.name).map (·.1)

/-- The last segment of the name. -/
def simpleName : String := (Name.splitLast visit.name).elim visit.name (·.2)

/-- The structured type that the qualifier denotes. -/
def owner? : Option StructId := visit.qualifier?.bind (visit.arrival.ownerStruct? visit.scope)

/-- The declaration that the routine completes. -/
def linked? : Option DeclId :=
  visit.sought.env.linkedDeclaration? visit.sought.implemented visit.reading.members
    visit.simpleName visit.reading.signature.params

end BodyVisit

section Visits

variable (ctx : CollectionContext)

/-- The visit to a routine with a body, unless it fails before the declaration is found. -/
def visit? (n : NodeId) (scope : ScopeId) (name : String) (kind : RoutineKind)
    (σ : CollectionState) : Option BodyVisit :=
  match (readBody ctx n scope name kind).run.run σ with
  | (.error _, _) => none
  | (.ok reading, sought) =>
    match (seekDeclaration ctx n scope name reading).run.run sought with
    | (.error _, _) => none
    | (.ok declaration, found) =>
      some { node := n, scope, name, arrival := σ.env, reading, sought, declaration
             left := found.env }

/-- The visits of several computations that are run one after the other until one fails. -/
def along {A : Type} (run : A → Collecting Unit) (visits : A → CollectionState → List BodyVisit) :
    List A → CollectionState → List BodyVisit
  | [], _ => []
  | x :: rest, σ =>
    visits x σ ++
      match (run x).run.run σ with
      | (.error _, _) => []
      | (.ok _, σ') => along run visits rest σ'

theorem along_eq_nil {A : Type} {run : A → Collecting Unit}
    {visits : A → CollectionState → List BodyVisit} {l : List A}
    (h : ∀ x ∈ l, ∀ σ, visits x σ = []) (σ : CollectionState) : along run visits l σ = [] := by
  induction l generalizing σ with
  | nil => rfl
  | cons x rest ih =>
    rw [along, h x List.mem_cons_self, List.nil_append]
    split
    · rfl
    · exact ih (fun y hy => h y (List.mem_cons_of_mem x hy)) _

/-- The visits of an item: to itself, if it is a routine with a body, and to those local to it. -/
def itemBodies (n : NodeId) (scope : ScopeId) (σ : CollectionState) : List BodyVisit :=
  match ctx.tree.kind n with
  | .routineImplementation name kind =>
    (visit? ctx n scope name kind σ).toList ++
      match (routineHead ctx n scope name kind).run.run σ with
      | (.error _, _) => []
      | (.ok body, σ') =>
        along (fun part : Below n => do if isLocal (ctx.tree.kind part.1) then item ctx part.1 body)
          (fun part σ =>
            if isLocal (ctx.tree.kind part.1) then itemBodies part.1 body σ else [])
          (ctx.tree.children n) σ'
  | _ => []
  termination_by n.index
  decreasing_by exact part.2

/-- The visits of a part of a unit. -/
def partBodies (n : NodeId) (σ : CollectionState) : List BodyVisit :=
  let enter (part : Section) :=
    along (fun child => item ctx child ctx.file) (fun child => itemBodies ctx child ctx.file)
      (ctx.tree.childIds n) { σ with part }
  match ctx.tree.kind n with
  | .interfaceSection => enter .interface
  | .implementationSection => enter .implementation
  | _ => itemBodies ctx n ctx.file σ

/-- The routines with a body that the collection of a unit comes to, in order. -/
def unitBodies (root : NodeId) (σ : CollectionState) : List BodyVisit :=
  along (unitPart ctx) (partBodies ctx) (ctx.tree.childIds root)
    { σ with annotations := σ.annotations.setScope root ctx.file }

end Visits

/-! ## Stretches without a body -/

variable {ctx : CollectionContext} {σ mid τ : CollectionState} {n : NodeId}

/-- A stretch of a collection in which no routine gets its body. -/
structure Quiet (ctx : CollectionContext) (σ τ : CollectionState) : Prop where
  implemented : τ.implemented = σ.implemented
  attached : ∀ m, (ctx.tree.kind m).isBody = true →
    τ.annotations.declaration? m = σ.annotations.declaration? m
  tables : σ.env.Steps ctx.file ctx.Known τ.env

theorem Quiet.refl (ctx : CollectionContext) (σ : CollectionState) : Quiet ctx σ σ :=
  ⟨rfl, fun _ _ => rfl, .refl⟩

theorem Quiet.trans (h : Quiet ctx σ mid) (g : Quiet ctx mid τ) : Quiet ctx σ τ where
  implemented := g.implemented.trans h.implemented
  attached m hm := (g.attached m hm).trans (h.attached m hm)
  tables := h.tables.trans g.tables

theorem Quiet.setDeclaration (h : Quiet ctx σ τ) (hn : (ctx.tree.kind n).isBody = false)
    (id : DeclId) :
    Quiet ctx σ { τ with annotations := τ.annotations.setDeclaration n id } := by
  refine { h with attached := fun m hm => ?_ }
  rw [Annotations.declaration?_setDeclaration, if_neg, h.attached m hm]
  rintro rfl
  simp [hn] at hm

/-- No routine gets its body where names are declared. -/
theorem sectionInvariant_quiet (ctx : CollectionContext) (σ : CollectionState) :
    SectionInvariant ctx (fun _ => True) (Quiet ctx σ) where
  formative := by constructor <;> intros <;> trivial
  declared _ _ := trivial
  results _ _ _ _ := trivial
  recorded _ _ _ _ := trivial
  constant h _ _ := ⟨trivial, { h with }⟩
  setType h _ _ _ _ _ := { h with }
  setScope h _ _ _ _ := { h with }
  setDeclaration h n id hn := h.setDeclaration (NodeKind.isBody_of_isDeclaration hn) id
  issue h _ _ _ := { h with }
  declare h scope spec plain :=
    have untyped := DeclarationSpec.unitUntyped_of_none plain.unitScope
    { h with tables := h.tables.tail (.declare scope spec untyped) }
  createScope h kind parent name hk := { h with tables := h.tables.tail (.create kind parent name hk) }
  setDeclaring h scope declaring :=
    { h with tables := h.tables.tail (.adapt scope (fun _ => declaring) Scope.helpers) }
  registerHelper h scope _ _ _ := { h with tables := h.tables.tail (.adapt scope Scope.declaring _) }
  declareStruct h _ _ _ _ := { h with tables := h.tables.tail (.types _) }
  completeStruct h _ _ _ _ _ := { h with tables := h.tables.tail (.types _) }
  declareEnum h _ _ := { h with tables := h.tables.tail (.types _) }
  addElement h _ _ := { h with tables := h.tables.tail (.types _) }

theorem Keeps.quiet {α : Type} {Q : α → Prop} {m : Collecting α} (h : Keeps (Quiet ctx σ) Q m) :
    Quiet ctx σ (m.run.run σ).2 :=
  (h σ (Quiet.refl ctx σ)).1

theorem quiet_usesClause (ctx : CollectionContext) (n : NodeId) (σ : CollectionState) :
    Quiet ctx σ ((usesClause ctx n).run.run σ).2 := by
  refine Keeps.quiet (Keeps.each fun reference _ => ?_)
  split
  · rename_i name hk
    have hn : (ctx.tree.kind reference).isBody = false := by rw [hk]; rfl
    split
    · refine Keeps.next (P := fun _ => True) ?_
      unfold importUnit
      split
      · rename_i unit known
        refine Keeps.bind (Keeps.modify fun τ h =>
          { h with tables := h.tables.tail (.use unit ⟨name, known⟩) }) fun _ _ => ?_
        refine Keeps.discard (P := fun _ => True) (Keeps.bind (keeps_declare fun τ h =>
          { h with tables := h.tables.tail (.declare _ _ fun _ => ⟨.inr rfl, rfl⟩) })
          fun id _ => ?_)
        exact Keeps.bind (Keeps.modify fun τ h => h.setDeclaration hn id) fun _ _ =>
          Keeps.pure trivial
      · exact Keeps.pure trivial
    · exact Keeps.next (P := fun _ => True) (Keeps.modify fun τ h => { h with })
  · exact Keeps.malformed_bind _

/-- No routine gets its body at an item that is none. -/
theorem quiet_item (hn : (ctx.tree.kind n).isBody = false) (scope : ScopeId)
    (σ : CollectionState) : Quiet ctx σ ((item ctx n scope).run.run σ).2 := by
  by_cases hk : ctx.tree.kind n = .usesClause
  · rw [item, hk]
    exact quiet_usesClause ctx n σ
  · exact ((sectionInvariant_quiet ctx σ).sectionItem hk hn scope).quiet

/-! ## What visits tell -/

/-- The declarations that a list of visits gives to routines with a body. -/
def linked (visits : List BodyVisit) : List DeclId := visits.filterMap (·.declaration)

/-- The declaration that a node gets first. -/
def firstLinked (visits : List BodyVisit) (m : NodeId) : Option DeclId :=
  visits.findSome? fun visit => if visit.node = m then visit.declaration else none

/-- Tables in which everything found was declared in its place, and all routines that have a body. -/
structure Consistent (σ : CollectionState) : Prop where
  filed : σ.env.Filed
  implemented : ∀ id ∈ σ.implemented, σ.env.Has (.decl id)

theorem Consistent.quiet (h : Consistent σ) (q : Quiet ctx σ τ) : Consistent τ where
  filed := q.tables.filed h.filed
  implemented id hid := (q.tables.declaration (h.implemented id (q.implemented ▸ hid))).1

/-- What holds of every visit: where its declaration is sought, and what becomes of it. -/
structure BodyVisit.Proper (ctx : CollectionContext) (visit : BodyVisit) : Prop where
  kind : ∃ kind, ctx.tree.kind visit.node = .routineImplementation visit.name kind
  consistent : Consistent visit.sought
  members : visit.reading.members = visit.owner?.elim visit.scope visit.arrival.membersOf
  declaration : visit.declaration =
    visit.linked?.or (if visit.qualifier?.isSome then none else some ⟨visit.sought.env.symbols.size⟩)
  /-- Without a qualifier, a routine that completes no declaration makes one. -/
  introduced : visit.linked? = none → visit.qualifier? = none →
    (visit.left.declaration ⟨visit.sought.env.symbols.size⟩).node = some visit.node ∧
    (visit.left.declaration ⟨visit.sought.env.symbols.size⟩).scope = visit.scope
  found : visit.sought.env.Steps ctx.file ctx.Known visit.left
  has : ∀ d, visit.declaration = some d → visit.left.Has (.decl d)

/-- What a stretch of a collection does about bodies, from the visits it makes. -/
structure Account (ctx : CollectionContext) (σ τ : CollectionState) (visits : List BodyVisit) :
    Prop where
  consistent : Consistent τ
  tables : σ.env.Steps ctx.file ctx.Known τ.env
  implemented : τ.implemented = (linked visits).reverse ++ σ.implemented
  attached : ∀ m, (ctx.tree.kind m).isBody = true →
    τ.annotations.declaration? m = (σ.annotations.declaration? m).or (firstLinked visits m)
  /-- When its declaration is sought, the routines that have a body are those visited before. -/
  moment : ∀ earlier visit later, visits = earlier ++ visit :: later → visit.Proper ctx ∧
    visit.sought.implemented = (linked earlier).reverse ++ σ.implemented ∧
    visit.left.Steps ctx.file ctx.Known τ.env

theorem Account.quiet (h : Consistent σ) (q : Quiet ctx σ τ) : Account ctx σ τ [] where
  consistent := h.quiet q
  tables := q.tables
  implemented := q.implemented
  attached m hm := by simp [firstLinked, q.attached m hm]
  moment := by simp

theorem Account.trans {first second : List BodyVisit} (h : Account ctx σ mid first)
    (g : Account ctx mid τ second) : Account ctx σ τ (first ++ second) where
  consistent := g.consistent
  tables := h.tables.trans g.tables
  implemented := by
    rw [g.implemented, h.implemented, linked, linked, linked, List.filterMap_append,
      List.reverse_append, List.append_assoc]
  attached m hm := by
    rw [g.attached m hm, h.attached m hm, Option.or_assoc, firstLinked, firstLinked, firstLinked,
      List.findSome?_append]
  moment := by
    intro earlier visit later split
    obtain ⟨more, rfl, hsecond⟩ | ⟨more, hfirst, hsecond⟩ := List.append_eq_append_iff.1 split
    · obtain ⟨proper, before, after⟩ := g.moment more visit later hsecond
      refine ⟨proper, ?_, after⟩
      rw [before, h.implemented, linked, linked, linked, List.filterMap_append,
        List.reverse_append, List.append_assoc]
    · cases more with
      | nil =>
        rw [List.append_nil] at hfirst
        obtain ⟨proper, before, after⟩ := g.moment [] visit later hsecond.symm
        refine ⟨proper, ?_, after⟩
        rw [before, h.implemented, ← hfirst]
        rfl
      | cons head rest =>
        obtain ⟨rfl, -⟩ := List.cons_eq_cons.1 hsecond
        obtain ⟨proper, before, after⟩ := h.moment earlier visit rest hfirst
        exact ⟨proper, before, after.trans g.tables⟩

/-! ## One visit -/

section Visit

variable {scope : ScopeId} {name : String} {kind : RoutineKind}

theorem exists_of_run_bind {α β : Type} {m : Collecting α} {k : α → Collecting β} {b : β}
    (h : (m >>= k).run.run σ = (.ok b, τ)) :
    ∃ a mid, m.run.run σ = (.ok a, mid) ∧ (k a).run.run mid = (.ok b, τ) := by
  rw [run_bind] at h
  generalize m.run.run σ = ran at h
  obtain ⟨cause | a, mid⟩ := ran
  · cases h
  · exact ⟨a, mid, rfl, h⟩

theorem run_getEnv_bind {β : Type} (k : Environment → Collecting β) (σ : CollectionState) :
    (getEnv >>= k).run.run σ = (k σ.env).run.run σ := rfl

theorem eq_of_run_declare {spec : DeclarationSpec} {id : DeclId}
    (h : (declare scope spec).run.run σ = (.ok id, τ)) : id = ⟨σ.env.symbols.size⟩ ∧
      τ = { σ with env := (σ.env.add scope { spec with part := σ.part }).2 } := by
  cases hf : (σ.env.scopes.get scope).frozen with
  | false =>
    rw [run_declare hf] at h
    obtain ⟨⟨⟩, rfl⟩ := Prod.mk.inj h
    exact ⟨rfl, rfl⟩
  | true =>
    rw [declare, run_get_bind, Environment.declare, SymbolTable.declare, if_pos hf] at h
    cases h

/-- The owner of a method is what the qualifier denotes, and looking for it leaves the tables. -/
theorem run_methodOwner {qualifier : Option String} {owner : Option StructId}
    (h : (methodOwner ctx n scope qualifier).run.run σ = (.ok owner, τ)) :
    owner = qualifier.bind (σ.env.ownerStruct? scope) ∧ τ.env = σ.env := by
  cases qualifier with
  | none =>
    cases h
    exact ⟨rfl, rfl⟩
  | some qualifier =>
    unfold methodOwner at h
    dsimp only at h
    rw [run_getEnv_bind] at h
    rw [Option.bind_some]
    generalize σ.env.ownerStruct? scope qualifier = struct at h
    cases struct with
    | some struct =>
      obtain ⟨howner, rfl⟩ := Prod.mk.inj h
      exact ⟨(Except.ok.inj howner).symm, rfl⟩
    | none =>
      obtain ⟨_, _, complained, h⟩ := exists_of_run_bind h
      obtain ⟨-, rfl⟩ := Prod.mk.inj complained
      obtain ⟨howner, rfl⟩ := Prod.mk.inj h
      exact ⟨(Except.ok.inj howner).symm, rfl⟩

theorem run_readBody {reading : BodyReading}
    (h : (readBody ctx n scope name kind).run.run σ = (.ok reading, τ)) :
    reading.owner = ((Name.splitLast name).map (·.1)).bind (σ.env.ownerStruct? scope) ∧
      reading.members = reading.owner.elim scope σ.env.membersOf := by
  obtain ⟨owner, mid, howner, h⟩ := exists_of_run_bind h
  obtain ⟨howner, tables⟩ := run_methodOwner howner
  obtain ⟨env, _, henv, h⟩ := exists_of_run_bind h
  cases henv
  obtain ⟨signature, _, -, h⟩ := exists_of_run_bind h
  cases h
  exact ⟨howner, by rw [tables]⟩

/-- The declaration that a routine completes is looked for first. If there is none, and the name has
no qualifier, a declaration is made. -/
theorem run_seekDeclaration {reading : BodyReading} {declaration : Option DeclId}
    (h : (seekDeclaration ctx n scope name reading).run.run σ = (.ok declaration, τ)) :
    let split := Name.splitLast name
    let linked? := σ.env.linkedDeclaration? σ.implemented reading.members (split.elim name (·.2))
      reading.signature.params
    declaration = linked?.or (if split.isSome then none else some ⟨σ.env.symbols.size⟩) ∧
      (linked? = none → split = none → ∃ spec : DeclarationSpec, spec.node = some n ∧
        τ.env = (σ.env.add scope spec).2) := by
  intro split linked?
  unfold seekDeclaration bodyDeclaration at h
  rw [run_get_bind] at h
  dsimp only at h
  have sought : σ.env.linkedDeclaration? σ.implemented reading.members (split.elim name (·.2))
      reading.signature.params = linked? := rfl
  rw [sought] at h
  cases hlinked : linked? with
  | some id =>
    rw [hlinked] at h
    obtain ⟨⟨⟩, rfl⟩ := Prod.mk.inj h
    exact ⟨rfl, nofun⟩
  | none =>
    rw [hlinked] at h
    dsimp only at h
    change (if split.isSome then _ else _ : Collecting _).run.run σ = _ at h
    rw [Option.none_or]
    by_cases qualified : split.isSome = true
    · rw [if_pos qualified] at h ⊢
      have unnamed : declaration = none := by
        split_ifs at h
        · obtain ⟨_, _, -, h⟩ := exists_of_run_bind h
          exact (Except.ok.inj (Prod.mk.inj h).1).symm
        · exact (Except.ok.inj (Prod.mk.inj h).1).symm
      exact ⟨unnamed, fun _ hsplit => by simp [hsplit] at qualified⟩
    · rw [if_neg qualified] at h ⊢
      obtain ⟨id, mid, made, h⟩ := exists_of_run_bind h
      obtain ⟨rfl, rfl⟩ := eq_of_run_declare made
      obtain ⟨⟨⟩, rfl⟩ := Prod.mk.inj h
      exact ⟨rfl, fun _ _ => ⟨_, rfl, rfl⟩⟩

theorem mem_of_linkedDeclaration? {env : Environment} {implemented : List DeclId} {members : ScopeId}
    {params : List Ty} {d : DeclId}
    (h : env.linkedDeclaration? implemented members name params = some d) :
    d ∈ env.symbols.shallowFind members name ∧ (env.declaration d).isRoutine = true ∧
      d ∉ implemented ∧ ((env.declaration d).routine.any (·.params = params) = true ∨
        params = [] ∧ ((env.symbols.shallowFind members name).filter fun id =>
          (env.declaration id).isRoutine && !implemented.contains id) = [d]) := by
  unfold Environment.linkedDeclaration? at h
  dsimp only at h
  generalize hu : (env.symbols.shallowFind members name).filter (fun id =>
    (env.declaration id).isRoutine && !implemented.contains id) = unlinked at h
  have listed : ∀ {d}, d ∈ unlinked → d ∈ env.symbols.shallowFind members name ∧
      (env.declaration d).isRoutine = true ∧ d ∉ implemented := by
    intro d hd
    simpa [← hu, and_assoc] using hd
  split at h
  next id hid =>
    cases h
    obtain ⟨mem, isRoutine, free⟩ := listed (List.mem_of_find?_eq_some hid)
    have same := List.find?_some hid
    exact ⟨mem, isRoutine, free, .inl same⟩
  next =>
    split at h
    next sole =>
      split_ifs at h with hp
      cases h
      obtain ⟨mem, isRoutine, free⟩ := listed (List.mem_singleton.2 rfl)
      exact ⟨mem, isRoutine, free, .inr ⟨List.isEmpty_iff.1 hp, rfl⟩⟩
    next => cases h

/-- A visit that gets as far as a declaration. -/
theorem proper_visit (hk : ctx.tree.kind n = .routineImplementation name kind)
    (consistent : Consistent σ) {reading : BodyReading} {sought found : CollectionState}
    {declaration : Option DeclId}
    (hread : (readBody ctx n scope name kind).run.run σ = (.ok reading, sought))
    (hseek : (seekDeclaration ctx n scope name reading).run.run sought = (.ok declaration, found)) :
    BodyVisit.Proper ctx
        ⟨n, scope, name, σ.env, reading, sought, declaration, found.env⟩ ∧
      Quiet ctx σ sought ∧ Quiet ctx sought found := by
  have hn : (ctx.tree.kind n).usedUnit? = none := by rw [hk]; rfl
  have quiet : Quiet ctx σ sought := by
    have kept := ((sectionInvariant_quiet ctx σ).readBody hn scope name kind).quiet
    rwa [hread] at kept
  have silent : Quiet ctx sought found := by
    have made : reading.signature.Made fun _ => True := ⟨fun _ _ => trivial, trivial⟩
    have kept := Keeps.quiet ((sectionInvariant_quiet ctx sought).bodyDeclaration hn scope
      reading.members name ((Name.splitLast name).elim name (·.2)) (Name.splitLast name).isSome made)
    change Quiet ctx sought ((seekDeclaration ctx n scope name reading).run.run sought).2 at kept
    rwa [hseek] at kept
  obtain ⟨howner, hmembers⟩ := run_readBody hread
  obtain ⟨hdeclaration, hmade⟩ := run_seekDeclaration hseek
  have filed := (consistent.quiet quiet).filed
  have unqualified : ((Name.splitLast name).map (·.1)).isSome = (Name.splitLast name).isSome :=
    Option.isSome_map
  refine ⟨?_, quiet, silent⟩
  constructor
  case kind => exact ⟨kind, hk⟩
  case consistent => exact consistent.quiet quiet
  case members =>
    rw [hmembers, howner]
    rfl
  case declaration =>
    rw [BodyVisit.qualifier?, unqualified]
    exact hdeclaration
  case introduced =>
    intro unlinked hq
    obtain ⟨spec, hnode, hleft⟩ := hmade unlinked (Option.map_eq_none_iff.1 hq)
    obtain ⟨place, spelled⟩ := @Environment.declaration_add_new sought.env scope spec
    dsimp only
    rw [hleft, place, spelled]
    exact ⟨hnode, rfl⟩
  case found => exact silent.tables
  case has =>
    rintro d rfl
    cases hlinked : sought.env.linkedDeclaration? sought.implemented reading.members
        ((Name.splitLast name).elim name (·.2)) reading.signature.params with
    | some id =>
      rw [hlinked, Option.some_or, Option.some.injEq] at hdeclaration
      subst hdeclaration
      have mem := (mem_of_linkedDeclaration? hlinked).1
      exact (silent.tables.declaration (filed _ _ _ mem).1).1
    | none =>
      rw [hlinked, Option.none_or] at hdeclaration
      split_ifs at hdeclaration with qualified
      · obtain ⟨spec, -, hleft⟩ := hmade hlinked (by simpa using qualified)
        rw [hleft, Option.some.inj hdeclaration]
        exact Environment.has_add.2 (.inr rfl)

/-- What is recorded when a routine gets its body. -/
theorem run_attachBody {declaration : Option DeclId} {u : Unit}
    (h : (attachBody n declaration).run.run σ = (.ok u, τ)) :
    τ.env = σ.env ∧ τ.implemented = declaration.toList ++ σ.implemented ∧
      ∀ m, τ.annotations.declaration? m =
        (σ.annotations.declaration? m).or (if n = m then declaration else none) := by
  cases declaration with
  | none =>
    obtain ⟨-, rfl⟩ := Prod.mk.inj h
    exact ⟨rfl, rfl, by simp⟩
  | some id =>
    obtain ⟨-, rfl⟩ := Prod.mk.inj h
    refine ⟨rfl, rfl, fun m => ?_⟩
    change (σ.annotations.setDeclaration n id).declaration? m = _
    rw [Annotations.declaration?_setDeclaration]
    split_ifs <;> simp

/-- A routine with a body is visited once, before what is local to it. -/
theorem account_routineHead (hk : ctx.tree.kind n = .routineImplementation name kind)
    (consistent : Consistent σ) {body : ScopeId}
    (h : (routineHead ctx n scope name kind).run.run σ = (.ok body, τ)) :
    Account ctx σ τ (visit? ctx n scope name kind σ).toList := by
  have opens : (ctx.tree.kind n).opensScope = true := by rw [hk]; rfl
  rw [routineHead_eq] at h
  obtain ⟨reading, sought, hread, h⟩ := exists_of_run_bind h
  obtain ⟨declaration, found, hseek, h⟩ := exists_of_run_bind h
  obtain ⟨_, attached, hattach, h⟩ := exists_of_run_bind h
  obtain ⟨proper, quiet, silent⟩ := proper_visit hk consistent hread hseek
  obtain ⟨tables, implemented, attachments⟩ := run_attachBody hattach
  have made : reading.signature.Made fun _ => True := ⟨fun _ _ => trivial, trivial⟩
  have opened : Quiet ctx attached τ := by
    have kept := ((sectionInvariant_quiet ctx attached).openBody opens scope name made
      declaration).quiet
    rwa [h] at kept
  have visit : visit? ctx n scope name kind σ =
      some ⟨n, scope, name, σ.env, reading, sought, declaration, found.env⟩ := by
    simp only [visit?, hread, hseek]
  have before : Quiet ctx σ found := quiet.trans silent
  have settled : Consistent attached := by
    refine ⟨tables ▸ (consistent.quiet before).filed, fun id hid => ?_⟩
    rw [implemented, List.mem_append, Option.mem_toList] at hid
    rw [tables]
    exact hid.elim (proper.has id) ((consistent.quiet before).implemented id)
  have after : found.env.Steps ctx.file ctx.Known τ.env := tables ▸ opened.tables
  rw [visit, Option.toList_some]
  constructor
  case consistent => exact settled.quiet opened
  case tables => exact before.tables.trans after
  case implemented =>
    rw [opened.implemented, implemented, before.implemented]
    cases declaration <;> rfl
  case attached =>
    intro m hm
    rw [opened.attached m hm, attachments, before.attached m hm]
    simp [firstLinked]
  case moment =>
    intro earlier visit later split
    cases earlier with
    | nil =>
      obtain ⟨rfl, -⟩ := List.cons_eq_cons.1 split
      exact ⟨proper, quiet.implemented, after⟩
    | cons => simp at split

end Visit

/-! ## Whole collections -/

/-- Visits of computations that are run one after the other. -/
theorem account_along {A : Type} {run : A → Collecting Unit}
    {visits : A → CollectionState → List BodyVisit} {l : List A}
    (step : ∀ x ∈ l, ∀ σ τ u, Consistent σ → (run x).run.run σ = (.ok u, τ) →
      Account ctx σ τ (visits x σ))
    {u : Unit} (consistent : Consistent σ) (h : (l.forM run).run.run σ = (.ok u, τ)) :
    Account ctx σ τ (along run visits l σ) := by
  induction l generalizing σ with
  | nil =>
    obtain ⟨-, rfl⟩ := Prod.mk.inj h
    exact .quiet consistent (.refl ctx σ)
  | cons x rest ih =>
    rw [List.forall_mem_cons] at step
    obtain ⟨_, mid, first, h⟩ := exists_of_run_bind h
    have told := step.1 σ mid _ consistent first
    simp only [along, first]
    exact told.trans (ih step.2 told.consistent h)

theorem itemBodies_of_not_isBody (hn : (ctx.tree.kind n).isBody = false) (scope : ScopeId)
    (σ : CollectionState) : itemBodies ctx n scope σ = [] := by
  unfold itemBodies
  generalize ctx.tree.kind n = kind at hn
  cases kind <;> first | rfl | cases hn

/-- An item does about bodies what its visits tell, by induction on the number of its node: local
routines come before. -/
theorem account_item (n : NodeId) (scope : ScopeId) {u : Unit} (consistent : Consistent σ)
    (h : (item ctx n scope).run.run σ = (.ok u, τ)) :
    Account ctx σ τ (itemBodies ctx n scope σ) := by
  induction hi : n.index using Nat.strong_induction_on generalizing n scope σ τ u with
  | _ index ih =>
    cases hb : (ctx.tree.kind n).isBody with
    | false =>
      have quiet := quiet_item hb scope σ
      rw [h] at quiet
      rw [itemBodies_of_not_isBody hb]
      exact .quiet consistent quiet
    | true =>
      obtain ⟨name, kind, hk⟩ := NodeKind.isBody_iff.1 hb
      rw [item] at h
      rw [itemBodies]
      simp only [hk] at h ⊢
      obtain ⟨body, mid, hhead, h⟩ := exists_of_run_bind h
      have told := account_routineHead hk consistent hhead
      simp only [hhead]
      refine told.trans (account_along (fun part _ σ τ u consistent h => ?_) told.consistent h)
      cases hlocal : isLocal (ctx.tree.kind part.1) with
      | true =>
        simp only [hlocal, if_true] at h ⊢
        exact ih part.1.index (hi ▸ part.2) part.1 body consistent h rfl
      | false =>
        simp only [hlocal, Bool.false_eq_true, if_false] at h ⊢
        obtain ⟨-, rfl⟩ := Prod.mk.inj h
        exact .quiet consistent (.refl ctx σ)

theorem account_unitPart (n : NodeId) {u : Unit} (consistent : Consistent σ)
    (h : (unitPart ctx n).run.run σ = (.ok u, τ)) : Account ctx σ τ (partBodies ctx n σ) := by
  have entered : ∀ part : Section, (do
      modify fun s => { s with part }
      (ctx.tree.childIds n).forM fun child => item ctx child ctx.file :
        Collecting Unit).run.run σ = (.ok u, τ) → Account ctx σ τ
      (along (fun child => item ctx child ctx.file) (fun child => itemBodies ctx child ctx.file)
        (ctx.tree.childIds n) { σ with part }) := by
    intro part h
    obtain ⟨_, inside, hinside, h⟩ := exists_of_run_bind h
    obtain ⟨-, rfl⟩ := Prod.mk.inj hinside
    have quiet : Quiet ctx σ { σ with part } := { Quiet.refl ctx σ with }
    exact (Account.quiet consistent quiet).trans
      (account_along (fun child _ _ _ _ => account_item child ctx.file) (consistent.quiet quiet) h)
  unfold unitPart at h
  unfold partBodies
  dsimp only at h ⊢
  generalize ctx.tree.kind n = kind at h
  cases kind with
  | interfaceSection => exact entered .interface h
  | implementationSection => exact entered .implementation h
  | _ => exact account_item n ctx.file consistent h

/-- A collection that succeeds does about bodies what its visits tell. -/
theorem account_unit (root : NodeId) {u : Unit} (consistent : Consistent σ)
    (h : (unit ctx root).run.run σ = (.ok u, τ)) : Account ctx σ τ (unitBodies ctx root σ) := by
  obtain ⟨_, opened, hopen, h⟩ := exists_of_run_bind h
  obtain ⟨-, rfl⟩ := Prod.mk.inj hopen
  have quiet : Quiet ctx σ { σ with annotations := σ.annotations.setScope root ctx.file } :=
    { Quiet.refl ctx σ with }
  exact (Account.quiet consistent quiet).trans
    (account_along (fun n _ _ _ _ => account_unitPart n) (consistent.quiet quiet) h)

/-! ## What follows for declarations -/

section Declarations

variable {visits earlier later : List BodyVisit} {visit : BodyVisit} {d : DeclId}

/-- A declaration that a routine with a body makes: it was not there when it was sought. -/
structure BodyVisit.Introduces (visit : BodyVisit) (env : Environment) (d : DeclId) : Prop where
  new : ¬visit.sought.env.Has (.decl d)
  node : (env.declaration d).node = some visit.node
  scope : (env.declaration d).scope = visit.scope

/-- A declaration that a routine with a body completes, after those visited earlier have got
theirs. -/
structure BodyVisit.Completes (visit : BodyVisit) (earlier : List BodyVisit) (env : Environment)
    (d : DeclId) : Prop where
  has : visit.sought.env.Has (.decl d)
  free : d ∉ linked earlier
  isRoutine : (env.declaration d).isRoutine = true
  name : Name.same (env.declaration d).name visit.simpleName = true
  /-- It stands among the members of the structured type that the qualifier denotes. If there is
  none, it stands where the routine stands. -/
  scope : (env.declaration d).scope = visit.owner?.elim visit.scope visit.arrival.membersOf
  /-- It takes the same parameters, or it is the only routine of its name left in its scope. -/
  params : (env.declaration d).routine.any (·.params = visit.reading.signature.params) = true ∨
    visit.reading.signature.params = [] ∧
      ∀ other ∈ visit.sought.env.symbols.shallowFind (env.declaration d).scope
          (env.declaration d).name,
        (env.declaration other).isRoutine = true → other ∉ linked earlier → other = d

/-- The declaration that a routine gets is one that it completes, or new. -/
theorem BodyVisit.Proper.linked?_or_new (h : visit.Proper ctx) (hd : visit.declaration = some d) :
    visit.linked? = some d ∨
      visit.linked? = none ∧ visit.qualifier? = none ∧ d = ⟨visit.sought.env.symbols.size⟩ := by
  have hdeclaration := hd.symm.trans h.declaration
  cases hlinked : visit.linked? with
  | some id =>
    rw [hlinked, Option.some_or] at hdeclaration
    exact .inl hdeclaration.symm
  | none =>
    rw [hlinked, Option.none_or] at hdeclaration
    split_ifs at hdeclaration with unqualified
    · exact .inr ⟨rfl, by simpa using unqualified, Option.some.inj hdeclaration⟩

theorem BodyVisit.Proper.completes {env : Environment} (h : visit.Proper ctx)
    (implemented : ∀ id, id ∈ visit.sought.implemented ↔ id ∈ linked earlier)
    (after : visit.sought.env.Steps ctx.file ctx.Known env) (hd : visit.linked? = some d) :
    visit.Completes earlier env d := by
  have filed := h.consistent.filed
  obtain ⟨mem, isRoutine, free, params⟩ := mem_of_linkedDeclaration? hd
  obtain ⟨has, scope, spelled⟩ := filed _ _ _ mem
  have same := (after.declaration has).2
  constructor
  case has => exact has
  case free => rwa [← implemented]
  case isRoutine => rw [same, isRoutine]
  case name => rw [same, Name.same, spelled, beq_self_eq_true]
  case scope => rw [same, scope, h.members]
  case params =>
    rw [same, scope]
    refine params.imp_right ?_
    rintro ⟨bare, sole⟩
    refine ⟨bare, fun other hother routine left => ?_⟩
    rw [SymbolTable.shallowFind, spelled] at hother
    have unchanged := (after.declaration (filed _ _ _ hother).1).2
    have listed : other ∈ [d] := by
      rw [← sole, List.mem_filter]
      rw [unchanged] at routine
      rw [← implemented] at left
      exact ⟨hother, by simp [routine, left]⟩
    exact List.mem_singleton.1 listed

/-- A routine with a body completes the declaration that it gets, unless it has made it. -/
theorem Account.introduces_or_completes (h : Account ctx σ τ visits) (blank : σ.implemented = [])
    (split : visits = earlier ++ visit :: later) (hd : visit.declaration = some d) :
    visit.qualifier? = none ∧ visit.Introduces τ.env d ∨ visit.Completes earlier τ.env d := by
  obtain ⟨proper, implemented, after⟩ := h.moment earlier visit later split
  obtain linked | ⟨unlinked, unqualified, rfl⟩ := proper.linked?_or_new hd
  · right
    refine proper.completes (fun id => ?_) (proper.found.trans after) linked
    rw [implemented, blank, List.append_nil, List.mem_reverse]
  · left
    obtain ⟨node, scope⟩ := proper.introduced unlinked unqualified
    have same := (after.declaration (proper.has _ hd)).2
    exact ⟨unqualified, fun has => Nat.lt_irrefl _ has, by rw [same, node], by rw [same, scope]⟩

/-- No declaration is given to two visits. -/
theorem Account.not_mem_linked (h : Account ctx σ τ visits)
    (split : visits = earlier ++ visit :: later) (hd : visit.declaration = some d) :
    d ∉ linked earlier := by
  obtain ⟨proper, implemented, -⟩ := h.moment earlier visit later split
  intro mem
  have taken : d ∈ visit.sought.implemented := by
    rw [implemented]
    exact List.mem_append_left _ (List.mem_reverse.2 mem)
  obtain linked | ⟨-, -, rfl⟩ := proper.linked?_or_new hd
  · exact (mem_of_linkedDeclaration? linked).2.2.1 taken
  · exact Nat.lt_irrefl _ (proper.consistent.implemented _ taken)

theorem Account.eq_of_declaration (h : Account ctx σ τ visits) {earlier' later' : List BodyVisit}
    {visit' : BodyVisit} (split : visits = earlier ++ visit :: later)
    (split' : visits = earlier' ++ visit' :: later') (hd : visit.declaration = some d)
    (hd' : visit'.declaration = some d) : visit = visit' := by
  have given : ∀ {l : List BodyVisit} {v : BodyVisit}, v ∈ l → v.declaration = some d →
      d ∈ linked l := fun mem hv => List.mem_filterMap.2 ⟨_, mem, hv⟩
  obtain ⟨more, heq, hrest⟩ | ⟨more, heq, hrest⟩ :=
    List.append_eq_append_iff.1 (split.symm.trans split')
  · cases more with
    | nil => exact (List.cons_eq_cons.1 hrest).1
    | cons head rest =>
      obtain ⟨rfl, -⟩ := List.cons_eq_cons.1 hrest
      exact absurd (given (by simp [heq]) hd) (h.not_mem_linked split' hd')
  · cases more with
    | nil => exact (List.cons_eq_cons.1 hrest).1.symm
    | cons head rest =>
      obtain ⟨rfl, -⟩ := List.cons_eq_cons.1 hrest
      exact absurd (given (by simp [heq]) hd') (h.not_mem_linked split hd)

theorem exists_of_firstLinked {m : NodeId} (h : firstLinked visits m = some d) :
    ∃ earlier visit later, visits = earlier ++ visit :: later ∧ visit.node = m ∧
      visit.declaration = some d := by
  obtain ⟨earlier, visit, later, split, here, -⟩ := List.findSome?_eq_some_iff.1 h
  split_ifs at here with node
  exact ⟨earlier, visit, later, split, node, here⟩

end Declarations

end Collecting

end Pascal
