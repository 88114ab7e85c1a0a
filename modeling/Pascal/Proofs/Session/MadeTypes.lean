import Pascal.Proofs.FoundTypes
import Pascal.Proofs.Session.Invariants
import Pascal.Proofs.Session.Moves

/-!
# The types that a session knows

A session starts from the intrinsic types, and all other types that it knows are made of these. So a
property that declarations and typing keep holds of all types in the tables and of all types that
are remembered, if the intrinsic types have it.
-/

namespace Pascal

/-! ## Tables of types with a property -/

section Arrays

variable {α : Type} {P : α → Prop} {xs : Array α} {d : α}

theorem getD_push_of_forall (h : ∀ i, P (xs.getD i d)) {x : α} (hx : P x) (i : Nat) :
    P ((xs.push x).getD i d) := by
  simp only [Array.getD_eq_getD_getElem?] at h ⊢
  grind

theorem getD_modify_of_forall (h : ∀ i, P (xs.getD i d)) {f : α → α} (hf : ∀ x, P x → P (f x))
    (i j : Nat) : P ((xs.modify j f).getD i d) := by
  simp only [Array.getD_eq_getD_getElem?] at h ⊢
  grind

theorem getD_map_of_forall (h : ∀ i, P (xs.getD i d)) {f : α → α} (hf : ∀ x, P x → P (f x))
    (i : Nat) : P ((xs.map f).getD i d) := by
  simp only [Array.getD_eq_getD_getElem?] at h ⊢
  grind

end Arrays

/-- The name of a unit, declared by the unit itself or by its use. -/
def DeclarationSpec.isUnitName (spec : DeclarationSpec) : Bool :=
  spec.kind = .unit || spec.kind = .unitImport

/-- The type of a declaration has a property, and so has what a routine takes and gives. A routine
has a signature and its type, and the name of a unit has no type. -/
structure DeclarationSpec.Made (T : Ty → Prop) (spec : DeclarationSpec) : Prop where
  ty : T spec.ty
  signed : spec.kind = .routine → spec.routine.isSome = true
  routine : ∀ signature, spec.routine = some signature → signature.Made T ∧ spec.ty = signature.ty
  unit : spec.isUnitName = true → spec.ty = .unknown ∧ spec.routine = none

/-- The types that a structured type is derived from and the one that it helps have a property. -/
structure StructInfo.Made (T : Ty → Prop) (info : StructInfo) : Prop where
  parents : ∀ p ∈ info.parents, T p
  helped : ∀ t ∈ info.helperFor, T t

/-- The type that fixes the width of an enumeration has a property. -/
def EnumInfo.Made (T : Ty → Prop) (info : EnumInfo) : Prop := ∀ base ∈ info.base, T base

/-- The types that a scope has helpers for have a property. -/
def Scope.Made (T : Ty → Prop) (scope : Scope) : Prop := ∀ entry ∈ scope.helpers, T entry.1

/-- All types that the tables know have a property. -/
structure Environment.Made (T : Ty → Prop) (env : Environment) : Prop where
  declarations : ∀ d, (env.declaration d).Made T
  structs : ∀ id, (env.types.structInfo id).Made T
  enums : ∀ id, (env.types.enumInfo id).Made T
  scopes : ∀ s, (env.scopes.get s).Made T

namespace Environment

variable {T : Ty → Prop} {env : Environment}

theorem Made.declares (h : env.Made T) : env.Declares T :=
  ⟨fun d => (h.declarations d).ty,
    fun d signature hs => ((h.declarations d).routine signature hs).1⟩

theorem Made.add (h : env.Made T) (s : ScopeId) {spec : DeclarationSpec} (hs : spec.Made T) :
    (env.add s spec).2.Made T where
  declarations d := getD_push_of_forall (P := fun d : Declaration => d.Made T)
    (fun i => h.declarations ⟨i⟩) ⟨hs.ty, hs.signed, hs.routine, hs.unit⟩ d.index
  structs := h.structs
  enums := h.enums
  scopes := h.scopes

/-- A change of one scope that adds no helper for a type without the property. -/
theorem Made.modifyScope (h : env.Made T) (s : ScopeId) {change : Scope → Scope}
    (hc : ∀ scope, scope.Made T → (change scope).Made T) : (env.modifyScope s change).Made T where
  declarations := h.declarations
  structs := h.structs
  enums := h.enums
  scopes t := getD_modify_of_forall (P := Scope.Made T)
    (fun i => h.scopes ⟨i⟩) hc t.index s.index

theorem Made.createScope (h : env.Made T) (kind : ScopeKind) (parent : ScopeId) (name : String) :
    (env.createScope kind parent name).Made T where
  declarations := h.declarations
  structs := h.structs
  enums := h.enums
  scopes t := by
    refine getD_modify_of_forall (P := Scope.Made T) ?_ ?_ t.index parent.index
    · exact fun i => getD_push_of_forall (fun i => h.scopes ⟨i⟩) (by simp [Scope.Made]) i
    · exact fun _ hs => hs

theorem Made.withTypes (h : env.Made T) {types : TypeTable}
    (hs : ∀ id, (types.structInfo id).Made T)
    (he : ∀ id, (types.enumInfo id).Made T) : (env.withTypes types).Made T :=
  { h with structs := hs, enums := he }

theorem Made.freezeScope (h : env.Made T) (f : ScopeId) : (env.freezeScope f).Made T where
  declarations := h.declarations
  structs := h.structs
  enums := h.enums
  scopes s := by
    rw [Scope.Made, freezeScope_field Scope.helpers fun _ _ => rfl]
    exact h.scopes s

theorem Made.discardScope (h : env.Made T) (f : ScopeId) : (env.discardScope f).Made T where
  declarations d := by
    rw [declaration_discardScope]
    exact h.declarations d
  structs := h.structs
  enums := h.enums
  scopes s := by
    refine getD_map_of_forall (P := Scope.Made T) (fun i => ?_) ?_ s.index
    · cases (env.scopes.get f).parent with
      | none => exact h.scopes ⟨i⟩
      | some p =>
        refine getD_modify_of_forall (P := Scope.Made T) ?_ ?_ i p.index
        · exact fun i => h.scopes ⟨i⟩
        · exact fun _ hs => hs
    · exact fun _ hs => hs

theorem Made.openUnit (hT : Ty.Formative T) (h : env.Made T) (system : ScopeId) (name : String) :
    (env.openUnit system name).Made T :=
  (h.createScope .file system name).add _ ⟨hT.unknown, by simp, by simp, by simp⟩

theorem Made.declareStruct (h : env.Made T) (name : String) (kind : StructKind) (members : ScopeId)
    (forward : Bool) :
    (env.withTypes (env.types.declareStruct name kind members forward).2).Made T :=
  h.withTypes (fun id => getD_push_of_forall (P := StructInfo.Made T)
    (fun i => h.structs ⟨i⟩) ⟨by simp, by simp⟩ id.index) h.enums

theorem Made.completeStruct (h : env.Made T) (struct : StructId) {parents : List Ty}
    {helped : Option Ty} (hp : ∀ p ∈ parents, T p) (hh : ∀ t ∈ helped, T t) :
    (env.withTypes (env.types.completeStruct struct parents helped)).Made T :=
  h.withTypes (fun id => getD_modify_of_forall (P := StructInfo.Made T)
    (fun i => h.structs ⟨i⟩) (fun _ _ => ⟨hp, hh⟩) id.index struct.index) h.enums

theorem Made.declareEnum (h : env.Made T) (name : String) (elements : ScopeId) :
    (env.withTypes (env.types.declareEnum name elements none).2).Made T :=
  h.withTypes h.structs fun id => getD_push_of_forall (P := EnumInfo.Made T)
    (fun i => h.enums ⟨i⟩) (by simp [EnumInfo.Made]) id.index

theorem Made.addElement (h : env.Made T) (id : EnumId) (element : String) :
    (env.withTypes (env.types.addElement id element)).Made T :=
  h.withTypes h.structs fun other => by
    refine getD_modify_of_forall (P := EnumInfo.Made T) ?_ ?_ other.index id.index
    · exact fun i => h.enums ⟨i⟩
    · exact fun _ hi => hi

end Environment

/-! ## What is remembered -/

namespace Annotations

variable {T : Ty → Prop} {a : Annotations}

theorem made_blank : ({} : Annotations).Made T where
  types n ty h := by simp [type?] at h
  invocations n inv h := by simp [invocation?] at h

theorem Made.setType (h : a.Made T) (n : NodeId) {ty : Ty} (ht : T ty) :
    (a.setType n ty).Made T where
  types m ty' hm := by
    simp only [type?, Annotations.setType, Std.HashMap.getElem?_insert] at hm
    split_ifs at hm
    · cases hm
      exact ht
    · exact h.types m ty' hm
  invocations := h.invocations

theorem Made.resetResolution (h : a.Made T) (tree : SyntaxTree) :
    (a.resetResolution tree).Made T where
  types n ty hn := by
    rw [type?_resetResolution] at hn
    split_ifs at hn
    exact h.types n ty hn
  invocations n inv hn := by simp [invocation?, Annotations.resetResolution] at hn

end Annotations

namespace Session

variable {T : Ty → Prop}

/-- A property that declarations and typing keep is kept by all that a collection does. -/
theorem collection_made (hf : Ty.Formative T) (hh : Ty.Hereditary T) (ctx : CollectionContext) :
    Collecting.UseInvariant ctx T fun σ =>
      σ.env.Made T ∧ σ.annotations.Made T ∧ σ.constants.Made T where
  formative := hf
  declared hσ d := (hσ.1.declarations d).ty
  results hσ d signature h := ((hσ.1.declarations d).routine signature h).1.result
  recorded hσ := hσ.2.1.types
  constant hσ n scope :=
    have typed := Typing.made_typeOf hh hσ.1.declares scope n hσ.2.2
    ⟨typed.1, hσ.1, hσ.2.1, typed.2⟩
  setType hσ n _ _ _ ht := ⟨hσ.1, hσ.2.1.setType n ht, hσ.2.2⟩
  setScope hσ _ _ _ _ := ⟨hσ.1, ⟨hσ.2.1.types, hσ.2.1.invocations⟩, hσ.2.2⟩
  setDeclaration hσ _ _ _ := ⟨hσ.1, ⟨hσ.2.1.types, hσ.2.1.invocations⟩, hσ.2.2⟩
  issue hσ _ _ _ := ⟨hσ.1, ⟨hσ.2.1.types, hσ.2.1.invocations⟩, hσ.2.2⟩
  notes hσ _ _ := hσ
  attach hσ _ _ _ := ⟨hσ.1, ⟨hσ.2.1.types, hσ.2.1.invocations⟩, hσ.2.2⟩
  declare hσ scope spec plain := by
    have named : spec.isUnitName = false := by
      simpa [DeclarationSpec.isUnitName] using plain.kind
    exact ⟨hσ.1.add scope ⟨plain.ty, plain.signed, plain.routine, by simp [named]⟩, hσ.2⟩
  createScope hσ kind parent name _ := ⟨hσ.1.createScope kind parent name, hσ.2⟩
  setDeclaring hσ scope _ := ⟨hσ.1.modifyScope scope fun _ h => h, hσ.2⟩
  registerHelper hσ scope target helper ht := by
    refine ⟨hσ.1.modifyScope scope fun s hs => ?_, hσ.2⟩
    rw [Scope.Made, List.forall_mem_cons]
    exact ⟨ht, fun entry he => hs entry (List.mem_of_mem_filter he)⟩
  declareStruct hσ name kind members forward := ⟨hσ.1.declareStruct name kind members forward, hσ.2⟩
  completeStruct hσ struct _ _ hp hh := ⟨hσ.1.completeStruct struct hp hh, hσ.2⟩
  declareEnum hσ name elements := ⟨hσ.1.declareEnum name elements, hσ.2⟩
  addElement hσ id element := ⟨hσ.1.addElement id element, hσ.2⟩
  use hσ _ _ := ⟨hσ.1.modifyScope ctx.file fun _ h => h, hσ.2⟩
  declareUse hσ _ kind ty routine :=
    ⟨hσ.1.add ctx.file
      ⟨ty ▸ hf.unknown, by simp [kind], by simp [routine], fun _ => ⟨ty, routine⟩⟩, hσ.2⟩
  setUse hσ _ _ := ⟨hσ.1, ⟨hσ.2.1.types, hσ.2.1.invocations⟩, hσ.2.2⟩
  missing hσ _ _ := ⟨hσ.1, ⟨hσ.2.1.types, hσ.2.1.invocations⟩, hσ.2.2⟩
  retain hσ _ := ⟨hσ.1, ⟨hσ.2.1.types, hσ.2.1.invocations⟩, hσ.2.2⟩

/-- A property that declarations and typing keep is kept by all work. -/
theorem invariant_made (hf : Ty.Formative T) (hh : Ty.Hereditary T) :
    Invariant T (Environment.Made T) (fun _ => Annotations.Made T) (fun _ => Annotations.Made T)
    where
  openUnit h system name := h.openUnit hf system name
  freezeScope h file := h.freezeScope file
  discardScope h file := h.discardScope file
  collection := collection_made hf hh
  blank _ := Annotations.made_blank
  sealIssues h := ⟨h.types, h.invocations⟩
  given h := h
  resetResolution h := h.resetResolution _
  typed henv h scope n := (Typing.made_typeOf hh henv.declares scope n h).2
  passed henv h scope n := Typing.made_resolveNode hh henv.declares scope n h

end Session

/-! ## The start -/

namespace SystemUnit

variable {T : Ty → Prop} {env : Environment}

theorem made_addAll (h : env.Made T) (scope : ScopeId) {specs : List DeclarationSpec}
    (hs : ∀ spec ∈ specs, spec.Made T) : (addAll env scope specs).Made T := by
  induction specs generalizing env with
  | nil => exact h
  | cons spec rest ih =>
    rw [List.forall_mem_cons] at hs
    exact ih (h.add scope hs.1) hs.2

theorem made_typeSpec {ty : Ty} (name : String) (h : T ty) : (typeSpec name ty).Made T :=
  ⟨h, by simp [typeSpec], by simp [typeSpec], by simp [typeSpec, DeclarationSpec.isUnitName]⟩

theorem made_routineSpec {signature : RoutineSignature} (hT : Ty.Formative T) (name : String)
    (h : signature.Made T) : (routineSpec name signature).Made T := by
  refine ⟨hT.procedural _ h.params h.result, fun _ => rfl, ?_,
    by simp [routineSpec, DeclarationSpec.isUnitName]⟩
  rintro _ ⟨⟩
  exact ⟨h, rfl⟩

theorem made_addRoot (hT : Ty.Formative T) (h : env.Made T) (name : String) (kind : StructKind)
    {methods : StructId → List DeclarationSpec} (hm : ∀ id, ∀ spec ∈ methods id, spec.Made T) :
    (addRoot env name kind methods).Made T := by
  have members := (h.createScope .type ⟨0⟩ name).declareStruct name kind ⟨env.scopes.size⟩ false
  have struct : (addStruct env ⟨0⟩ name kind).2.Made T := by
    refine Environment.Made.add (members.modifyScope ⟨env.scopes.size⟩ ?_) ⟨0⟩
      (made_typeSpec name (hT.struct _))
    exact fun _ hs => hs
  exact made_addAll struct _ (hm _)

theorem made_blank (hT : Ty.Formative T) (settings : Settings) : (blank settings).Made T where
  declarations _ := ⟨hT.unknown, nofun, nofun, fun _ => ⟨rfl, rfl⟩⟩
  structs _ := ⟨nofun, nofun⟩
  enums _ := nofun
  scopes s := by
    refine getD_push_of_forall (P := Scope.Made T) ?_ ?_ s.index
    · exact fun _ => nofun
    · exact nofun

theorem made_leadingSpecs (hf : Ty.Formative T) {settings : Settings}
    (hi : ∀ intrinsic : Intrinsic, T (intrinsic.ty settings.target)) (scope : ScopeId) :
    ∀ spec ∈ leadingSpecs settings scope, spec.Made T := by
  intro spec hspec
  simp only [leadingSpecs, List.cons_append, List.mem_cons, List.mem_append, List.mem_map] at hspec
  obtain rfl | (⟨intrinsic, -, rfl⟩ | ⟨entry, -, rfl⟩) | ⟨name, -, rfl⟩ := hspec
  · exact ⟨hf.unknown, by simp, by simp, fun _ => ⟨rfl, rfl⟩⟩
  · exact made_typeSpec _ (hi intrinsic)
  · exact made_typeSpec _ (hi entry.2)
  · exact ⟨hi .boolean, by simp, by simp, by simp [DeclarationSpec.isUnitName]⟩

theorem made_classMethods (hf : Ty.Formative T) (hc : Ty.Calculable T) (id : StructId) :
    ∀ spec ∈ classMethods id, spec.Made T := by
  have self := hf.struct id
  simp only [classMethods, List.forall_mem_cons]
  refine ⟨?_, ?_, ?_, ?_, ?_, by simp⟩ <;> refine made_routineSpec hf _ ⟨?_, ?_⟩
  · simp
  · exact self
  · simp
  · exact hf.void
  · simp
  · exact hf.void
  · simp
  · exact hc.plain rfl
  · simpa using hf.classRef self
  · exact hc.plain rfl

theorem made_interfaceMethods (hf : Ty.Formative T) (hc : Ty.Calculable T) (id : StructId) :
    ∀ spec ∈ interfaceMethods id, spec.Made T := by
  have method : ∀ name, (methodSpec id name .function [] .int).Made T :=
    fun name => made_routineSpec hf name ⟨by simp, hc.plain rfl⟩
  simpa [interfaceMethods] using ⟨method "_AddRef", method "_Release"⟩

theorem made_routines (hf : Ty.Formative T) (hc : Ty.Calculable T) :
    ∀ spec ∈ routines.map (fun r => routineSpec r.name
      { kind := r.kind, params := r.params, required := r.required, result := r.result }),
      spec.Made T := by
  have plain : ∀ r ∈ routines, (r.result :: r.params).all Ty.isPlain := by decide
  intro spec hspec
  obtain ⟨r, hr, rfl⟩ := List.mem_map.1 hspec
  have all := List.all_eq_true.1 (plain r hr)
  rw [List.forall_mem_cons] at all
  exact made_routineSpec hf _ ⟨fun p hp => hc.plain (all.2 p hp), hc.plain all.1⟩

/-- The tables that a session starts from have a property if the intrinsic types have it. -/
theorem made_build (hf : Ty.Formative T) (hc : Ty.Calculable T) {settings : Settings}
    (hi : ∀ intrinsic : Intrinsic, T (intrinsic.ty settings.target)) :
    (build settings).2.Made T := by
  have leading : (addAll (blank settings) ⟨0⟩ (leadingSpecs settings ⟨0⟩)).Made T :=
    made_addAll (made_blank hf settings) ⟨0⟩ (made_leadingSpecs hf hi ⟨0⟩)
  have rooted := made_addRoot hf leading "TObject" .classType (made_classMethods hf hc)
  have referring : ∀ id, (addAll _ ⟨0⟩ [typeSpec "TClass" (.classRef (.struct id))]).Made T :=
    fun id => made_addAll rooted ⟨0⟩ (by simpa using made_typeSpec _ (hf.classRef (hf.struct id)))
  have opened := fun id =>
    made_addRoot hf (referring id) "IInterface" .interface (made_interfaceMethods hf hc)
  exact (made_addAll (opened _) ⟨0⟩ (made_routines hf hc)).freezeScope ⟨0⟩

end SystemUnit

/-- In every session, a routine has a signature. -/
theorem Session.signed_run (settings : Settings) (operations : List Session.Operation) (d : DeclId)
    (h : (((start settings).run operations).env.declaration d).kind = .routine) :
    (((start settings).run operations).env.declaration d).routine.isSome = true := by
  have formative : Ty.Formative fun _ => True := by constructor <;> intros <;> trivial
  have hereditary : Ty.Hereditary fun _ => True := by
    constructor
    · constructor <;> intros <;> trivial
    all_goals intros; trivial
  have begun : (start settings).env.Made fun _ => True :=
    SystemUnit.made_build formative hereditary.toCalculable fun _ => trivial
  exact ((invariant_made formative hereditary).run begun operations).declarations d |>.signed h

end Pascal
