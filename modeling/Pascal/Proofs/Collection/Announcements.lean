import Pascal.Proofs.Collection.Stretches
import Pascal.Proofs.Lookups

/-!
# Announced structured types

A structured type may be announced in a scope before it is described. What becomes of an announcement
is told by the type declarations of its name in the scope and by whether the type has been described
so far. Both change at few moments of a collection only.
-/

namespace Pascal

open Environment

namespace Environment

/-- The type declarations of a name in a scope, in order. -/
def typesNamed (env : Environment) (s : ScopeId) (name : FoldedName) : List DeclId :=
  (env.symbols.findFolded s name).filter fun d => (env.declaration d).isType

/-- The first of several declarations that declares a type. -/
def firstType? (env : Environment) (found : List DeclId) : Option DeclId :=
  found.find? fun d => (env.declaration d).isType

/-- The declaration that answers a reference to a type by a possibly dotted name. -/
def referent? (env : Environment) (scope : ScopeId) (name : String) : Option DeclId :=
  (env.firstType? (env.find scope name)).or <| do
    let (qualifier, member) ← Name.splitLast name
    let qualified := env.find scope qualifier
    match qualified.findSome? fun id => (env.declaration id).unitScope with
    | some unit => env.firstType? (env.findInUnit scope unit member)
    | none => do
      let owner ← (← env.typeNamed? qualified).struct?
      env.firstType? (env.findInStruct owner member)

variable {env : Environment} {s scope : ScopeId} {name : String}

theorem typeNamed?_eq_map (found : List DeclId) :
    env.typeNamed? found = (env.firstType? found).map fun d => (env.declaration d).ty := by
  induction found with
  | nil => rfl
  | cons d rest ih =>
    unfold typeNamed? firstType? at ih ⊢
    cases hd : (env.declaration d).isType <;> simp [hd, ih]

/-- The only type that a scope has of a name is the first that is found there. -/
theorem firstType?_find_of_typesNamed {d : DeclId} (h : env.typesNamed s (Name.fold name) = [d]) :
    env.firstType? (env.find s name) = some d := by
  have own : env.symbols.findFolded s (Name.fold name) ≠ [] := by
    intro none
    simp [typesNamed, none] at h
  rw [find_of_own own, firstType?, ← List.head?_filter]
  exact congrArg List.head? h

/-- A reference denotes the type of the declaration that answers it. -/
theorem namedType?_eq_map (scope : ScopeId) (name : String) :
    env.namedType? scope name = (env.referent? scope name).map fun d => (env.declaration d).ty := by
  unfold namedType? referent?
  rw [typeNamed?_eq_map]
  cases env.firstType? (env.find scope name) with
  | some d => rfl
  | none =>
    rw [Option.map_none, Option.none_or]
    cases Name.splitLast name with
    | none => rfl
    | some split =>
      simp only [Option.bind_eq_bind, Option.bind_some, qualifiedType?]
      cases (env.find scope split.1).findSome? fun id => (env.declaration id).unitScope with
      | some unit => exact typeNamed?_eq_map _
      | none =>
        cases env.typeNamed? (env.find scope split.1) with
        | none => rfl
        | some ty =>
          simp only [Option.bind_some]
          cases ty.struct? with
          | none => rfl
          | some owner => exact typeNamed?_eq_map _

/-- What an announcement is found by is among the type declarations of its name. -/
theorem placeholder?_eq (s : ScopeId) (name : String) : env.placeholder? s name =
    (env.typesNamed s (Name.fold name)).findSome? fun d =>
      match (env.declaration d).ty with
      | .struct struct => if (env.types.structInfo struct).forward then some (d, struct) else none
      | _ => none := by
  unfold placeholder? typesNamed SymbolTable.shallowFind
  induction env.symbols.findFolded s (Name.fold name) with
  | nil => rfl
  | cons d rest ih =>
    cases hd : (env.declaration d).isType
    · rw [List.findSome?_cons, ih, List.filter_cons_of_neg (by simp [hd])]
      cases hty : (env.declaration d).ty <;> simp [hd, hty]
    · rw [List.findSome?_cons, ih, List.filter_cons_of_pos (by simp [hd]), List.findSome?_cons]
      cases hty : (env.declaration d).ty <;> simp [hd, hty]

theorem mem_typesNamed_of_placeholder? {found : DeclId × StructId}
    (h : env.placeholder? s name = some found) : found.1 ∈ env.typesNamed s (Name.fold name) := by
  rw [placeholder?_eq] at h
  obtain ⟨d, hd, h⟩ := List.exists_of_findSome?_eq_some h
  split at h
  · split_ifs at h
    cases h
    exact hd
  · cases h

theorem typesNamed_add (filed : env.Filed) (scope : ScopeId) (spec : DeclarationSpec)
    (s : ScopeId) (name : FoldedName) : (env.add scope spec).2.typesNamed s name =
      env.typesNamed s name ++
        if s = scope ∧ name = Name.fold spec.name ∧ spec.isType = true then [⟨env.symbols.size⟩]
        else [] := by
  have later := extends_add env scope spec
  have spelled := (@declaration_add_new env scope spec).2
  have listed : (env.add scope spec).2.symbols.findFolded s name = _ := SymbolTable.findFolded_add name
  rw [typesNamed, listed, List.filter_append]
  congr 1
  · refine List.filter_congr fun d hd => ?_
    rw [later.decl d (filed s name d hd).1]
  · have kind := congrArg DeclarationSpec.isType spelled
    by_cases here : s = scope ∧ name = Name.fold spec.name
    · obtain ⟨rfl, rfl⟩ := here
      simp only [true_and, if_true, and_self]
      cases ht : spec.isType
      · simp [kind.trans ht]
      · simp [kind.trans ht]
    · rw [if_neg here, if_neg fun h => here ⟨h.1, h.2.1⟩, List.filter_nil]

end Environment

namespace Collecting

variable {ctx : CollectionContext} {base env : Environment} {σ τ : CollectionState} {s : ScopeId}
  {name : FoldedName} {struct : StructId} {deed : Deed} {moments : List Moment}

/-! ## Type declarations -/

theorem Calm.typesNamed_eq (h : Calm ctx base env) (filed : base.Filed) (s : ScopeId)
    (name : FoldedName) : env.typesNamed s name = base.typesNamed s name := by
  obtain ⟨new, listed, untyped⟩ := h.untyped s name
  have none : new.filter (fun d => (env.declaration d).isType) = [] :=
    List.filter_eq_nil_iff.2 fun d hd => by simp [(untyped d hd).2]
  rw [typesNamed, listed, List.filter_append, none, List.append_nil]
  refine List.filter_congr fun d hd => ?_
  rw [h.grows.decl d (filed s name d hd).1]

/-- A name gets another type declaration in a scope only where it is declared there. -/
theorem Does.typesNamed_eq (h : Does ctx σ deed τ) (filed : σ.env.Filed)
    (other : deed.declares? ≠ some (s, name)) :
    τ.env.typesNamed s name = σ.env.typesNamed s name := by
  cases h with
  | refer => cases σ.env.namedType? _ _ <;> rfl
  | record => rfl
  | @identify _ _ n type scope spelling _ _ _ _ _ _ run =>
    obtain ⟨d, -, rfl⟩ | ⟨-, -, rfl⟩ := run_structIdentity run
    · rfl
    · have announced : ∀ kind forward, (σ.env.announce spelling kind scope forward).Filed :=
        fun _ _ => filed
      refine (typesNamed_add (announced _ _) _ _ _ _).trans ?_
      rw [if_neg fun here => other (by rw [here.1, here.2.1]; rfl), List.append_nil]
      rfl
  | declare _ run =>
    obtain ⟨-, rfl⟩ := eq_of_run_declareAt run
    refine (typesNamed_add filed _ _ _ _).trans ?_
    rw [if_neg fun here => other (by rw [here.1, here.2.1]; rfl), List.append_nil]
  | describe => rfl
  | body implements blank place read params seek attach opens =>
    exact (Does.body implements blank place read params seek attach opens).opens.tables.typesNamed_eq
      filed s name

theorem Course.filed (h : Course ctx σ moments τ) (filed : σ.env.Filed) : τ.env.Filed :=
  h.spares.tables.steps.filed filed

theorem Course.typesNamed_eq (h : Course ctx σ moments τ) (filed : σ.env.Filed)
    (other : ∀ moment ∈ moments, moment.deed.declares? ≠ some (s, name)) :
    τ.env.typesNamed s name = σ.env.typesNamed s name := by
  induction h with
  | pause h => exact h.tables.typesNamed_eq filed s name
  | moment before does after ih =>
    rw [List.forall_mem_cons] at other
    have ready := before.tables.steps.filed filed
    rw [ih (does.onward.steps.filed ready) other.2, does.typesNamed_eq ready other.1,
      before.tables.typesNamed_eq filed]

/-- What is recorded at a reference is the type of the declaration that answers it. -/
theorem Does.refers {n : NodeId} {scope : ScopeId} {spelling : String} {d : DeclId}
    (h : Does ctx σ (.refer n scope spelling) τ)
    (answered : σ.env.referent? scope spelling = some d) :
    τ.annotations.type? n = some (σ.env.declaration d).ty := by
  cases h with
  | refer =>
    rw [namedType?_eq_map, answered]
    exact (Annotations.type?_setType ..).trans (if_pos rfl)

/-! ## Announcements -/

/-- A structured type stays announced until it is described. -/
theorem Does.forward_eq (h : Does ctx σ deed τ) (has : σ.env.Has (.struct struct))
    (other : deed.describes? ≠ some struct) :
    (τ.env.types.structInfo struct).forward = (σ.env.types.structInfo struct).forward := by
  cases h with
  | refer => cases σ.env.namedType? _ _ <;> rfl
  | record => rfl
  | @identify _ _ _ _ scope spelling kind announces _ _ _ _ run =>
    obtain ⟨d, -, rfl⟩ | ⟨-, -, rfl⟩ := run_structIdentity run
    · rfl
    · change ((σ.env.announce spelling kind scope announces).types.structInfo struct).forward = _
      rw [structInfo_announce has]
  | declare _ run =>
    obtain ⟨-, rfl⟩ := eq_of_run_declareAt run
    rfl
  | describe n described parents helped =>
    by_cases there : σ.env.Has (.struct described)
    · refine congrArg StructInfo.forward ((TypeTable.structInfo_completeStruct _ _ _ there).trans ?_)
      exact if_neg fun same => other (by rw [same]; rfl)
    · rw [completeStruct_of_not_has there]
      rfl
  | body implements blank place read params seek attach opens =>
    have opens := (Does.body implements blank place read params seek attach opens).opens
    rw [opens.tables.structs struct has]

theorem Course.forward_eq (h : Course ctx σ moments τ) (has : σ.env.Has (.struct struct))
    (other : ∀ moment ∈ moments, moment.deed.describes? ≠ some struct) :
    (τ.env.types.structInfo struct).forward = (σ.env.types.structInfo struct).forward := by
  induction h with
  | pause h => rw [h.tables.structs struct has]
  | moment before does after ih =>
    rw [List.forall_mem_cons] at other
    have there := before.tables.grows.has _ has
    rw [ih (does.onward.grows.has _ there) other.2, does.forward_eq there other.1,
      before.tables.structs struct has]

/-- A structured type that is described is announced no more. -/
theorem Course.forward_eq_false (h : Course ctx σ moments τ) (has : σ.env.Has (.struct struct))
    (described : ∃ moment ∈ moments, moment.deed.describes? = some struct) :
    (τ.env.types.structInfo struct).forward = false := by
  obtain ⟨moment, hmoment, hdeed⟩ := described
  obtain ⟨first, second, rfl⟩ := List.append_of_mem hmoment
  obtain ⟨before, does, after⟩ := h.split
  have there := before.spares.tables.grows.has _ has
  have done : (moment.after.env.types.structInfo struct).forward = false := by
    cases hd : moment.deed with
    | describe n other =>
      rw [hd] at does hdeed
      cases hdeed
      generalize moment.after = reached at does
      cases does with
      | describe _ _ parents helped =>
        change ((moment.before.env.types.completeStruct struct parents helped).structInfo
          struct).forward = false
        rw [TypeTable.structInfo_completeStruct struct parents helped there, if_pos rfl]
    | _ => simp [hd, Deed.describes?] at hdeed
  by_contra still
  rw [Bool.not_eq_false] at still
  have announced := after.spares.tables.grows.announced struct (does.onward.grows.has _ there) still
  rw [done] at announced
  cases announced

/-! ## Identities -/

/-- What is recorded where a structured type gets its identity. A type declaration keeps the
declaration that it has. -/
structure Identified (σ : CollectionState) (n type : NodeId) (d : DeclId) (struct : StructId)
    (τ : CollectionState) : Prop where
  attached : τ.annotations.declaration? n = (σ.annotations.declaration? n).or (some d)
  typed : τ.annotations.type? type = some (.struct struct)

/-- What becomes of the tables where a structured type gets an identity of its own. -/
structure Founds (env : Environment) (scope : ScopeId) (name : FoldedName) (announces : Bool)
    (d : DeclId) (struct : StructId) (next : Environment) : Prop where
  fresh : ¬env.Has (.decl d)
  unmade : ¬env.Has (.struct struct)
  has : next.Has (.decl d)
  made : next.Has (.struct struct)
  listed : next.typesNamed scope name = env.typesNamed scope name ++ [d]
  denotes : (next.declaration d).ty = .struct struct
  forward : (next.types.structInfo struct).forward = announces

section Identities

variable {n type : NodeId} {scope : ScopeId} {spelling : String} {announces : Bool} {d : DeclId}

theorem identified_of_setDeclaration {σ τ : CollectionState}
    (h : τ.annotations = σ.annotations.setDeclaration n d) :
    Identified σ n type d struct
      { τ with annotations := τ.annotations.setType type (.struct struct) } := by
  constructor
  · change (τ.annotations.declaration? n) = _
    rw [h, Annotations.declaration?_setDeclaration, if_pos rfl]
  · rw [Annotations.type?_setType, if_pos rfl]

theorem Does.kind_of_identify (h : Does ctx σ (.identify n type scope spelling announces struct) τ) :
    ctx.tree.kind n = .typeDeclaration spelling := by
  cases h with
  | identify declares => exact declares

/-- A structured type that has not been announced gets an identity of its own. -/
theorem Does.introduces (h : Does ctx σ (.identify n type scope spelling announces struct) τ)
    (filed : σ.env.Filed) (unannounced : σ.env.placeholder? scope spelling = none) :
    ∃ d, Founds σ.env scope (Name.fold spelling) announces d struct τ.env ∧
      Identified σ n type d struct τ := by
  cases h with
  | @identify _ τ _ _ _ _ kind _ _ _ _ _ run =>
    obtain ⟨d, found, -⟩ | ⟨-, rfl, rfl⟩ := run_structIdentity run
    · rw [unannounced] at found
      cases found
    · have announced : (σ.env.announce spelling kind scope announces).Filed := filed
      refine ⟨⟨σ.env.symbols.size⟩, ?_, identified_of_setDeclaration rfl⟩
      constructor
      case fresh => exact Nat.lt_irrefl _
      case unmade => exact Nat.lt_irrefl _
      case has => exact has_add.2 (.inr rfl)
      case made =>
        change σ.env.types.structs.size < (σ.env.types.structs.push _).size
        rw [Array.size_push]
        exact Nat.lt_succ_self _
      case listed =>
        refine (typesNamed_add announced _ _ _ _).trans ?_
        rw [if_pos ⟨rfl, rfl, rfl⟩]
        rfl
      case denotes => exact congrArg DeclarationSpec.ty declaration_add_new.2
      case forward =>
        change ((σ.env.announce spelling kind scope announces).types.structInfo
          ⟨σ.env.types.structs.size⟩).forward = announces
        rw [structInfo_announce_new]

/-- A structured type that has been announced has the identity that it was announced with. -/
theorem Does.completes (h : Does ctx σ (.identify n type scope spelling announces struct) τ)
    {announced : StructId} (found : σ.env.placeholder? scope spelling = some (d, announced)) :
    struct = announced ∧ τ.env = σ.env ∧ Identified σ n type d struct τ := by
  cases h with
  | identify _ _ _ run =>
    obtain ⟨d, same, rfl⟩ | ⟨none, -⟩ := run_structIdentity run
    · rw [found] at same
      cases same
      exact ⟨rfl, rfl, identified_of_setDeclaration rfl⟩
    · rw [found] at none
      cases none

end Identities

/-! ## Type declarations and references have their moments -/

section Moments

variable {n : NodeId} {spelling : String} {d : DeclId}

/-- A type declaration keeps its declaration unless something is declared there. -/
theorem Does.keeps_declaration (h : Does ctx σ deed τ)
    (hn : ctx.tree.kind n = .typeDeclaration spelling)
    (other : deed.declares? = none ∨ n ∉ deed.marks) :
    τ.annotations.declaration? n = σ.annotations.declaration? n := by
  have shares : (ctx.tree.kind n).sharesDeclaration = true := by rw [hn]; rfl
  obtain silent | unmarked := other
  · cases h with
    | refer => cases σ.env.namedType? _ _ <;> rfl
    | record => rfl
    | identify => cases silent
    | declare => cases silent
    | describe => rfl
    | body implements blank place read params seek attach opens =>
      have opens := (Does.body implements blank place read params seek attach opens).opens
      rw [opens.attached n shares, if_neg, Option.or_none]
      rintro rfl
      rw [hn] at implements
      cases implements
  · exact h.spares.attached n unmarked shares

theorem Course.keeps_declaration (h : Course ctx σ moments τ)
    (hn : ctx.tree.kind n = .typeDeclaration spelling)
    (other : ∀ moment ∈ moments, moment.deed.declares? = none ∨ n ∉ moment.deed.marks) :
    τ.annotations.declaration? n = σ.annotations.declaration? n := by
  induction h with
  | pause h => exact h.attached n (by rw [hn]; rfl)
  | moment before does after ih =>
    rw [List.forall_mem_cons] at other
    rw [ih other.2, does.keeps_declaration hn other.1, before.attached n (by rw [hn]; rfl)]

/-- What is declared at a type declaration is a type of its name, in the scope of the moment. -/
theorem Does.declares (h : Does ctx σ deed τ) (filed : σ.env.Filed)
    (hn : ctx.tree.kind n = .typeDeclaration spelling) (marked : n ∈ deed.marks)
    (declares : deed.declares? ≠ none) (blank : σ.annotations.declaration? n = none) :
    ∃ s d, deed.declares? = some (s, Name.fold spelling) ∧
      τ.annotations.declaration? n = some d ∧ d ∈ τ.env.typesNamed s (Name.fold spelling) := by
  cases deed with
  | identify m type scope name announces struct =>
    obtain rfl : n = m := by
      refine (List.mem_pair.1 marked).resolve_right ?_
      rintro rfl
      cases h with
      | identify _ _ announced =>
        rw [hn] at announced
        split_ifs at announced
    obtain rfl := NodeKind.typeDeclaration.inj (hn.symm.trans h.kind_of_identify)
    cases found : σ.env.placeholder? scope spelling with
    | none =>
      obtain ⟨d, founds, identified⟩ := h.introduces filed found
      refine ⟨scope, d, rfl, by rw [identified.attached, blank, Option.none_or], ?_⟩
      rw [founds.listed]
      exact List.mem_append_right _ (List.mem_singleton_self d)
    | some announced =>
      obtain ⟨-, tables, identified⟩ := h.completes found
      refine ⟨scope, announced.1, rfl, by rw [identified.attached, blank, Option.none_or], ?_⟩
      rw [tables]
      exact mem_typesNamed_of_placeholder? found
  | declare m scope name =>
    obtain rfl := List.mem_singleton.1 marked
    cases h with
    | declare kind run =>
      obtain rfl := NodeKind.typeDeclaration.inj (hn.symm.trans kind)
      obtain ⟨rfl, rfl⟩ := eq_of_run_declareAt run
      refine ⟨scope, ⟨σ.env.symbols.size⟩, rfl, ?_, ?_⟩
      · rw [Annotations.declaration?_setDeclaration, if_pos rfl, blank, Option.none_or]
      · rw [typesNamed_add filed, if_pos ⟨rfl, rfl, rfl⟩]
        exact List.mem_append_right _ (List.mem_singleton_self _)
  | _ => exact absurd rfl declares

/-- A reference keeps its type unless it is looked up. -/
theorem Does.keeps_reference (h : Does ctx σ deed τ)
    (hn : ctx.tree.kind n = .typeReference spelling)
    (other : ∀ scope, deed ≠ .refer n scope spelling) :
    τ.annotations.type? n = σ.annotations.type? n := by
  have spares := h.spares
  refine spares.types n fun marked => ?_
  cases h with
  | @refer _ m scope name kind =>
    obtain rfl := List.mem_singleton.1 marked
    obtain rfl := NodeKind.typeReference.inj (hn.symm.trans kind)
    exact other scope rfl
  | record elsewhere =>
    obtain rfl := List.mem_singleton.1 marked
    exact elsewhere spelling hn
  | identify declares _ announced =>
    obtain rfl | rfl := List.mem_pair.1 marked
    · rw [hn] at declares
      cases declares
    · rw [hn] at announced
      split_ifs at announced
  | declare declares =>
    obtain rfl := List.mem_singleton.1 marked
    rw [hn] at declares
    cases declares
  | describe => cases marked
  | body implements =>
    obtain rfl := List.mem_singleton.1 marked
    rw [hn] at implements
    cases implements

theorem Course.keeps_reference (h : Course ctx σ moments τ)
    (hn : ctx.tree.kind n = .typeReference spelling)
    (other : ∀ moment ∈ moments, ∀ scope, moment.deed ≠ .refer n scope spelling) :
    τ.annotations.type? n = σ.annotations.type? n := by
  induction h with
  | pause h => exact h.types n
  | moment before does after ih =>
    rw [List.forall_mem_cons] at other
    rw [ih other.2, does.keeps_reference hn other.1, before.types n]

end Moments

end Collecting

end Pascal
