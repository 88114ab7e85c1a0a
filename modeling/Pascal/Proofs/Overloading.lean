import Pascal.Overload.Operators
import Pascal.Proofs.Agreement

/-!
# Overloading within a world

Conversions, images and widths of types of a world depend on nothing outside it. So do the
candidates of operators and the choice among candidates, and what is chosen lies in the world again.
-/

namespace Pascal

namespace Ty

variable {W : Set Entity}

theorem within_of_refs_nil {ty : Ty} (h : ty.refs = []) : ty.Within W := by
  simp [Within, h]

@[simp] theorem within_bracket {elements : List Ty} :
    (bracket elements).Within W ↔ ∀ ty ∈ elements, ty.Within W := by
  simp only [Within, refs, mem_refsAll]
  constructor
  · exact fun h ty hty x hx => h x ⟨ty, hty, hx⟩
  · rintro h x ⟨ty, hty, hx⟩
    exact h ty hty x hx

@[simp] theorem within_procedural {kind : ProceduralKind} {params : List Ty} {result : Ty} :
    (procedural kind params result).Within W ↔
      (∀ ty ∈ params, ty.Within W) ∧ result.Within W := by
  simp only [Within, refs, List.mem_append, mem_refsAll]
  constructor
  · exact fun h => ⟨fun ty hty x hx => h x (.inl ⟨ty, hty, hx⟩), fun x hx => h x (.inr hx)⟩
  · rintro ⟨hp, hr⟩ x (⟨ty, hty, hx⟩ | hx)
    · exact hp ty hty x hx
    · exact hr x hx

end Ty

/-! ## Built-in meanings -/

/-- Types that are not made of others, structured types and enumerations apart. -/
def Ty.isPlain : Ty → Bool
  | untyped | void | decimal _ _ | boolean _ | text _ | variant _ | matcher _ => true
  | integer ty => ty.size ∈ [1, 2, 4, 8]
  | _ => false

/-- A property that the built-in meanings of operators keep. -/
structure Ty.Calculable (T : Ty → Prop) : Prop where
  plain {ty : Ty} (h : ty.isPlain = true) : T ty
  joined {elements : List Ty} (types : TypeTable) (h : T (.bracket elements)) :
    T (.bracket [types.widest elements])

/-- What a signature takes and gives has a property. -/
structure Invocable.Made (T : Ty → Prop) (invocable : Invocable) : Prop where
  params : ∀ p ∈ invocable.params, T p
  result : T invocable.result

theorem TypeTable.mem_widest (types : TypeTable) (best : Ty) (tys : List Ty) :
    types.widestFrom best tys ∈ best :: tys := by
  fun_induction widestFrom types best tys <;> grind

namespace Operator

variable {T : Ty → Prop}

theorem made_between {name : String} {left right result : Ty} (hl : T left) (hr : T right)
    (h : T result) : (between name left right result).Made T := by
  refine ⟨?_, h⟩
  simp only [between, Invocable.builtin, List.forall_mem_cons]
  exact ⟨hl, hr, by simp⟩

theorem made_of_plain (hT : Ty.Calculable T) {candidates : List Invocable}
    (h : candidates.all fun c => (c.result :: c.params).all Ty.isPlain) :
    ∀ c ∈ candidates, c.Made T := by
  intro c hc
  have plain := List.all_eq_true.1 h c hc
  simp only [List.all_cons, Bool.and_eq_true, List.all_eq_true] at plain
  exact ⟨fun p hp => hT.plain (plain.2 p hp), hT.plain plain.1⟩

theorem made_onPointer (hT : Ty.Calculable T) {pointer : Ty} (hp : T pointer)
    (operator : BinaryOperator) : ∀ c ∈ onPointer pointer operator, c.Made T := by
  have int : T .int := hT.plain rfl
  have operand : T (.matcher .pointerMathOperand) := hT.plain rfl
  cases operator with
  | add =>
    simp only [onPointer, List.forall_mem_cons]
    exact ⟨made_between hp int hp, made_between int hp hp, made_between hp operand hp, by simp⟩
  | subtract =>
    simp only [onPointer, List.forall_mem_cons]
    exact ⟨made_between hp int hp, made_between hp operand int, by simp⟩
  | _ => simp [onPointer]

theorem made_onSet {set : Ty} (hs : T set) (operator : BinaryOperator) :
    ∀ c ∈ onSet set operator, c.Made T := by
  cases operator with
  | add | subtract | multiply =>
    simp only [onSet, List.forall_mem_cons]
    exact ⟨made_between hs hs hs, by simp⟩
  | _ => simp [onSet]

theorem made_onJoinable {ty : Ty} (ht : T ty) (operator : BinaryOperator) :
    ∀ c ∈ onJoinable ty operator, c.Made T := by
  cases operator with
  | add =>
    simp only [onJoinable, List.forall_mem_cons]
    exact ⟨made_between ht ht ht, by simp⟩
  | _ => simp [onJoinable]

theorem made_builtinBinary (hT : Ty.Calculable T) (types : TypeTable) (operator : BinaryOperator)
    {ty : Ty} (ht : T ty) : ∀ c ∈ builtinBinary types operator ty, c.Made T := by
  cases ty with
  | pointer target isNil math =>
    cases math with
    | true => exact made_onPointer hT ht operator
    | false => simp [builtinBinary]
  | set element => exact made_onSet ht operator
  | bracket elements => exact made_onSet (hT.joined types ht) operator
  | array kind element =>
    cases kind with
    | dynamic => exact made_onJoinable ht operator
    | _ => simp [builtinBinary]
  | text kind => exact made_onJoinable (hT.plain rfl) operator
  | integer | decimal | boolean | variant => exact made_of_plain hT (by cases operator <;> rfl)
  | _ => simp [builtinBinary]

theorem made_builtinUnary (hT : Ty.Calculable T) (types : TypeTable) (operator : UnaryOperator)
    (ty : Ty) : ∀ c ∈ builtinUnary types operator ty, c.Made T :=
  made_of_plain hT (by cases ty <;> cases operator <;> rfl)

theorem undeclared_builtinBinary (types : TypeTable) (operator : BinaryOperator) (ty : Ty) :
    (builtinBinary types operator ty).all (·.declaration.isNone) = true := by
  cases ty with
  | pointer target isNil math => cases math <;> cases operator <;> rfl
  | array kind element => cases kind <;> cases operator <;> rfl
  | _ => cases operator <;> rfl

end Operator

/-- A signature over the types and declarations of a world. -/
structure Invocable.Within (W : Set Entity) (invocable : Invocable) : Prop where
  params : ∀ ty ∈ invocable.params, ty.Within W
  result : invocable.result.Within W
  declaration : ∀ d, invocable.declaration = some d → .decl d ∈ W

theorem Operator.within_of_made {W : Set Entity} {candidates : List Invocable}
    (made : ∀ c ∈ candidates, c.Made (Ty.Within W))
    (undeclared : candidates.all (·.declaration.isNone) = true) : ∀ c ∈ candidates, c.Within W := by
  intro c hc
  have none := List.all_eq_true.1 undeclared c hc
  exact ⟨(made c hc).params, (made c hc).result, by simp [Option.isNone_iff_eq_none.1 none]⟩

theorem Ty.calculable_within (W : Set Entity) : Calculable (Within W) where
  plain {ty} h := by cases ty <;> first | exact within_of_refs_nil rfl | cases h
  joined {elements} types h := by
    rw [within_bracket] at h
    cases elements with
    | nil => simpa [TypeTable.widest] using within_of_refs_nil rfl
    | cons ty rest => simpa [TypeTable.widest] using h _ (types.mem_widest ty rest)

namespace Resolution

/-- A choice among signatures over a world. -/
def Within (W : Set Entity) (resolution : Resolution) : Prop :=
  ∀ c ∈ resolution.winners, c.Within W

theorem winners_ofWinners (winners : List Invocable) : (ofWinners winners).winners = winners := by
  match winners with
  | [] | [_] | _ :: _ :: _ => rfl

theorem Within.chosen {W : Set Entity} {resolution : Resolution} (h : resolution.Within W)
    {c : Invocable} (hc : resolution.chosen? = some c) : c.Within W := by
  cases resolution with
  | resolved chosen =>
    cases hc
    exact h _ (List.mem_singleton_self _)
  | ambiguous chosen others =>
    cases hc
    exact h _ List.mem_cons_self
  | noApplicable => cases hc

end Resolution

namespace Environment

section Types

variable {W : Set Entity} {env env' : Environment} (h : Agree W env env')

include h

/-! ## Conversions -/

theorem Agree.upcast {sub : StructId} (hs : .struct sub ∈ W)
    (sup : StructId) : env'.types.upcast sub sup = env.types.upcast sub sup := by
  simp only [TypeTable.upcast, TypeTable.inheritanceDistance, (h.ancestors hs).1]

theorem Agree.acceptsNil {ty : Ty} (ht : ty.Within W) :
    env'.types.acceptsNil ty = env.types.acceptsNil ty := by
  cases ty with
  | struct id => simp only [TypeTable.acceptsNil, h.struct id (ht _ (List.mem_singleton_self _))]
  | _ => rfl

omit h in
theorem allConvert_congr {types types' : TypeTable} {elements : List Ty} {target : Ty}
    (h : ∀ element ∈ elements, types'.bareConversion element target.unaliased =
      types.bareConversion element target.unaliased) :
    types'.allConvert elements target = types.allConvert elements target := by
  induction elements with
  | nil => rfl
  | cons element rest ih =>
    simp only [List.forall_mem_cons] at h
    simp only [TypeTable.allConvert, h.1, ih h.2]

theorem Agree.bareConversion {argument : Ty} (ha : argument.Within W)
    {parameter : Ty} (hp : parameter.Within W) :
    env'.types.bareConversion argument parameter = env.types.bareConversion argument parameter := by
  induction argument using Ty.induct generalizing parameter with
  | struct id =>
    have hid := ha _ (List.mem_singleton_self _)
    cases parameter <;> simp only [TypeTable.bareConversion, h.upcast hid]
  | pointer target isNil math ih =>
    simp only [TypeTable.bareConversion, TypeTable.pointerConversion, h.acceptsNil hp]
  | set element ih =>
    cases parameter with
    | set target =>
      simp only [TypeTable.bareConversion, ih ha (@Ty.Within.unaliased W target hp)]
    | _ => rfl
  | classRef target ih =>
    cases parameter with
    | classRef other =>
      simp only [TypeTable.bareConversion]
      cases hs : target.struct? with
      | none => rfl
      | some sub =>
        cases other.struct? with
        | none => rfl
        | some sup => exact h.upcast (@Ty.Within.struct? W target ha sub hs) sup
    | _ => rfl
  | distinct name target ih => exact ih ha hp
  | bracket elements ih =>
    rw [Ty.within_bracket] at ha
    have all : ∀ target : Ty, target.Within W →
        env'.types.allConvert elements target = env.types.allConvert elements target :=
      fun target ht => allConvert_congr fun element he => ih element he (ha element he) ht.unaliased
    cases parameter with
    | set target => simp only [TypeTable.bareConversion, all target hp]
    | array kind target => cases kind <;> simp only [TypeTable.bareConversion, all target hp]
    | bracket targets =>
      rw [Ty.within_bracket] at hp
      cases targets with
      | nil => rfl
      | cons target rest => simp only [TypeTable.bareConversion, all target (hp _ (by simp))]
    | _ => rfl
  | _ => rfl

/-- Arguments reach parameters in the same way. -/
theorem Agree.conversion {argument parameter : Ty}
    (ha : argument.Within W) (hp : parameter.Within W) :
    env'.types.conversion argument parameter = env.types.conversion argument parameter := by
  simp only [TypeTable.conversion, h.bareConversion ha hp.unaliased]

/-! ## Images -/

omit h in
theorem images_congr {types types' : TypeTable} {tys : List Ty}
    (h : ∀ ty ∈ tys, types'.image ty = types.image ty) : types'.images tys = types.images tys := by
  induction tys with
  | nil => rfl
  | cons ty rest ih =>
    simp only [List.forall_mem_cons] at h
    cases rest with
    | nil => exact h.1
    | cons next rest => simp only [TypeTable.images, h.1, ih h.2]

/-- Types are shown alike. -/
theorem Agree.image {ty : Ty} (ht : ty.Within W) :
    env'.types.image ty = env.types.image ty := by
  induction ty using Ty.induct with
  | struct id => simp only [TypeTable.image, h.struct id (ht _ (List.mem_singleton_self _))]
  | enum id => simp only [TypeTable.image, h.enum id (ht _ (List.mem_singleton_self _))]
  | pointer target isNil math ih =>
    cases isNil with
    | true => rfl
    | false =>
      cases target with
      | untyped => rfl
      | _ => exact congrArg ("^" ++ ·) (ih ht)
  | array kind element ih => cases kind <;> simp only [TypeTable.image, ih ht]
  | set element ih => simp only [TypeTable.image, ih ht]
  | procedural kind params result hps hr =>
    rw [Ty.within_procedural] at ht
    have images := images_congr fun ty hty => hps ty hty (ht.1 ty hty)
    simp only [TypeTable.image, images, hr ht.2]
  | classRef target ih => simp only [TypeTable.image, ih ht]
  | bracket elements ih =>
    rw [Ty.within_bracket] at ht
    have images := images_congr fun ty hty => ih ty hty (ht ty hty)
    simp only [TypeTable.image, images]
  | _ => rfl

theorem Agree.signature {invocable : Invocable}
    (hi : invocable.Within W) : env'.types.signature invocable = env.types.signature invocable := by
  have images := images_congr fun ty hty => h.image (hi.params ty hty)
  simp only [TypeTable.signature, images, h.image hi.result]

/-! ## Widths -/

theorem Agree.sizeWith {size size' : EnumId → Option Nat}
    (hs : ∀ id, .enum id ∈ W → size' id = size id) {ty : Ty} (ht : ty.Within W) :
    env'.types.sizeWith size' ty = env.types.sizeWith size ty := by
  induction ty using Ty.induct with
  | struct id =>
    simp only [TypeTable.sizeWith, h.struct id (ht _ (List.mem_singleton_self _)), h.target]
  | enum id => exact hs id (ht _ (List.mem_singleton_self _))
  | distinct name target ih => exact ih ht
  | text kind => cases kind <;> simp only [TypeTable.sizeWith, h.target]
  | procedural kind params result _ _ =>
    cases kind <;> simp only [TypeTable.sizeWith, h.target]
  | array kind element _ => cases kind <;> simp only [TypeTable.sizeWith, h.target]
  | _ => simp only [TypeTable.sizeWith, h.target]

theorem Agree.enumSize? (id : EnumId) (hid : .enum id ∈ W) :
    env'.types.enumSize? id = env.types.enumSize? id := by
  induction hn : id.index using Nat.strong_induction_on generalizing id with
  | _ index ih =>
    rw [TypeTable.enumSize?, TypeTable.enumSize?, h.enum id hid]
    cases hb : (env.types.enumInfo id).base with
    | none => rfl
    | some base =>
      refine h.sizeWith (fun earlier he => ?_) fun x hx => h.closed _ hid _ (.base hb hx)
      split_ifs with hlt
      · exact ih _ (hn ▸ hlt) earlier he rfl
      · rfl

/-- Widths of types are the same. -/
theorem Agree.sizeOf? {ty : Ty} (ht : ty.Within W) :
    env'.types.sizeOf? ty = env.types.sizeOf? ty := h.sizeWith h.enumSize? ht

theorem Agree.widest {tys : List Ty} (ht : ∀ ty ∈ tys, ty.Within W) :
    env'.types.widest tys = env.types.widest tys ∧ (env.types.widest tys).Within W := by
  have wider : ∀ rest : List Ty, (∀ ty ∈ rest, ty.Within W) → ∀ best : Ty, best.Within W →
      env'.types.widestFrom best rest = env.types.widestFrom best rest ∧
        (env.types.widestFrom best rest).Within W := by
    intro rest hr
    induction rest with
    | nil => exact fun best hb => ⟨rfl, hb⟩
    | cons ty rest ih =>
      intro best hb
      simp only [List.forall_mem_cons] at hr
      simp only [TypeTable.widestFrom, h.sizeOf? hb, h.sizeOf? hr.1]
      apply ih hr.2 _
      split_ifs
      · exact hr.1
      · exact hb
  cases tys with
  | nil => exact ⟨rfl, Ty.within_of_refs_nil rfl⟩
  | cons ty rest =>
    simp only [List.forall_mem_cons] at ht
    exact wider rest ht.2 ty ht.1

/-! ## Choosing -/

theorem Agree.rankFrom (rank : Rank) {arguments params : List Ty}
    (ha : ∀ ty ∈ arguments, ty.Within W) (hp : ∀ ty ∈ params, ty.Within W) :
    env'.types.rankFrom rank arguments params = env.types.rankFrom rank arguments params := by
  induction arguments generalizing rank params with
  | nil => rfl
  | cons argument arguments ih =>
    cases params with
    | nil => rfl
    | cons parameter params =>
      simp only [List.forall_mem_cons] at ha hp
      simp only [TypeTable.rankFrom, h.conversion ha.1 hp.1, ih _ ha.2 hp.2]

theorem Agree.declarationOrder {left right : Invocable} (hl : left.Within W) (hr : right.Within W) :
    env'.types.declarationOrder left right = env.types.declarationOrder left right := by
  simp only [TypeTable.declarationOrder, h.signature hl, h.signature hr]

theorem Agree.applicable {candidates : List Invocable} {arguments : List Ty}
    (hc : ∀ c ∈ candidates, c.Within W) (ha : ∀ ty ∈ arguments, ty.Within W) :
    env'.types.applicable candidates arguments = env.types.applicable candidates arguments :=
  List.filterMap_congr fun c hmem => by
    simp only [TypeTable.rank?, h.rankFrom {} ha (hc c hmem).params]

omit h in
theorem mem_of_mem_best {types : TypeTable} {candidates : List Invocable} {arguments : List Ty}
    {c : Invocable} (h : c ∈ TypeTable.best (types.applicable candidates arguments)) :
    c ∈ candidates := by
  obtain ⟨⟨c, rank⟩, hmem, rfl⟩ := List.mem_map.1 h
  obtain ⟨hmem, -⟩ := List.mem_filter.1 hmem
  obtain ⟨c', hc', heq⟩ := List.mem_filterMap.1 hmem
  obtain ⟨rank', -, heq⟩ := Option.map_eq_some_iff.1 heq
  cases heq
  exact hc'

/-- The same candidate is chosen. -/
theorem Agree.choose {candidates : List Invocable} {arguments : List Ty}
    (hc : ∀ c ∈ candidates, c.Within W) (ha : ∀ ty ∈ arguments, ty.Within W) :
    env'.types.choose candidates arguments = env.types.choose candidates arguments ∧
      (env.types.choose candidates arguments).Within W := by
  have best : ∀ c ∈ TypeTable.best (env.types.applicable candidates arguments), c.Within W :=
    fun c hmem => hc c (mem_of_mem_best hmem)
  constructor
  · simp only [TypeTable.choose, h.applicable hc ha]
    apply congrArg Resolution.ofWinners
    have sorted := @List.map_mergeSort _ _
      (fun l r => decide (env'.types.declarationOrder l r ≠ .gt))
      (fun l r => decide (env.types.declarationOrder l r ≠ .gt)) id
      (TypeTable.best (env.types.applicable candidates arguments))
      fun a ha b hb => by simp only [id, h.declarationOrder (best a ha) (best b hb)]
    simpa only [List.map_id] using sorted
  · simp only [Resolution.Within, TypeTable.choose, Resolution.winners_ofWinners,
      List.mem_mergeSort]
    exact best

/-! ## Candidates -/

theorem Agree.ofDeclaration? {d : DeclId} (hd : .decl d ∈ W) {c : Invocable}
    (hc : Invocable.ofDeclaration? d (env.declaration d).toDeclarationSpec = some c) :
    c.Within W := by
  obtain ⟨routine, hr, rfl⟩ := Option.map_eq_some_iff.1 hc
  have mentioned : ∀ ty ∈ routine.result :: routine.params, ty.Within W := by
    intro ty hty x hx
    refine h.closed _ hd _ (.mentioned ?_)
    simp only [DeclarationSpec.refs, hr, List.mem_append]
    exact .inl (.inr (Ty.mem_refsAll.2 ⟨ty, hty, hx⟩))
  simp only [List.forall_mem_cons] at mentioned
  refine ⟨mentioned.2, mentioned.1, ?_⟩
  rintro _ ⟨⟩
  exact hd

theorem Agree.operatorMethods {id : StructId} (hi : .struct id ∈ W) (operator : Operator) :
    env'.operatorMethods id operator = env.operatorMethods id operator ∧
      ∀ c ∈ env.operatorMethods id operator, c.Within W := by
  obtain ⟨hm, hmem⟩ := h.membersOf hi
  have listed : ∀ d ∈ env.symbols.declarationsIn (env.membersOf id), .decl d ∈ W :=
    fun d hd => h.closed _ hmem _ (.listed hd)
  constructor
  · simp only [Environment.operatorMethods, hm, h.listed _ hmem]
    exact List.filterMap_congr fun d hd => by simp only [h.decl d (listed d hd)]
  · intro c hc
    obtain ⟨d, hd, hc⟩ := List.mem_filterMap.1 hc
    simp only at hc
    split_ifs at hc
    exact h.ofDeclaration? (listed d hd) hc

theorem Agree.builtinBinary (operator : BinaryOperator) {ty : Ty} (ht : ty.Within W) :
    Operator.builtinBinary env'.types operator ty = Operator.builtinBinary env.types operator ty ∧
      ∀ c ∈ Operator.builtinBinary env.types operator ty, c.Within W := by
  refine ⟨?_, Operator.within_of_made
    (Operator.made_builtinBinary (Ty.calculable_within W) env.types operator ht)
    (Operator.undeclared_builtinBinary env.types operator ty)⟩
  cases ty with
  | bracket elements =>
    simp only [Operator.builtinBinary, (h.widest (Ty.within_bracket.1 ht)).1]
  | pointer target isNil math => cases math <;> rfl
  | array kind element => cases kind <;> rfl
  | _ => simp only [Operator.builtinBinary, h.target]

theorem Agree.builtinUnary (operator : UnaryOperator) (ty : Ty) :
    Operator.builtinUnary env'.types operator ty = Operator.builtinUnary env.types operator ty ∧
      ∀ c ∈ Operator.builtinUnary env.types operator ty, c.Within W := by
  constructor
  · cases ty with
    | variant kind => rfl
    | _ => simp only [Operator.builtinUnary, h.target]
  · exact Operator.within_of_made
      (Operator.made_builtinUnary (Ty.calculable_within W) env.types operator ty)
      (by cases ty <;> cases operator <;> rfl)

/-- An operand type brings the same candidates. -/
theorem Agree.candidates {ty : Ty} (ht : ty.Within W) (operator : Operator) :
    env'.candidates ty operator = env.candidates ty operator ∧
      ∀ c ∈ env.candidates ty operator, c.Within W := by
  have hw := ht.unaliased
  simp only [Environment.candidates, List.mem_eraseDups]
  generalize ty.unaliased = bare at hw
  cases operator with
  | binary operator =>
    obtain ⟨hb, hbuiltin⟩ := h.builtinBinary operator hw
    have further : ∀ c ∈ Operator.onAnything operator, c.Within W :=
      Operator.within_of_made (Operator.made_of_plain (Ty.calculable_within W)
        (by cases operator <;> rfl)) (by cases operator <;> rfl)
    cases bare with
    | struct id =>
      obtain ⟨hm, hmethods⟩ :=
        h.operatorMethods (hw _ (List.mem_singleton_self _)) (.binary operator)
      simp only [hm, true_and]
      exact List.forall_mem_append.2 ⟨hmethods, further⟩
    | _ =>
      simp only [hb, true_and]
      exact List.forall_mem_append.2 ⟨hbuiltin, further⟩
  | unary operator =>
    obtain ⟨hb, hbuiltin⟩ := h.builtinUnary operator bare
    cases bare with
    | struct id =>
      obtain ⟨hm, hmethods⟩ :=
        h.operatorMethods (hw _ (List.mem_singleton_self _)) (.unary operator)
      simp only [hm, true_and]
      exact hmethods
    | _ =>
      simp only [hb, true_and]
      exact hbuiltin

/-- Operators are given the same meaning. -/
theorem Agree.resolveOperator (operator : Operator) {operands : List Ty}
    (ho : ∀ ty ∈ operands, ty.Within W) :
    env'.resolveOperator operator operands = env.resolveOperator operator operands ∧
      (env.resolveOperator operator operands).Within W := by
  have same :
      env'.operatorCandidates operator operands = env.operatorCandidates operator operands :=
    congrArg List.eraseDups
      (List.flatMap_congr fun ty hty => (h.candidates (ho ty hty) operator).1)
  have within : ∀ c ∈ env.operatorCandidates operator operands, c.Within W := by
    intro c hc
    obtain ⟨ty, hty, hc⟩ := List.mem_flatMap.1 (List.mem_eraseDups.1 hc)
    exact (h.candidates (ho ty hty) operator).2 c hc
  simp only [Environment.resolveOperator, same]
  exact h.choose within ho

end Types

end Environment

end Pascal
