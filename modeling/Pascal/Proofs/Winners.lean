import Mathlib.Data.Finset.Max
import Pascal.Proofs.Dominance

/-!
# What the winners are

Candidates that win are listed in the order of their declarations, which is a total order up to
candidates of one text. The outcome says so: a single winner is what the call resolves to, and of
several the first is chosen. Where parameters have no callable forms, the winners are the candidates
of the least cost; where some candidate is declared with the very types of the arguments, they are
the candidates declared like that, whatever the forms.

## Main results

- `TypeTable.choose_least_cost`, `TypeTable.choose_declaredFor`: which candidates win.
-/

namespace Pascal

namespace Number

/-- A number that ends in so many binary zeros is a double. -/
theorem nearestDouble_of_dvd {n : Nat} (h : Nat.pow 2 (n.log2 + 1 - doubleDigits) ∣ n) :
    nearestDouble n = n := by
  have rest : n % Nat.pow 2 (n.log2 + 1 - doubleDigits) = 0 := Nat.mod_eq_zero_of_dvd h
  have positive : 0 < Nat.pow 2 (n.log2 + 1 - doubleDigits) := Nat.pow_pos (by decide)
  simp only [nearestDouble, rest]
  rw [if_neg (by simp), Nat.div_mul_cancel h]

/-- Rounding gives a double. -/
theorem nearestDouble_nearestDouble (n : Nat) :
    nearestDouble (nearestDouble n) = nearestDouble n := by
  obtain ⟨kept, dropped, hkept, hn⟩ : ∃ kept dropped, kept ≤ Nat.pow 2 doubleDigits ∧
      nearestDouble n = kept * Nat.pow 2 dropped := by
    have fewer : n / Nat.pow 2 (n.log2 + 1 - doubleDigits) < Nat.pow 2 doubleDigits := by
      refine Nat.div_lt_of_lt_mul (Nat.lt_of_lt_of_le Nat.lt_log2_self ?_)
      change 2 ^ _ ≤ 2 ^ _ * 2 ^ _
      rw [← Nat.pow_add]
      exact Nat.pow_le_pow_right (by decide) (by omega)
    refine ⟨_, n.log2 + 1 - doubleDigits, ?_, rfl⟩
    split <;> omega
  change _ = kept * 2 ^ dropped at hn
  change kept ≤ 2 ^ doubleDigits at hkept
  rw [hn]
  apply nearestDouble_of_dvd
  change 2 ^ _ ∣ kept * 2 ^ dropped
  by_cases zero : kept * 2 ^ dropped = 0
  · rw [zero]
    exact Nat.dvd_zero _
  obtain full | fewer := Nat.eq_or_lt_of_le hkept
  -- The one number with a digit more than a double keeps is a power of two.
  · rw [full, ← Nat.pow_add, Nat.log2_two_pow]
    exact Nat.pow_dvd_pow 2 (by simp [doubleDigits])
  · refine Nat.dvd_trans (Nat.pow_dvd_pow 2 ?_) (Nat.dvd_mul_left _ _)
    have short : kept * 2 ^ dropped < 2 ^ (doubleDigits + dropped) := by
      rw [Nat.pow_add]
      exact Nat.mul_lt_mul_of_pos_right fewer (Nat.pow_pos (by decide))
    have := (Nat.log2_lt zero).2 short
    omega

/-- A sum of doubles is a double. -/
theorem nearestDouble_foldl_addDouble {a : Nat} (h : nearestDouble a = a) (l : List Nat) :
    nearestDouble (l.foldl addDouble a) = l.foldl addDouble a := by
  induction l generalizing a with
  | nil => exact h
  | cons b rest ih => exact ih (nearestDouble_nearestDouble (a + b))

end Number

theorem Ty.unaliased_ne_distinct (ty : Ty) (name : String) (target : Ty) :
    ty.unaliased ≠ .distinct name target := by
  induction ty using Ty.induct with
  | distinct _ _ ih => exact ih
  | _ => simp [unaliased]

namespace TypeTable

variable {types : TypeTable} {arguments : List Ty} {candidates : List Invocable}
  {c d : Invocable} {rank rival : Rank}

/-! ## The order of candidates -/

/-- Declared routines in the order of their declaration, then the built-in meanings. -/
def byOrigin (left right : Invocable) : Ordering :=
  match left.declaration, right.declaration with
  | some a, some b => compare a.index b.index
  | some _, none => .lt
  | none, some _ => .gt
  | none, none => .eq

theorem declarationOrder_eq (types : TypeTable) :
    types.declarationOrder = compareLex byOrigin (compareOn types.signature) := rfl

instance : Std.TransCmp byOrigin where
  eq_swap := by
    intro left right
    cases hl : left.declaration <;> cases hr : right.declaration <;> simp only [byOrigin, hl, hr]
    · rfl
    · rfl
    · rfl
    · exact Std.OrientedCmp.eq_swap
  isLE_trans := by
    intro a b c
    cases ha : a.declaration <;> cases hb : b.declaration <;> cases hc : c.declaration <;>
      simp only [byOrigin, ha, hb, hc, Ordering.isLE_lt, Ordering.isLE_eq, Ordering.isLE_gt,
        Nat.isLE_compare, Bool.false_eq_true, implies_true, false_implies]
    exact Nat.le_trans

instance : Std.TransCmp types.declarationOrder := by
  rw [declarationOrder_eq]
  infer_instance

/-- Whether a candidate may be listed before another. -/
abbrev precedes (types : TypeTable) (left right : Invocable) : Prop :=
  types.declarationOrder left right ≠ .gt

theorem precedes_trans {e : Invocable} (h : types.precedes c d) (h' : types.precedes d e) :
    types.precedes c e :=
  Ordering.ne_gt_iff_isLE.2
    (Std.TransCmp.isLE_trans (Ordering.ne_gt_iff_isLE.1 h) (Ordering.ne_gt_iff_isLE.1 h'))

theorem declarationOrder_swap (types : TypeTable) (c d : Invocable) :
    types.declarationOrder d c = (types.declarationOrder c d).swap := Std.OrientedCmp.eq_swap

theorem precedes_total (types : TypeTable) (c d : Invocable) :
    types.precedes c d ∨ types.precedes d c := by
  rw [precedes, precedes, types.declarationOrder_swap c d]
  cases types.declarationOrder c d <;> decide

/-! ## The outcome -/

theorem choose_eq_ofWinners_winners (types : TypeTable) (candidates : List Invocable)
    (arguments : List Ty) : types.choose candidates arguments =
      .ofWinners (types.choose candidates arguments).winners := by
  rw [choose_eq_ofWinners, Resolution.winners_ofWinners]

theorem applies_of_mem_winners (h : c ∈ (types.choose candidates arguments).winners) :
    c ∈ candidates ∧ types.Applies arguments c := by
  obtain ⟨mem, wins⟩ := mem_winners_iff.1 h
  obtain ⟨rank, ranked, -⟩ := wins_iff.1 wins
  exact ⟨mem, applies_of_rank? ranked⟩

theorem perm_winners (types : TypeTable) (candidates : List Invocable) (arguments : List Ty) :
    (types.choose candidates arguments).winners.Perm
      (candidates.filter (types.wins candidates arguments)) := by
  rw [choose_eq_ofWinners, Resolution.winners_ofWinners]
  exact List.mergeSort_perm _ _

/-- The winners are sorted. -/
theorem pairwise_winners (types : TypeTable) (candidates : List Invocable) (arguments : List Ty) :
    (types.choose candidates arguments).winners.Pairwise types.precedes := by
  rw [choose_eq_ofWinners, Resolution.winners_ofWinners]
  have sorted := @List.pairwise_mergeSort _ (fun l r => decide (types.precedes l r))
    (fun a b c => by simpa using precedes_trans)
    (fun a b => by simpa using precedes_total types a b)
    (candidates.filter (types.wins candidates arguments))
  simpa using sorted

/-- The winners, if there is one, are the candidates that pass the test for winning. A single one is
what the call resolves to; of several, sorted, the first is chosen. -/
theorem exists_choose_eq {p : Invocable → Bool}
    (wins : ∀ c ∈ candidates, types.wins candidates arguments c = p c)
    (found : ∃ c ∈ candidates, p c = true) :
    ∃ chosen others, (chosen :: others).Perm (candidates.filter p) ∧
      (chosen :: others).Pairwise types.precedes ∧ types.choose candidates arguments =
        if others = [] then .resolved chosen else .ambiguous chosen others := by
  have perm := types.perm_winners candidates arguments
  rw [List.filter_congr wins] at perm
  have sorted := types.pairwise_winners candidates arguments
  have outcome := types.choose_eq_ofWinners_winners candidates arguments
  generalize (types.choose candidates arguments).winners = winners at perm sorted outcome
  cases winners with
  | nil =>
    obtain ⟨c, hc, pass⟩ := found
    exact absurd (List.mem_filter.2 ⟨hc, pass⟩) (perm.nil_eq ▸ List.not_mem_nil)
  | cons chosen others =>
    refine ⟨chosen, others, perm, sorted, outcome.trans ?_⟩
    cases others <;> simp [Resolution.ofWinners]

/-! ## The least cost -/

/-- The distances of the conversions, added up one after the other as doubles. -/
def span (types : TypeTable) (arguments : List Ty) (candidate : Invocable) : Nat :=
  ((types.conversions arguments candidate).map (·.distance)).foldl Number.addDouble 0

/-- What a candidate costs: whether any argument is converted at all, the worst tier, the sum of the
distances, and less for every parameter of a signed integer type that an argument is given for. Of
two costs the first numbers that differ decide. -/
def cost (types : TypeTable) (arguments : List Ty) (candidate : Invocable) : List Int :=
  let conversions := types.conversions arguments candidate
  let params := candidate.params.take arguments.length
  [if ∀ conversion ∈ conversions, conversion = .exact then 0 else 1,
    ((conversions.map (·.tier)).foldr max 0 : Nat),
    types.span arguments candidate,
    -params.countP fun parameter => parameter.integer?.any (·.signed)]

theorem signed_tally (types : TypeTable) (rank : Rank) (pairs : List (Ty × Ty)) :
    (types.tally rank pairs).signed = rank.signed +
      (pairs.map (·.2)).countP fun parameter => parameter.integer?.any (·.signed) := by
  induction pairs generalizing rank with
  | nil => rfl
  | cons pair rest ih =>
    rw [tally_cons, ih, List.map_cons, List.countP_cons]
    simp only [Rank.add]
    omega

/-- Only the parameters that arguments are given for are paired. -/
theorem zip_eq_zip_take (arity : c.acceptsArity arguments.length = true) :
    arguments.zip c.params = arguments.zip (c.params.take arguments.length) ∧
      (c.params.take arguments.length).length = arguments.length := by
  simp only [Invocable.acceptsArity, Bool.and_eq_true, decide_eq_true_eq] at arity
  refine ⟨?_, List.length_take_of_le arity.2⟩
  rw [List.zip_eq_zip_take_min, Nat.min_eq_left arity.2, List.take_length]

theorem signed_eq (h : types.rank? arguments c = some rank) : rank.signed =
    (c.params.take arguments.length).countP fun parameter => parameter.integer?.any (·.signed) := by
  obtain ⟨applies, rfl⟩ := rank?_eq_some_iff.1 h
  obtain ⟨paired, length⟩ := zip_eq_zip_take applies.1
  rw [signed_tally, paired, List.map_snd_zip length.le, Nat.zero_add]

theorem foldr_max_le_iff {l : List Nat} {bound : Nat} :
    l.foldr max 0 ≤ bound ↔ ∀ n ∈ l, n ≤ bound := by
  induction l with
  | nil => simp
  | cons n rest ih => simp [ih]

theorem worst_eq (h : types.rank? arguments c = some rank) :
    rank.worst = ((types.conversions arguments c).map (·.tier)).foldr max 0 := by
  refine Nat.le_antisymm ?_ ?_
  · rw [worst_le_iff h]
    exact List.forall_mem_map.1 (foldr_max_le_iff.1 le_rfl)
  · rw [foldr_max_le_iff, List.forall_mem_map]
    exact (worst_le_iff h).1 le_rfl

/-- All arguments are taken unchanged if every conversion is exact. -/
theorem exact_iff_forall (h : types.rank? arguments c = some rank) : rank.exact = true ↔
    ∀ conversion ∈ types.conversions arguments c, conversion = .exact := by
  have unchanged : ∀ conversion : Conversion, conversion.tier ≤ 0 ↔ conversion = .exact := by
    rintro (_ | _ | _ | _ | _ | _) <;> simp [Conversion.tier]
  rw [exact_iff h, ← Nat.le_zero, worst_le_iff h]
  simp only [unchanged]

/-- The cost of a candidate that takes the arguments is where its rank stands. -/
theorem standing_eq_cost (h : types.rank? arguments c = some rank) :
    rank.standing = types.cost arguments c := by
  simp only [Rank.standing, cost, span, exact_iff_forall h, worst_eq h, distance_eq h, signed_eq h]

/-- Among candidates without callable forms those win that take the arguments at the least cost. -/
theorem wins_iff_cost_le
    (plain : ∀ c ∈ candidates, ∀ parameter ∈ c.params, parameter.procedural? = none) :
    types.wins candidates arguments c = true ↔ types.Applies arguments c ∧
      ∀ d ∈ candidates, types.Applies arguments d →
        types.cost arguments c ≤ types.cost arguments d := by
  rw [wins_iff]
  constructor
  · rintro ⟨rank, ranked, best⟩
    refine ⟨applies_of_rank? ranked, fun d hd applies => ?_⟩
    obtain ⟨rival, hrival⟩ := applies.exists_rank
    have unbeaten := best d hd rival hrival
    rw [Ne, compare_eq_lt_iff_of_plain hrival (plain d hd), standing_eq_cost ranked,
      standing_eq_cost hrival] at unbeaten
    exact not_lt.1 unbeaten
  · rintro ⟨applies, least⟩
    obtain ⟨rank, ranked⟩ := applies.exists_rank
    refine ⟨rank, ranked, fun d hd rival hrival => ?_⟩
    rw [Ne, compare_eq_lt_iff_of_plain hrival (plain d hd), standing_eq_cost ranked,
      standing_eq_cost hrival]
    exact not_lt.2 (least d hd (applies_of_rank? hrival))

/-- If some candidate takes the arguments, and no candidate has a callable parameter, the winners
are exactly the candidates that take them at the least cost: a single one is what the call resolves
to, and of several, sorted by declaration, the first is chosen. The distances in the costs are
doubles. -/
theorem choose_least_cost (types : TypeTable) (candidates : List Invocable) (arguments : List Ty)
    (plain : ∀ c ∈ candidates, ∀ parameter ∈ c.params, parameter.procedural? = none)
    (applicable : ∃ c ∈ candidates, types.Applies arguments c) :
    (∀ c, Number.nearestDouble (types.span arguments c) = types.span arguments c) ∧
      ∃ chosen others,
        (chosen :: others).Perm (candidates.filter fun c => types.Applies arguments c ∧
          ∀ d ∈ candidates, types.Applies arguments d →
            types.cost arguments c ≤ types.cost arguments d) ∧
        (chosen :: others).Pairwise (fun l r => types.declarationOrder l r ≠ .gt) ∧
        types.choose candidates arguments =
          if others = [] then .resolved chosen else .ambiguous chosen others := by
  refine ⟨fun c => Number.nearestDouble_foldl_addDouble rfl _, exists_choose_eq (fun c _ => ?_) ?_⟩
  · rw [Bool.eq_iff_iff, wins_iff_cost_le plain, decide_eq_true_eq]
  · obtain ⟨c, hc, applies⟩ := applicable
    obtain ⟨least, mem, le⟩ := Finset.exists_min_image
      (candidates.filter (types.Applies arguments ·)).toFinset (types.cost arguments)
      ⟨c, by simpa using ⟨hc, applies⟩⟩
    simp only [List.mem_toFinset, List.mem_filter, decide_eq_true_eq] at mem le
    exact ⟨least, mem.1, decide_eq_true ⟨mem.2, fun d hd takes => le d ⟨hd, takes⟩⟩⟩

/-- Routines that take a string; the second leaves a signed number open, and the third takes only a
character. -/
def stringTakers : List Invocable :=
  [.builtin "Put" [.text .unicodeString] .void,
    { name := "Put", params := [.text .ansiString, .int], required := 1, result := .void },
    .builtin "Put" [.text .wideChar] .void]

/-- A string of another kind is taken by the first two at the same cost, so that they are tied: the
number that is left open does not count. -/
theorem stringTakers_tied :
    let types : TypeTable := {}
    let wide : List Ty := [.text .wideString]
    (∃ c ∈ stringTakers, types.Applies wide c) ∧ ∃ chosen others,
      (chosen :: others).Perm (stringTakers.take 2) ∧
        types.choose stringTakers wide = .ambiguous chosen others := by
  intro types wide
  have applicable : ∃ c ∈ stringTakers, types.Applies wide c := by decide +kernel
  obtain ⟨-, chosen, others, perm, -, outcome⟩ :=
    choose_least_cost types stringTakers wide (by decide) applicable
  have least : (stringTakers.filter fun c => types.Applies wide c ∧ ∀ d ∈ stringTakers,
      types.Applies wide d → types.cost wide c ≤ types.cost wide d) = stringTakers.take 2 := by
    decide +kernel
  rw [least] at perm
  refine ⟨applicable, chosen, others, perm, outcome.trans (if_neg ?_)⟩
  rintro rfl
  cases perm.length_eq

/-! ## Exact matches -/

/-- Wrappers of the argument are looked through. -/
theorem bareConversion_unaliased (types : TypeTable) (argument parameter : Ty) :
    types.bareConversion argument.unaliased parameter =
      types.bareConversion argument parameter := by
  induction argument using Ty.induct with
  | distinct name target ih => exact ih
  | _ => rfl

theorem convertibleIf_ne_exact (condition : Bool) :
    Conversion.convertibleIf condition ≠ .exact := by
  cases condition <;> simp [Conversion.convertibleIf]

theorem upcast_ne_exact (types : TypeTable) (sub sup : StructId) :
    types.upcast sub sup ≠ .exact := by
  rw [upcast]
  split <;> simp

theorem bareConversion_ne_exact (types : TypeTable) (argument parameter : Ty) :
    types.bareConversion argument parameter ≠ .exact := by
  rw [← bareConversion_unaliased]
  have bare := argument.unaliased_ne_distinct
  generalize argument.unaliased = argument at bare
  fun_cases TypeTable.bareConversion types argument parameter with
  | case1 name target => exact absurd rfl (bare name target)
  | case9 target isNil math =>
    fun_cases pointerConversion types target isNil parameter <;> simp [convertibleIf_ne_exact]
  | case31 => fun_cases simpleConversion argument parameter <;> simp
  | _ => simp [upcast_ne_exact, convertibleIf_ne_exact]

/-- Only a parameter of the very same type takes an argument unchanged. -/
theorem conversion_eq_exact_iff {argument parameter : Ty} :
    types.conversion argument parameter = .exact ↔ argument = parameter := by
  refine ⟨fun exact => ?_, fun same => if_pos same⟩
  by_contra differ
  revert exact
  have bare := types.bareConversion_ne_exact argument parameter.unaliased
  rw [conversion]
  generalize types.bareConversion argument parameter.unaliased = way at bare
  fun_cases wrappedConversion argument parameter way with
  | case1 => exact absurd rfl differ
  | case2 => simp
  | case3 => exact convertibleIf_ne_exact _
  | case4 | case5 =>
    split_ifs
    simp [bare]

end TypeTable

/-- The candidate takes so many arguments, and its first parameters have their very types. -/
def Invocable.DeclaredFor (candidate : Invocable) (arguments : List Ty) : Prop :=
  candidate.acceptsArity arguments.length = true ∧
    candidate.params.take arguments.length = arguments

instance (candidate : Invocable) (arguments : List Ty) :
    Decidable (candidate.DeclaredFor arguments) := instDecidableAnd

namespace TypeTable

variable {types : TypeTable} {arguments : List Ty} {candidates : List Invocable}
  {c d : Invocable} {rank rival : Rank}

theorem forall_zip_exact_iff {params : List Ty} (h : params.length = arguments.length) :
    (∀ pair ∈ arguments.zip params, types.conversion pair.1 pair.2 = .exact) ↔
      params = arguments := by
  induction arguments generalizing params with
  | nil => simpa using h
  | cons argument arguments ih =>
    cases params with
    | nil => cases h
    | cons parameter params =>
      rw [List.zip_cons_cons, List.forall_mem_cons, ih (Nat.succ.inj h), conversion_eq_exact_iff,
        List.cons.injEq, eq_comm]

/-- All arguments are taken unchanged by the candidates that are declared for them. -/
theorem exact_iff_declaredFor (h : types.rank? arguments c = some rank) :
    rank.exact = true ↔ c.DeclaredFor arguments := by
  have arity := (applies_of_rank? h).1
  obtain ⟨paired, length⟩ := zip_eq_zip_take arity
  rw [exact_iff_forall h, conversions_eq_map, List.forall_mem_map, paired,
    forall_zip_exact_iff length, Invocable.DeclaredFor, and_iff_right arity]

/-- All candidates that are declared for the arguments have the same rank. -/
theorem rank?_of_declaredFor (types : TypeTable) (h : c.DeclaredFor arguments) :
    types.rank? arguments c = some (types.tally {} (arguments.zip arguments)) := by
  obtain ⟨paired, length⟩ := zip_eq_zip_take h.1
  rw [h.2] at paired
  refine rank?_eq_some_iff.2 ⟨⟨h.1, ?_⟩, by rw [paired]⟩
  rw [conversions_eq_map, List.forall_mem_map, paired]
  intro pair mem
  rw [(forall_zip_exact_iff rfl).2 rfl pair mem]
  decide

/-- If a candidate is declared for the arguments, those and no others win. -/
theorem wins_iff_declaredFor (found : ∃ c ∈ candidates, c.DeclaredFor arguments) :
    types.wins candidates arguments c = true ↔ c.DeclaredFor arguments := by
  have ahead : ∀ rank rival : Rank, rank.exact = true → rival.exact = false →
      rank.standing < rival.standing :=
    fun rank rival unchanged converted => Rank.standing_lt_iff.2 (.inl ⟨unchanged, converted⟩)
  rw [wins_iff]
  constructor
  · rintro ⟨rank, ranked, best⟩
    obtain ⟨d, hd, declared⟩ := found
    have hrival := rank?_of_declaredFor types declared
    rw [← exact_iff_declaredFor ranked]
    by_contra converted
    refine best d hd _ hrival (Rank.compare_eq_lt_iff.2 (.inl (ahead _ _ ?_ ?_)))
    · exact (exact_iff_declaredFor hrival).2 declared
    · exact Bool.eq_false_iff.2 converted
  · intro declared
    have ranked := rank?_of_declaredFor types declared
    refine ⟨_, ranked, fun d _ rival hrival better => ?_⟩
    by_cases alike : d.DeclaredFor arguments
    · cases hrival.symm.trans (rank?_of_declaredFor types alike)
      exact Rank.compare_self_ne_lt _ better
    · rw [← exact_iff_declaredFor hrival] at alike
      have before := ahead _ rival ((exact_iff_declaredFor ranked).2 declared)
        (Bool.eq_false_iff.2 alike)
      obtain behind | ⟨beside, -⟩ := Rank.compare_eq_lt_iff.1 better
      · exact lt_asymm before behind
      · exact before.ne beside.symm

/-- If some candidate is declared for the arguments, the winners are exactly the candidates declared
for them, whatever the forms of the parameters: a single one is what the call resolves to, and of
several, sorted by declaration, the first is chosen. -/
theorem choose_declaredFor (types : TypeTable) (candidates : List Invocable) (arguments : List Ty)
    (found : ∃ c ∈ candidates, c.DeclaredFor arguments) :
    ∃ chosen others,
      (chosen :: others).Perm (candidates.filter (·.DeclaredFor arguments)) ∧
      (chosen :: others).Pairwise (fun l r => types.declarationOrder l r ≠ .gt) ∧
      types.choose candidates arguments =
        if others = [] then .resolved chosen else .ambiguous chosen others := by
  refine exists_choose_eq (fun c _ => ?_) ?_
  · rw [Bool.eq_iff_iff, wins_iff_declaredFor found, decide_eq_true_eq]
  · simpa using found

/-- Routines that take a method; the second is declared later and takes a number beside it, which
may be left open, and the third takes any reference to a routine. -/
def methodTakers : List Invocable :=
  let taker (kind : ProceduralKind) (more : List Ty) (index : Nat) : Invocable :=
    { name := "Call", params := .procedural kind [.int] .void :: more, required := 1,
      result := .void, declaration := some ⟨index⟩ }
  [taker .reference [] 60, taker .method [.int] 62, taker .method [] 61]

/-- A method is taken by the two that are declared for it, which are tied. -/
theorem methodTakers_tied :
    let types : TypeTable := {}
    let method : List Ty := [.procedural .method [.int] .void]
    (∃ c ∈ methodTakers, c.DeclaredFor method) ∧ ∃ chosen others,
      (chosen :: others).Perm (methodTakers.drop 1) ∧
        types.choose methodTakers method = .ambiguous chosen others := by
  intro types method
  have found : ∃ c ∈ methodTakers, c.DeclaredFor method := by decide
  obtain ⟨chosen, others, perm, -, outcome⟩ := choose_declaredFor types methodTakers method found
  have declared : methodTakers.filter (·.DeclaredFor method) = methodTakers.drop 1 := by decide
  rw [declared] at perm
  refine ⟨found, chosen, others, perm, outcome.trans (if_neg ?_)⟩
  rintro rfl
  cases perm.length_eq

end TypeTable

end Pascal
