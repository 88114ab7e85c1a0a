import Pascal.Proofs.Overloading

/-!
# Which candidates are chosen

A candidate wins if it takes the arguments and no other that takes them is better. The outcome of a
choice is decided by the number of winners. An argument whose type is not known is turned away by no
type, only by the families of types that built-in routines are declared with.
-/

namespace Pascal

/-- Families of types, which stand for parameters of built-in routines only. -/
def Ty.isFamily : Ty → Bool
  | matcher _ => true
  | _ => false

namespace TypeTable

variable {types : TypeTable} {arguments : List Ty} {candidates : List Invocable}
  {candidate : Invocable}

/-! ## Refusal -/

theorem bareConversion_unknown (parameter : Ty) :
    types.bareConversion .unknown parameter = .convertible 0 := by
  cases parameter <;> rfl

/-- Only a family of types keeps out what is not known. -/
theorem conversion_unknown_eq_incompatible_iff {parameter : Ty} :
    types.conversion .unknown parameter = .incompatible ↔ parameter.isFamily = true := by
  simp only [conversion, bareConversion_unknown]
  cases parameter with
  | matcher family => cases family <;> decide
  | _ => simp only [wrappedConversion, Ty.isFamily]; split_ifs <;> simp

/-- A candidate does not take so many arguments, or it does not take one of them. -/
def Refuses (types : TypeTable) (arguments : List Ty) (candidate : Invocable) : Prop :=
  candidate.acceptsArity arguments.length = false ∨
    ∃ pair ∈ arguments.zip candidate.params,
      if pair.1.isUnknown then pair.2.isFamily = true
      else types.conversion pair.1 pair.2 = .incompatible

theorem rankFrom_eq_none_iff {rank : Rank} {params : List Ty} :
    types.rankFrom rank arguments params = none ↔
      ∃ pair ∈ arguments.zip params, types.conversion pair.1 pair.2 = .incompatible := by
  induction arguments generalizing rank params with
  | nil => simp [rankFrom]
  | cons argument arguments ih =>
    cases params with
    | nil => simp [rankFrom]
    | cons parameter params =>
      simp only [List.zip_cons_cons, List.mem_cons, exists_eq_or_imp]
      cases hc : types.conversion argument parameter with
      | incompatible => simp [rankFrom, hc]
      | _ => simp [rankFrom, hc, ih]

/-- The candidates without a rank are those that refuse. -/
theorem rank?_eq_none_iff : types.rank? arguments candidate = none ↔
    types.Refuses arguments candidate := by
  have unknown : ∀ pair : Ty × Ty, types.conversion pair.1 pair.2 = .incompatible ↔
      if pair.1.isUnknown then pair.2.isFamily = true
      else types.conversion pair.1 pair.2 = .incompatible := by
    rintro ⟨argument, parameter⟩
    split_ifs with h
    · cases argument <;> first | exact conversion_unknown_eq_incompatible_iff | cases h
    · rfl
  rw [rank?, Refuses]
  split_ifs with h
  · rw [rankFrom_eq_none_iff, h]
    simp only [Bool.true_eq_false, false_or]
    exact exists_congr fun pair => and_congr_right fun _ => unknown pair
  · simp [h]

/-! ## Winners -/

/-- A candidate takes the arguments, and none that takes them is better. -/
def wins (types : TypeTable) (candidates : List Invocable) (arguments : List Ty)
    (candidate : Invocable) : Bool :=
  (types.rank? arguments candidate).any fun rank =>
    candidates.all fun other =>
      (types.rank? arguments other).all fun rival => rival.compare rank ≠ .lt

theorem best_applicable (types : TypeTable) (candidates : List Invocable) (arguments : List Ty) :
    best (types.applicable candidates arguments) =
      candidates.filter (types.wins candidates arguments) := by
  have unbeaten : ∀ rank : Rank, ((types.applicable candidates arguments).all
      fun other => other.2.compare rank ≠ .lt) = candidates.all fun other =>
        (types.rank? arguments other).all fun rival => rival.compare rank ≠ .lt := by
    intro rank
    rw [applicable, List.all_filterMap]
    congr 1
    funext other
    cases types.rank? arguments other <;> rfl
  have filtered : ∀ (l : List Invocable) (p : Rank → Bool),
      ((l.filterMap fun c => (types.rank? arguments c).map (c, ·)).filter (p ·.2)).map (·.1) =
        l.filter fun c => (types.rank? arguments c).any p := by
    intro l p
    induction l with
    | nil => rfl
    | cons c rest ih => cases hc : types.rank? arguments c <;> grind
  rw [best, funext fun c : Invocable × Rank => unbeaten c.2]
  exact filtered candidates fun rank => candidates.all fun other =>
    (types.rank? arguments other).all fun rival => rival.compare rank ≠ .lt

/-- The outcome of a choice follows from the winners. -/
theorem choose_eq_ofWinners (types : TypeTable) (candidates : List Invocable)
    (arguments : List Ty) : types.choose candidates arguments =
      .ofWinners ((candidates.filter (types.wins candidates arguments)).mergeSort
        fun left right => types.declarationOrder left right ≠ .gt) := by
  rw [choose, best_applicable]

end TypeTable

end Pascal
