import Mathlib.Tactic.Common
import Pascal.Name

/-!
# Folded names

Lowercase text has nothing left to fold: the small letters of a run are never capital letters of
another one, and both forms of the small sigma are kept. So the folded form of a name is one of its
own spellings.
-/

namespace Pascal

namespace Text

/-! ## The table -/

/-- The small letters of a run. -/
def CaseRun.small (run : CaseRun) : CaseRun :=
  { run with
    first := (run.first + run.shift).toNat
    last := (run.last + run.shift).toNat }

/-- Whether the letters of a run lie in front of another one, behind it, or between its letters. -/
def CaseRun.isClearOf (run other : CaseRun) : Bool :=
  run.last.blt other.first || other.last.blt run.first ||
    other.step == 2 && (run.step == 2 || run.first == run.last) &&
      (run.first + other.first) % 2 == 1

/-- The capital letter whose small form takes two characters, as a run of its own. -/
def dottedRun : CaseRun := ⟨0x130, 0x130, 2, 0⟩

/-- The only letter outside ASCII whose small form is inside. -/
def kelvinRun : CaseRun := ⟨0x212a, 0x212a, 1, -8383⟩

/-- Whether the letters of a run are characters outside ASCII. -/
def CaseRun.isValid (run : CaseRun) : Bool :=
  Nat.ble 128 run.first &&
    (run.last.blt 0xd800 || Nat.blt 0xdfff run.first && run.last.blt 0x110000)

variable {run other : CaseRun} {code : Nat} {c : Char}

set_option maxRecDepth 10000 in
theorem clear_small : ∀ run ∈ lowercaseRuns,
    (dottedRun :: lowercaseRuns).all run.small.isClearOf = true := by
  decide +kernel

set_option maxRecDepth 10000 in
theorem valid_small : ∀ run ∈ lowercaseRuns,
    run = kelvinRun ∨ run.small.isValid = true := by
  decide +kernel

theorem CaseRun.covers_iff : run.covers code = true ↔
    run.first ≤ code ∧ code ≤ run.last ∧ (code - run.first) % run.step = 0 := by
  simp [covers, and_assoc]

/-- The small letters of a run of the table are characters. -/
theorem valid_of_covers (hrun : run ∈ lowercaseRuns) (hc : run.covers code = true) :
    (run.first + run.shift).toNat = run.first + run.shift ∧
      (code + run.shift).toNat.isValidChar := by
  rw [CaseRun.covers_iff] at hc
  obtain rfl | hvalid := valid_small run hrun
  · obtain rfl : code = 0x212a := by
      simp only [kelvinRun] at hc
      omega
    decide
  · simp only [CaseRun.isValid, CaseRun.small, Bool.and_eq_true, Bool.or_eq_true, Nat.ble_eq,
      Nat.blt_eq] at hvalid
    constructor
    · omega
    · unfold Nat.isValidChar
      omega

/-- The small letters of a run are no capital letters of a run that they are clear of. -/
theorem not_covers_of_isClearOf (h : run.small.isClearOf other = true)
    (hrun : run ∈ lowercaseRuns) (hc : run.covers code = true) :
    other.covers (code + run.shift).toNat = false := by
  by_contra hother
  rw [Bool.not_eq_false, CaseRun.covers_iff] at hother
  have hsmall := (valid_of_covers hrun hc).1
  rw [CaseRun.covers_iff] at hc
  simp only [CaseRun.isClearOf, CaseRun.small, Bool.or_eq_true, Bool.and_eq_true, beq_iff_eq,
    Nat.blt_eq] at h
  obtain ⟨lower, upper, place⟩ := hc
  obtain ⟨lower', upper', place'⟩ := hother
  obtain (h | h) | ⟨⟨hstep, hstride⟩, hodd⟩ := h
  · omega
  · omega
  · rw [hstep] at place'
    obtain hstride | hstride := hstride
    · rw [hstride] at place
      omega
    · omega

/-- No run has a small letter of the table. -/
theorem lowerCode_small (hrun : run ∈ lowercaseRuns) (hc : run.covers code = true) :
    lowerCode (code + run.shift).toNat = (code + run.shift).toNat := by
  have clear := clear_small run hrun
  rw [List.all_cons, Bool.and_eq_true, List.all_eq_true] at clear
  have uncovered : lowercaseRuns.find? (·.covers (code + run.shift).toNat) = none := by
    rw [List.find?_eq_none]
    intro other hother
    rw [not_covers_of_isClearOf (clear.2 other hother) hrun hc]
    exact Bool.false_ne_true
  rw [lowerCode, uncovered]

/-! ## Characters and texts -/

/-- A character that stays itself in lowercase. -/
def Settled (c : Char) : Prop := c ≠ 'Σ' ∧ lowerChar c = [c]

instance : DecidablePred Settled :=
  fun c => inferInstanceAs (Decidable (c ≠ 'Σ' ∧ lowerChar c = [c]))

set_option maxRecDepth 10000 in
theorem settled_toLower_ascii : ∀ n < 128, Settled (Char.ofNat n).toLower := by
  decide +kernel

/-- The small letters of a run are outside ASCII, but for the `k` of the Kelvin sign. -/
theorem small_outside (hrun : run ∈ lowercaseRuns) (hc : run.covers code = true) :
    (Char.ofNat (code + run.shift).toNat).toNat = (code + run.shift).toNat ∧
      (128 ≤ (code + run.shift).toNat ∨ Char.ofNat (code + run.shift).toNat = 'k') := by
  constructor
  · rw [Char.ofNat, dif_pos (valid_of_covers hrun hc).2]
    rfl
  · rw [CaseRun.covers_iff] at hc
    obtain rfl | houtside := valid_small run hrun
    · obtain rfl : code = 0x212a := by
        simp only [kelvinRun] at hc
        omega
      exact .inr (by decide)
    · simp only [CaseRun.isValid, CaseRun.small, Bool.and_eq_true, Nat.ble_eq] at houtside
      exact .inl (by omega)

theorem settled_small (hrun : run ∈ lowercaseRuns) (hc : run.covers code = true) :
    Settled (Char.ofNat (code + run.shift).toNat) := by
  have stays := lowerCode_small hrun hc
  have dotted : dottedRun.covers (code + run.shift).toNat = false :=
    not_covers_of_isClearOf (List.all_eq_true.1 (clear_small run hrun) _ List.mem_cons_self) hrun hc
  obtain ⟨hvalid, hlow | kelvin⟩ := small_outside hrun hc
  · generalize (code + run.shift).toNat = small at *
    have high : ¬(Char.ofNat small).toNat < 128 := by omega
    have undotted : Char.ofNat small ≠ 'İ' := by
      intro heq
      rw [← hvalid, heq] at dotted
      exact absurd dotted (by decide)
    refine ⟨fun heq => ?_, ?_⟩
    · rw [← hvalid, heq] at stays
      exact absurd stays (by decide)
    · rw [lowerChar, if_neg high, if_neg undotted, hvalid, stays]
  · rw [kelvin]
    decide

/-- The lowercase form of a character has nothing left to fold. -/
theorem settled_of_mem_lowerChar (hc : c ≠ 'Σ') : ∀ d ∈ lowerChar c, Settled d := by
  unfold lowerChar
  split_ifs with hascii hdotted
  · rw [List.forall_mem_singleton, ← Char.ofNat_toNat c]
    exact settled_toLower_ascii _ hascii
  · rw [List.forall_mem_cons, List.forall_mem_singleton]
    exact ⟨by decide, by decide +kernel⟩
  · rw [List.forall_mem_singleton]
    cases hfind : lowercaseRuns.find? (·.covers c.toNat) with
    | none =>
      have stays : Char.ofNat (lowerCode c.toNat) = c := by
        rw [lowerCode, hfind, Char.ofNat_toNat]
      rw [stays]
      exact ⟨hc, by rw [lowerChar, if_neg hascii, if_neg hdotted, stays]⟩
    | some run =>
      rw [lowerCode, hfind]
      exact settled_small (List.mem_of_find?_eq_some hfind) (by simpa using List.find?_some hfind)

theorem settled_of_mem_lowercaseFrom (before text : List Char) :
    ∀ d ∈ lowercaseFrom before text, Settled d := by
  induction text generalizing before with
  | nil => simp [lowercaseFrom]
  | cons c rest ih =>
    intro d hd
    rw [lowercaseFrom, List.mem_append] at hd
    obtain hd | hd := hd
    · split_ifs at hd with hsigma hcloses
      · cases List.mem_singleton.1 hd
        decide
      · cases List.mem_singleton.1 hd
        decide
      · exact settled_of_mem_lowerChar hsigma d hd
    · exact ih _ d hd

theorem lowercaseFrom_eq_self {text : List Char} (before : List Char)
    (h : ∀ c ∈ text, Settled c) : lowercaseFrom before text = text := by
  induction text generalizing before with
  | nil => rfl
  | cons c rest ih =>
    rw [List.forall_mem_cons] at h
    rw [lowercaseFrom, if_neg h.1.1, h.1.2, ih _ h.2]
    rfl

/-- Lowercase text stays itself. -/
theorem lowercase_lowercase (text : String) : lowercase (lowercase text) = lowercase text := by
  unfold lowercase
  rw [String.toList_ofList, lowercaseFrom_eq_self [] (settled_of_mem_lowercaseFrom [] _)]

end Text

/-- A folded name folds to itself. -/
theorem Name.fold_text_fold (name : String) : fold (fold name).text = fold name :=
  congrArg FoldedName.mk (Text.lowercase_lowercase name)

end Pascal
