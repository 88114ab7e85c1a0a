import Pascal.Proofs.DeclarationLog
import Pascal.Proofs.Names
import Pascal.Proofs.Operators

/-!
# Names of operator methods

Operator methods are told by the letters `a` to `z` alone, while names in general are folded by the
whole mapping to lowercase. Outside ASCII only the Kelvin sign has a small form inside, the letter
`k`, and no name of an operator has that letter. So both ways accept the same names.

## Main results

- `Environment.operatorMethods_by_name`: operator methods are those found by the operator's names.
-/

namespace Pascal

namespace Text

variable {c : Char} {text : List Char}

theorem toLower_of_outside (h : ¬c.toNat < 128) : c.toLower = c := by
  refine dif_neg fun upper => h ?_
  have bound : c.toNat ≤ 90 := upper.2
  omega

/-- Inside ASCII, lowercase is a matter of single letters. -/
theorem lowercaseFrom_of_ascii (before : List Char) (h : ∀ c ∈ text, c.toNat < 128) :
    lowercaseFrom before text = text.map Char.toLower := by
  induction text generalizing before with
  | nil => rfl
  | cons c rest ih =>
    rw [List.forall_mem_cons] at h
    have plain : c ≠ 'Σ' := by
      rintro rfl
      exact absurd h.1 (by decide)
    rw [lowercaseFrom, if_neg plain, lowerChar, if_pos h.1, ih _ h.2]
    rfl

/-- A letter outside ASCII leaves a trace in lowercase: a letter outside ASCII, or a `k`. -/
theorem exists_mem_lowercaseFrom (before : List Char) (hc : c ∈ text) (h : ¬c.toNat < 128) :
    ∃ d ∈ lowercaseFrom before text, ¬d.toNat < 128 ∨ d = 'k' := by
  induction text generalizing before with
  | nil => cases hc
  | cons first rest ih =>
    rw [lowercaseFrom]
    obtain rfl | hc := List.mem_cons.1 hc
    · suffices trace : ∃ d ∈ (if c = 'Σ' then [if closesWord before rest then 'ς' else 'σ']
          else lowerChar c), ¬d.toNat < 128 ∨ d = 'k' from
        trace.imp fun d hd => ⟨List.mem_append_left _ hd.1, hd.2⟩
      split_ifs with sigma closes
      · exact ⟨'ς', List.mem_singleton_self _, by decide⟩
      · exact ⟨'σ', List.mem_singleton_self _, by decide⟩
      · rw [lowerChar, if_neg h]
        split_ifs with dotted
        · exact ⟨Char.ofNat 0x307, by simp, by decide⟩
        · refine ⟨_, List.mem_singleton_self _, ?_⟩
          cases hfind : lowercaseRuns.find? (·.covers c.toNat) with
          | none => exact .inl (by rwa [lowerCode, hfind, Char.ofNat_toNat])
          | some run =>
            obtain ⟨hvalid, outside⟩ := small_outside (List.mem_of_find?_eq_some hfind)
              (by simpa using List.find?_some hfind)
            simp only [lowerCode, hfind]
            exact outside.imp_left fun low => by omega
    · obtain ⟨d, hd, trace⟩ := ih (first :: before) hc
      exact ⟨d, List.mem_append_right _ hd, trace⟩

/-- A plain text is in ASCII and has no `k`. -/
def IsPlain (name : String) : Prop :=
  ∀ c ∈ name.toList, c.toNat < 128 ∧ c.toLower.toNat < 128 ∧ c.toLower ≠ 'k'

instance : DecidablePred IsPlain := fun name => List.decidableBAll _ name.toList

/-- A text agrees with a plain one in lowercase if it does so letter by letter inside ASCII. -/
theorem lowercase_eq_iff {name : String} (plain : IsPlain name) (text : String) :
    lowercase text = lowercase name ↔
      name.toList.map Char.toLower = text.toList.map Char.toLower := by
  unfold lowercase
  rw [String.ofList_inj, lowercaseFrom_of_ascii [] fun c hc => (plain c hc).1]
  have inside : ∀ d ∈ name.toList.map Char.toLower, d.toNat < 128 ∧ d ≠ 'k' := by
    intro d hd
    obtain ⟨c, hc, rfl⟩ := List.mem_map.1 hd
    exact (plain c hc).2
  constructor
  · intro same
    rw [← same]
    refine lowercaseFrom_of_ascii [] fun c hc => ?_
    by_contra h
    obtain ⟨d, hd, trace⟩ := exists_mem_lowercaseFrom [] hc h
    rw [same] at hd
    exact trace.elim (not_not.2 (inside d hd).1) (inside d hd).2
  · intro same
    rw [same]
    refine lowercaseFrom_of_ascii [] fun c hc => ?_
    by_contra h
    have low := (inside c.toLower (same ▸ List.mem_map_of_mem hc)).1
    rw [toLower_of_outside h] at low
    exact h low

end Text

theorem Operator.plain_of_mem_names (operator : Operator) :
    ∀ name ∈ operator.names, Text.IsPlain name := by
  rcases operator with operator | operator <;> cases operator <;> decide +kernel

theorem Operator.sameAscii_iff {operator : Operator} {name : String}
    (h : name ∈ operator.names) (text : String) :
    Name.sameAscii name text = true ↔ Name.fold text = Name.fold name := by
  rw [Name.sameAscii, beq_iff_eq, Name.fold, Name.fold, FoldedName.mk.injEq,
    Text.lowercase_eq_iff (operator.plain_of_mem_names name h)]

/-- The letters `a` to `z` alone decide whether a name is one of an operator's names. So after any
calls that change the symbol table, whatever types there are, the operator methods of a structured
type are those that looking up one of the names among its members finds. -/
theorem Environment.operatorMethods_by_name (operator : Operator) :
    (∀ name ∈ operator.names, ∀ text,
      Name.sameAscii name text = true ↔ Name.fold text = Name.fold name) ∧
    ∀ (calls : List TableCall) (types : TypeTable) (id : StructId) (c : Invocable),
      let env := { (({} : Environment).performAll calls).2 with types }
      c ∈ env.operatorMethods id operator ↔ ∃ name ∈ operator.names,
        ∃ method ∈ env.symbols.shallowFind (env.membersOf id) name,
          (env.declaration method).isOperator = true ∧ Invocable.ofDeclaration? method
            (env.declaration method).toDeclarationSpec = some c := by
  refine ⟨fun name h => operator.sameAscii_iff h, fun calls types id c => ?_⟩
  intro env
  have found : ∀ name, env.symbols.shallowFind (env.membersOf id) name = _ :=
    (recorded_empty.performAll calls).shallowFind (env.membersOf id)
  rw [mem_operatorMethods_iff]
  constructor
  · rintro ⟨method, ⟨mem, isOperator, name, hname, same⟩, made⟩
    refine ⟨name, hname, method, ?_, isOperator, made⟩
    rw [found, List.mem_filter]
    exact ⟨mem, decide_eq_true ((operator.sameAscii_iff hname _).1 same)⟩
  · rintro ⟨name, hname, method, mem, isOperator, made⟩
    rw [found, List.mem_filter, decide_eq_true_eq] at mem
    exact ⟨method, ⟨mem.1, isOperator, name, hname, (operator.sameAscii_iff hname _).2 mem.2⟩, made⟩

/-- The dotted capital I is not the letter of `In`, though its small form begins with it. -/
theorem dotted_not_in : Name.sameAscii "In" "iN" = true ∧ Name.fold "iN" = Name.fold "In" ∧
    Name.fold "İn" ≠ Name.fold "In" := by
  have same := (Environment.operatorMethods_by_name (.binary .in_)).1 "In" (.head _)
  exact ⟨by decide, (same "iN").1 (by decide), fun h => absurd ((same "İn").2 h) (by decide)⟩

end Pascal
