import Pascal.Proofs.Widths
import Pascal.Proofs.Winners

/-!
# Promotions between integer types

An integer type can always be converted to another one. The conversion is exact or a promotion if no
value is lost by it, which is so if the parameter type contains every value of the argument type. The
names of distinct types make no difference to this.

## Main results

- `TypeTable.conversion_lossless`: which of these conversions lose nothing.
-/

namespace Pascal

/-- To compare the ends of two ranges is to compare the numbers of 128 bits that they contain. -/
theorem IntegerTy.Narrow.fitsIn_iff {ty other : IntegerTy} (h : ty.Narrow) :
    ty.fitsIn other = true ↔
      ∀ v : BitVec 128, ty.contains v.toInt = true → other.contains v.toInt = true := by
  have bounds := h.bounds
  rw [IntegerTy.fitsIn_iff (by omega)]
  refine ⟨fun all v => all v.toInt, fun all v hv => ?_⟩
  have inside : ty.min ≤ v ∧ v ≤ ty.max := by simpa [contains] using hv
  have same : (BitVec.ofInt 128 v).toInt = v :=
    BitVec.toInt_ofInt_eq_self (by decide) (by omega) (by omega)
  simpa only [same] using all (BitVec.ofInt 128 v) (same.symm ▸ hv)

namespace TypeTable

variable {argument parameter : Ty} {a p : IntegerTy}

theorem bareConversion?_unaliased (types : TypeTable) (argument parameter : Ty) :
    types.bareConversion? argument.unaliased parameter =
      types.bareConversion? argument parameter := by
  induction argument using Ty.induct with
  | distinct name target ih => exact ih
  | _ => rfl

theorem wrappedConversion_of_integer (hp : parameter.unaliased = .integer p) (bare : Conversion) :
    wrappedConversion argument parameter bare =
      if argument = parameter then .exact
      else if argument.unaliased = .integer p then .promotion 0
      else bare := by
  rw [← hp]
  cases parameter <;> first | rfl | cases hp

/-- The conversion between two integer types behind the names of distinct types. -/
theorem conversion_of_integers (types : TypeTable) (ha : argument.unaliased = .integer a)
    (hp : parameter.unaliased = .integer p) :
    types.conversion argument parameter =
      if argument = parameter then .exact
      else if a = p then .promotion 0
      else if a.fitsIn p then .promotion (a.distance p)
      else .convertible (a.distance p) := by
  have bare : types.bareConversion argument parameter.unaliased =
      simpleConversion (.integer a) (.integer p) := by
    rw [← bareConversion_unaliased, ha, hp]
    rfl
  rw [conversion, wrappedConversion_of_integer hp, bare, ha]
  simp only [Ty.integer.injEq]
  rfl

/-- In 128 bits the conversion is computed without loss. -/
theorem conversion?_of_integers (types : TypeTable) (ha : argument.unaliased = .integer a)
    (hp : parameter.unaliased = .integer p) (narrow : a.Narrow) (narrow' : p.Narrow) :
    types.conversion? argument parameter = some (types.conversion argument parameter) := by
  have bare : types.bareConversion? argument parameter.unaliased =
      some (types.bareConversion argument parameter.unaliased) := by
    rw [← bareConversion?_unaliased, ← bareConversion_unaliased, ha, hp]
    change simpleConversion? (.integer a) (.integer p) = some (simpleConversion _ _)
    simp only [simpleConversion?, simpleConversion, narrow.distance?_eq narrow',
      narrow.fitsIn?_eq narrow', Option.bind_eq_bind, Option.bind_some]
    split_ifs <;> rfl
  rw [conversion?, bare, wrappedConversion?_some, conversion]

/-- An integer type of one to fifteen bytes, also behind the names of distinct types, can always be
converted to another one, and the conversion is computed in 128 bits. It is exact or a promotion
exactly if the parameter type contains every number of 128 bits that the argument type contains. -/
theorem conversion_lossless (types : TypeTable) (ha : argument.unaliased = .integer a)
    (hp : parameter.unaliased = .integer p) (narrow : a.Narrow) (narrow' : p.Narrow) :
    let way := types.conversion argument parameter
    let lossless := ∀ v : BitVec 128, a.contains v.toInt = true → p.contains v.toInt = true
    types.conversion? argument parameter = some way ∧ way ≠ .incompatible ∧
      ((way = .exact ∨ ∃ distance, way = .promotion distance) ↔ lossless) ∧
      (¬lossless → ∃ distance, way = .convertible distance) := by
  intro way lossless
  have fits : a.fitsIn p = true ↔ lossless := narrow.fitsIn_iff
  have form : way = _ := types.conversion_of_integers ha hp
  refine ⟨types.conversion?_of_integers ha hp narrow narrow', ?_⟩
  rw [← fits, form]
  split_ifs with equal same inside
  · cases equal
    cases ha.symm.trans hp
    simp [IntegerTy.fitsIn]
  · subst same
    simp [IntegerTy.fitsIn]
  · simp [inside]
  · simp [inside]

/-- An age of one byte is promoted to a count of two, and a count is converted to an age at a loss,
each of them behind the names of distinct types. -/
theorem ages_promoted :
    let types : TypeTable := {}
    let age : Ty := .distinct "TAge" .byte
    let count : Ty := .distinct "TCount" (.distinct "TNumber" .smallInt)
    age.unaliased = .integer .byte ∧ count.unaliased = .integer .smallInt ∧
      (∃ distance, types.conversion age count = .promotion distance) ∧
      ∃ distance, types.conversion count age = .convertible distance := by
  intro types age count
  have ofAge : age.unaliased = .integer .byte := rfl
  have ofCount : count.unaliased = .integer .smallInt := rfl
  have oneByte : IntegerTy.byte.Narrow := by decide
  have twoBytes : IntegerTy.smallInt.Narrow := by decide
  obtain ⟨-, -, there, -⟩ := conversion_lossless types ofAge ofCount oneByte twoBytes
  obtain ⟨-, -, -, back⟩ := conversion_lossless types ofCount ofAge twoBytes oneByte
  refine ⟨ofAge, ofCount, ?_, back fun all => ?_⟩
  · exact (there.2 (oneByte.fitsIn_iff.1 (by decide))).resolve_left (by decide)
  · exact absurd (all (-1) (by decide)) (by decide)

end TypeTable

end Pascal
