import Pascal.Proofs.Heritage

/-!
# Subtyping

The search for ancestors finds exactly what can be arrived at by going from structured types to
their parents, however the heritage is laid out: with several parents, around a diamond or in a
circle. Subtyping rests on it and is a preorder.

## Main results

- `TypeTable.isSubTypeOf_preorder`: subtyping is reflexive and transitive, and relates a type that
  is not known to no other.
-/

namespace Pascal.TypeTable

/-- A structured type is derived from another in any number of steps. -/
def Inherits (types : TypeTable) : StructId → StructId → Prop :=
  Relation.ReflTransGen fun sub sup => sup ∈ types.parentStructs sub

section Ancestors

variable {types : TypeTable} {sub sup : StructId} {n : Nat}

theorem Ascent.inherits (h : types.Ascent n sub sup) : types.Inherits sub sup := by
  induction h with
  | refl => exact .refl
  | tail _ hp ih => exact ih.tail (mem_parentStructs_iff.2 hp)

theorem Inherits.exists_ascent (h : types.Inherits sub sup) : ∃ n, types.Ascent n sub sup := by
  induction h with
  | refl => exact ⟨0, .refl sub⟩
  | tail _ hp ih =>
    obtain ⟨n, hn⟩ := ih
    exact ⟨n + 1, hn.tail (mem_parentStructs_iff.1 hp)⟩

theorem inherits_of_mem_ancestors (h : (sup, n) ∈ types.ancestors sub) : types.Inherits sub sup :=
  (mem_ancestors_iff.1 h).2.1.inherits

end Ancestors

/-! ## Subtypes -/

/-- Values of a type are values of another: of the same type, of a structured type that it is
derived from, or, for references to classes, of a reference to such a class. -/
inductive Derives (types : TypeTable) : Ty → Ty → Prop
  | refl (ty : Ty) : Derives types ty ty
  | struct {sub sup : StructId} : types.Inherits sub sup → Derives types (.struct sub) (.struct sup)
  | classRef {sub sup : Ty} : Derives types sub sup → Derives types (.classRef sub) (.classRef sup)

section Subtypes

variable {types : TypeTable} {sub sup : StructId} {a b c : Ty}

theorem isSome_inheritanceDistance :
    (types.inheritanceDistance sub sup).isSome ↔ types.Inherits sub sup := by
  simp only [Option.isSome_iff_exists, inheritanceDistance_eq_some_iff]
  constructor
  · rintro ⟨d, hd⟩
    exact hd.1.inherits
  · intro h
    obtain ⟨n, hn⟩ := h.exists_ascent
    obtain ⟨d, -, hd⟩ := hn.exists_atDistance
    exact ⟨d, hd⟩

theorem isSubTypeOf_iff : types.isSubTypeOf a b ↔ types.Derives a b := by
  fun_induction isSubTypeOf types a b with
  | case1 sub sup =>
    rw [isSome_inheritanceDistance]
    constructor
    · exact .struct
    · rintro (_ | h)
      · exact .refl
      · exact h
  | case2 sub sup ih =>
    rw [ih]
    constructor
    · exact .classRef
    · rintro (_ | _ | h)
      · exact .refl _
      · exact h
  | case3 a b hstruct hclass =>
    rw [decide_eq_true_iff]
    constructor
    · rintro rfl
      exact .refl _
    · rintro (_ | h | h)
      · rfl
      · exact (hstruct _ _ rfl rfl).elim
      · exact (hclass _ _ rfl rfl).elim

theorem Derives.trans (h : types.Derives a b) (g : types.Derives b c) : types.Derives a c := by
  induction h generalizing c with
  | refl => exact g
  | struct h =>
    cases g with
    | refl => exact .struct h
    | struct g => exact .struct (Relation.ReflTransGen.trans h g)
  | classRef h ih =>
    cases g with
    | refl => exact .classRef h
    | classRef g => exact .classRef (ih g)

/-- Subtyping is a preorder, whatever types the structured types of the table are derived from:
every type is a subtype of itself, a subtype of a subtype is one, and a type that is not known is
related to itself only. A structured type has exactly those as supertypes that it is derived
from. -/
theorem isSubTypeOf_preorder (types : TypeTable) :
    (∀ a, types.isSubTypeOf a a) ∧
      (∀ a b c, types.isSubTypeOf a b → types.isSubTypeOf b c → types.isSubTypeOf a c) ∧
      (∀ a, types.isSubTypeOf .unknown a ∨ types.isSubTypeOf a .unknown → a = .unknown) ∧
      ∀ sub sup, types.isSubTypeOf (.struct sub) (.struct sup) ↔ types.Inherits sub sup := by
  simp only [isSubTypeOf_iff]
  refine ⟨.refl, fun a b c h g => h.trans g, fun a h => ?_, fun sub sup => ⟨fun h => ?_, .struct⟩⟩
  · obtain h | h := h <;> cases h <;> rfl
  · obtain _ | h := h
    · exact .refl
    · exact h

/-- Two classes derived from each other, one of them by way of a distinct type, and a third one
derived from both and from itself. -/
def circular : TypeTable :=
  let declared := ["TLeft", "TRight", "TBoth"].foldl
    (fun types name => (declareStruct types name .classType ⟨0⟩ false).2) {}
  declared.completeStruct ⟨0⟩ [.struct ⟨1⟩, .unknown] none
    |>.completeStruct ⟨1⟩ [.int, .distinct "TAlias" (.struct ⟨0⟩)] none
    |>.completeStruct ⟨2⟩ [.struct ⟨2⟩, .struct ⟨0⟩, .struct ⟨1⟩] none

/-- References to the classes of the circle are related through it; the third class is above
none. -/
theorem circular_subtypes :
    circular.isSubTypeOf (.classRef (.struct ⟨2⟩)) (.classRef (.struct ⟨1⟩)) ∧
      circular.isSubTypeOf (.classRef (.struct ⟨1⟩)) (.classRef (.struct ⟨0⟩)) ∧
      circular.isSubTypeOf (.classRef (.struct ⟨2⟩)) (.classRef (.struct ⟨0⟩)) ∧
      circular.isSubTypeOf .unknown .unknown ∧ circular.Inherits ⟨0⟩ ⟨1⟩ ∧
      ¬circular.Inherits ⟨0⟩ ⟨2⟩ := by
  obtain ⟨same, trans, unknown, struct⟩ := isSubTypeOf_preorder circular
  have first : circular.isSubTypeOf (.classRef (.struct ⟨2⟩)) (.classRef (.struct ⟨1⟩)) := by decide
  have second : circular.isSubTypeOf (.classRef (.struct ⟨1⟩)) (.classRef (.struct ⟨0⟩)) := by
    decide
  refine ⟨first, second, trans _ _ _ first second, same _, ?_, ?_⟩
  · exact (struct _ _).1 (by decide)
  · exact fun h => absurd ((struct _ _).2 h) (by decide)

end Subtypes

end Pascal.TypeTable
