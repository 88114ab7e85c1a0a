import Pascal.Proofs.References
import Pascal.Ty.Size

/-!
# Widths of types

The width of a distinct type is that of the type it wraps, and the width of an enumeration is that
of its base type, which is kept in the table and may wrap or be an enumeration again. Where base
types mention only enumerations declared before, this ends: from an enumeration to its base type the
largest identity falls, and from a distinct type to what it wraps the type gets smaller.

## Main results

- `TypeTable.widest_first`: the widest of several types, and the width of every type.
-/

namespace Pascal.TypeTable

/-- Base types of enumerations mention only enumerations declared before. -/
def Ordered (types : TypeTable) : Prop :=
  ∀ id base, (types.enumInfo id).base = some base →
    ∀ earlier, .enum earlier ∈ base.refs → earlier.index < id.index

/-- The enumerations that a type mentions are declared. -/
def Covers (types : TypeTable) (ty : Ty) : Prop :=
  ∀ id, .enum id ∈ ty.refs → id.index < types.enums.size

/-- The question for the width of a type comes to an end, with this answer. It goes on from a
distinct type to what it wraps and from an enumeration to its base type, whatever that is. -/
inductive Sized (types : TypeTable) : Ty → Option Nat → Prop
  | own {ty : Ty} (enum : ∀ id, ty ≠ .enum id)
    (distinct : ∀ name target, ty ≠ .distinct name target) :
    Sized types ty (types.sizeWith (fun _ => none) ty)
  | wrapped {name : String} {target : Ty} {size : Option Nat} (h : Sized types target size) :
    Sized types (.distinct name target) size
  | baseless {id : EnumId} (declared : id.index < types.enums.size)
    (base : (types.enumInfo id).base = none) : Sized types (.enum id) (some 1)
  | based {id : EnumId} {ty : Ty} {size : Option Nat} (declared : id.index < types.enums.size)
    (base : (types.enumInfo id).base = some ty) (h : Sized types ty size) :
    Sized types (.enum id) size

/-- The width of a type, zero where it is not known. -/
def width (types : TypeTable) (ty : Ty) : Nat := (types.sizeOf? ty).getD 0

variable {types : TypeTable} {ty : Ty}

/-! ## Every width is found -/

/-- Of all enumerations, only the one that a type wraps matters. -/
theorem sizeWith_congr {size size' : EnumId → Option Nat}
    (h : ∀ id, ty.unaliased = .enum id → size id = size' id) :
    types.sizeWith size ty = types.sizeWith size' ty := by
  fun_induction Ty.unaliased ty with
  | case1 name target ih => exact ih h
  | case2 ty bare =>
    cases ty with
    | enum id => exact h id rfl
    | distinct name target => exact absurd rfl (bare name target)
    | text kind => cases kind <;> rfl
    | procedural kind params result => cases kind <;> rfl
    | array kind element => cases kind <;> rfl
    | _ => rfl

/-- The width of any other type is its own. -/
theorem sizeOf?_own (enum : ∀ id, ty ≠ .enum id)
    (distinct : ∀ name target, ty ≠ .distinct name target) :
    types.sizeOf? ty = types.sizeWith (fun _ => none) ty := by
  refine sizeWith_congr fun id hid => absurd ?_ (enum id)
  rwa [Ty.unaliased.eq_2 _ distinct] at hid

namespace Ordered

theorem sizeOf?_enum (ordered : types.Ordered) (id : EnumId) :
    types.sizeOf? (.enum id) = match (types.enumInfo id).base with
      | none => some 1
      | some base => types.sizeOf? base := by
  change types.enumSize? id = _
  rw [enumSize?]
  cases hbase : (types.enumInfo id).base with
  | none => rfl
  | some base =>
    refine sizeWith_congr fun earlier he => dif_pos (ordered id base hbase earlier ?_)
    rw [← Ty.refs_unaliased, he]
    exact List.mem_singleton_self _

/-- The bound on the identities falls with every base type, and below a bound the type does. -/
theorem sized (ordered : types.Ordered) (covers : types.Covers ty) :
    types.Sized ty (types.sizeOf? ty) := by
  suffices h : ∀ bound, (∀ id, .enum id ∈ ty.refs → id.index < bound) →
      types.Sized ty (types.sizeOf? ty) from h _ covers
  intro bound below
  induction bound using Nat.strong_induction_on generalizing ty with
  | _ bound ih =>
    induction ty using Ty.induct with
    | distinct name target inner => exact .wrapped (inner covers below)
    | enum id =>
      have declared := covers id (List.mem_singleton_self _)
      rw [ordered.sizeOf?_enum]
      cases hbase : (types.enumInfo id).base with
      | none => exact .baseless declared hbase
      | some base =>
        have earlier := ordered id base hbase
        exact .based declared hbase (ih id.index (below id (List.mem_singleton_self _))
          (fun e he => (earlier e he).trans declared) earlier)
    | _ =>
      rw [sizeOf?_own (by simp) (by simp)]
      exact .own (by simp) (by simp)

theorem sized_iff (ordered : types.Ordered) (covers : types.Covers ty) {size : Option Nat} :
    types.Sized ty size ↔ size = types.sizeOf? ty := by
  refine ⟨fun h => ?_, fun h => h ▸ ordered.sized covers⟩
  clear covers
  induction h with
  | own enum distinct => exact (sizeOf?_own enum distinct).symm
  | wrapped _ ih => exact ih
  | baseless _ base => rw [ordered.sizeOf?_enum, base]
  | based _ base _ ih => rw [ordered.sizeOf?_enum, base, ih]

end Ordered

/-! ## The widest type -/

/-- The type that is kept is wider than all before it and not less wide than any behind it. -/
theorem widestFrom_first (types : TypeTable) (best : Ty) (tys : List Ty) :
    ∃ before after, best :: tys = before ++ types.widestFrom best tys :: after ∧
      (∀ ty ∈ before, types.width ty < types.width (types.widestFrom best tys)) ∧
      ∀ ty ∈ after, types.width ty ≤ types.width (types.widestFrom best tys) := by
  induction tys generalizing best with
  | nil => exact ⟨[], [], rfl, by simp, by simp⟩
  | cons ty rest ih =>
    by_cases wider : types.width best < types.width ty
    · have step : types.widestFrom best (ty :: rest) = types.widestFrom ty rest :=
        congrArg (types.widestFrom · rest) (if_pos wider)
      rw [step]
      obtain ⟨before, after, split, less, most⟩ := ih ty
      have kept : types.width ty ≤ types.width (types.widestFrom ty rest) := by
        have mem : ty ∈ before ++ types.widestFrom ty rest :: after := split ▸ List.mem_cons_self
        grind
      refine ⟨best :: before, after, by rw [split, List.cons_append], ?_, most⟩
      exact List.forall_mem_cons.2 ⟨wider.trans_le kept, less⟩
    · have step : types.widestFrom best (ty :: rest) = types.widestFrom best rest :=
        congrArg (types.widestFrom · rest) (if_neg wider)
      rw [step]
      obtain ⟨before, after, split, less, most⟩ := ih best
      generalize types.widestFrom best rest = kept at split less most
      cases before with
      | nil =>
        obtain ⟨rfl, rfl⟩ := List.cons.inj split
        refine ⟨[], ty :: rest, rfl, by simp, ?_⟩
        exact List.forall_mem_cons.2 ⟨Nat.le_of_not_lt wider, most⟩
      | cons first before =>
        obtain ⟨rfl, rfl⟩ := List.cons.inj split
        rw [List.forall_mem_cons] at less
        refine ⟨best :: ty :: before, after, rfl, ?_, most⟩
        rw [List.forall_mem_cons, List.forall_mem_cons]
        exact ⟨less.1, (Nat.le_of_not_lt wider).trans_lt less.1, less.2⟩

/-- Where base types mention only earlier enumerations, the question for the width of a type comes
to an end, and `sizeOf?` is its answer. The widest of several types is then the first of those whose
width no other one exceeds, and `void` if there are none. -/
theorem widest_first (ordered : types.Ordered) :
    (∀ ty, types.Covers ty → ∀ size, types.Sized ty size ↔ size = types.sizeOf? ty) ∧
    types.widest [] = .void ∧
    ∀ tys, tys ≠ [] → (∀ ty ∈ tys, types.Covers ty) →
      (∀ ty ∈ tys, ∃ size, types.Sized ty size) ∧
      ∃ before after, tys = before ++ types.widest tys :: after ∧
        (∀ ty ∈ before, types.width ty < types.width (types.widest tys)) ∧
        ∀ ty ∈ after, types.width ty ≤ types.width (types.widest tys) := by
  refine ⟨fun ty covers size => ordered.sized_iff covers, rfl, fun tys some covers => ?_⟩
  refine ⟨fun ty hty => ⟨_, ordered.sized (covers ty hty)⟩, ?_⟩
  cases tys with
  | nil => exact absurd rfl some
  | cons ty rest => exact types.widestFrom_first ty rest

/-- A table of two enumerations, the second of which is a distinct form of the first. -/
def twoEnums : TypeTable :=
  let (first, types) := declareEnum {} "TColor" ⟨0⟩ (some .word)
  (types.declareEnum "TShade" ⟨0⟩ (some (.distinct "TPaint" (.enum first)))).2

theorem ordered_twoEnums : twoEnums.Ordered := by
  rintro ⟨_ | _ | n⟩ base hbase earlier he
  · cases hbase
    cases he
  · cases hbase
    cases List.mem_singleton.1 he
    decide
  · cases hbase

/-- The second enumeration takes two bytes like the first, and is the first of the widest types where
it stands between a byte and the first enumeration. -/
theorem twoEnums_width :
    let tone : Ty := .distinct "TTone" (.enum ⟨1⟩)
    twoEnums.sizeOf? tone = some 2 ∧ twoEnums.widest [] = .void ∧
      twoEnums.widest [.byte, tone, .enum ⟨0⟩] = tone := by
  intro tone
  have covers : ∀ ty ∈ [.byte, tone, .enum ⟨0⟩], twoEnums.Covers ty := by
    simp only [List.forall_mem_cons]
    refine ⟨by rintro id ⟨⟩, ?_, ?_, by simp⟩
    all_goals
      intro id hid
      cases List.mem_singleton.1 hid
      decide
  obtain ⟨sized, empty, widest⟩ := widest_first ordered_twoEnums
  obtain ⟨-, before, after, split, less, most⟩ := widest _ (by simp) covers
  simp only [List.forall_mem_cons] at covers
  have word : twoEnums.Sized .word (some 2) := .own (by simp [Ty.word]) (by simp [Ty.word])
  have color : twoEnums.Sized (.enum ⟨0⟩) (some 2) := .based (by decide) rfl word
  have hcolor := (sized _ covers.2.2.1 _).1 color
  have htone := (sized _ covers.2.1 _).1 (.wrapped (.based (by decide) rfl (.wrapped color)))
  have hbyte := (sized _ covers.1 _).1 (.own (by simp [Ty.byte]) (by simp [Ty.byte]))
  have narrow : twoEnums.width .byte = 1 := congrArg (·.getD 0) hbyte.symm
  have wide : twoEnums.width tone = 2 := congrArg (·.getD 0) htone.symm
  have same : twoEnums.width (.enum ⟨0⟩) = 2 := congrArg (·.getD 0) hcolor.symm
  refine ⟨htone.symm, empty, ?_⟩
  generalize twoEnums.widest [.byte, tone, .enum ⟨0⟩] = kept at split less most ⊢
  match before with
  | [] =>
    obtain ⟨rfl, rfl⟩ := List.cons.inj split
    simp [narrow, wide] at most
  | [_] =>
    obtain ⟨-, split⟩ := List.cons.inj split
    exact (List.cons.inj split).1.symm
  | _ :: second :: before =>
    obtain ⟨-, split⟩ := List.cons.inj split
    obtain rfl := (List.cons.inj split).1
    have last : kept ∈ [Ty.enum ⟨0⟩] := by
      rw [show [Ty.enum ⟨0⟩] = before ++ kept :: after from (List.cons.inj split).2]
      simp
    cases List.mem_singleton.1 last
    simp [wide, same] at less

end Pascal.TypeTable
