import Pascal.Identity
import Pascal.Ty.Integer

/-!
# Types

The types of values. Structured types and enumerations are known by an identity that a
`TypeTable` hands out, so two references to one of them are equal however they are spelled; every
other type is its own description.
-/

namespace Pascal

/-- The kinds of structured types. -/
inductive StructKind where
  | classType | record | interface | object | classHelper | recordHelper
  deriving Repr, DecidableEq, Inhabited

namespace StructKind

/-- Whether the structured type extends another one from outside. -/
def isHelper : StructKind → Bool
  | classHelper | recordHelper => true
  | _ => false

def keyword : StructKind → String
  | classType => "class"
  | record => "record"
  | interface => "interface"
  | object => "object"
  | classHelper => "class helper"
  | recordHelper => "record helper"

/-- Whether values of the kind are references, for which `nil` stands for none. -/
def isReference : StructKind → Bool
  | classType | interface => true
  | _ => false

end StructKind

/-- The kinds of arrays. -/
inductive ArrayKind where
  | fixed | dynamic | openArray | openOfConst
  deriving Repr, DecidableEq, Inhabited

/-- The callable forms, from the least to the most preferred one. -/
inductive ProceduralKind where
  | procedure | procedureOfObject | reference | anonymous | method
  deriving Repr, DecidableEq, Inhabited

/-- How much a callable form is preferred. -/
def ProceduralKind.preference : ProceduralKind → Nat
  | procedure => 0
  | procedureOfObject => 1
  | reference => 2
  | anonymous => 3
  | method => 4

/-- The kinds of real numbers. -/
inductive DecimalKind where
  | single | double | extended | real48 | comp | currency
  deriving Repr, DecidableEq, Inhabited

/-- The kinds of truth values. -/
inductive BooleanKind where
  | boolean | byteBool | wordBool | longBool
  deriving Repr, DecidableEq, Inhabited

def BooleanKind.size : BooleanKind → Nat
  | boolean | byteBool => 1
  | wordBool => 2
  | longBool => 4

/-- The kinds of characters and strings. -/
inductive TextKind where
  | ansiChar | wideChar | shortString | ansiString | unicodeString | wideString
  deriving Repr, DecidableEq, Inhabited

/-- Whether the kind is that of a single character. -/
def TextKind.isChar : TextKind → Bool
  | ansiChar | wideChar => true
  | _ => false

/-- The kinds of variants. -/
inductive VariantKind where
  | normal | ole
  deriving Repr, DecidableEq, Inhabited

/-- Pseudo-types that stand for a family of arguments of a built-in operator. -/
inductive Matcher where
  | anyOrdinal | anySet | pointerMathOperand
  deriving Repr, DecidableEq, Inhabited

/-- The types of values. -/
inductive Ty where
  /-- Anything that could not be typed. -/
  | unknown
  /-- A parameter declared without a type, and what an untyped pointer points to. -/
  | untyped
  /-- The result of a routine that has none. -/
  | void
  | integer (ty : IntegerTy)
  | decimal (kind : DecimalKind) (size : Nat)
  | boolean (kind : BooleanKind)
  | text (kind : TextKind)
  | struct (id : StructId)
  | enum (id : EnumId)
  | pointer (target : Ty) (isNil : Bool) (math : Bool)
  | array (kind : ArrayKind) (element : Ty)
  | set (element : Ty)
  | procedural (kind : ProceduralKind) (params : List Ty) (result : Ty)
  /-- A reference to a class itself, `class of …`. -/
  | classRef (target : Ty)
  | variant (kind : VariantKind)
  /-- A distinct type with its own name and the representation of another. -/
  | distinct (name : String) (target : Ty)
  /-- A bracketed list before it is known to be a set or an array. -/
  | bracket (elements : List Ty)
  | matcher (family : Matcher)
  deriving Repr, Inhabited

namespace Ty

/-! ## Equality -/

mutual
def beq : Ty → Ty → Bool
  | unknown, unknown => true
  | untyped, untyped => true
  | void, void => true
  | integer a, integer b => a = b
  | decimal a m, decimal b n => a = b && m = n
  | boolean a, boolean b => a = b
  | text a, text b => a = b
  | struct a, struct b => a = b
  | enum a, enum b => a = b
  | pointer s a m, pointer t b n => beq s t && a = b && m = n
  | array a s, array b t => a = b && beq s t
  | set s, set t => beq s t
  | procedural a ps s, procedural b qs t => a = b && beqAll ps qs && beq s t
  | classRef s, classRef t => beq s t
  | variant a, variant b => a = b
  | distinct a s, distinct b t => a = b && beq s t
  | bracket ps, bracket qs => beqAll ps qs
  | matcher a, matcher b => a = b
  | _, _ => false
/-- Whether two lists hold the same types in the same order. -/
def beqAll : List Ty → List Ty → Bool
  | [], [] => true
  | s :: ss, t :: ts => beq s t && beqAll ss ts
  | _, _ => false
end

/-- Induction over types, with the hypothesis for every type in a list. -/
theorem induct {P : Ty → Prop} (unknown : P unknown) (untyped : P untyped) (void : P void)
    (integer : ∀ i, P (integer i)) (decimal : ∀ k n, P (decimal k n))
    (boolean : ∀ k, P (boolean k)) (text : ∀ k, P (text k)) (struct : ∀ i, P (struct i))
    (enum : ∀ i, P (enum i)) (pointer : ∀ t n m, P t → P (pointer t n m))
    (array : ∀ k t, P t → P (array k t)) (set : ∀ t, P t → P (set t))
    (procedural : ∀ k ps r, (∀ p ∈ ps, P p) → P r → P (procedural k ps r))
    (classRef : ∀ t, P t → P (classRef t)) (variant : ∀ k, P (variant k))
    (distinct : ∀ n t, P t → P (distinct n t)) (bracket : ∀ es, (∀ e ∈ es, P e) → P (bracket es))
    (matcher : ∀ m, P (matcher m)) (t : Ty) : P t :=
  @Ty.rec P (fun ts => ∀ t ∈ ts, P t) unknown untyped void integer decimal boolean text struct
    enum pointer array set procedural classRef variant distinct bracket matcher (by simp)
    (fun _ _ h hs => List.forall_mem_cons.2 ⟨h, hs⟩) t

theorem beqAll_iff {ss : List Ty} (h : ∀ s ∈ ss, ∀ t, beq s t = true ↔ s = t) (ts : List Ty) :
    beqAll ss ts = true ↔ ss = ts := by
  induction ss generalizing ts with
  | nil => cases ts <;> simp [beqAll]
  | cons s ss ih =>
    cases ts with
    | nil => simp [beqAll]
    | cons t ts =>
      simp [beqAll, h s (by simp) t, ih (fun s hs => h s (by simp [hs])) ts]

theorem beq_iff (s t : Ty) : beq s t = true ↔ s = t := by
  induction s using induct generalizing t with
  | procedural k ps r hps hr =>
    cases t <;> simp [beq, beqAll_iff hps, hr, and_assoc]
  | bracket es hes => cases t <;> simp [beq, beqAll_iff hes]
  | _ => cases t <;> simp_all [beq, and_assoc]

instance : DecidableEq Ty := fun s t => decidable_of_iff _ (beq_iff s t)

/-! ## Common types -/

def shortInt : Ty := integer .shortInt
def smallInt : Ty := integer .smallInt
def int : Ty := integer .integer
def int64 : Ty := integer .int64
def byte : Ty := integer .byte
def word : Ty := integer .word
def cardinal : Ty := integer .cardinal
def uInt64 : Ty := integer .uInt64
def bool : Ty := boolean .boolean
def char : Ty := text .wideChar
def string : Ty := text .unicodeString
def anyVariant : Ty := variant .normal

def pointerTo (target : Ty) (math : Bool) : Ty := pointer target false math

def untypedPointer : Ty := pointerTo untyped false

def nil : Ty := pointer untyped true false

/-- The type without the distinct-type wrappers around it. -/
def unaliased : Ty → Ty
  | distinct _ target => target.unaliased
  | ty => ty

end Ty

end Pascal
