import Pascal.Proofs.Session.MadeTypes
import Pascal.Proofs.Widths

/-!
# Integer widths in a session

The integer types among the intrinsic types have a standard width once the settings are accepted. So
no session knows a type in which an integer type of another width occurs, and no comparison of ranges
leaves 128 bits.

## Main results

- `Session.integers_standard`: the widths of all integer types, and what follows for arithmetic.
-/

namespace Pascal

theorem Intrinsic.standard_ty {target : Target}
    (h : target.pointerSize = 4 ∨ target.pointerSize = 8)
    (intrinsic : Intrinsic) : (intrinsic.ty target).Standard := by
  have native : ∀ signed, (IntegerTy.mk target.pointerSize signed).Standard := by
    intro signed
    rcases h with h | h <;> simp [IntegerTy.Standard, h]
  cases intrinsic with
  | nativeInt | nativeUInt => exact Ty.standard_integer.2 (native _)
  | extended => exact Ty.standard_of_integers_nil rfl
  | _ =>
    rw [ty]
    decide

theorem Settings.pointerSize_of_validate {settings : Settings} (h : settings.validate = .ok ()) :
    settings.target.pointerSize = 4 ∨ settings.target.pointerSize = 8 := by
  unfold validate at h
  grind

namespace Session

theorem standard_start {settings : Settings} (h : settings.validate = .ok ()) :
    (start settings).env.Made Ty.Standard :=
  SystemUnit.made_build Ty.formative_standard Ty.hereditary_standard.toCalculable
    (Intrinsic.standard_ty (settings.pointerSize_of_validate h))

/-- Once the settings are accepted, no integer type of another width than one, two, four or eight
bytes occurs in the tables of a session, in what is remembered about a unit, or in what typing finds
from there on. So the ranges of all types that are compared, and of the types of literals, are
computed in 128 bits without loss. -/
theorem integers_standard {settings : Settings} (h : settings.validate = .ok ()) :
    (∀ operations, ((start settings).run operations).env.Made Ty.Standard) ∧
    (∀ session model, Holds settings session model →
      session.env.Made Ty.Standard ∧ model.annotations.Made Ty.Standard) ∧
    (∀ (env : Environment), env.Made Ty.Standard →
      (∀ tree scope n annotations, annotations.Made Ty.Standard →
        let ran := (Typing.typeOf { env, tree } scope n).run { annotations }
        ran.1.Standard ∧ ran.2.annotations.Made Ty.Standard) ∧
      (∀ tree ids arguments, (∀ ty ∈ arguments, ty.Standard) →
        let candidates := TypingContext.routines { env, tree } ids
        (∀ c ∈ candidates, c.Made Ty.Standard) ∧
        env.types.choose? candidates arguments = some (env.types.choose candidates arguments)) ∧
      ∀ operator operands, (∀ ty ∈ operands, ty.Standard) →
        let candidates := env.operatorCandidates operator operands
        (∀ c ∈ candidates, c.Made Ty.Standard) ∧
        env.types.choose? candidates operands = some (env.resolveOperator operator operands)) ∧
    (∀ ty other : IntegerTy, ty.Standard → other.Standard → ty.min? = some ty.min ∧
      ty.max? = some ty.max ∧ ty.fitsIn? other = some (ty.fitsIn other) ∧
      ty.distance? other = some (ty.distance other)) ∧
    ∀ value, IntegerTy.ofLiteral? value = some (IntegerTy.ofLiteral value) := by
  have inv := invariant_made Ty.formative_standard Ty.hereditary_standard
  have begins := standard_start h
  refine ⟨fun operations => inv.run begins operations, fun _ _ holds => inv.holds begins holds,
    ?_, ?_, IntegerTy.ofLiteral?_eq⟩
  · intro env henv
    refine ⟨?_, ?_, ?_⟩
    · intro tree scope n annotations ha
      exact Typing.made_typeOf Ty.hereditary_standard henv.declares scope n ha
    · intro tree ids arguments ha
      have made : ∀ c ∈ TypingContext.routines { env, tree } ids, c.Made Ty.Standard :=
        TypingContext.made_routines henv.declares ids
      exact ⟨made, env.types.choose?_eq made ha⟩
    · intro operator operands ho
      have made := Environment.made_operatorCandidates Ty.hereditary_standard.toCalculable
        henv.declares.signatures (fun ty hty => Ty.standard_unaliased.2 (ho ty hty)) operator
      exact ⟨made, env.types.choose?_eq made ho⟩
  · exact fun ty other ht ho => ⟨ht.min?_eq, ht.max?_eq, ht.fitsIn?_eq ho, ht.distance?_eq ho⟩

/-- A session for a target with pointers of eight bytes, and the sum of two native integers. -/
theorem integers_standard_wide :
    let settings : Settings := { target := { pointerSize := 8 } }
    let env := ((start settings).run []).env
    let native := Intrinsic.nativeInt.ty settings.target
    settings.validate = .ok () ∧ env.Made Ty.Standard ∧ native.Standard ∧
      env.types.choose? (env.operatorCandidates (.binary .add) [native, native]) [native, native] =
        some (env.resolveOperator (.binary .add) [native, native]) := by
  have accepted : ({ target := { pointerSize := 8 } } : Settings).validate = .ok () := rfl
  have made := (integers_standard accepted).1 []
  have native : (Intrinsic.nativeInt.ty { pointerSize := 8 }).Standard := by decide
  exact ⟨accepted, made, native, ((integers_standard accepted).2.2.1 _ made).2.2 (.binary .add) _
    (by simpa using native) |>.2⟩

end Session

end Pascal
