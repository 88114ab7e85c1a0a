import Pascal.Ty.Intrinsic

/-!
# Settings

What can be set from outside: the widths of the compilation target, the namespaces in which units
are sought, and further names for intrinsic types.
-/

namespace Pascal

/-- The settings of a session. -/
structure Settings where
  target : Target := {}
  /-- The namespaces tried in turn for a unit that is not known by its name alone. -/
  unitScopeNames : List String := []
  /-- Further names for intrinsic types, in ascending order. -/
  typeAliases : List (String × String) := []
  deriving Repr, DecidableEq, Inhabited

/-- Why settings are refused. -/
inductive SettingsError where
  /-- The file is not there or is no text. -/
  | unreadable
  /-- The text is not well-formed or a value has the wrong type. -/
  | malformed
  | invalidValue (key reason : String)
  deriving Repr, DecidableEq

namespace SettingsError

/-- The wording of a refusal, as far as it is settled here. -/
def message? : SettingsError → Option String
  | invalidValue key reason => some s!"Invalid value for '{key}': {reason}"
  | _ => none

end SettingsError

namespace Settings

/-- Further names in the order in which settings keep them: ascending by code points. -/
def sortAliases (aliases : List (String × String)) : List (String × String) :=
  aliases.mergeSort fun a b => a.1 ≤ b.1

/-- The first further name that stands for no intrinsic type. -/
def badAlias? (settings : Settings) : Option (String × String) :=
  settings.typeAliases.find? fun (_, target) => (Intrinsic.ofName? target).isNone

/-- Accepts settings whose values are all in range. -/
def validate (settings : Settings) : Except SettingsError Unit :=
  let { pointerSize, extendedSize } := settings.target
  if pointerSize ≠ 4 ∧ pointerSize ≠ 8 then
    .error (.invalidValue "target.pointer_size" s!"expected 4 or 8, got {pointerSize}")
  else if extendedSize ≠ 8 ∧ extendedSize ≠ 10 ∧ extendedSize ≠ 16 then
    .error (.invalidValue "target.extended_size" s!"expected 8, 10 or 16, got {extendedSize}")
  else
    match settings.badAlias? with
    | some (name, target) =>
      .error (.invalidValue s!"type_aliases.{name}" s!"'{target}' is not an intrinsic type")
    | none => .ok ()

/-- The further names with the intrinsic types they stand for; names for other types are left out. -/
def intrinsicAliases (settings : Settings) : List (String × Intrinsic) :=
  settings.typeAliases.filterMap fun (name, target) =>
    (Intrinsic.ofName? target).map (name, ·)

end Settings

end Pascal
