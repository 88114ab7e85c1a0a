import Pascal.Settings.Basic
import Pascal.Toml.Moment
import Pascal.Toml.Reader

/-!
# Reading settings

Settings are written as a TOML document with the sections `target`, `analysis` and `type_aliases`.
Whatever is not given keeps its default. Options that are not known are passed over, and can be
reported.
-/

namespace Pascal.Settings

open Toml (Value Entries momentKey)

/-! ## Values of settings -/

def byte? : Value → Option Nat
  | .integer i => if 0 ≤ i && i < 256 then some i.toNat else none
  | _ => none

def text? : Value → Option String
  | .text content => some content
  | _ => none

def texts? : Value → Option (List String)
  | .array elements => elements.mapM text?
  | _ => none

/-- A value that may be missing; one that is there has to be of the right type. -/
def orDefault? {α : Type} (read : Value → Option α) (default : α) : Option Value → Option α
  | none => some default
  | some value => read value

/-! ## Sections -/

/-- What a section says, given by the names of its options. A section is a table, or a list with
the values of the options in order. A moment holds no option. -/
def options? : Value → Option (String → Nat → Option Value)
  | .table _ entries => some fun key _ => entries.lookup key
  | .array elements => some fun _ position => elements[position]?
  | .tables elements => some fun _ position => (elements[position]?).map (.table .headed)
  | .moment _ => some fun _ _ => none
  | _ => none

/-- The section with the widths of the target. -/
def target? (value : Value) : Option Target := do
  let option ← options? value
  let default : Target := {}
  let pointerSize ← orDefault? byte? default.pointerSize (option "pointer_size" 0)
  let extendedSize ← orDefault? byte? default.extendedSize (option "extended_size" 1)
  some { pointerSize, extendedSize }

/-- The section on how to analyse, which gives the namespaces of units. -/
def analysis? (value : Value) : Option (List String) := do
  let option ← options? value
  orDefault? texts? [] (option "unit_scope_names" 0)

/-- The section with further names for intrinsic types. A moment is taken for a table with its
reserved key. -/
def aliases? : Value → Option (List (String × String))
  | .table _ entries => entries.mapM fun (key, value) => (text? value).map (key, ·)
  | .moment spelling => some [(momentKey, spelling)]
  | _ => none

/-- The settings that a document gives, if all its values have the right types. -/
def ofEntries? (entries : Entries) : Option Settings := do
  let target ← orDefault? target? {} (entries.lookup "target")
  let unitScopeNames ← orDefault? analysis? [] (entries.lookup "analysis")
  let aliases ← orDefault? aliases? [] (entries.lookup "type_aliases")
  some { target, unitScopeNames, typeAliases := sortAliases aliases }

/-! ## Options that are not known -/

/-- The keys of a table that are not known, in ascending order. -/
def unknownKeys (known : List String) (entries : Entries) : List String :=
  ((entries.map Prod.fst).filter fun key => !known.contains key).mergeSort

/-- The sections with options of their own, and the options. -/
def knownOptions : List (String × List String) :=
  [("target", ["pointer_size", "extended_size"]), ("analysis", ["unit_scope_names"])]

/-- The reports on a section. One that stands for a moment holds no options. -/
def unknownIn (entries : Entries) (name : String) (known : List String) : List String :=
  match entries.lookup name with
  | some (.table _ options) =>
    if Entries.standsForMoment options then []
    else (unknownKeys known options).map fun key => s!"Unknown config option in [{name}]: '{key}'"
  | _ => []

/-- The reports on a document: on its sections first, then on the options within them. There are
none on a document that is not sound. -/
def unknownOptions (entries : Entries) : List String :=
  if Toml.areSoundEntries entries then
    (unknownKeys ["target", "analysis", "type_aliases"] entries).map
        (fun key => s!"Unknown config option: '{key}'")
      ++ knownOptions.flatMap fun (name, known) => unknownIn entries name known
  else []

/-! ## Files -/

/-- The settings in a file with the given content, and the reports on options that are not known.
The content has to be text, well-formed and in range, and is refused for the first of these that
fails. -/
def ofBytes (content : ByteArray) : Except SettingsError (Settings × List String) :=
  match String.fromUTF8? content with
  | none => .error .unreadable
  | some text =>
    match Toml.read? text with
    | none => .error .malformed
    | some entries =>
      match ofEntries? entries with
      | none => .error .malformed
      | some settings => do
        settings.validate
        pure (settings, unknownOptions entries)

/-- The settings in a file with the given content. -/
def load (content : ByteArray) : Except SettingsError Settings :=
  (ofBytes content).map Prod.fst

end Pascal.Settings
