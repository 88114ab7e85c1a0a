import Pascal.Toml.Lexeme
import Pascal.Toml.Value

/-!
# Tables that stand for moments

A moment can also be given as a table: its first key is then a reserved one, under which a text
writes the moment. What follows in such a table does not count. A document is sound if every table
with this key in front does write a moment, at any depth.
-/

namespace Pascal.Toml

/-- The reserved key of a moment that is given as a table. -/
def momentKey : String := "$__toml_private_datetime"

def Entries.standsForMoment (entries : Entries) : Bool :=
  entries.head?.any fun (key, _) => key = momentKey

/-- Whether a value is a text that writes a moment. -/
def Value.isMomentText : Value → Bool
  | .text content => writesMoment content
  | _ => false

mutual
/-- Whether all tables in a value that stand for a moment write one. -/
def Value.isSound : Value → Bool
  | .array elements => areSound elements
  | .tables elements => areSoundTables elements
  | .table _ entries => isSoundTable entries
  | _ => true
/-- Whether all elements of an array are sound. -/
def areSound : List Value → Bool
  | [] => true
  | element :: rest => element.isSound && areSound rest
/-- Whether all tables of an array of tables are sound. -/
def areSoundTables : List (List (String × Value)) → Bool
  | [] => true
  | entries :: rest => isSoundTable entries && areSoundTables rest
/-- Whether a table is sound: it writes the moment that it stands for, or holds sound values. -/
def isSoundTable : List (String × Value) → Bool
  | [] => true
  | (key, value) :: rest =>
    if key = momentKey then value.isMomentText else value.isSound && areSoundEntries rest
/-- Whether the values of all entries are sound. -/
def areSoundEntries : List (String × Value) → Bool
  | [] => true
  | (_, value) :: rest => value.isSound && areSoundEntries rest
end

end Pascal.Toml
