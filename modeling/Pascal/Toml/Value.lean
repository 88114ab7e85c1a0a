/-!
# TOML values

The values of a TOML document and the rules for putting them into tables. A table remembers how it
came about, because that settles which later lines may add to it.
-/

namespace Pascal.Toml

/-- How a table came about. -/
inductive TableForm where
  /-- Written between braces, and complete with them. -/
  | braced
  /-- Opened by a header of its own. -/
  | headed
  /-- Named only on the way to the table of another header. -/
  | implied
  /-- Named only on the way through a dotted key. -/
  | dotted
  deriving Repr, DecidableEq, Inhabited

/-- A value of a document. -/
inductive Value where
  | text (content : String)
  | integer (value : Int)
  /-- A number with a fraction or an exponent, or no finite number; its value is not kept. -/
  | float
  | boolean (value : Bool)
  /-- A date, a time or both, in its normal spelling. -/
  | moment (spelling : String)
  | array (elements : List Value)
  /-- The tables opened one after the other by array headers. -/
  | tables (elements : List (List (String × Value)))
  | table (form : TableForm) (entries : List (String × Value))
  deriving Inhabited

/-- The entries of a table in the order in which they came. -/
abbrev Entries := List (String × Value)

namespace Entries

/-- Gives an entry that is there another value. -/
def set (entries : Entries) (key : String) (value : Value) : Entries :=
  entries.map fun (k, v) => if k = key then (k, value) else (k, v)

def push (entries : Entries) (key : String) (value : Value) : Entries :=
  entries ++ [(key, value)]

/-- Gives an entry that is there another value and moves it behind the others. -/
def move (entries : Entries) (key : String) (value : Value) : Entries :=
  Entries.push (entries.filter fun (k, _) => k ≠ key) key value

end Entries

/-- A change to a table, which may be refused. -/
abbrev Change := TableForm → Entries → Option (TableForm × Entries)

/-- Whether a path may lead through a table of a form, where tables on the way would be made with
the form `made`. A dotted key does not enter a table with a header of its own. -/
def TableForm.admits (form made : TableForm) : Bool :=
  match form with
  | braced => false
  | headed => made != dotted
  | implied | dotted => true

/-- Changes the table at the end of a path. Tables missing on the way are made with the form
`made`, and a path through an array of tables leads into its last table. -/
def alterAt (made : TableForm) (change : Change) : List String → Change
  | [], form, entries => change form entries
  | key :: path, form, entries =>
    match entries.lookup key with
    | none => do
      let (form', inner) ← alterAt made change path made []
      some (form, entries.push key (.table form' inner))
    | some (.table innerForm inner) =>
      if innerForm.admits made then do
        let (form', inner') ← alterAt made change path innerForm inner
        some (form, entries.set key (.table form' inner'))
      else none
    | some (.tables elements) => do
      let last ← elements.getLast?
      let (_, last') ← alterAt made change path .headed last
      some (form, entries.set key (.tables (elements.dropLast ++ [last'])))
    | some _ => none

/-- Adds a pair at the end of a path of dotted keys. A key is given once, and a dotted key adds
only to tables made by dotted keys. -/
def addEntry (path : List String) (key : String) (value : Value) : Change :=
  alterAt .dotted (fun form entries =>
    if (form == .dotted) == path.isEmpty || (entries.lookup key).isSome then none
    else some (form, entries.push key value)) path

/-- Opens the table of a header. Only a table implied by other headers may be there already; it
then counts as new among the entries around it. -/
def openTable (key : String) : Change := fun form entries =>
  match entries.lookup key with
  | none => some (form, entries.push key (.table .headed []))
  | some (.table .implied inner) => some (form, entries.move key (.table .headed inner))
  | some _ => none

/-- Opens a further table of an array of tables. -/
def openElement (key : String) : Change := fun form entries =>
  match entries.lookup key with
  | none => some (form, entries.push key (.tables [[]]))
  | some (.tables elements) => some (form, entries.set key (.tables (elements ++ [[]])))
  | some _ => none

/-- A document read so far. -/
structure Document where
  entries : Entries := []
  /-- The path of the last header, whose table takes the next pairs. -/
  current : List String := []
  deriving Inhabited

namespace Document

/-- Changes the table at the end of a path of headers. -/
def alterHeaded (doc : Document) (change : Change) (path : List String) : Option Document :=
  (alterAt .implied change path .headed doc.entries).map fun (_, entries) => { doc with entries }

def put (doc : Document) (path : List String) (key : String) (value : Value) : Option Document :=
  doc.alterHeaded (addEntry path key value) doc.current

/-- A header is read; `path` leads to the table around the one that it opens. -/
def header (doc : Document) (isArray : Bool) (path : List String) (key : String) :
    Option Document := do
  let doc ← doc.alterHeaded (if isArray then openElement key else openTable key) path
  some { doc with current := path ++ [key] }

end Document

end Pascal.Toml
