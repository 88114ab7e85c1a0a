import Pascal.Json.Value

/-!
# Reading JSON

The grammar of JSON, read from the front of a list of characters. Every reader gives what it has
read and the characters behind it.
-/

namespace Pascal.Json.Reader

/-- The characters that may stand between the parts of a value. -/
def isBlank (c : Char) : Bool := c = ' ' || c = '\t' || c = '\n' || c = '\r'

/-- The characters from the first that is not blank. -/
def skipBlank (cs : List Char) : List Char := cs.dropWhile isBlank

/-- The digits at the front, as numbers, and what is behind them. -/
def digits (cs : List Char) : List Nat × List Char :=
  ((cs.takeWhile Char.isDigit).map fun c => c.toNat - '0'.toNat, cs.dropWhile Char.isDigit)

def digits? (cs : List Char) : Option (List Nat × List Char) :=
  match digits cs with
  | ([], _) => none
  | read => some read

/-- The fraction of a number, if there is a point. -/
def fraction? : List Char → Option (List Nat × List Char)
  | '.' :: cs => digits? cs
  | cs => some ([], cs)

/-- The digits of an exponent behind its sign. -/
def signedExponent? : List Char → Option ((Bool × List Nat) × List Char)
  | '-' :: cs => (digits? cs).map fun (ds, rest) => ((true, ds), rest)
  | '+' :: cs => (digits? cs).map fun (ds, rest) => ((false, ds), rest)
  | cs => (digits? cs).map fun (ds, rest) => ((false, ds), rest)

/-- The exponent of a number, if there is one. -/
def exponent? : List Char → Option (Option (Bool × List Nat) × List Char)
  | 'e' :: cs | 'E' :: cs => (signedExponent? cs).map fun (e, rest) => (some e, rest)
  | cs => some (none, cs)

/-- A number without its sign. A zero in front stands alone. -/
def unsigned? (negative : Bool) (cs : List Char) : Option (Numeral × List Char) := do
  let (whole, cs) ← digits? cs
  if whole.head? = some 0 && whole.length ≠ 1 then none
  else
    let (fraction, cs) ← fraction? cs
    let (exponent, cs) ← exponent? cs
    some ({ negative, whole, fraction, exponent }, cs)

def numeral? : List Char → Option (Numeral × List Char)
  | '-' :: cs => unsigned? true cs
  | cs => unsigned? false cs

def hexDigit? (c : Char) : Option Nat :=
  if c.isDigit then some (c.toNat - '0'.toNat)
  else if 'a' ≤ c && c ≤ 'f' then some (c.toNat - 'a'.toNat + 10)
  else if 'A' ≤ c && c ≤ 'F' then some (c.toNat - 'A'.toNat + 10)
  else none

def hexUnit? (a b c d : Char) : Option Nat := do
  some ((((← hexDigit? a) * 16 + (← hexDigit? b)) * 16 + (← hexDigit? c)) * 16 + (← hexDigit? d))

/-- The character that a one-letter escape stands for. -/
def escaped? : Char → Option Nat
  | '"' => some 0x22
  | '\\' => some 0x5c
  | '/' => some 0x2f
  | 'b' => some 0x08
  | 'f' => some 0x0c
  | 'n' => some 0x0a
  | 'r' => some 0x0d
  | 't' => some 0x09
  | _ => none

/-- The codes of a text up to its closing quote. An escape may give half of a surrogate pair. -/
def codes? : List Char → Option (List Nat × List Char)
  | [] => none
  | '"' :: cs => some ([], cs)
  | '\\' :: 'u' :: a :: b :: c :: d :: cs => do
    let code ← hexUnit? a b c d
    let (codes, rest) ← codes? cs
    some (code :: codes, rest)
  | '\\' :: c :: cs => do
    let code ← escaped? c
    let (codes, rest) ← codes? cs
    some (code :: codes, rest)
  | c :: cs =>
    if c.toNat < 0x20 then none
    else (codes? cs).map fun (codes, rest) => (c.toNat :: codes, rest)

/-- The characters of codes; surrogates count in pairs only. -/
def assemble? : List Nat → Option (List Char)
  | [] => some []
  | high :: codes =>
    if 0xD800 ≤ high && high < 0xDC00 then
      match codes with
      | low :: codes =>
        if 0xDC00 ≤ low && low < 0xE000 then
          (assemble? codes).map
            (Char.ofNat (0x10000 + (high - 0xD800) * 0x400 + (low - 0xDC00)) :: ·)
        else none
      | [] => none
    else if 0xDC00 ≤ high && high < 0xE000 then none
    else (assemble? codes).map (Char.ofNat high :: ·)

/-- A text behind its opening quote. -/
def quoted? (cs : List Char) : Option (Option String × List Char) :=
  (codes? cs).map fun (codes, rest) => ((assemble? codes).map String.ofList, rest)

mutual
/-- A value; `fuel` bounds the number of readers within each other. -/
def value? : Nat → List Char → Option (Json × List Char)
  | 0, _ => none
  | fuel + 1, cs =>
    match skipBlank cs with
    | 'n' :: 'u' :: 'l' :: 'l' :: cs => some (.null, cs)
    | 't' :: 'r' :: 'u' :: 'e' :: cs => some (.bool true, cs)
    | 'f' :: 'a' :: 'l' :: 's' :: 'e' :: cs => some (.bool false, cs)
    | '"' :: cs => (quoted? cs).map fun (content, rest) => (.text content, rest)
    | '[' :: cs =>
      match skipBlank cs with
      | ']' :: rest => some (.array [], rest)
      | cs => (elements? fuel cs).map fun (elements, rest) => (.array elements, rest)
    | '{' :: cs =>
      match skipBlank cs with
      | '}' :: rest => some (.object [], rest)
      | cs => (members? fuel cs).map fun (members, rest) => (.object members, rest)
    | cs => (numeral? cs).map fun (numeral, rest) => (.number numeral, rest)
/-- The elements of an array that has some, up to its end. -/
def elements? : Nat → List Char → Option (List Json × List Char)
  | 0, _ => none
  | fuel + 1, cs => do
    let (element, cs) ← value? fuel cs
    match skipBlank cs with
    | ',' :: cs => (elements? fuel cs).map fun (elements, rest) => (element :: elements, rest)
    | ']' :: rest => some ([element], rest)
    | _ => none
/-- The members of an object that has some, up to its end. -/
def members? : Nat → List Char → Option (List (Option String × Json) × List Char)
  | 0, _ => none
  | fuel + 1, cs => do
    let '"' :: cs := skipBlank cs | none
    let (key, cs) ← quoted? cs
    let ':' :: cs := skipBlank cs | none
    let (value, cs) ← value? fuel cs
    match skipBlank cs with
    | ',' :: cs => (members? fuel cs).map fun (members, rest) => ((key, value) :: members, rest)
    | '}' :: rest => some ([(key, value)], rest)
    | _ => none
end

end Pascal.Json.Reader

namespace Pascal.Json

/-- The value that a whole text stands for. Every reader within another takes at least one of every
two characters, so twice the length is fuel enough. -/
def read? (text : String) : Option Json :=
  let cs := text.toList
  match Reader.value? (2 * cs.length + 2) cs with
  | some (value, rest) => if (Reader.skipBlank rest).isEmpty then some value else none
  | none => none

end Pascal.Json
