/-!
# Words of TOML

The smallest parts of a TOML document: blanks, comments, keys, texts, numbers, dates and times.
Every reader takes its part from the front of a list of characters and gives the rest.
-/

namespace Pascal.Toml

/-! ## Blanks and comments -/

def isBlank (c : Char) : Bool := c = ' ' || c = '\t'

/-- The characters that stand for themselves: all but the control characters, of which only the
tab is one. -/
def isPlain (c : Char) : Bool := c = '\t' || (0x20 ≤ c.toNat && c.toNat ≠ 0x7f)

/-- The characters from the first that is not blank. -/
def skipBlank (cs : List Char) : List Char := cs.dropWhile isBlank

def break? : List Char → Option (List Char)
  | '\n' :: cs => some cs
  | '\r' :: '\n' :: cs => some cs
  | _ => none

/-- The end of a line or of the document, behind blanks and a comment. -/
def lineEnd? (cs : List Char) : Option (List Char) :=
  let rest :=
    match skipBlank cs with
    | '#' :: cs => cs.dropWhile isPlain
    | cs => cs
  if rest.isEmpty then some [] else break? rest

/-- Skips blanks, line breaks and comments; a comment ends with a line break. -/
def skipSpace? (inComment : Bool) : List Char → Option (List Char)
  | [] => if inComment then none else some []
  | '\n' :: cs => skipSpace? false cs
  | '\r' :: '\n' :: cs => skipSpace? false cs
  | c :: cs =>
    if inComment then if isPlain c then skipSpace? true cs else none
    else if isBlank c then skipSpace? false cs
    else if c = '#' then skipSpace? true cs
    else some (c :: cs)

/-! ## Texts -/

def hexDigit? (c : Char) : Option Nat :=
  if c.isDigit then some (c.toNat - '0'.toNat)
  else if 'a' ≤ c && c ≤ 'f' then some (c.toNat - 'a'.toNat + 10)
  else if 'A' ≤ c && c ≤ 'F' then some (c.toNat - 'A'.toNat + 10)
  else none

/-- The character whose code is written by hexadecimal digits. -/
def scalar? (digits : List Char) : Option Char := do
  let code ← digits.foldlM (fun code c => (hexDigit? c).map (code * 16 + ·)) 0
  if code.isValidChar then some (Char.ofNat code) else none

/-- The character that a one-letter escape stands for. -/
def escaped? : Char → Option Char
  | 'b' => some '\x08'
  | 'f' => some '\x0c'
  | 'n' => some '\n'
  | 'r' => some '\r'
  | 't' => some '\t'
  | '\\' => some '\\'
  | '"' => some '"'
  | _ => none

/-- Puts a character in front of what was read. -/
def onto (c : Char) (read : List Char × List Char) : List Char × List Char :=
  (c :: read.1, read.2)

/-- A text with escapes on one line, behind its opening quote. -/
def basicText? : List Char → Option (List Char × List Char)
  | [] => none
  | '"' :: cs => some ([], cs)
  | '\\' :: 'u' :: c₁ :: c₂ :: c₃ :: c₄ :: cs => do
    let c ← scalar? [c₁, c₂, c₃, c₄]
    (basicText? cs).map (onto c)
  | '\\' :: 'U' :: c₁ :: c₂ :: c₃ :: c₄ :: c₅ :: c₆ :: c₇ :: c₈ :: cs => do
    let c ← scalar? [c₁, c₂, c₃, c₄, c₅, c₆, c₇, c₈]
    (basicText? cs).map (onto c)
  | '\\' :: letter :: cs => do
    let c ← escaped? letter
    (basicText? cs).map (onto c)
  | c :: cs => if isPlain c then (basicText? cs).map (onto c) else none

/-- A text without escapes on one line, behind its opening apostrophe. -/
def literalText? : List Char → Option (List Char × List Char)
  | [] => none
  | '\'' :: cs => some ([], cs)
  | c :: cs => if isPlain c then (literalText? cs).map (onto c) else none

/-- What stands behind the three quotes that end a long text. Up to two further quotes belong to
the text, which the last three then end. -/
def closing (quote : Char) : List Char → List Char × List Char
  | c₁ :: c₂ :: cs =>
    if c₁ = quote then if c₂ = quote then ([quote, quote], cs) else ([quote], c₂ :: cs)
    else ([], c₁ :: c₂ :: cs)
  | [c] => if c = quote then ([quote], []) else ([], [c])
  | [] => ([], [])

/-- A long text with escapes, behind its three opening quotes. A backslash at the end of a line
drops the blanks and line breaks up to the next other character; `trimming` is set while that
goes on. -/
def longBasic? (trimming : Bool) : List Char → Option (List Char × List Char)
  | [] => none
  | '"' :: '"' :: '"' :: cs => some (closing '"' cs)
  | '\\' :: 'u' :: c₁ :: c₂ :: c₃ :: c₄ :: cs => do
    let c ← scalar? [c₁, c₂, c₃, c₄]
    (longBasic? false cs).map (onto c)
  | '\\' :: 'U' :: c₁ :: c₂ :: c₃ :: c₄ :: c₅ :: c₆ :: c₇ :: c₈ :: cs => do
    let c ← scalar? [c₁, c₂, c₃, c₄, c₅, c₆, c₇, c₈]
    (longBasic? false cs).map (onto c)
  | '\\' :: letter :: cs =>
    if (break? (skipBlank (letter :: cs))).isSome then longBasic? true cs
    else do
      let c ← escaped? letter
      (longBasic? false cs).map (onto c)
  | '\r' :: '\n' :: cs =>
    if trimming then longBasic? true cs else (longBasic? false cs).map (onto '\n')
  | '\n' :: cs => if trimming then longBasic? true cs else (longBasic? false cs).map (onto '\n')
  | c :: cs =>
    if trimming && isBlank c then longBasic? true cs
    else if isPlain c then (longBasic? false cs).map (onto c)
    else none

/-- A long text without escapes, behind its three opening apostrophes. -/
def longLiteral? : List Char → Option (List Char × List Char)
  | [] => none
  | '\'' :: '\'' :: '\'' :: cs => some (closing '\'' cs)
  | '\r' :: '\n' :: cs => (longLiteral? cs).map (onto '\n')
  | '\n' :: cs => (longLiteral? cs).map (onto '\n')
  | c :: cs => if isPlain c then (longLiteral? cs).map (onto c) else none

/-- A line break right behind the opening of a long text does not belong to it. -/
def skipBreak (cs : List Char) : List Char := (break? cs).getD cs

def text? : List Char → Option (String × List Char)
  | '"' :: '"' :: '"' :: cs => (longBasic? false (skipBreak cs)).map (Prod.map String.ofList id)
  | '"' :: cs => (basicText? cs).map (Prod.map String.ofList id)
  | '\'' :: '\'' :: '\'' :: cs => (longLiteral? (skipBreak cs)).map (Prod.map String.ofList id)
  | '\'' :: cs => (literalText? cs).map (Prod.map String.ofList id)
  | _ => none

/-! ## Keys -/

/-- The characters of a key that is not quoted. -/
def isBare (c : Char) : Bool := c.isAlphanum || c = '_' || c = '-'

def keyPart? : List Char → Option (String × List Char)
  | '"' :: cs => (basicText? cs).map (Prod.map String.ofList id)
  | '\'' :: cs => (literalText? cs).map (Prod.map String.ofList id)
  | cs =>
    match cs.takeWhile isBare with
    | [] => none
    | bare => some (String.ofList bare, cs.dropWhile isBare)

/-- A key with at most `limit` parts, blanks around each part. The last part is given apart. -/
def keyPath? : Nat → List Char → Option ((List String × String) × List Char)
  | 0, _ => none
  | limit + 1, cs => do
    let (part, cs) ← keyPart? (skipBlank cs)
    match skipBlank cs with
    | '.' :: cs =>
      (keyPath? limit cs).map fun ((path, last), rest) => ((part :: path, last), rest)
    | rest => some (([], part), rest)

/-! ## Numbers -/

/-- Digits with single underscores between them, behind a first digit. -/
def moreDigits? (isDigit : Char → Bool) : List Char → Option (List Char × List Char)
  | '_' :: c :: cs => if isDigit c then (moreDigits? isDigit cs).map (onto c) else none
  | ['_'] => none
  | c :: cs => if isDigit c then (moreDigits? isDigit cs).map (onto c) else some ([], c :: cs)
  | [] => some ([], [])

/-- Digits with single underscores between them. -/
def digits? (isDigit : Char → Bool) : List Char → Option (List Char × List Char)
  | c :: cs => if isDigit c then (moreDigits? isDigit cs).map (onto c) else none
  | [] => none

/-- The whole part of a decimal number: a zero stands alone. -/
def whole? : List Char → Option (List Char × List Char)
  | '0' :: cs => some (['0'], cs)
  | cs => digits? Char.isDigit cs

def ofDigits (base : Nat) (digits : List Char) : Nat :=
  digits.foldl (fun n c => n * base + (hexDigit? c).getD 0) 0

/-- Whether a whole number fits into 64 bits with a sign. -/
def fits (i : Int) : Bool := -(Nat.pow 2 63 : Int) ≤ i && i < (Nat.pow 2 63 : Int)

/-- A whole number in another base, behind the mark of the base. -/
def inBase? (base : Nat) (cs : List Char) : Option (Option Int × List Char) := do
  let (digits, rest) ← digits? (fun c => (hexDigit? c).any (· < base)) cs
  let value : Int := ofDigits base digits
  if fits value then some (some value, rest) else none

/-- The fraction of a number, which has digits if there is a point. -/
def fraction? : List Char → Option (List Char × List Char)
  | '.' :: cs => digits? Char.isDigit cs
  | cs => some ([], cs)

def exponent? : List Char → Option (Int × List Char)
  | 'e' :: '-' :: cs | 'E' :: '-' :: cs =>
    (digits? Char.isDigit cs).map fun (ds, rest) => (-(ofDigits 10 ds : Int), rest)
  | 'e' :: '+' :: cs | 'E' :: '+' :: cs | 'e' :: cs | 'E' :: cs =>
    (digits? Char.isDigit cs).map fun (ds, rest) => ((ofDigits 10 ds : Int), rest)
  | cs => some (0, cs)

/-- The least number that is nearer to no double than to the power of two above them all. -/
def doubleLimit : Nat := Nat.pow 2 1024 - Nat.pow 2 970

/-- Whether a significand times a power of ten is too large for a double. Only numbers near the
limit need to be computed. -/
def exceedsDouble (significand : Nat) (exponent : Int) : Bool :=
  let magnitude := exponent + (Nat.toDigits 10 significand).length
  if significand = 0 || magnitude < 300 then false
  else if 320 < magnitude then true
  else if exponent < 0 then doubleLimit * Nat.pow 10 exponent.natAbs ≤ significand
  else doubleLimit ≤ significand * Nat.pow 10 exponent.toNat

/-- A decimal number without its sign: a whole number, or none for any other. Only a negative
number may be too large for a double. -/
def decimal? (negative : Bool) : List Char → Option (Option Int × List Char)
  | 'i' :: 'n' :: 'f' :: cs => some (none, cs)
  | 'n' :: 'a' :: 'n' :: cs => some (none, cs)
  | cs => do
    let (whole, afterWhole) ← whole? cs
    let (fraction, afterFraction) ← fraction? afterWhole
    let (exponent, rest) ← exponent? afterFraction
    if rest.length = afterWhole.length then
      let value : Int := ofDigits 10 whole
      let value := if negative then -value else value
      if fits value then some (some value, rest) else none
    else if !negative && exceedsDouble (ofDigits 10 (whole ++ fraction)) (exponent - fraction.length)
    then none
    else some (none, rest)

/-- A number: a whole number, or none for any other. -/
def number? : List Char → Option (Option Int × List Char)
  | '0' :: 'x' :: cs => inBase? 16 cs
  | '0' :: 'o' :: cs => inBase? 8 cs
  | '0' :: 'b' :: cs => inBase? 2 cs
  | '-' :: cs => decimal? true cs
  | '+' :: cs => decimal? false cs
  | cs => decimal? false cs

/-! ## Dates and times -/

/-- Two digits that write a number of a range. -/
def twoDigits? (low high : Nat) : List Char → Option (List Char × List Char)
  | c₁ :: c₂ :: cs =>
    let n := ofDigits 10 [c₁, c₂]
    if c₁.isDigit && c₂.isDigit && low ≤ n && n ≤ high then some ([c₁, c₂], cs) else none
  | _ => none

/-- Takes a character that has to stand in front. -/
def expect? (c : Char) : List Char → Option (List Char)
  | c' :: cs => if c' = c then some cs else none
  | [] => none

/-- Whether a date stands in front: four digits and a hyphen. -/
def startsDate : List Char → Bool
  | c₁ :: c₂ :: c₃ :: c₄ :: '-' :: _ => [c₁, c₂, c₃, c₄].all Char.isDigit
  | _ => false

/-- Whether a time stands in front: two digits and a colon. -/
def startsTime : List Char → Bool
  | c₁ :: c₂ :: ':' :: _ => c₁.isDigit && c₂.isDigit
  | _ => false

def daysIn (year month : Nat) : Nat :=
  if month = 2 then
    if year % 4 = 0 && (year % 100 ≠ 0 || year % 400 = 0) then 29 else 28
  else if [4, 6, 9, 11].contains month then 30
  else 31

def date? (cs : List Char) : Option (List Char × List Char) := do
  let year := cs.take 4
  let cs ← expect? '-' (cs.drop 4)
  let (month, cs) ← twoDigits? 1 12 cs
  let cs ← expect? '-' cs
  let (day, cs) ← twoDigits? 1 (daysIn (ofDigits 10 year) (ofDigits 10 month)) cs
  some (year ++ '-' :: month ++ '-' :: day, cs)

/-- The part of a second, in its normal spelling: at most nine digits, the last not a zero. -/
def secondPart : List Char → List Char × List Char
  | '.' :: cs =>
    match cs.takeWhile Char.isDigit with
    | [] => ([], '.' :: cs)
    | digits =>
      match ((digits.take 9).reverse.dropWhile (· = '0')).reverse with
      | [] => ([], cs.dropWhile Char.isDigit)
      | kept => ('.' :: kept, cs.dropWhile Char.isDigit)
  | cs => ([], cs)

def time? (cs : List Char) : Option (List Char × List Char) := do
  let (hour, cs) ← twoDigits? 0 23 cs
  let cs ← expect? ':' cs
  let (minute, cs) ← twoDigits? 0 59 cs
  let cs ← expect? ':' cs
  let (second, cs) ← twoDigits? 0 60 cs
  let (part, cs) := secondPart cs
  some (hour ++ ':' :: minute ++ ':' :: second ++ part, cs)

/-- Hours and minutes of an offset behind its sign. An offset of nothing has the sign plus. -/
def offsetPair? (sign : Char) (cs : List Char) : Option (List Char × List Char) := do
  let (hours, cs) ← twoDigits? 0 23 cs
  let cs ← expect? ':' cs
  let (minutes, cs) ← twoDigits? 0 59 cs
  let sign := if ofDigits 10 (hours ++ minutes) = 0 then '+' else sign
  some (sign :: hours ++ ':' :: minutes, cs)

def offset? : List Char → Option (List Char × List Char)
  | 'Z' :: cs | 'z' :: cs => some (['Z'], cs)
  | '+' :: cs => offsetPair? '+' cs
  | '-' :: cs => offsetPair? '-' cs
  | cs => some ([], cs)

/-- Whether a character may stand between a date and a time. -/
def isDateTimeMark (c : Char) : Bool := c = 'T' || c = 't' || c = ' '

/-- A date with or without a time, or a time alone, in its normal spelling. -/
def moment? (cs : List Char) : Option (String × List Char) :=
  if startsDate cs then do
    let (date, rest) ← date? cs
    match rest with
    | mark :: cs =>
      if isDateTimeMark mark && startsTime cs then do
        let (time, cs) ← time? cs
        let (offset, cs) ← offset? cs
        some (String.ofList (date ++ 'T' :: time ++ offset), cs)
      else some (String.ofList date, rest)
    | [] => some (String.ofList date, [])
  else (time? cs).map (Prod.map String.ofList id)

/-- Whether a text writes a moment and nothing else. -/
def writesMoment (content : String) : Bool :=
  (moment? content.toList).any fun (_, rest) => rest.isEmpty

end Pascal.Toml
