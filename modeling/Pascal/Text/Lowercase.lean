import Pascal.Text.CasedTable
import Pascal.Text.LowercaseTable

/-!
# Lowercase text

Full lowercase mapping of a text. Every character is mapped on its own, except the capital sigma:
it becomes the final form `ς` at the end of a word and `σ` elsewhere.
-/

namespace Pascal.Text

/-- The lowercase code point of a letter outside ASCII; anything else stays itself. -/
def lowerCode (code : Nat) : Nat :=
  match lowercaseRuns.find? (·.covers code) with
  | some run => (code + run.shift).toNat
  | none => code

/-- The lowercase form of one character. The dotted capital I keeps its dot as a mark of its own. -/
def lowerChar (c : Char) : List Char :=
  if c.toNat < 128 then [c.toLower]
  else if c = 'İ' then ['i', Char.ofNat 0x307]
  else [Char.ofNat (lowerCode c.toNat)]

/-- Whether the first character that is not looked through has a case. -/
def meetsCased (cs : List Char) : Bool :=
  match cs.dropWhile isCaseIgnorable with
  | c :: _ => isCased c
  | [] => false

/-- Whether a sigma ends a word: `before` is the text in front of it, nearest character first. -/
def closesWord (before after : List Char) : Bool :=
  meetsCased before && !meetsCased after

/-- Lowercase form of the rest of a text, given what stands in front of it, nearest first. -/
def lowercaseFrom (before : List Char) : List Char → List Char
  | [] => []
  | c :: rest =>
    let lower :=
      if c = 'Σ' then [if closesWord before rest then 'ς' else 'σ'] else lowerChar c
    lower ++ lowercaseFrom (c :: before) rest

def lowercase (text : String) : String :=
  String.ofList (lowercaseFrom [] text.toList)

end Pascal.Text
