import Pascal.Toml.Lexeme
import Pascal.Toml.Value

/-!
# Reading TOML

The grammar of TOML documents. Values may lie within each other only to a fixed depth, and keys
have only so many parts.
-/

namespace Pascal.Toml

/-- The greatest depth of arrays and tables within each other, and the greatest number of parts of
a key. -/
def nestingLimit : Nat := 79

mutual
/-- A value with at most `depth` arrays and tables within each other; `fuel` bounds the number of
readers within each other. -/
def value? : Nat → Nat → List Char → Option (Value × List Char)
  | 0, _, _ => none
  | fuel + 1, depth, cs =>
    match cs with
    | '"' :: _ | '\'' :: _ => (text? cs).map (Prod.map .text id)
    | 't' :: 'r' :: 'u' :: 'e' :: rest => some (.boolean true, rest)
    | 'f' :: 'a' :: 'l' :: 's' :: 'e' :: rest => some (.boolean false, rest)
    | '[' :: cs => if depth = 0 then none else elements? fuel (depth - 1) [] cs
    | '{' :: cs =>
      if depth = 0 then none
      else
        match skipBlank cs with
        | '}' :: rest => some (.table .braced [], rest)
        | cs => pairs? fuel (depth - 1) [] cs
    | cs =>
      if startsDate cs || startsTime cs then (moment? cs).map (Prod.map .moment id)
      else
        (number? cs).map fun
          | (some i, rest) => (.integer i, rest)
          | (none, rest) => (.float, rest)
/-- The elements of an array up to its end, behind those read already. -/
def elements? : Nat → Nat → List Value → List Char → Option (Value × List Char)
  | 0, _, _, _ => none
  | fuel + 1, depth, elements, cs => do
    match ← skipSpace? false cs with
    | ']' :: rest => some (.array elements, rest)
    | cs =>
      let (element, cs) ← value? fuel depth cs
      match ← skipSpace? false cs with
      | ',' :: cs => elements? fuel depth (elements ++ [element]) cs
      | ']' :: rest => some (.array (elements ++ [element]), rest)
      | _ => none
/-- The pairs of a table in braces up to its end, behind those read already. -/
def pairs? : Nat → Nat → Entries → List Char → Option (Value × List Char)
  | 0, _, _, _ => none
  | fuel + 1, depth, entries, cs => do
    let ((path, key), cs) ← keyPath? nestingLimit cs
    let cs ← expect? '=' cs
    let (value, cs) ← value? fuel depth (skipBlank cs)
    let (_, entries) ← addEntry path key value .braced entries
    match skipBlank cs with
    | ',' :: cs => pairs? fuel depth entries cs
    | '}' :: rest => some (.table .braced entries, rest)
    | _ => none
end

/-- A header, from its opening bracket to the end of its line. -/
def header? (doc : Document) (cs : List Char) : Option (Document × List Char) := do
  let cs ← expect? '[' cs
  let isArray := cs.head? = some '['
  let ((path, key), cs) ← keyPath? nestingLimit (if isArray then cs.tail else cs)
  let cs ← expect? ']' cs
  let cs ← if isArray then expect? ']' cs else some cs
  let rest ← lineEnd? cs
  let doc ← doc.header isArray path key
  some (doc, rest)

/-- A pair, from its key to the end of its line. -/
def pair? (doc : Document) (cs : List Char) : Option (Document × List Char) := do
  let ((path, key), cs) ← keyPath? nestingLimit cs
  let cs ← expect? '=' cs
  let (value, cs) ← value? (cs.length + 1) nestingLimit (skipBlank cs)
  let rest ← lineEnd? cs
  let doc ← doc.put path key value
  some (doc, rest)

/-- The lines of a document up to its end; `fuel` bounds their number. -/
def statements? : Nat → Document → List Char → Option Document
  | 0, _, _ => none
  | fuel + 1, doc, cs =>
    match skipBlank cs with
    | [] => some doc
    | '#' :: cs => (lineEnd? ('#' :: cs)).bind (statements? fuel doc)
    | '\n' :: cs => statements? fuel doc cs
    | '\r' :: cs => (break? ('\r' :: cs)).bind (statements? fuel doc)
    | '[' :: cs => (header? doc ('[' :: cs)).bind fun (doc, rest) => statements? fuel doc rest
    | cs => (pair? doc cs).bind fun (doc, rest) => statements? fuel doc rest

/-- The mark of the byte order, which may stand in front of a document. -/
def byteOrderMark : Char := '\ufeff'

/-- The entries of the document that a text stands for, unless it is malformed. -/
def read? (text : String) : Option Entries :=
  let cs := text.toList
  let cs := if cs.head? = some byteOrderMark then cs.tail else cs
  (statements? (cs.length + 1) {} cs).map Document.entries

end Pascal.Toml
