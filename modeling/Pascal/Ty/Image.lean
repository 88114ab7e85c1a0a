import Pascal.Ty.Table

/-!
# Images of types

The text by which a type is shown in messages and signatures.
-/

namespace Pascal

def DecimalKind.image : DecimalKind → String
  | single => "Single"
  | double => "Double"
  | extended => "Extended"
  | real48 => "Real48"
  | comp => "Comp"
  | currency => "Currency"

def BooleanKind.image : BooleanKind → String
  | boolean => "Boolean"
  | byteBool => "ByteBool"
  | wordBool => "WordBool"
  | longBool => "LongBool"

def TextKind.image : TextKind → String
  | ansiChar => "AnsiChar"
  | wideChar => "WideChar"
  | shortString => "ShortString"
  | ansiString => "AnsiString"
  | unicodeString => "UnicodeString"
  | wideString => "WideString"

def VariantKind.image : VariantKind → String
  | normal => "Variant"
  | ole => "OleVariant"

def Matcher.image : Matcher → String
  | anyOrdinal => "<any ordinal>"
  | anySet => "<any set>"
  | pointerMathOperand => "<pointer math operand>"

/-- The words in front of and behind the signature of a callable type. -/
def ProceduralKind.frame : ProceduralKind → String × String
  | procedure => ("", "")
  | procedureOfObject => ("", " of object")
  | reference => ("reference to ", "")
  | anonymous => ("anonymous ", "")
  | method => ("", " method")

namespace TypeTable

mutual
def image (types : TypeTable) : Ty → String
  | .unknown => "<unknown>"
  | .untyped => "<untyped>"
  | .void => "<void>"
  | .integer i => i.image
  | .decimal kind _ => kind.image
  | .boolean kind => kind.image
  | .text kind => kind.image
  | .struct id => (types.structInfo id).image
  | .enum id => (types.enumInfo id).image
  | .pointer _ true _ => "nil"
  | .pointer .untyped false _ => "Pointer"
  | .pointer target false _ => "^" ++ types.image target
  | .array .fixed element => "array[] of " ++ types.image element
  | .array .dynamic element => "array of " ++ types.image element
  | .array .openArray element => "open array of " ++ types.image element
  | .array .openOfConst _ => "array of const"
  | .set element => "set of " ++ types.image element
  | .procedural kind params result =>
    let keyword := if result.isVoid then "procedure" else "function"
    let returns := if result.isVoid then "" else ": " ++ types.image result
    kind.frame.1 ++ keyword ++ "(" ++ types.images params ++ ")" ++ returns ++ kind.frame.2
  | .classRef target => "class of " ++ types.image target
  | .variant kind => kind.image
  | .distinct name _ => name
  | .bracket elements => "[" ++ types.images elements ++ "]"
  | .matcher family => family.image
/-- The texts of several types, separated by commas. -/
def images (types : TypeTable) : List Ty → String
  | [] => ""
  | [ty] => types.image ty
  | ty :: rest => types.image ty ++ ", " ++ types.images rest
end

end TypeTable

end Pascal
