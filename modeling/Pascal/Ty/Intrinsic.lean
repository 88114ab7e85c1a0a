import Pascal.Name
import Pascal.Target
import Pascal.Ty.Basic

/-!
# Intrinsic types

The type names that exist without being declared, and what each stands for on a target.
-/

namespace Pascal

/-- The built-in type names. -/
inductive Intrinsic where
  | shortInt | smallInt | integer | int64 | byte | word | cardinal | uInt64
  | nativeInt | nativeUInt | longInt | longWord
  | single | double | extended | real | real48 | comp | currency
  | boolean | byteBool | wordBool | longBool
  | ansiChar | wideChar | char
  | shortString | ansiString | unicodeString | wideString | string
  | variant | oleVariant
  | pointer | pChar | pAnsiChar | pWideChar | pByte
  deriving Repr, DecidableEq, Inhabited

/-- The widest real number type of the target. -/
def Target.extended (target : Target) : Ty := .decimal .extended target.extendedSize

namespace Intrinsic

/-- Every built-in name, in the order in which the System unit declares them. -/
def all : List Intrinsic :=
  [shortInt, smallInt, integer, int64, byte, word, cardinal, uInt64,
    nativeInt, nativeUInt, longInt, longWord,
    single, double, extended, real, real48, comp, currency,
    boolean, byteBool, wordBool, longBool,
    ansiChar, wideChar, char,
    shortString, ansiString, unicodeString, wideString, string,
    variant, oleVariant,
    pointer, pChar, pAnsiChar, pWideChar, pByte]

/-- The spelling a built-in name is declared with. -/
def image : Intrinsic → String
  | shortInt => "ShortInt"
  | smallInt => "SmallInt"
  | integer => "Integer"
  | int64 => "Int64"
  | byte => "Byte"
  | word => "Word"
  | cardinal => "Cardinal"
  | uInt64 => "UInt64"
  | nativeInt => "NativeInt"
  | nativeUInt => "NativeUInt"
  | longInt => "LongInt"
  | longWord => "LongWord"
  | single => "Single"
  | double => "Double"
  | extended => "Extended"
  | real => "Real"
  | real48 => "Real48"
  | comp => "Comp"
  | currency => "Currency"
  | boolean => "Boolean"
  | byteBool => "ByteBool"
  | wordBool => "WordBool"
  | longBool => "LongBool"
  | ansiChar => "AnsiChar"
  | wideChar => "WideChar"
  | char => "Char"
  | shortString => "ShortString"
  | ansiString => "AnsiString"
  | unicodeString => "UnicodeString"
  | wideString => "WideString"
  | string => "String"
  | variant => "Variant"
  | oleVariant => "OleVariant"
  | pointer => "Pointer"
  | pChar => "PChar"
  | pAnsiChar => "PAnsiChar"
  | pWideChar => "PWideChar"
  | pByte => "PByte"

/-- The built-in name that a spelling denotes, without regard to case. -/
def ofName? (name : String) : Option Intrinsic :=
  let key := Name.fold name
  all.find? fun intrinsic => Name.fold intrinsic.image == key

/-- The type a built-in name stands for on a target. -/
def ty (target : Target) : Intrinsic → Ty
  | shortInt => .shortInt
  | smallInt => .smallInt
  | integer | longInt => .int
  | int64 => .int64
  | byte => .byte
  | word => .word
  | cardinal | longWord => .cardinal
  | uInt64 => .uInt64
  | nativeInt => .integer ⟨target.pointerSize, true⟩
  | nativeUInt => .integer ⟨target.pointerSize, false⟩
  | single => .decimal .single 4
  | double | real => .decimal .double 8
  | extended => target.extended
  | real48 => .decimal .real48 6
  | comp => .decimal .comp 8
  | currency => .decimal .currency 8
  | boolean => .boolean .boolean
  | byteBool => .boolean .byteBool
  | wordBool => .boolean .wordBool
  | longBool => .boolean .longBool
  | ansiChar => .text .ansiChar
  | wideChar | char => .text .wideChar
  | shortString => .text .shortString
  | ansiString => .text .ansiString
  | unicodeString | string => .text .unicodeString
  | wideString => .text .wideString
  | variant => .variant .normal
  | oleVariant => .variant .ole
  | pointer => .untypedPointer
  | pChar | pWideChar => .pointerTo (.text .wideChar) true
  | pAnsiChar => .pointerTo (.text .ansiChar) true
  | pByte => .pointerTo .byte true

end Intrinsic

end Pascal
