import Pascal.Scope.Tree
import Pascal.Tree.Kind

/-!
# Tags

The words by which kinds are written in documents.
-/

namespace Pascal

/-- A type whose members are written as words. -/
class Tagged (α : Type) where
  words : List (String × α)

def ofTag? {α : Type} [Tagged α] (word : String) : Option α := (Tagged.words : List (String × α)).lookup word

def tag {α : Type} [Tagged α] [DecidableEq α] (a : α) : String :=
  ((Tagged.words.find? fun entry => entry.2 = a).map (·.1)).getD ""

instance : Tagged StructKind where
  words := [("class", .classType), ("record", .record), ("interface", .interface),
    ("object", .object), ("class_helper", .classHelper), ("record_helper", .recordHelper)]

instance : Tagged ArrayKind where
  words := [("fixed", .fixed), ("dynamic", .dynamic), ("open", .openArray),
    ("open_of_const", .openOfConst)]

instance : Tagged ProceduralKind where
  words := [("procedure", .procedure), ("procedure_of_object", .procedureOfObject),
    ("reference", .reference), ("anonymous", .anonymous), ("method", .method)]

instance : Tagged DecimalKind where
  words := [("single", .single), ("double", .double), ("extended", .extended),
    ("real48", .real48), ("comp", .comp), ("currency", .currency)]

instance : Tagged BooleanKind where
  words := [("boolean", .boolean), ("byte_bool", .byteBool), ("word_bool", .wordBool),
    ("long_bool", .longBool)]

instance : Tagged TextKind where
  words := [("ansi_char", .ansiChar), ("wide_char", .wideChar), ("short_string", .shortString),
    ("ansi_string", .ansiString), ("unicode_string", .unicodeString),
    ("wide_string", .wideString)]

instance : Tagged VariantKind where
  words := [("normal", .normal), ("ole", .ole)]

instance : Tagged Matcher where
  words := [("any_ordinal", .anyOrdinal), ("any_set", .anySet),
    ("pointer_math_operand", .pointerMathOperand)]

instance : Tagged ScopeKind where
  words := [("system", .system), ("file", .file), ("type", .type), ("enum", .enum),
    ("routine", .routine)]

instance : Tagged DeclarationKind where
  words := [("unit", .unit), ("unit_import", .unitImport), ("type", .type), ("variable", .var),
    ("constant", .constant), ("field", .field), ("property", .property),
    ("parameter", .parameter), ("routine", .routine), ("enum_element", .enumElement)]

instance : Tagged RoutineKind where
  words := [("constructor", .constructor), ("destructor", .destructor), ("function", .function),
    ("procedure", .procedure), ("operator", .operator)]

instance : Tagged Section where
  words := [("interface", .interface), ("implementation", .implementation)]

instance : Tagged BinaryOperator where
  words := [("add", .add), ("subtract", .subtract), ("multiply", .multiply), ("divide", .divide),
    ("div", .div), ("mod", .mod), ("shl", .shl), ("shr", .shr), ("and", .and), ("or", .or),
    ("xor", .xor), ("equal", .equal), ("not_equal", .notEqual), ("less_than", .lessThan),
    ("less_than_equal", .lessThanEqual), ("greater_than", .greaterThan),
    ("greater_than_equal", .greaterThanEqual), ("in", .in_), ("is", .is), ("as", .as)]

instance : Tagged UnaryOperator where
  words := [("not", .not), ("plus", .plus), ("negate", .negate)]

end Pascal
