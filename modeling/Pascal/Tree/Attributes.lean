import Pascal.Tag
import Pascal.Tree.Kind

/-!
# Attributes of kinds

What a kind carries beside its name, under the names that documents use.
-/

namespace Pascal

/-- A value that a kind carries. -/
inductive Attribute where
  | text (value : String)
  | texts (values : List String)
  | flag (value : Bool)
  | natural (value : Nat)
  /-- A double, as its bits. -/
  | real (bits : UInt64)
  deriving Repr, DecidableEq

def NodeKind.attributes : NodeKind → List (String × Attribute)
  | unit name | unitReference name | typeDeclaration name | typeReference name | enumElement name
  | propertyDeclaration name | nameReference name | memberAccess name => [("name", .text name)]
  | varDeclaration names | fieldDeclaration names => [("names", .texts names)]
  | constDeclaration name typed => [("name", .text name), ("typed", .flag typed)]
  | structType kind | forwardStructType kind => [("struct_kind", .text (tag kind))]
  | pointerType math => [("pointer_math", .flag math)]
  | arrayType kind => [("array_kind", .text (tag kind))]
  | proceduralType kind => [("procedural_kind", .text (tag kind))]
  | routineDeclaration name kind | routineImplementation name kind =>
    [("name", .text name), ("routine_kind", .text (tag kind))]
  | parameter names hasDefault => [("names", .texts names), ("has_default", .flag hasDefault)]
  | asmBlock text => [("text", .text text)]
  | integerLiteral value => [("value", .natural value)]
  | realLiteral bits => [("value", .real bits)]
  | textLiteral value => [("value", .text value)]
  | binaryExpression operator => [("operator", .text (tag operator))]
  | unaryExpression operator => [("operator", .text (tag operator))]
  | _ => []

end Pascal
