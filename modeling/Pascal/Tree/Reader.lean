import Pascal.Json.Reader
import Pascal.Tag
import Pascal.Tree.Document

/-!
# Reading documents

A syntax tree is handed over as a JSON document: each node is an object with the members `node`,
`line`, `column` and `children`, and `node` is in turn an object whose member `kind` names the kind.
Members that are not known are passed over; both objects may also be written as arrays of their
members in order.
-/

namespace Pascal

namespace Json

def text? : Json → Option String
  | text content => content
  | _ => none

def bool? : Json → Option Bool
  | bool value => some value
  | _ => none

def number? : Json → Option NumberValue
  | number numeral => numeral.value?
  | _ => none

/-- The natural number below a limit that a value is. -/
def natural? (limit : Nat) (value : Json) : Option Nat :=
  match value.number? with
  | some (.natural n) => if n < limit then some n else none
  | _ => none

def double? (value : Json) : Option UInt64 := value.number?.map (·.toDouble.toBits)

/-- The texts that the elements of a value are. -/
def texts? : Json → Option (List String)
  | array elements => elements.mapM text?
  | _ => none

/-- The word that a value is: a text, or an object whose only member has the word as its key and
nothing in it. -/
def word? : Json → Option String
  | text content => content
  | object [(key, null)] => key
  | object [(key, object [])] => key
  | _ => none

/-- The member of a type that is written as a word. -/
def tagged? {α : Type} [Tagged α] (value : Json) : Option α := value.word?.bind ofTag?

/-- The values of a member, in the order written. -/
def membersNamed (members : List (Option String × Json)) (name : String) : List Json :=
  members.filterMap fun (key, value) => if key = some name then some value else none

/-- The values of known members, from an object in which none of them occurs twice, or from an array
that has no more. -/
def fields? (names : List String) : Json → Option (List (Option Json))
  | object members =>
    names.mapM fun name =>
      match membersNamed members name with
      | [] => some none
      | [value] => some (some value)
      | _ => none
  | array elements =>
    if elements.length ≤ names.length then
      some ((List.range names.length).map fun i => elements[i]?)
    else none
  | _ => none

end Json

/-- What a kind carries beside its name. -/
structure NodeFields where
  values : List (Option Json)

namespace NodeFields

/-- The member at a position, read in a certain way; it has to be there. -/
def get? {α : Type} (fields : NodeFields) (i : Nat) (read : Json → Option α) : Option α :=
  match fields.values[i]? with
  | some (some value) => read value
  | _ => none

/-- The member at a position, or a default if it is left out. -/
def getD? {α : Type} (fields : NodeFields) (i : Nat) (default : α) (read : Json → Option α) :
    Option α :=
  match fields.values[i]? with
  | some (some value) => read value
  | _ => some default

end NodeFields

namespace NodeKind

def memberNames : String → List String
  | "unit" | "unit_reference" | "type_declaration" | "type_reference" | "enum_element"
  | "property_declaration" | "name_reference" | "member_access" => ["name"]
  | "var_declaration" | "field_declaration" => ["names"]
  | "const_declaration" => ["name", "typed"]
  | "struct_type" | "forward_struct_type" => ["struct_kind"]
  | "pointer_type" => ["pointer_math"]
  | "array_type" => ["array_kind"]
  | "procedural_type" => ["procedural_kind"]
  | "routine_declaration" | "routine_implementation" => ["name", "routine_kind"]
  | "parameter" => ["names", "has_default"]
  | "asm_block" => ["text"]
  | "integer_literal" | "real_literal" | "text_literal" => ["value"]
  | "binary_expression" | "unary_expression" => ["operator"]
  | _ => []

def ofFields? (name : String) (fields : NodeFields) : Option NodeKind :=
  match name with
  | "unit" => (fields.get? 0 Json.text?).map unit
  | "interface_section" => some interfaceSection
  | "implementation_section" => some implementationSection
  | "uses_clause" => some usesClause
  | "unit_reference" => (fields.get? 0 Json.text?).map unitReference
  | "type_section" => some typeSection
  | "type_declaration" => (fields.get? 0 Json.text?).map typeDeclaration
  | "var_section" => some varSection
  | "var_declaration" => (fields.get? 0 Json.texts?).map varDeclaration
  | "const_section" => some constSection
  | "const_declaration" => do
    some (constDeclaration (← fields.get? 0 Json.text?) (← fields.get? 1 Json.bool?))
  | "type_reference" => (fields.get? 0 Json.text?).map typeReference
  | "struct_type" => (fields.get? 0 Json.tagged?).map structType
  | "forward_struct_type" => (fields.get? 0 Json.tagged?).map forwardStructType
  | "ancestor_list" => some ancestorList
  | "helper_target" => some helperTarget
  | "enum_type" => some enumType
  | "enum_element" => (fields.get? 0 Json.text?).map enumElement
  | "pointer_type" => (fields.get? 0 Json.bool?).map pointerType
  | "array_type" => (fields.get? 0 Json.tagged?).map arrayType
  | "set_type" => some setType
  | "procedural_type" => (fields.get? 0 Json.tagged?).map proceduralType
  | "class_reference_type" => some classRefType
  | "type_type" => some distinctType
  | "field_declaration" => (fields.get? 0 Json.texts?).map fieldDeclaration
  | "property_declaration" => (fields.get? 0 Json.text?).map propertyDeclaration
  | "routine_declaration" => do
    some (routineDeclaration (← fields.get? 0 Json.text?) (← fields.get? 1 Json.tagged?))
  | "routine_implementation" => do
    some (routineImplementation (← fields.get? 0 Json.text?) (← fields.get? 1 Json.tagged?))
  | "parameter" => do
    some (parameter (← fields.get? 0 Json.texts?) (← fields.getD? 1 false Json.bool?))
  | "return_type" => some returnType
  | "compound_statement" => some compoundStatement
  | "assignment_statement" => some assignmentStatement
  | "expression_statement" => some expressionStatement
  | "if_statement" => some ifStatement
  | "while_statement" => some whileStatement
  | "asm_block" => (fields.get? 0 Json.text?).map asmBlock
  | "integer_literal" => (fields.get? 0 (Json.natural? (Nat.pow 2 64))).map integerLiteral
  | "real_literal" => (fields.get? 0 Json.double?).map realLiteral
  | "text_literal" => (fields.get? 0 Json.text?).map textLiteral
  | "nil_literal" => some nilLiteral
  | "name_reference" => (fields.get? 0 Json.text?).map nameReference
  | "member_access" => (fields.get? 0 Json.text?).map memberAccess
  | "invocation" => some invocation
  | "binary_expression" => (fields.get? 0 Json.tagged?).map binaryExpression
  | "unary_expression" => (fields.get? 0 Json.tagged?).map unaryExpression
  | "parenthesized" => some parenthesized
  | "array_constructor" => some arrayConstructor
  | "dereference" => some dereference
  | "address_of" => some addressOf
  | _ => none

/-- The kind that a value describes: an object with the member `kind`, or an array that begins with
the name of the kind. -/
def ofJson? (value : Json) : Option NodeKind := do
  let (name, members) ←
    match value with
    | .object members =>
      match Json.membersNamed members "kind" with
      | [kind] => kind.text?.map (·, value)
      | _ => none
    | .array (kind :: rest) => kind.text?.map (·, .array rest)
    | _ => none
  let values ← Json.fields? (memberNames name) members
  ofFields? name ⟨values⟩

end NodeKind

namespace Document

/-- The names of the members of a node, in order. -/
def memberNames : List String := ["node", "line", "column", "children"]

/-- The document that a value describes when containers may still be nested `room` deep. -/
def ofJsonWithin? : Nat → Json → Option Document
  | 0, _ => none
  | room + 1, value => do
    if let .object members := value then
      guard (members.all (·.1.isSome))
    let fields : NodeFields := ⟨← value.fields? memberNames⟩
    let kind ← fields.get? 0 fun node =>
      if node.isSound room then NodeKind.ofJson? node else none
    let line ← fields.getD? 1 0 (Json.natural? (Nat.pow 2 32))
    let column ← fields.getD? 2 0 (Json.natural? (Nat.pow 2 32))
    let children ← fields.getD? 3 [] fun children =>
      match room, children with
      | room + 1, .array elements => elements.mapM (ofJsonWithin? room)
      | _, _ => none
    some (node kind { line, column } children)

def ofJson? (value : Json) : Option Document := ofJsonWithin? Json.depthLimit value

end Document

def SyntaxTree.read? (text : String) : Option SyntaxTree := do
  let value ← Json.read? text
  let document ← Document.ofJson? value
  some (SyntaxTree.ofDocument document)

end Pascal
