import Pascal.Declaration.Basic
import Pascal.Operator.Basic

/-!
# Kinds of syntax nodes

The closed set of node kinds. The layout of the children of each kind is part of the agreement with
whoever builds a tree; a required child that is missing makes the tree malformed.
-/

namespace Pascal

/-- The kinds of syntax nodes. -/
inductive NodeKind where
  /-- Children: sections, or declarations directly. -/
  | unit (name : String)
  | interfaceSection
  | implementationSection
  /-- Children: unit references. -/
  | usesClause
  | unitReference (name : String)
  /-- Children: type declarations. -/
  | typeSection
  /-- Children: the type. -/
  | typeDeclaration (name : String)
  /-- Children: variable declarations. -/
  | varSection
  /-- Children: the type. -/
  | varDeclaration (names : List String)
  /-- Children: constant declarations. -/
  | constSection
  /-- Children: the type, if there is one, and the value. -/
  | constDeclaration (name : String) (typed : Bool)
  /-- A reference to a named type, possibly dotted. -/
  | typeReference (name : String)
  /-- Children: ancestors, the helped type, members. -/
  | structType (kind : StructKind)
  /-- The announcement of a structured type. -/
  | forwardStructType (kind : StructKind)
  /-- Children: type references. -/
  | ancestorList
  /-- Children: the type. -/
  | helperTarget
  /-- Children: elements. -/
  | enumType
  | enumElement (name : String)
  /-- Children: the type pointed to. -/
  | pointerType (math : Bool)
  /-- Children: the element type; none for an array of anything. -/
  | arrayType (kind : ArrayKind)
  /-- Children: the element type. -/
  | setType
  /-- Children: parameters and the result type. -/
  | proceduralType (kind : ProceduralKind)
  /-- Children: the class. -/
  | classRefType
  /-- Children: the type that the distinct type wraps. -/
  | distinctType
  /-- Children: the type. -/
  | fieldDeclaration (names : List String)
  /-- Children: the type; none to publish an inherited property. -/
  | propertyDeclaration (name : String)
  /-- Children: parameters and the result type. -/
  | routineDeclaration (name : String) (kind : RoutineKind)
  /-- Children: parameters, the result type, local declarations, the body. -/
  | routineImplementation (name : String) (kind : RoutineKind)
  /-- Children: the type; none for an untyped parameter. -/
  | parameter (names : List String) (hasDefault : Bool)
  /-- Children: the type. -/
  | returnType
  | compoundStatement
  /-- Children: the target and the value. -/
  | assignmentStatement
  /-- Children: the expression. -/
  | expressionStatement
  /-- Children: the condition and one or two branches. -/
  | ifStatement
  /-- Children: the condition and the body. -/
  | whileStatement
  | asmBlock (text : String)
  | integerLiteral (value : Nat)
  /-- A real number, as the bits of the double nearest to it. -/
  | realLiteral (bits : UInt64)
  | textLiteral (value : String)
  | nilLiteral
  | nameReference (name : String)
  /-- Children: the receiver. -/
  | memberAccess (name : String)
  /-- Children: the callee and the arguments. -/
  | invocation
  /-- Children: the left and the right operand. -/
  | binaryExpression (operator : BinaryOperator)
  /-- Children: the operand. -/
  | unaryExpression (operator : UnaryOperator)
  /-- Children: the expression. -/
  | parenthesized
  /-- Children: the elements. -/
  | arrayConstructor
  /-- Children: the pointer. -/
  | dereference
  /-- Children: the operand. -/
  | addressOf
  deriving Repr, DecidableEq, Inhabited

namespace NodeKind

/-- The name of a kind. -/
def name : NodeKind → String
  | unit _ => "unit"
  | interfaceSection => "interface_section"
  | implementationSection => "implementation_section"
  | usesClause => "uses_clause"
  | unitReference _ => "unit_reference"
  | typeSection => "type_section"
  | typeDeclaration _ => "type_declaration"
  | varSection => "var_section"
  | varDeclaration _ => "var_declaration"
  | constSection => "const_section"
  | constDeclaration _ _ => "const_declaration"
  | typeReference _ => "type_reference"
  | structType _ => "struct_type"
  | forwardStructType _ => "forward_struct_type"
  | ancestorList => "ancestor_list"
  | helperTarget => "helper_target"
  | enumType => "enum_type"
  | enumElement _ => "enum_element"
  | pointerType _ => "pointer_type"
  | arrayType _ => "array_type"
  | setType => "set_type"
  | proceduralType _ => "procedural_type"
  | classRefType => "class_reference_type"
  | distinctType => "type_type"
  | fieldDeclaration _ => "field_declaration"
  | propertyDeclaration _ => "property_declaration"
  | routineDeclaration _ _ => "routine_declaration"
  | routineImplementation _ _ => "routine_implementation"
  | parameter _ _ => "parameter"
  | returnType => "return_type"
  | compoundStatement => "compound_statement"
  | assignmentStatement => "assignment_statement"
  | expressionStatement => "expression_statement"
  | ifStatement => "if_statement"
  | whileStatement => "while_statement"
  | asmBlock _ => "asm_block"
  | integerLiteral _ => "integer_literal"
  | realLiteral _ => "real_literal"
  | textLiteral _ => "text_literal"
  | nilLiteral => "nil_literal"
  | nameReference _ => "name_reference"
  | memberAccess _ => "member_access"
  | invocation => "invocation"
  | binaryExpression _ => "binary_expression"
  | unaryExpression _ => "unary_expression"
  | parenthesized => "parenthesized"
  | arrayConstructor => "array_constructor"
  | dereference => "dereference"
  | addressOf => "address_of"

/-- Nodes that have a value. -/
def isExpression : NodeKind → Bool
  | integerLiteral _ | realLiteral _ | textLiteral _ | nilLiteral | nameReference _
  | memberAccess _ | invocation | binaryExpression _ | unaryExpression _ | parenthesized
  | arrayConstructor | dereference | addressOf => true
  | _ => false

/-- Nodes that denote a type. -/
def isTypeNode : NodeKind → Bool
  | typeReference _ | structType _ | forwardStructType _ | enumType | pointerType _ | arrayType _
  | setType | proceduralType _ | classRefType | distinctType => true
  | _ => false

end NodeKind

end Pascal
