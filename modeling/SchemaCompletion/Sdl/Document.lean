import SchemaCompletion.Sdl.TypeExpr
import SchemaCompletion.Sdl.Value

/-!
# Documents

The parsed form of a schema document.

* `InputValue`, `Field`, `EnumValue` — the parts of type definitions;
* `TypeBody`, `TypeDefinition` — a named type, or a block that extends one;
* `Definition` — everything that a document can define;
* `Definition.kind` — the kind of a definition as messages name it.
-/

namespace SchemaCompletion.Sdl

/-! ## Parts of definitions -/

structure Argument where
  name : String
  value : Value
  deriving Repr

/-- A directive applied to a definition. -/
structure Directive where
  name : String
  arguments : List Argument
  deriving Repr

/-- The definition of an argument or of a field of an input type. -/
structure InputValue where
  description : Option String
  name : String
  type : TypeExpr
  default : Option Value
  directives : List Directive
  deriving Repr

/-- The definition of a field of an object or interface type. -/
structure Field where
  description : Option String
  name : String
  arguments : List InputValue
  type : TypeExpr
  directives : List Directive
  deriving Repr

structure EnumValue where
  description : Option String
  name : String
  directives : List Directive
  deriving Repr

/-! ## Definitions -/

/-- What a named type is made of. -/
inductive TypeBody where
  | scalar
  | object (interfaces : List String) (fields : List Field)
  | interface (interfaces : List String) (fields : List Field)
  | union (types : List String)
  | enum (values : List EnumValue)
  | input (fields : List InputValue)
  deriving Repr

/-- A named type, or a block that adds to one. -/
structure TypeDefinition where
  description : Option String
  name : String
  directives : List Directive
  body : TypeBody
  deriving Repr

structure DirectiveDefinition where
  description : Option String
  name : String
  arguments : List InputValue
  directives : List Directive
  repeatable : Bool
  locations : List String
  deriving Repr

inductive ExecutableKind where
  | operation
  | fragment
  deriving DecidableEq, Repr

/-- A definition to be executed; what it selects is of no use in a schema and is not kept. -/
structure ExecutableDefinition where
  kind : ExecutableKind
  description : Option String
  name : Option String
  directives : List Directive
  deriving Repr

/-- A definition of the schema itself, or a block that adds to it. -/
structure SchemaDefinition where
  description : Option String
  directives : List Directive
  operations : List (String × String)
  deriving Repr

/-- Everything that a document can define. -/
inductive Definition where
  | executable (d : ExecutableDefinition)
  | schema (d : SchemaDefinition)
  | type (d : TypeDefinition)
  | directive (d : DirectiveDefinition)
  | schemaExtension (d : SchemaDefinition)
  | typeExtension (d : TypeDefinition)
  | directiveExtension (name : String) (directives : List Directive)
  deriving Repr

abbrev Document := List Definition

/-- The body has no parts. -/
def TypeBody.isBare : TypeBody → Bool
  | .scalar => true
  | .object interfaces fields => interfaces.isEmpty && fields.isEmpty
  | .interface interfaces fields => interfaces.isEmpty && fields.isEmpty
  | .union types => types.isEmpty
  | .enum values => values.isEmpty
  | .input fields => fields.isEmpty

/-- The type has a name and nothing else. -/
def TypeDefinition.isBare (d : TypeDefinition) : Bool := d.directives.isEmpty && d.body.isBare

/-! ## Kinds -/

/-- The kind of an executable definition as messages name it. -/
def ExecutableKind.label : ExecutableKind → String
  | .operation => "operation_definition"
  | .fragment => "fragment_definition"

/-- The kind of a named type as messages name it, without its role. -/
def TypeBody.label : TypeBody → String
  | .scalar => "scalar_type"
  | .object .. => "object_type"
  | .interface .. => "interface_type"
  | .union .. => "union_type"
  | .enum .. => "enum_type"
  | .input .. => "input_object_type"

/-- The kind of a definition as messages name it. -/
def Definition.label : Definition → String
  | .executable d => d.kind.label
  | .schema _ => "schema_definition"
  | .type d => d.body.label ++ "_definition"
  | .directive _ => "directive_definition"
  | .schemaExtension _ => "schema_extension"
  | .typeExtension d => d.body.label ++ "_extension"
  | .directiveExtension .. => "directive_extension"

end SchemaCompletion.Sdl
