import SchemaCompletion.Sdl.Document

/-!
# Nodes

A document as a tree whose nodes are reached by naming their parts.

* `Node` — the nodes;
* `Node.label` — the kind of a node as messages name it;
* `Part` — what stands at a part of a node: nothing, one node or several;
* `Node.part?`, `Part.follow` — the part of a node that a name or a number leads to.
-/

namespace SchemaCompletion.Sdl

inductive Node where
  | document (d : Document)
  | definition (d : Definition)
  | field (f : Field)
  | inputValue (v : InputValue)
  | enumValue (v : EnumValue)
  | directive (d : Directive)
  | argument (a : Argument)
  | value (v : Value)
  | objectField (name : String) (value : Value)
  | type (e : TypeExpr)
  | name (text : String)
  deriving Repr

/-! ## Kinds -/

/-- The kind of a named type, without its role. -/
def TypeBody.nodeLabel : TypeBody → String
  | .scalar => "ScalarType"
  | .object .. => "ObjectType"
  | .interface .. => "InterfaceType"
  | .union .. => "UnionType"
  | .enum .. => "EnumType"
  | .input .. => "InputObjectType"

def Definition.nodeLabel : Definition → String
  | .executable { kind := .operation, .. } => "OperationDefinitionNode"
  | .executable { kind := .fragment, .. } => "FragmentDefinitionNode"
  | .schema _ => "SchemaDefinitionNode"
  | .type d => d.body.nodeLabel ++ "DefinitionNode"
  | .directive _ => "DirectiveDefinitionNode"
  | .schemaExtension _ => "SchemaExtensionNode"
  | .typeExtension d => d.body.nodeLabel ++ "ExtensionNode"
  | .directiveExtension .. => "DirectiveExtensionNode"

def Value.nodeLabel : Value → String
  | .int _ => "IntValueNode"
  | .float _ => "FloatValueNode"
  | .string _ => "StringValueNode"
  | .block _ => "StringValueNode"
  | .boolean _ => "BooleanValueNode"
  | .null => "NullValueNode"
  | .enum _ => "EnumValueNode"
  | .variable _ => "VariableNode"
  | .list _ => "ListValueNode"
  | .object _ => "ObjectValueNode"

def TypeExpr.nodeLabel : TypeExpr → String
  | .name _ => "NamedTypeNode"
  | .list _ => "ListTypeNode"
  | .nonNull _ => "NonNullTypeNode"

def Node.label : Node → String
  | .document _ => "DocumentNode"
  | .definition d => d.nodeLabel
  | .field _ => "FieldDefinitionNode"
  | .inputValue _ => "InputValueDefinitionNode"
  | .enumValue _ => "EnumValueDefinitionNode"
  | .directive _ => "DirectiveNode"
  | .argument _ => "ArgumentNode"
  | .value v => v.nodeLabel
  | .objectField .. => "ObjectFieldNode"
  | .type e => e.nodeLabel
  | .name _ => "NameNode"

/-! ## Parts -/

/-- What stands at a part of a node. -/
inductive Part where
  | absent
  | one (n : Node)
  | several (ns : List Node)
  deriving Repr

inductive PartName where
  | definitions
  | fields
  | values
  | arguments
  | type
  | types
  | name
  | description
  | interfaces
  | directives
  | locations
  | defaultValue
  deriving DecidableEq, Repr

def Part.ofList {α : Type} (node : α → Node) (items : List α) : Part := .several (items.map node)

def Part.ofOption {α : Type} (node : α → Node) (item : Option α) : Part :=
  match item with
  | some a => .one (node a)
  | none => .absent

def Part.ofDescription (text : Option String) : Part :=
  .ofOption (fun s => .value (.string s)) text

/-- The part that type names make. -/
def Part.ofTypeNames (names : List String) : Part := .ofList (fun n => .type (.name n)) names

def TypeBody.part? : TypeBody → PartName → Option Part
  | .object interfaces _, .interfaces => some (.ofTypeNames interfaces)
  | .object _ fields, .fields => some (.ofList .field fields)
  | .interface interfaces _, .interfaces => some (.ofTypeNames interfaces)
  | .interface _ fields, .fields => some (.ofList .field fields)
  | .union types, .types => some (.ofTypeNames types)
  | .enum values, .values => some (.ofList .enumValue values)
  | .input fields, .fields => some (.ofList .inputValue fields)
  | _, _ => none

/-- A part of a named type or of a block that extends one. -/
def TypeDefinition.part? (d : TypeDefinition) : PartName → Option Part
  | .name => some (.one (.name d.name))
  | .directives => some (.ofList .directive d.directives)
  | part => d.body.part? part

/-- A part of a definition. Extensions have no description. -/
def Definition.part? : Definition → PartName → Option Part
  | .executable d, .name => some (.ofOption .name d.name)
  | .executable d, .description => some (.ofDescription d.description)
  | .executable d, .directives => some (.ofList .directive d.directives)
  | .schema d, .description => some (.ofDescription d.description)
  | .schema d, .directives => some (.ofList .directive d.directives)
  | .type d, .description => some (.ofDescription d.description)
  | .type d, part => d.part? part
  | .directive d, .description => some (.ofDescription d.description)
  | .directive d, .name => some (.one (.name d.name))
  | .directive d, .arguments => some (.ofList .inputValue d.arguments)
  | .directive d, .directives => some (.ofList .directive d.directives)
  | .directive d, .locations => some (.ofList .name d.locations)
  | .schemaExtension d, .directives => some (.ofList .directive d.directives)
  | .typeExtension d, part => d.part? part
  | .directiveExtension text _, .name => some (.one (.name text))
  | .directiveExtension _ directives, .directives => some (.ofList .directive directives)
  | _, _ => none

def Field.part? (f : Field) : PartName → Option Part
  | .description => some (.ofDescription f.description)
  | .name => some (.one (.name f.name))
  | .arguments => some (.ofList .inputValue f.arguments)
  | .type => some (.one (.type f.type))
  | .directives => some (.ofList .directive f.directives)
  | _ => none

def InputValue.part? (v : InputValue) : PartName → Option Part
  | .description => some (.ofDescription v.description)
  | .name => some (.one (.name v.name))
  | .type => some (.one (.type v.type))
  | .defaultValue => some (.ofOption .value v.default)
  | .directives => some (.ofList .directive v.directives)
  | _ => none

def EnumValue.part? (v : EnumValue) : PartName → Option Part
  | .description => some (.ofDescription v.description)
  | .name => some (.one (.name v.name))
  | .directives => some (.ofList .directive v.directives)
  | _ => none

def Value.part? : Value → PartName → Option Part
  | .variable text, .name => some (.one (.name text))
  | .list items, .values => some (.ofList .value items)
  | .object fields, .fields => some (.ofList (fun f => .objectField f.1 f.2) fields)
  | _, _ => none

def TypeExpr.part? : TypeExpr → PartName → Option Part
  | .name text, .name => some (.one (.name text))
  | .list item, .type => some (.one (.type item))
  | .nonNull inner, .type => some (.one (.type inner))
  | _, _ => none

/-- The part of a node that has a name; not every node has every part. -/
def Node.part? : Node → PartName → Option Part
  | .document d, .definitions => some (.ofList .definition d)
  | .definition d, part => d.part? part
  | .field f, part => f.part? part
  | .inputValue v, part => v.part? part
  | .enumValue v, part => v.part? part
  | .directive d, .name => some (.one (.name d.name))
  | .directive d, .arguments => some (.ofList .argument d.arguments)
  | .argument a, .name => some (.one (.name a.name))
  | .value v, part => v.part? part
  | .objectField text _, .name => some (.one (.name text))
  | .type e, part => e.part? part
  | _, _ => none

/-! ## Following names and numbers -/

/-- A step down the tree: to a part of a node, or to one of several nodes. -/
inductive Descent where
  | part (p : PartName)
  | index (n : Nat)
  deriving DecidableEq, Repr

def Part.descend? : Part → Descent → Option Part
  | .one n, .part p => n.part? p
  | .several ns, .index n => ns[n]?.map Part.one
  | _, _ => none

/-- The part that a sequence of steps leads to. -/
def Part.follow? (p : Part) (path : List Descent) : Option Part := path.foldlM Part.descend? p

/-- Following two sequences one after the other is following both in one. -/
theorem Part.follow?_append (p : Part) (path rest : List Descent) :
    p.follow? (path ++ rest) = (p.follow? path).bind (·.follow? rest) := by
  simp [follow?]

end SchemaCompletion.Sdl
