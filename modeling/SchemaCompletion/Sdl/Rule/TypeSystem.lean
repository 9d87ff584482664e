import SchemaCompletion.Sdl.Rule.TypeExpr
import SchemaCompletion.Sdl.Rule.Value

/-!
# Rules for the type system

Definitions of types, directives and the schema, and the blocks that extend them. Every rule begins
at the description or, for an extension, after the keyword `extend`.

* `inputValue`, `field`, `enumValue` — the parts of type definitions;
* `scalarType`, `objectType`, `interfaceType`, `unionType`, `enumType`, `inputType` — named types;
* `schemaDefinition`, `directiveDefinition` — the other definitions;
* `extension` — a block that extends a definition.
-/

namespace SchemaCompletion.Sdl.Rule

/-! ## Parts -/

/-- The directives of a definition, whose arguments are constant. -/
def constantDirectives : Rule (List Directive) := directives true levelLimit

/-- An argument or a field of an input type. -/
def inputValue : Rule InputValue := do
  let description ← description?
  let name ← expectName
  expectMark .colon
  let type ← typeExpr levelLimit
  let default ← if ← skipMark .equals then some <$> value true levelLimit else pure none
  let directives ← constantDirectives
  return { description, name, type, default, directives }

def argumentDefinitions : Rule (List InputValue) :=
  optionalBetween .parenOpen .parenClose inputValue

def field : Rule Field := do
  let description ← description?
  let name ← expectName
  let arguments ← argumentDefinitions
  expectMark .colon
  let type ← typeExpr levelLimit
  let directives ← constantDirectives
  return { description, name, arguments, type, directives }

/-- The words that no enum value can have for its name. -/
def reservedEnumValues : List String := ["true", "false", "null"]

def enumValueName : Rule String := do
  match ← peek with
  -- any token that spells such a word is refused, a string among them
  | some t =>
    if t.text?.any reservedEnumValues.contains then throw (.reservedEnumValue t) else expectName
  | none => expectName

def enumValue : Rule EnumValue := do
  let description ← description?
  let name ← enumValueName
  let directives ← constantDirectives
  return { description, name, directives }

def interfaces : Rule (List String) := do
  if ← skipWord "implements" then separatedBy .ampersand namedType else return []

def fields : Rule (List Field) := optionalBetween .braceOpen .braceClose field

def unionMembers : Rule (List String) := do
  if ← skipMark .equals then separatedBy .pipe namedType else return []

def enumValues : Rule (List EnumValue) := optionalBetween .braceOpen .braceClose enumValue

def inputFields : Rule (List InputValue) := optionalBetween .braceOpen .braceClose inputValue

/-! ## Named types -/

def scalarType (description : Option String) : Rule TypeDefinition := do
  expectWord "scalar"
  let name ← expectName
  let directives ← constantDirectives
  return { description, name, directives, body := .scalar }

def objectType (description : Option String) : Rule TypeDefinition := do
  expectWord "type"
  let name ← expectName
  let interfaces ← interfaces
  let directives ← constantDirectives
  let fields ← fields
  return { description, name, directives, body := .object interfaces fields }

def interfaceType (description : Option String) : Rule TypeDefinition := do
  expectWord "interface"
  let name ← expectName
  let interfaces ← interfaces
  let directives ← constantDirectives
  let fields ← fields
  return { description, name, directives, body := .interface interfaces fields }

def unionType (description : Option String) : Rule TypeDefinition := do
  expectWord "union"
  let name ← expectName
  let directives ← constantDirectives
  let members ← unionMembers
  return { description, name, directives, body := .union members }

def enumType (description : Option String) : Rule TypeDefinition := do
  expectWord "enum"
  let name ← expectName
  let directives ← constantDirectives
  let values ← enumValues
  return { description, name, directives, body := .enum values }

def inputType (description : Option String) : Rule TypeDefinition := do
  expectWord "input"
  let name ← expectName
  let directives ← constantDirectives
  let fields ← inputFields
  return { description, name, directives, body := .input fields }

/-! ## Schema and directives -/

/-- The operations that a schema can have a type for. -/
def operationWords : List String := ["query", "mutation", "subscription"]

def operationWord : Rule String := do
  let name ← expectName
  if operationWords.contains name then return name else throw (.unexpected (some (.name name)))

def operationType : Rule (String × String) := do
  let word ← operationWord
  expectMark .colon
  return (word, ← namedType)

def schemaDefinition (description : Option String) : Rule SchemaDefinition := do
  expectWord "schema"
  let directives ← constantDirectives
  let operations ← someBetween .braceOpen .braceClose operationType
  return { description, directives, operations }

/-- The places that a directive can be applied at. -/
def directiveLocations : List String :=
  ["QUERY", "MUTATION", "SUBSCRIPTION", "FIELD", "FRAGMENT_DEFINITION", "FRAGMENT_SPREAD",
    "INLINE_FRAGMENT", "VARIABLE_DEFINITION", "FRAGMENT_VARIABLE_DEFINITION", "SCHEMA", "SCALAR",
    "OBJECT", "FIELD_DEFINITION", "ARGUMENT_DEFINITION", "INTERFACE", "UNION", "ENUM", "ENUM_VALUE",
    "INPUT_OBJECT", "INPUT_FIELD_DEFINITION", "DIRECTIVE_DEFINITION"]

def directiveLocation : Rule String := do
  let name ← expectName
  if directiveLocations.contains name then return name else throw (.unexpected (some (.name name)))

def directiveDefinition (description : Option String) : Rule DirectiveDefinition := do
  expectWord "directive"
  expectMark .atSign
  let name ← expectName
  let arguments ← argumentDefinitions
  let directives ← constantDirectives
  let repeatable ← skipWord "repeatable"
  expectWord "on"
  let locations ← separatedBy .pipe directiveLocation
  return { description, name, arguments, directives, repeatable, locations }

/-! ## Extensions -/

/-- An extension of a type, which has to add something. -/
def typeExtension (rule : Option String → Rule TypeDefinition) : Rule Definition := do
  let d ← rule none
  if d.isBare then unexpected else return .typeExtension d

/-- An extension of the schema, which has to add something. -/
def schemaExtension : Rule Definition := do
  expectWord "schema"
  let directives ← constantDirectives
  let operations ← optionalBetween .braceOpen .braceClose operationType
  if directives.isEmpty && operations.isEmpty then unexpected
  else return .schemaExtension { description := none, directives, operations }

/-- An extension of a directive, which has to add something. -/
def directiveExtension : Rule Definition := do
  expectWord "directive"
  expectMark .atSign
  let name ← expectName
  let directives ← constantDirectives
  if directives.isEmpty then unexpected else return .directiveExtension name directives

/-- A block that extends a definition, from the keyword `extend` on. -/
def extension : Rule Definition := do
  match ← peekSecond with
  | some (.name "schema") => do advance; schemaExtension
  | some (.name "scalar") => do advance; typeExtension scalarType
  | some (.name "type") => do advance; typeExtension objectType
  | some (.name "interface") => do advance; typeExtension interfaceType
  | some (.name "union") => do advance; typeExtension unionType
  | some (.name "enum") => do advance; typeExtension enumType
  | some (.name "input") => do advance; typeExtension inputType
  | some (.name "directive") => do advance; directiveExtension
  | found => throw (.unexpected found)

end SchemaCompletion.Sdl.Rule
