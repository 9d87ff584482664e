import SchemaCompletion.Sdl.Rule.Executable
import SchemaCompletion.Sdl.Rule.TypeSystem

/-!
# Rules for documents

* `definitionOf?` — the rule for a definition, by the keyword that it begins with;
* `definition` — a definition with its description;
* `Document.parse` — a document from its text.
-/

namespace SchemaCompletion.Sdl

namespace Rule

/-- The rule for a definition that begins with a keyword, given its description. -/
def definitionOf? : String → Option (Option String → Rule Definition)
  | "schema" => some fun d => Definition.schema <$> schemaDefinition d
  | "scalar" => some fun d => Definition.type <$> scalarType d
  | "type" => some fun d => Definition.type <$> objectType d
  | "interface" => some fun d => Definition.type <$> interfaceType d
  | "union" => some fun d => Definition.type <$> unionType d
  | "enum" => some fun d => Definition.type <$> enumType d
  | "input" => some fun d => Definition.type <$> inputType d
  | "directive" => some fun d => Definition.directive <$> directiveDefinition d
  | "query" => some fun d => Definition.executable <$> operation d
  | "mutation" => some fun d => Definition.executable <$> operation d
  | "subscription" => some fun d => Definition.executable <$> operation d
  | "fragment" => some fun d => Definition.executable <$> fragment d
  | _ => none

/-- A definition after its description, which is at the front. The token after the description
decides whether there may be one. -/
def describedDefinition : Rule Definition := do
  match ← peekSecond with
  | some (.punctuator .braceOpen) => throw .describedShorthand
  | some (.name word) =>
    match definitionOf? word with
    | some rule => rule (← description?)
    | none => throw .describedNonDefinition
  | found => throw (.unexpected found)

/-- A definition without a description. -/
def plainDefinition : Rule Definition := do
  match ← peek with
  | some (.punctuator .braceOpen) => Definition.executable <$> shorthandQuery
  | some (.name "extend") => extension
  | some (.name word) =>
    match definitionOf? word with
    | some rule => rule none
    | none => unexpected
  | _ => unexpected

def definition : Rule Definition := do
  if (← peekDescription).isSome then describedDefinition else plainDefinition

/-- A document: one definition or more, up to the end of the text. -/
def document : Rule Document := someUntil atEnd definition

end Rule

def Document.parse (text : List Char) : Except SyntaxError Document :=
  (Rule.document (TokenStream.ofText text)).map Prod.fst

/-- The constant that a text is, with nothing after it. -/
def Value.parse (text : List Char) : Except SyntaxError Value := do
  let (v, rest) ← Rule.value true Rule.levelLimit (TokenStream.ofText text)
  let (found, _) ← Rule.peek rest
  if found.isNone then return v else throw (.unexpected found)

/-- The type expression that a text is, with nothing after it. -/
def TypeExpr.parse (text : List Char) : Except SyntaxError TypeExpr := do
  let (e, rest) ← Rule.typeExpr Rule.levelLimit (TokenStream.ofText text)
  let (found, _) ← Rule.peek rest
  if found.isNone then return e else throw (.unexpected found)

end SchemaCompletion.Sdl
