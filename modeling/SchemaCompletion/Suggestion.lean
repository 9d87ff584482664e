import SchemaCompletion.Declaration
import SchemaCompletion.SchemaCache
import SchemaCompletion.Text.Blank

/-!
# Suggestions

The members of a schema as completions, less those that a class already declares.

* `Suggestion` — one completion;
* `suggestionsFor` — the completions for some members;
* `Query.apiSuggestions`, `Query.typeSuggestions` — for a client API, and for a class named after a
  type;
* `listing` — completions in print, two lines each.
-/

namespace SchemaCompletion

open SchemaCompletion.Text

/-- One completion: the inserted text, the shown name, a description and where the member comes
from. -/
structure Suggestion where
  lookup : String
  presentable : String
  tail : String
  typeText : String
  deriving DecidableEq, Repr

/-- The completion that inserts a text for a member. -/
def Suggestion.ofMember (lookup : String) (m : Member) : Suggestion where
  lookup
  presentable := m.name
  tail := " " ++ m.description
  typeText := "GraphQL " ++ m.container

/-- The completions for the members that do not exist yet, in order. -/
def suggestionsFor (declaration : Member → String) (existing : List String)
    (members : List Member) : List Suggestion :=
  (members.filter fun m => !existing.contains m.name).map fun m => .ofMember (declaration m) m

/-- The types whose fields are the operations of a client API. -/
def operationTypes : List String := ["Query", "Mutation"]

def Catalog.operations (c : Catalog) : List Member := operationTypes.flatMap c.members

namespace Query

/-- Methods for the operations that an API does not have yet. -/
def apiSuggestions (h : Host) (schemaFile : String) (d : Dialect) (existing : List String) :
    Query (List Suggestion) := do
  match ← snapshot h schemaFile with
  | some s => return suggestionsFor d.methodText existing s.operations
  | none => return []

/-- Fields for the members that a class named after a type does not have yet. A name that is not
declared gets none. -/
def typeSuggestions (h : Host) (schemaFile : String) (d : Dialect) (name : String)
    (existing : List String) : Query (List Suggestion) := do
  if (← typeNames h schemaFile).contains name then
    return suggestionsFor d.fieldText existing (← fieldsIn h schemaFile name)
  else return []

end Query

/-! ## Listings -/

/-- The first line of a completion: name, origin and, unless it is blank, the description. -/
def Suggestion.header (s : Suggestion) : String :=
  s.presentable ++ "  [" ++ s.typeText ++ "]" ++
    if trim s.tail.toList = [] then "" else "  " ++ oneLine s.tail

/-- A completion on two lines. -/
def Suggestion.entry (s : Suggestion) : String := s.header ++ "\n    " ++ s.lookup ++ "\n"

def listing (suggestions : List Suggestion) : String :=
  if suggestions.isEmpty then "no suggestions\n"
  else String.join (suggestions.map Suggestion.entry)

end SchemaCompletion
