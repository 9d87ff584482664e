import SchemaCompletion.Sdl.Rule.TypeExpr
import SchemaCompletion.Sdl.Rule.Value

/-!
# Rules for executable definitions

Operations and fragments are checked, and then only what names and decorates them is kept.

* `selectionSet` — the selections between braces, if there are any;
* `operation`, `fragment` — the two kinds of definitions.
-/

namespace SchemaCompletion.Sdl.Rule

/-! ## Selections -/

/-- A selected field, given the rule for the selections inside it. -/
def selectedField (levels : Nat) (inner : Rule Unit) : Rule Unit := do
  let _ ← expectName
  if ← skipMark .colon then
    let _ ← expectName
  let _ ← arguments false levels
  let _ ← directives false levels
  if ← isMark .braceOpen then inner

/-- The name of a fragment, which cannot be `on`. -/
def fragmentName : Rule String := do
  if (← peek).bind Token.text? = some "on" then unexpected else expectName

/-- A fragment in a selection: by name, or in place. -/
def selectedFragment (levels : Nat) (inner : Rule Unit) : Rule Unit := do
  expectMark .spread
  if ← skipWord "on" then
    let _ ← namedType
    let _ ← directives false levels
    inner
  else if ← isName then
    let _ ← fragmentName
    let _ ← directives false levels
  else
    let _ ← directives false levels
    inner

/-- One selection, given the rule for the selections inside it. -/
def selection (levels : Nat) (inner : Rule Unit) : Rule Unit := do
  if ← isMark .spread then selectedFragment levels inner else selectedField levels inner

/-- A selection set that may open so many levels. Other than the parts of a type, its selections may
be missing: `{ }` selects nothing. -/
def selectionSet : Nat → Rule Unit
  | 0 => throw .tooDeep
  | levels + 1 => do
    let _ ← manyBetween .braceOpen .braceClose (selection levels (selectionSet levels))

/-! ## Definitions -/

def variableDefinition : Rule Unit := do
  let _ ← description?
  expectMark .dollar
  let _ ← expectName
  expectMark .colon
  let _ ← typeExpr levelLimit
  if ← skipMark .equals then
    let _ ← value true levelLimit
  let _ ← directives true levelLimit

/-- An operation without keyword and name. -/
def shorthandQuery : Rule ExecutableDefinition := do
  selectionSet levelLimit
  return { kind := .operation, description := none, name := none, directives := [] }

def operation (description : Option String) : Rule ExecutableDefinition := do
  let _ ← expectName
  let name ← if ← isName then some <$> expectName else pure none
  let _ ← optionalBetween .parenOpen .parenClose variableDefinition
  let directives ← directives false levelLimit
  selectionSet levelLimit
  return { kind := .operation, description, name, directives }

def fragment (description : Option String) : Rule ExecutableDefinition := do
  expectWord "fragment"
  let name ← fragmentName
  expectWord "on"
  let _ ← namedType
  let directives ← directives false levelLimit
  selectionSet levelLimit
  return { kind := .fragment, description, name := some name, directives }

end SchemaCompletion.Sdl.Rule
