import SchemaCompletion.Sdl.Document
import SchemaCompletion.Sdl.Rule

/-!
# Rules for values and directives

* `value` — a value literal that may open a number of further levels;
* `arguments`, `directives` — what may be applied to a definition;
* `description?` — the text that may precede a definition.
-/

namespace SchemaCompletion.Sdl.Rule

/-! ## Values -/

/-- The literal that a name stands for. -/
def namedValue : String → Value
  | "true" => .boolean true
  | "false" => .boolean false
  | "null" => .null
  | name => .enum name

/-- A variable, which may not stand in a constant. -/
def variableValue (constant : Bool) : Rule Value := do
  expectMark .dollar
  if constant then
    match ← peek with
    | some (.name name) => throw (.variableInConstant name)
    | _ => throw (.unexpected (some (.punctuator .dollar)))
  else return .variable (← expectName)

def objectField (item : Rule Value) : Rule (String × Value) := do
  let name ← expectName
  expectMark .colon
  return (name, ← item)

/-- A value literal, given the rule for what stands in a list or an object; without one neither may
open. -/
def valueOver (constant : Bool) (inner : Option (Rule Value)) : Rule Value := do
  match ← peek with
  | some (.punctuator .bracketOpen) =>
    match inner with
    | none => throw .tooDeep
    | some item => return .list (← manyBetween .bracketOpen .bracketClose item)
  | some (.punctuator .braceOpen) =>
    match inner with
    | none => throw .tooDeep
    | some item => return .object (← manyBetween .braceOpen .braceClose (objectField item))
  | some (.punctuator .dollar) => variableValue constant
  | some (.int spelling) => do advance; return .int spelling
  | some (.float spelling) => do advance; return .float spelling
  | some (.string text) => do advance; return .string text
  | some (.blockString text) => do advance; return .block text
  | some (.name name) => do advance; return namedValue name
  | found => throw (.unexpected found)

/-- A value literal that may open so many levels. -/
def value (constant : Bool) : Nat → Rule Value
  | 0 => valueOver constant none
  | levels + 1 => valueOver constant (some (value constant levels))

/-! ## Arguments and directives -/

def argument (constant : Bool) (levels : Nat) : Rule Argument := do
  let name ← expectName
  expectMark .colon
  return { name, value := ← value constant levels }

/-- The arguments in parentheses, if there are any. -/
def arguments (constant : Bool) (levels : Nat) : Rule (List Argument) :=
  optionalBetween .parenOpen .parenClose (argument constant levels)

def directive (constant : Bool) (levels : Nat) : Rule Directive := do
  expectMark .atSign
  let name ← expectName
  return { name, arguments := ← arguments constant levels }

def directives (constant : Bool) (levels : Nat) : Rule (List Directive) :=
  repeatUntil (do return !(← isMark .atSign)) (directive constant levels)

/-! ## Descriptions -/

/-- The text of a string token, if one stands at the front. -/
def peekDescription : Rule (Option String) := do
  match ← peek with
  | some (.string text) => return some text
  | some (.blockString text) => return some text
  | _ => return none

def description? : Rule (Option String) := do
  let found ← peekDescription
  if found.isSome then advance
  return found

end SchemaCompletion.Sdl.Rule
