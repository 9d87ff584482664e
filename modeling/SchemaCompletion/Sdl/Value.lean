import SchemaCompletion.Sdl.BlockString
import SchemaCompletion.Sdl.Quotation

/-!
# Values

The value literals of the language, and their printed form.

* `Value` — the literals;
* `Value.IsConstant` — the literals without variables;
* `printBracketed` — items on one line if they fit, else one per line;
* `Value.print` — the printed form of a literal.
-/

namespace SchemaCompletion.Sdl

/-- A value literal: numbers and enum values as they are spelled, strings by their value. -/
inductive Value where
  | int (spelling : String)
  | float (spelling : String)
  | string (value : String)
  | block (value : String)
  | boolean (value : Bool)
  | null
  | enum (name : String)
  | variable (name : String)
  | list (items : List Value)
  | object (fields : List (String × Value))
  deriving Repr

namespace Value

mutual

/-- The literal has no variable in it. -/
def IsConstant : Value → Prop
  | .variable _ => False
  | .list items => AllConstant items
  | .object fields => AllFieldsConstant fields
  | _ => True

/-- No item has a variable in it. -/
def AllConstant : List Value → Prop
  | [] => True
  | v :: vs => v.IsConstant ∧ AllConstant vs

/-- No field has a variable in it. -/
def AllFieldsConstant : List (String × Value) → Prop
  | [] => True
  | (_, v) :: fields => v.IsConstant ∧ AllFieldsConstant fields

end

/-! ## Printing -/

/-- The longest group that is printed on one line. -/
def lineLimit : Nat := 80

/-- A text moved two columns to the right: its first line and every line after a break. -/
def indentLines (cs : List Char) : List Char :=
  ' ' :: ' ' :: cs.flatMap fun c => if c = '\n' then ['\n', ' ', ' '] else [c]

/-- Items between brackets: on one line if that is not too long, else one item per line. -/
def printBracketed (opening closing padding : List Char) (items : List (List Char)) : List Char :=
  let line := opening ++ padding ++ [',', ' '].intercalate items ++ padding ++ closing
  if line.length ≤ lineLimit then line
  else opening ++ '\n' :: indentLines (['\n'].intercalate items) ++ '\n' :: closing

mutual

/-- The printed form of a literal, in characters. -/
def printChars : Value → List Char
  | .int spelling => spelling.toList
  | .float spelling => spelling.toList
  | .string value => printString value
  | .block value => printBlock value
  | .boolean true => ['t', 'r', 'u', 'e']
  | .boolean false => ['f', 'a', 'l', 's', 'e']
  | .null => ['n', 'u', 'l', 'l']
  | .enum name => name.toList
  | .variable name => '$' :: name.toList
  | .list items => printBracketed ['['] [']'] [] (printItems items)
  | .object fields => printBracketed ['{'] ['}'] [' '] (printFields fields)

def printItems : List Value → List (List Char)
  | [] => []
  | v :: vs => v.printChars :: printItems vs

def printFields : List (String × Value) → List (List Char)
  | [] => []
  | (name, v) :: fields => (name.toList ++ ':' :: ' ' :: v.printChars) :: printFields fields

end

def print (v : Value) : String := String.ofList v.printChars

end Value

end SchemaCompletion.Sdl
