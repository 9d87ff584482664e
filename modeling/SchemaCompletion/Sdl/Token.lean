/-!
# Tokens

The tokens of the schema definition language.

* `Punctuator`, `Token` — the marks, and all tokens with the text they carry;
* `Token.text?` — the text of a token that carries one;
* `Token.describe`, `describeFound` — a token as an error message names it.
-/

namespace SchemaCompletion.Sdl

/-! ## Punctuators -/

/-- The punctuation marks of the language. -/
inductive Punctuator where
  | bang
  | dollar
  | ampersand
  | parenOpen
  | parenClose
  | spread
  | colon
  | equals
  | atSign
  | bracketOpen
  | bracketClose
  | braceOpen
  | pipe
  | braceClose
  deriving DecidableEq, Repr

def Punctuator.spelling : Punctuator → String
  | .bang => "!"
  | .dollar => "$"
  | .ampersand => "&"
  | .parenOpen => "("
  | .parenClose => ")"
  | .spread => "..."
  | .colon => ":"
  | .equals => "="
  | .atSign => "@"
  | .bracketOpen => "["
  | .bracketClose => "]"
  | .braceOpen => "\x7b"
  | .pipe => "|"
  | .braceClose => "\x7d"

/-- The mark that a single character spells. -/
def Punctuator.ofChar? : Char → Option Punctuator
  | '!' => some .bang
  | '$' => some .dollar
  | '&' => some .ampersand
  | '(' => some .parenOpen
  | ')' => some .parenClose
  | ':' => some .colon
  | '=' => some .equals
  | '@' => some .atSign
  | '[' => some .bracketOpen
  | ']' => some .bracketClose
  | '{' => some .braceOpen
  | '|' => some .pipe
  | '}' => some .braceClose
  | _ => none

/-- A mark read from one character is spelled by that character. -/
theorem Punctuator.spelling_of_ofChar? {c : Char} {p : Punctuator}
    (h : Punctuator.ofChar? c = some p) : p.spelling.toList = [c] := by
  unfold Punctuator.ofChar? at h
  split at h <;> cases h <;> rfl

/-! ## Tokens -/

/-- A token with the text it carries: numbers as they are spelled, strings by their value. -/
inductive Token where
  | punctuator (p : Punctuator)
  | name (text : String)
  | int (spelling : String)
  | float (spelling : String)
  | string (value : String)
  | blockString (value : String)
  deriving DecidableEq, Repr

/-- The text that a token carries; a mark carries none. -/
def Token.text? : Token → Option String
  | .punctuator _ => none
  | .name text => some text
  | .int spelling => some spelling
  | .float spelling => some spelling
  | .string value => some value
  | .blockString value => some value

/-- A token as an error message names it. -/
def Token.describe : Token → String
  | .punctuator p => "'" ++ p.spelling ++ "'"
  | .name text => "Name '" ++ text ++ "'"
  | .int spelling => "Int '" ++ spelling ++ "'"
  | .float spelling => "Float '" ++ spelling ++ "'"
  | .string value => "String '" ++ value ++ "'"
  | .blockString value => "BlockString '" ++ value ++ "'"

/-- What stands at a place of the text, as an error message names it: a token or the end. -/
def describeFound : Option Token → String
  | some t => t.describe
  | none => "<EOF>"

end SchemaCompletion.Sdl
