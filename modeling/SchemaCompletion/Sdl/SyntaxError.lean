import SchemaCompletion.Sdl.Token

/-!
# Syntax errors

Why a text is no document.

* `LexicalError` — a character at which no token can be read on;
* `Expectation` — what the grammar asks for at a place;
* `SyntaxError` — all causes, with their wording in `SyntaxError.message`.
-/

namespace SchemaCompletion.Sdl

/-! ## Lexical errors -/

/-- Why no token could be read. -/
inductive LexicalError where
  | twoDots
  | leadingDot (digits : String)
  | singleQuote
  | strayCharacter (c : Char)
  | digitAfterZero (found : Char)
  | digitExpected (found : Option Char)
  | unterminatedString
  | badEscape (shown : String)
  | badUnicodeEscape (shown : String)
  deriving DecidableEq, Repr

/-- At least four upper-case hexadecimal digits. -/
def upperHex (n : Nat) : String :=
  let digits := (Nat.toDigits 16 n).map Char.toUpper
  String.ofList (List.replicate (4 - digits.length) '0' ++ digits)

/-- A character as an error message names it: printable ASCII in quotes, all else by its code point,
and the end of the text by name. -/
def describeChar : Option Char → String
  | none => "<EOF>"
  | some c =>
    if 0x20 ≤ c.toNat && c.toNat ≤ 0x7E then String.ofList ['\'', c, '\'']
    else "U+" ++ upperHex c.toNat

def LexicalError.message : LexicalError → String
  | .twoDots => "Unexpected '..', did you mean '...'?"
  | .leadingDot digits =>
    "Invalid number, expected digit before '.', did you mean '0." ++ digits ++ "'?"
  | .singleQuote =>
    "Unexpected single quote character ('), did you mean to use a double quote (\")?"
  | .strayCharacter c => "Unexpected character: " ++ describeChar (some c) ++ "."
  | .digitAfterZero c =>
    "Invalid number, unexpected digit after 0: " ++ describeChar (some c) ++ "."
  | .digitExpected found =>
    "Invalid number, expected digit but got: " ++ describeChar found ++ "."
  | .unterminatedString => "Unterminated string."
  | .badEscape shown => "Invalid character escape sequence: '" ++ shown ++ "'."
  | .badUnicodeEscape shown => "Invalid Unicode escape sequence: '" ++ shown ++ "'."

/-! ## Errors of the grammar -/

/-- What the grammar asks for at a place. -/
inductive Expectation where
  | name
  | mark (p : Punctuator)
  | keyword (word : String)
  deriving DecidableEq, Repr

def Expectation.describe : Expectation → String
  | .name => "Name"
  | .mark p => "'" ++ p.spelling ++ "'"
  | .keyword word => "'" ++ word ++ "'"

/-- Why a text is no document. -/
inductive SyntaxError where
  | lexical (e : LexicalError)
  | unexpected (found : Option Token)
  | expected (what : Expectation) (found : Option Token)
  | describedShorthand
  | describedNonDefinition
  | reservedEnumValue (found : Token)
  | variableInConstant (name : String)
  | tooDeep
  deriving DecidableEq, Repr

def SyntaxError.detail : SyntaxError → String
  | .lexical e => e.message
  | .unexpected found => "Unexpected " ++ describeFound found ++ "."
  | .expected what found =>
    "Expected " ++ what.describe ++ ", found " ++ describeFound found ++ "."
  | .describedShorthand =>
    "Unexpected description, descriptions are not supported on shorthand queries."
  | .describedNonDefinition =>
    "Unexpected description, only GraphQL definitions support descriptions."
  | .reservedEnumValue found =>
    found.describe ++ " is reserved and cannot be used for an enum value."
  | .variableInConstant name => "Unexpected variable '$" ++ name ++ "' in constant value."
  | .tooDeep => "Document is nested too deeply. Parsing aborted."

def SyntaxError.message (e : SyntaxError) : String := "Syntax Error: " ++ e.detail

end SchemaCompletion.Sdl
