import SchemaCompletion.Sdl.SyntaxError
import SchemaCompletion.Text.LineBreak

/-!
# Block strings

String literals between triple quotation marks, whose layout is not part of their value.

* `readBlock` — the raw text of a block string and what follows it;
* `dedent` — the lines of the value: common indentation and blank lines at the ends removed;
* `blockValue` — the value of a raw text;
* `printBlock` — a value as a block string.
-/

namespace SchemaCompletion.Sdl

open SchemaCompletion.Text

/-! ## Reading -/

/-- The raw text of a block string, with its quotation marks unescaped, and what follows it; the
text begins after the opening marks. -/
def readBlock : List Char → Except LexicalError (List Char × List Char)
  | [] => .error .unterminatedString
  | '"' :: '"' :: '"' :: cs => .ok ([], cs)
  | '\\' :: '"' :: '"' :: '"' :: cs =>
    match readBlock cs with
    | .error e => .error e
    | .ok (raw, rest) => .ok ('"' :: '"' :: '"' :: raw, rest)
  | c :: cs =>
    match readBlock cs with
    | .error e => .error e
    | .ok (raw, rest) => .ok (c :: raw, rest)

theorem readBlock_length {cs : List Char} {r : List Char × List Char} (h : readBlock cs = .ok r) :
    r.2.length ≤ cs.length := by
  fun_induction readBlock cs generalizing r with
  | case1 => cases h
  | case2 cs => cases h; simp only [List.length_cons]; omega
  | case3 => cases h
  | case4 cs raw rest hrest ih =>
    cases h
    have := ih hrest
    simp only [List.length_cons] at *
    omega
  | case5 => cases h
  | case6 c cs _ _ raw rest hrest ih =>
    cases h
    have := ih hrest
    simp only [List.length_cons] at *
    omega

/-! ## Layout -/

/-- Indentation is made of spaces and tabs. -/
def isIndent (c : Char) : Bool := c == ' ' || c == '\t'

def isBlankLine (line : List Char) : Bool := line.all isIndent

def indentWidth (line : List Char) : Nat := (line.takeWhile isIndent).length

/-- The least indentation of the lines that are not blank. -/
def commonIndent? (lines : List (List Char)) : Option Nat :=
  ((lines.filter fun line => !isBlankLine line).map indentWidth).min?

/-- The lines after the first without their common indentation; blank lines lose what they have of
it, and if all lines are blank nothing is left of them. -/
def dropIndent (lines : List (List Char)) : List (List Char) :=
  match commonIndent? lines with
  | some n => lines.map (List.drop n)
  | none => lines.map fun _ => []

/-- The lines without the blank ones at the end. -/
def dropBlankEnd : List (List Char) → List (List Char)
  | [] => []
  | line :: lines =>
    match dropBlankEnd lines with
    | [] => if isBlankLine line then [] else [line]
    | next :: rest => line :: next :: rest

/-- The lines of the value of a block string. -/
def dedent : List (List Char) → List (List Char)
  | [] => []
  -- the first line stands behind the opening marks, so its indentation does not count
  | first :: lines => dropBlankEnd ((first :: dropIndent lines).dropWhile isBlankLine)

def blockValue (raw : List Char) : List Char :=
  ['\n'].intercalate (dedent (splitSourceLines raw))

/-! ## Printing -/

/-- A value with every triple quotation mark escaped. -/
def escapeTripleQuotes : List Char → List Char
  | '"' :: '"' :: '"' :: cs => '\\' :: '"' :: '"' :: '"' :: escapeTripleQuotes cs
  | c :: cs => c :: escapeTripleQuotes cs
  | [] => []

/-- The longest value that is kept on the line of its quotation marks. -/
def blockLineLimit : Nat := 70

/-- How a block string is laid out around its value. -/
structure BlockLayout where
  breakBefore : Bool
  breakAfter : Bool
  deriving DecidableEq, Repr

/-- The layout of a value: line breaks are added for legibility, and where a quotation mark, a
backslash or indentation at an end would otherwise be read differently. -/
def blockLayout (value : List Char) : BlockLayout :=
  let escaped := escapeTripleQuotes value
  let lines := splitSourceLines escaped
  let single := lines.length == 1
  let indented := !single && lines.tail.all fun line => (line.head?.map isIndent).getD true
  let endsTriple := ['\\', '"', '"', '"'].isSuffixOf escaped
  let endsQuote := value.getLast? == some '"' && !endsTriple
  let forceAfter := endsQuote || value.getLast? == some '\\'
  -- the first two reasons are for legibility, the others for reading the value back
  let several := !single || value.length > blockLineLimit || forceAfter || indented || endsTriple
  let keepFirst := single && (value.head?.map isIndent).getD false
  { breakBefore := (several && !keepFirst) || indented, breakAfter := several || forceAfter }

def printBlock (value : String) : List Char :=
  let cs := value.toList
  let layout := blockLayout cs
  ['"', '"', '"'] ++ (if layout.breakBefore then ['\n'] else []) ++ escapeTripleQuotes cs ++
    (if layout.breakAfter then ['\n'] else []) ++ ['"', '"', '"']

end SchemaCompletion.Sdl
