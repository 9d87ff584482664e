/-!
# Line breaks

Two notions of a line that a schema document meets.

* `isLineBreak`, `splitLines` — lines of Unicode text, where ten characters end a line;
* `unifyLineBreaks` — the same text with every carriage return written as a line feed;
* `splitSourceLines` — lines of a document, ended by a line feed or a carriage return only.
-/

namespace SchemaCompletion.Text

/-! ## Lines of Unicode text -/

/-- The characters that end a line of Unicode text. -/
def isLineBreak (c : Char) : Bool :=
  let n := c.toNat
  (0x0A ≤ n && n ≤ 0x0D) || (0x1C ≤ n && n ≤ 0x1E) || n == 0x85 || n == 0x2028 || n == 0x2029

/-- The lines of a text without their breaks; a break at the end of the text opens no new line. -/
def splitLines : List Char → List (List Char)
  | [] => []
  | '\r' :: '\n' :: cs => [] :: splitLines cs
  | c :: cs =>
    if isLineBreak c then [] :: splitLines cs
    else
      match splitLines cs with
      | [] => [[c]]
      | line :: lines => (c :: line) :: lines

/-! ## Lines of a document -/

/-- Carriage returns, alone or before a line feed, become line feeds. -/
def unifyLineBreaks : List Char → List Char
  | [] => []
  | '\r' :: '\n' :: cs => '\n' :: unifyLineBreaks cs
  | c :: cs => (if c = '\r' then '\n' else c) :: unifyLineBreaks cs

/-- The lines of a document; there is always at least one. -/
def splitSourceLines : List Char → List (List Char)
  | [] => [[]]
  | '\r' :: '\n' :: cs => [] :: splitSourceLines cs
  | c :: cs =>
    if c = '\n' || c = '\r' then [] :: splitSourceLines cs
    else
      match splitSourceLines cs with
      | [] => [[c]]
      | line :: lines => (c :: line) :: lines

theorem splitSourceLines_ne_nil (cs : List Char) : splitSourceLines cs ≠ [] := by
  fun_cases splitSourceLines cs <;> simp_all

end SchemaCompletion.Text
