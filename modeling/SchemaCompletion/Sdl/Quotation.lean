import SchemaCompletion.Attempt
import SchemaCompletion.Sdl.SyntaxError

/-!
# Quoted strings

String literals between double quotation marks, and the escape sequences in them.

* `simpleEscape?`, `shortEscape?` — the escapes of one letter, both ways;
* `readEscape` — the character that an escape sequence stands for;
* `readString` — the value of a string literal and what follows it;
* `printString` — a value as a string literal.
-/

namespace SchemaCompletion.Sdl

/-! ## Escape sequences -/

/-- The character that a backslash and a letter stand for. -/
def simpleEscape? : Char → Option Char
  | '"' => some '"'
  | '\\' => some '\\'
  | '/' => some '/'
  | 'b' => some '\x08'
  | 'f' => some '\x0c'
  | 'n' => some '\n'
  | 'r' => some '\r'
  | 't' => some '\t'
  | _ => none

def hexDigit? (c : Char) : Option Nat :=
  if '0' ≤ c ∧ c ≤ '9' then some (c.toNat - '0'.toNat)
  else if 'a' ≤ c ∧ c ≤ 'f' then some (c.toNat - 'a'.toNat + 10)
  else if 'A' ≤ c ∧ c ≤ 'F' then some (c.toNat - 'A'.toNat + 10)
  else none

def hexValue? (cs : List Char) : Option Nat :=
  cs.foldlM (fun n c => (hexDigit? c).map (n * 16 + ·)) 0

/-- The number written in four hexadecimal digits, and what follows them. -/
def takeHex4 : List Char → Option (Nat × List Char)
  | a :: b :: c :: d :: rest => (hexValue? [a, b, c, d]).map (·, rest)
  | _ => none

/-- A code point that a character can have; surrogates have none. -/
def isScalarValue (n : Nat) : Bool := n < 0xD800 || (0xDFFF < n && n < 0x110000)

/-- The character of a surrogate pair. -/
def pairedChar (high low : Nat) : Char :=
  Char.ofNat (0x10000 + (high - 0xD800) * 0x400 + (low - 0xDC00))

/-- The error of an escape of four digits, which shows the place where they should be. -/
def fixedEscapeError (cs : List Char) : LexicalError :=
  .badUnicodeEscape (String.ofList ('\\' :: 'u' :: cs.take 4))

def readLowSurrogate? : List Char → Option (Nat × List Char)
  | '\\' :: 'u' :: cs => (takeHex4 cs).filter fun r => 0xDC00 ≤ r.1 && r.1 ≤ 0xDFFF
  | _ => none

/-- Reads an escape of four digits, or two of them that form a surrogate pair; the text begins after
the letter. -/
def readFixedEscape (cs : List Char) : Except LexicalError (Char × List Char) :=
  match takeHex4 cs with
  | none => .error (fixedEscapeError cs)
  | some (n, rest) =>
    if isScalarValue n then .ok (Char.ofNat n, rest)
    -- a surrogate; only a first half can become a character
    else if n < 0xDC00 then
      match readLowSurrogate? rest with
      | some (m, rest) => .ok (pairedChar n m, rest)
      | none => .error (fixedEscapeError cs)
    else .error (fixedEscapeError cs)

/-- The most characters that an escape in braces can have after its opening brace. -/
def bracedEscapeLimit : Nat := 9

def bracedDigits (cs : List Char) : List Char :=
  (cs.take bracedEscapeLimit).takeWhile fun c => (hexDigit? c).isSome

/-- The character that ends the digits of an escape in braces, if it is near enough. -/
def bracedStop? (cs : List Char) : Option Char :=
  ((cs.take bracedEscapeLimit).drop (bracedDigits cs).length).head?

/-- The error of an escape in braces, which shows what was read up to the character that ended
it. -/
def bracedEscapeError (cs : List Char) : LexicalError :=
  .badUnicodeEscape
    (String.ofList ('\\' :: 'u' :: '{' :: bracedDigits cs ++ (bracedStop? cs).toList))

/-- The code point of an escape in braces: one digit or more, closed, and a scalar value. -/
def bracedPoint? (cs : List Char) : Option Nat :=
  if bracedStop? cs = some '}' && !(bracedDigits cs).isEmpty then
    (hexValue? (bracedDigits cs)).filter isScalarValue
  else none

/-- Reads an escape in braces; the text begins after the opening brace. -/
def readBracedEscape (cs : List Char) : Except LexicalError (Char × List Char) :=
  match bracedPoint? cs with
  | some n => .ok (Char.ofNat n, cs.drop ((bracedDigits cs).length + 1))
  | none => .error (bracedEscapeError cs)

/-- Reads the escape sequence after a backslash. -/
def readEscape : List Char → Except LexicalError (Char × List Char)
  | 'u' :: '{' :: cs => readBracedEscape cs
  | 'u' :: cs => readFixedEscape cs
  | c :: cs =>
    match simpleEscape? c with
    | some d => .ok (d, cs)
    | none => .error (.badEscape (String.ofList ['\\', c]))
  | [] => .error (.badEscape "\\")

/-! ## Escape sequences move forward -/

theorem takeHex4_length {cs rest : List Char} {n : Nat} (h : takeHex4 cs = some (n, rest)) :
    rest.length < cs.length := by
  unfold takeHex4 at h
  split at h
  · obtain ⟨m, _, hm⟩ := Option.map_eq_some_iff.1 h
    cases hm
    simp only [List.length_cons]
    omega
  · cases h

theorem readLowSurrogate?_length {cs rest : List Char} {m : Nat}
    (h : readLowSurrogate? cs = some (m, rest)) : rest.length < cs.length := by
  unfold readLowSurrogate? at h
  split at h
  · have := takeHex4_length (Option.filter_eq_some_iff.1 h).1
    simp only [List.length_cons]
    omega
  · cases h

theorem readFixedEscape_length {cs : List Char} {r : Char × List Char}
    (h : readFixedEscape cs = .ok r) : r.2.length < cs.length := by
  unfold readFixedEscape at h
  split at h
  · cases h
  next n rest hn =>
    have hlt := takeHex4_length hn
    -- four digits, or eight with a second escape around them
    split at h
    · rw [← Except.ok.inj h]
      exact hlt
    · split at h
      · split at h
        next m rest' hm =>
          have := readLowSurrogate?_length hm
          rw [← Except.ok.inj h]
          simp only
          omega
        · cases h
      · cases h

theorem readBracedEscape_length {cs : List Char} {r : Char × List Char}
    (h : readBracedEscape cs = .ok r) : r.2.length ≤ cs.length := by
  unfold readBracedEscape at h
  split at h
  · rw [← Except.ok.inj h]
    simp only [List.length_drop]
    omega
  · cases h

theorem readEscape_length {cs : List Char} {r : Char × List Char} (h : readEscape cs = .ok r) :
    r.2.length < cs.length := by
  unfold readEscape at h
  split at h
  · have := readBracedEscape_length h
    simp only [List.length_cons]
    omega
  · have := readFixedEscape_length h
    simp only [List.length_cons]
    omega
  · split at h <;> cases h
    simp
  · cases h

/-! ## String literals -/

/-- The value of a string literal, and what follows it; the text begins after the opening mark. -/
def readString : List Char → Except LexicalError (List Char × List Char)
  | [] => .error .unterminatedString
  | '"' :: cs => .ok ([], cs)
  | '\\' :: cs =>
    match _h : readEscape cs with
    | .error e => .error e
    | .ok (c, rest) =>
      match readString rest with
      | .error e => .error e
      | .ok (value, rest) => .ok (c :: value, rest)
  | c :: cs =>
    if c = '\n' || c = '\r' then .error .unterminatedString
    else
      match readString cs with
      | .error e => .error e
      | .ok (value, rest) => .ok (c :: value, rest)
termination_by cs => cs.length
decreasing_by
  -- an escape sequence is at least one character
  · have := readEscape_length _h
    simp only [List.length_cons] at this ⊢
    omega
  · simp

theorem readString_length {cs : List Char} {r : List Char × List Char}
    (h : readString cs = .ok r) : r.2.length ≤ cs.length := by
  -- by the cases of the reading; where it fails there is no rest to bound
  fun_induction readString cs generalizing r with
  | case1 => cases h
  | case2 => cases h; simp
  | case3 => cases h
  | case4 => cases h
  | case5 cs c rest hesc value rest' hrest ih =>
    cases h
    have := readEscape_length hesc
    have := ih hrest
    simp only [List.length_cons] at *
    omega
  | case6 => cases h
  | case7 => cases h
  | case8 c cs _ _ _ value rest hrest ih =>
    cases h
    have := ih hrest
    simp only [List.length_cons] at *
    omega

/-! ## Printing -/

/-- The letter that stands for a character after a backslash, where there is one. -/
def shortEscape? : Char → Option Char
  | '"' => some '"'
  | '\\' => some '\\'
  | '\x08' => some 'b'
  | '\x0c' => some 'f'
  | '\n' => some 'n'
  | '\r' => some 'r'
  | '\t' => some 't'
  | _ => none

/-- A control character, which a literal shows by its code point. -/
def isControl (c : Char) : Bool := c.toNat < 0x20 || (0x7F ≤ c.toNat && c.toNat ≤ 0x9F)

/-- A character inside a string literal. -/
def printChar (c : Char) : List Char :=
  match shortEscape? c with
  | some d => ['\\', d]
  | none => if isControl c then '\\' :: 'u' :: (upperHex c.toNat).toList else [c]

/-- A value as a string literal. -/
def printString (value : String) : List Char := '"' :: value.toList.flatMap printChar ++ ['"']

end SchemaCompletion.Sdl
