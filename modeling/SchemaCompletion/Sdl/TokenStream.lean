import SchemaCompletion.Sdl.BlockString
import SchemaCompletion.Sdl.Number
import SchemaCompletion.Sdl.Quotation

/-!
# The tokens of a text

A text is read as tokens between ignored characters, up to its end or to a character at which no
token can be read.

* `skipIgnored` — the text from its first token on;
* `readToken` — the token at the front of a text;
* `TokenStream` — the tokens of a text and how they end;
* `TokenStream.ofText` — reading a whole text.
-/

namespace SchemaCompletion.Sdl

/-! ## Between the tokens -/

/-- Characters that separate tokens and mean nothing. -/
def isIgnored (c : Char) : Bool :=
  c == ' ' || c == '\t' || c == ',' || c == '\ufeff' || c == '\n' || c == '\r'

/-- The text from its first token on; `inComment` tells that a comment is still open. -/
def skipFrom (inComment : Bool) : List Char → List Char
  | [] => []
  | c :: cs =>
    if inComment then skipFrom (!(c == '\n' || c == '\r')) cs
    else if isIgnored c then skipFrom false cs
    else if c = '#' then skipFrom true cs
    else c :: cs

def skipIgnored (cs : List Char) : List Char := skipFrom false cs

theorem skipFrom_length (inComment : Bool) (cs : List Char) :
    (skipFrom inComment cs).length ≤ cs.length := by
  induction cs generalizing inComment with
  | nil => simp [skipFrom]
  | cons c cs ih =>
    unfold skipFrom
    split
    · exact Nat.le_succ_of_le (ih _)
    · split
      · exact Nat.le_succ_of_le (ih _)
      · split
        · exact Nat.le_succ_of_le (ih _)
        · exact Nat.le_refl _

/-! ## One token -/

/-- Reads what begins with a point; the text begins after it. -/
def readDots : List Char → Except LexicalError (Token × List Char)
  | '.' :: '.' :: cs => .ok (.punctuator .spread, cs)
  | '.' :: _ => .error .twoDots
  | cs =>
    match cs.takeWhile Char.isDigit with
    | [] => .error (.strayCharacter '.')
    | digits => .error (.leadingDot (String.ofList digits))

/-- Reads a string literal; the text begins after its first quotation mark. -/
def readQuoted : List Char → Except LexicalError (Token × List Char)
  -- with the mark that was taken these are three, so no empty literal ends here
  | '"' :: '"' :: cs => do
    let (raw, rest) ← readBlock cs
    return (.blockString (String.ofList (blockValue raw)), rest)
  | cs => do
    let (value, rest) ← readString cs
    return (.string (String.ofList value), rest)

/-- Reads the token that begins with a character; the text is what follows the character. -/
def readToken (c : Char) (cs : List Char) : Except LexicalError (Token × List Char) :=
  match Punctuator.ofChar? c with
  | some p => .ok (.punctuator p, cs)
  | none =>
    if isNameStart c then
      let (name, rest) := takeName cs
      .ok (.name (String.ofList (c :: name)), rest)
    else if c.isDigit || c = '-' then readNumber (c :: cs)
    else if c = '"' then readQuoted cs
    else if c = '.' then readDots cs
    else if c = '\'' then .error .singleQuote
    else .error (.strayCharacter c)

theorem readDots_length {cs : List Char} {r : Token × List Char} (h : readDots cs = .ok r) :
    r.2.length ≤ cs.length := by
  unfold readDots at h
  split at h
  · rw [← Except.ok.inj h]
    simp only [List.length_cons]
    omega
  · cases h
  · split at h <;> cases h

theorem readQuoted_length {cs : List Char} {r : Token × List Char} (h : readQuoted cs = .ok r) :
    r.2.length ≤ cs.length := by
  unfold readQuoted at h
  split at h
  · obtain ⟨p, hp, h⟩ := bind_eq_ok h
    have := readBlock_length hp
    rw [← Except.ok.inj h]
    simp only [List.length_cons]
    omega
  · obtain ⟨p, hp, h⟩ := bind_eq_ok h
    have := readString_length hp
    rw [← Except.ok.inj h]
    exact this

theorem readToken_length {c : Char} {cs : List Char} {r : Token × List Char}
    (h : readToken c cs = .ok r) : r.2.length ≤ cs.length := by
  unfold readToken at h
  split at h
  · obtain rfl := Except.ok.inj h
    exact Nat.le_refl _
  · split at h
    · rw [← Except.ok.inj h]
      exact (List.dropWhile_sublist _).length_le
    · split at h
      · have := readNumber_length h
        simp only [List.length_cons] at this
        omega
      · split at h
        · exact readQuoted_length h
        · split at h
          · exact readDots_length h
          · split at h <;> cases h

/-! ## All tokens -/

/-- The tokens of a text, in order, and how they end: with the text, or at a lexical error. -/
inductive TokenStream where
  | ended
  | broken (e : LexicalError)
  | token (t : Token) (rest : TokenStream)
  deriving Repr

def TokenStream.length : TokenStream → Nat
  | .token _ rest => rest.length + 1
  | _ => 0

def TokenStream.ofText (cs : List Char) : TokenStream :=
  match _h : skipIgnored cs with
  | [] => .ended
  | c :: rest =>
    match _ht : readToken c rest with
    | .error e => .broken e
    | .ok (t, rest') => .token t (ofText rest')
termination_by cs.length
decreasing_by
  -- a token has at least its first character, and nothing that was read comes back
  have hskip := skipFrom_length false cs
  have htoken := readToken_length _ht
  unfold skipIgnored at _h
  rw [_h] at hskip
  simp only [List.length_cons] at hskip htoken
  omega

/-! ## What the front of a text gives -/

section

variable {cs rest rest' : List Char} {c : Char} {t : Token} {e : LexicalError}

theorem TokenStream.ofText_of_nil (h : skipIgnored cs = []) : ofText cs = .ended := by
  rw [ofText]
  split
  · rfl
  next found =>
      cases h.symm.trans found

theorem TokenStream.ofText_of_error (h : skipIgnored cs = c :: rest)
    (ht : readToken c rest = .error e) : ofText cs = .broken e := by
  rw [ofText]
  split
  next found =>
      cases h.symm.trans found
  next found =>
      cases h.symm.trans found
      split
      next found =>
          cases ht.symm.trans found
          rfl
      next found =>
          cases ht.symm.trans found

theorem TokenStream.ofText_of_token (h : skipIgnored cs = c :: rest)
    (ht : readToken c rest = .ok (t, rest')) : ofText cs = .token t (ofText rest') := by
  rw [ofText]
  split
  next found =>
      cases h.symm.trans found
  next found =>
      cases h.symm.trans found
      split
      next found =>
          cases ht.symm.trans found
      next found =>
          cases ht.symm.trans found
          rfl

end

end SchemaCompletion.Sdl
