import SchemaCompletion.Attempt
import SchemaCompletion.Sdl.Name
import SchemaCompletion.Sdl.SyntaxError

/-!
# Numbers

Number literals, kept as they are spelled: an integer part, a fraction and an exponent.

* `takeDigits` — one digit or more;
* `takeInteger`, `takeFraction`, `takeExponent` — the three parts;
* `readNumber` — a number token and what follows it.
-/

namespace SchemaCompletion.Sdl

/-- A piece of a literal and what follows it. -/
abbrev Piece := List Char × List Char

def takeDigits (cs : List Char) : Except LexicalError Piece :=
  match cs.takeWhile Char.isDigit with
  | [] => .error (.digitExpected cs.head?)
  | digits => .ok (digits, cs.dropWhile Char.isDigit)

/-- The integer part: a zero alone, or digits that do not begin with one. -/
def takeInteger : List Char → Except LexicalError Piece
  | '0' :: c :: cs => if c.isDigit then .error (.digitAfterZero c) else .ok (['0'], c :: cs)
  | ['0'] => .ok (['0'], [])
  | cs => takeDigits cs

/-- The integer part with its sign. -/
def takeSigned : List Char → Except LexicalError Piece
  | '-' :: cs => do
    let (digits, rest) ← takeInteger cs
    return ('-' :: digits, rest)
  | cs => takeInteger cs

/-- The fraction, empty if no point follows. -/
def takeFraction : List Char → Except LexicalError Piece
  | '.' :: cs => do
    let (digits, rest) ← takeDigits cs
    return ('.' :: digits, rest)
  | cs => .ok ([], cs)

def takeExponentDigits : List Char → Except LexicalError Piece
  | '+' :: cs => do
    let (digits, rest) ← takeDigits cs
    return ('+' :: digits, rest)
  | '-' :: cs => do
    let (digits, rest) ← takeDigits cs
    return ('-' :: digits, rest)
  | cs => takeDigits cs

/-- The exponent, empty if no exponent letter follows. -/
def takeExponent : List Char → Except LexicalError Piece
  | e :: cs =>
    if e = 'e' || e = 'E' then do
      let (digits, rest) ← takeExponentDigits cs
      return (e :: digits, rest)
    else .ok ([], e :: cs)
  | [] => .ok ([], [])

/-- A number may not run into a point or a name. -/
def checkNumberEnd : List Char → Except LexicalError Unit
  | c :: _ => if c = '.' || isNameStart c then .error (.digitExpected (some c)) else .ok ()
  | [] => .ok ()

/-- A number token at the front of a text, and what follows it. -/
def readNumber (cs : List Char) : Except LexicalError (Token × List Char) := do
  let (integer, cs) ← takeSigned cs
  let (fraction, cs) ← takeFraction cs
  let (exponent, cs) ← takeExponent cs
  -- every part has taken all it can, so a point or a letter here belongs to no number
  checkNumberEnd cs
  let spelling := String.ofList (integer ++ fraction ++ exponent)
  if fraction.isEmpty && exponent.isEmpty then return (.int spelling, cs)
  else return (.float spelling, cs)

/-! ## Every part moves forward -/

theorem takeDigits_length {cs : List Char} {p : Piece} (h : takeDigits cs = .ok p) :
    p.2.length < cs.length := by
  unfold takeDigits at h
  split at h
  next => cases h
  next hne =>
    cases h
    -- the digits and the rest make up the text, and there is a digit
    have hsum :=
      congrArg List.length (List.takeWhile_append_dropWhile (p := Char.isDigit) (l := cs))
    rw [List.length_append] at hsum
    have hpos := List.length_pos_iff.2 hne
    simp only
    omega

theorem takeInteger_length {cs : List Char} {p : Piece} (h : takeInteger cs = .ok p) :
    p.2.length < cs.length := by
  unfold takeInteger at h
  split at h
  · split at h <;> cases h
    simp
  · cases h
    simp
  · exact takeDigits_length h

theorem takeSigned_length {cs : List Char} {p : Piece} (h : takeSigned cs = .ok p) :
    p.2.length < cs.length := by
  unfold takeSigned at h
  split at h
  · obtain ⟨q, hq, h⟩ := bind_eq_ok h
    cases h
    have := takeInteger_length hq
    simp only [List.length_cons]
    omega
  · exact takeInteger_length h

theorem takeFraction_length {cs : List Char} {p : Piece} (h : takeFraction cs = .ok p) :
    p.2.length ≤ cs.length := by
  unfold takeFraction at h
  split at h
  · obtain ⟨q, hq, h⟩ := bind_eq_ok h
    cases h
    have := takeDigits_length hq
    simp only [List.length_cons]
    omega
  · cases h
    exact Nat.le_refl _

theorem takeExponentDigits_length {cs : List Char} {p : Piece}
    (h : takeExponentDigits cs = .ok p) : p.2.length < cs.length := by
  unfold takeExponentDigits at h
  split at h
  · obtain ⟨q, hq, h⟩ := bind_eq_ok h
    cases h
    have := takeDigits_length hq
    simp only [List.length_cons]
    omega
  · obtain ⟨q, hq, h⟩ := bind_eq_ok h
    cases h
    have := takeDigits_length hq
    simp only [List.length_cons]
    omega
  · exact takeDigits_length h

theorem takeExponent_length {cs : List Char} {p : Piece} (h : takeExponent cs = .ok p) :
    p.2.length ≤ cs.length := by
  unfold takeExponent at h
  split at h
  · split at h
    · obtain ⟨q, hq, h⟩ := bind_eq_ok h
      cases h
      have := takeExponentDigits_length hq
      simp only [List.length_cons]
      omega
    · cases h
      exact Nat.le_refl _
  · cases h
    exact Nat.le_refl _

theorem readNumber_length {cs : List Char} {r : Token × List Char} (h : readNumber cs = .ok r) :
    r.2.length < cs.length := by
  unfold readNumber at h
  obtain ⟨p, hp, h⟩ := bind_eq_ok h
  obtain ⟨q, hq, h⟩ := bind_eq_ok h
  obtain ⟨s, hs, h⟩ := bind_eq_ok h
  obtain ⟨_, _, h⟩ := bind_eq_ok h
  -- the first part takes something, and the others give nothing back
  have := takeSigned_length hp
  have := takeFraction_length hq
  have := takeExponent_length hs
  simp only at h
  split at h <;> cases h <;> simp only <;> omega

end SchemaCompletion.Sdl
