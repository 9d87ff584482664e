import SchemaCompletion.Snapshot

/-!
# Blank documents

A blank document against the tokens of its text. Two notions of a line meet: ten characters end a
line of Unicode text, but only two of them end a comment, and more characters are white space than
may stand between tokens.

* `splitLines_of_break`, `splitLines_cons` — the lines of a text, by its first character;
* `Untokenized` — what is left of a text gives no token;
* `skipFrom_of_blank` — reading on through blank lines, inside a comment or outside;
* `isBlankDocument_of_parse` — the text of a document is not blank;
* `Snapshot.ofText_of_parse` — so reading it is collecting its document.
-/

namespace SchemaCompletion

open SchemaCompletion.Sdl SchemaCompletion.Text

/-! ## Lines by their first character -/

namespace Text

/-- Every line break is white space. -/
theorem isBlank_of_isLineBreak {c : Char} (h : isLineBreak c = true) : isBlank c = true := by
  simp only [isLineBreak, isBlank, Bool.or_eq_true, Bool.and_eq_true, decide_eq_true_eq,
    beq_iff_eq] at h ⊢
  omega

/-- Behind a break stand the lines of the rest, or, if the break has a second character, those lines
after an empty one. -/
theorem splitLines_of_break {c : Char} (h : isLineBreak c = true) (cs : List Char) :
    ∃ lines, splitLines (c :: cs) = [] :: lines ∧
      (splitLines cs = lines ∨ splitLines cs = [] :: lines) := by
  by_cases pair : ∃ rest, c = '\r' ∧ cs = '\n' :: rest
  · rcases pair with ⟨rest, rfl, rfl⟩
    refine ⟨splitLines rest, rfl, .inr ?_⟩
    rw [splitLines.eq_3 '\n' rest (by simp), if_pos (by decide)]
  · have noPair : ∀ rest, c = '\r' → cs = '\n' :: rest → False :=
      fun rest first second => pair ⟨rest, first, second⟩
    exact ⟨splitLines cs, by rw [splitLines.eq_3 c cs noPair, if_pos h], .inl rfl⟩

/-- Another character begins the first line. -/
theorem splitLines_cons {c : Char} (h : isLineBreak c = false) (cs : List Char) :
    splitLines (c :: cs) = (c :: (splitLines cs).headD []) :: (splitLines cs).tail := by
  have noPair : ∀ rest, c = '\r' → cs = '\n' :: rest → False := by
    rintro rest rfl -
    simp [isLineBreak] at h
  rw [splitLines.eq_3 c cs noPair, if_neg (by simp [h])]
  cases splitLines cs with
  | nil =>
      rfl
  | cons line lines =>
      rfl

end Text

/-! ## Lines and the state of the tokenizer -/

namespace Sdl

/-- What is left of a text gives no token: it has ended, or it begins with white space that may not
stand between tokens. -/
def Untokenized (cs : List Char) : Prop :=
  cs = [] ∨ ∃ c rest, cs = c :: rest ∧ isBlank c = true

/-- A letter or digit is not white space. -/
theorem isAlphanum_of_isBlank {c : Char} (h : isBlank c = true) : c.isAlphanum = false := by
  simp only [isBlank, Char.toNat, Bool.or_eq_true, Bool.and_eq_true, decide_eq_true_eq,
    beq_iff_eq] at h
  change (decide (c.val ≥ 'A'.val ∧ c.val ≤ 'Z'.val) ||
    (decide (c.val ≥ 'a'.val) && decide (c.val ≤ 'z'.val)) ||
    (decide (c.val ≥ '0'.val) && decide (c.val ≤ '9'.val))) = false
  simp only [ge_iff_le, UInt32.le_iff_toNat_le, Char.reduceVal, UInt32.reduceToNat,
    Bool.or_eq_false_iff, Bool.and_eq_false_iff, decide_eq_false_iff_not]
  omega

/-- No token begins with white space. -/
theorem readToken_of_isBlank {c : Char} (h : isBlank c = true) (cs : List Char) :
    readToken c cs = .error (.strayCharacter c) := by
  have noMark : Punctuator.ofChar? c = none := by
    unfold Punctuator.ofChar?
    split <;> first | rfl | exact absurd h (by decide)
  have noLetter : c.isAlpha = false ∧ c.isDigit = false := by
    simpa [Char.isAlphanum] using isAlphanum_of_isBlank h
  have other : ∀ d, isBlank d = false → c ≠ d := by
    rintro d visible rfl
    simp [h] at visible
  simp [readToken, noMark, isNameStart, noLetter, other '_' rfl, other '-' rfl, other '"' rfl,
    other '.' rfl, other '\'' rfl]

/-- A text that gives no token from its first place on has none. -/
theorem Untokenized.ofText_ne {text : List Char} (h : Untokenized (skipIgnored text)) (t : Token)
    (rest : TokenStream) : TokenStream.ofText text ≠ .token t rest := by
  rcases h with ended | ⟨c, cs, begins, blank⟩
  · simp [TokenStream.ofText_of_nil ended]
  · simp [TokenStream.ofText_of_error begins (readToken_of_isBlank blank cs)]

end Sdl

/-! ## Blank lines -/

/-- The rest of a text is blank: all its lines are, but inside a comment the line that has begun
does not count. -/
def BlankFrom (inComment : Bool) (cs : List Char) : Prop :=
  ∀ line ∈ if inComment then (splitLines cs).tail else splitLines cs, isBlankOrComment line = true

section

variable {c : Char} {cs : List Char} {inComment : Bool}

theorem BlankFrom.enterComment (blank : BlankFrom false cs) : BlankFrom true cs := by
  intro line mem
  exact blank line (List.mem_of_mem_tail mem)

/-- What follows a break is blank, comment or not. -/
theorem BlankFrom.of_break (ends : isLineBreak c = true) (blank : BlankFrom inComment (c :: cs)) :
    BlankFrom false cs := by
  rcases splitLines_of_break ends cs with ⟨lines, split, same⟩
  have later : ∀ line ∈ lines, isBlankOrComment line = true := by
    intro line mem
    apply blank line
    cases inComment with
    | true =>
        simpa [split] using mem
    | false =>
        simpa [split] using .inr mem
  intro line mem
  rcases same with same | same
  · exact later line (by simpa [same] using mem)
  · -- the break has a second character, before which there is nothing
    rcases List.mem_cons.1 (by simpa [same] using mem : line ∈ [] :: lines) with rfl | mem
    · rfl
    · exact later line mem

/-- A comment goes on until a break. -/
theorem BlankFrom.of_comment (goesOn : isLineBreak c = false) (blank : BlankFrom true (c :: cs)) :
    BlankFrom true cs := by
  intro line mem
  apply blank line
  simpa [splitLines_cons goesOn] using mem

/-- The line that begins with a character, outside of comments. -/
theorem BlankFrom.head (goesOn : isLineBreak c = false) (blank : BlankFrom false (c :: cs)) :
    isBlankOrComment (c :: (splitLines cs).headD []) = true := by
  apply blank
  simp [splitLines_cons goesOn]

/-- White space may go at the front of a line. -/
theorem BlankFrom.of_isBlank (goesOn : isLineBreak c = false) (white : isBlank c = true)
    (blank : BlankFrom false (c :: cs)) : BlankFrom false cs := by
  have head := blank.head goesOn
  have tail : BlankFrom true cs := blank.enterComment.of_comment goesOn
  cases lines : splitLines cs with
  | nil =>
      simp [BlankFrom, lines]
  | cons line later =>
      intro other mem
      rcases List.mem_cons.1 (by simpa [lines] using mem : other ∈ line :: later) with rfl | mem
      · simpa [isBlankOrComment, trimStart, white, lines] using head
      · exact tail other (by simpa [lines] using mem)

/-- The first character of a line that is not white space opens a comment. -/
theorem BlankFrom.eq_of_not_isBlank (visible : isBlank c = false)
    (blank : BlankFrom false (c :: cs)) : c = '#' := by
  have goesOn : isLineBreak c = false := by
    cases ends : isLineBreak c with
    | true =>
        cases visible.symm.trans (isBlank_of_isLineBreak ends)
    | false =>
        rfl
  have head := blank.head goesOn
  simpa [isBlankOrComment, trimStart, visible] using head

end

/-- Reading on through blank lines comes to no token. -/
theorem skipFrom_of_blank {cs : List Char} {inComment : Bool} (blank : BlankFrom inComment cs) :
    Untokenized (skipFrom inComment cs) := by
  induction cs generalizing inComment with
  | nil =>
      exact .inl rfl
  | cons c cs ih =>
      cases inComment with
      | true =>
          -- a comment goes on at some of the breaks, and then all lines behind it are blank
          have rest : BlankFrom (!(c == '\n' || c == '\r')) cs := by
            cases ends : isLineBreak c with
            | true =>
                have outside : BlankFrom false cs := blank.of_break ends
                cases !(c == '\n' || c == '\r') with
                | true =>
                    exact outside.enterComment
                | false =>
                    exact outside
            | false =>
                have inside : (c == '\n' || c == '\r') = false := by
                  rw [Bool.or_eq_false_iff, beq_eq_false_iff_ne, beq_eq_false_iff_ne]
                  constructor <;> rintro rfl <;> cases ends
                rw [inside]
                exact blank.of_comment ends
          simpa [skipFrom] using ih rest
      | false =>
          cases white : isBlank c with
          | true =>
              have rest : BlankFrom false cs := by
                cases ends : isLineBreak c with
                | true =>
                    exact blank.of_break ends
                | false =>
                    exact blank.of_isBlank ends white
              have noComment : c ≠ '#' := by
                rintro rfl
                cases white
              cases ignored : isIgnored c with
              | true =>
                  simpa [skipFrom, ignored] using ih rest
              | false =>
                  -- white space of Unicode text that the language does not know
                  have stays : skipFrom false (c :: cs) = c :: cs := by
                    simp [skipFrom, ignored, noComment]
                  exact .inr ⟨c, cs, stays, white⟩
          | false =>
              obtain rfl : c = '#' := blank.eq_of_not_isBlank white
              have rest : BlankFrom true cs := blank.enterComment.of_comment rfl
              simpa [skipFrom, isIgnored] using ih rest

/-- Byte order marks at the front of a text are ignored. -/
theorem skipIgnored_dropWhile (text : List Char) :
    skipIgnored (text.dropWhile (· == byteOrderMark)) = skipIgnored text := by
  induction text with
  | nil =>
      rfl
  | cons c cs ih =>
      by_cases mark : c = byteOrderMark
      · subst mark
        simpa [skipIgnored, skipFrom, isIgnored, byteOrderMark] using ih
      · simp [mark]

/-- A blank document gives no token. -/
theorem untokenized_of_isBlankDocument {text : List Char} (blank : isBlankDocument text = true) :
    Untokenized (skipIgnored text) := by
  have lines : BlankFrom false (text.dropWhile (· == byteOrderMark)) := by
    simpa [isBlankDocument, BlankFrom] using blank
  rw [← skipIgnored_dropWhile]
  exact skipFrom_of_blank lines

/-! ## Documents -/

/-- A definition begins with a token. -/
theorem Sdl.Rule.token_of_definition {s s' : TokenStream} {d : Definition}
    (defined : Rule.definition s = .ok (d, s')) : ∃ t rest, s = .token t rest := by
  cases s with
  | ended =>
      cases defined
  | broken e =>
      cases defined
  | token t rest =>
      exact ⟨t, rest, rfl⟩

/-- A document has a definition, and so its text has a token. -/
theorem Sdl.Document.token_of_parse {text : List Char} {document : Document}
    (parsed : Document.parse text = .ok document) :
    document ≠ [] ∧ ∃ t rest, TokenStream.ofText text = .token t rest := by
  unfold Document.parse at parsed
  cases read : Rule.document (TokenStream.ofText text) with
  | error e =>
      simp [read, Except.map] at parsed
  | ok result =>
      obtain rfl : result.1 = document := by simpa [read, Except.map] using parsed
      obtain ⟨⟨first, s⟩, defined, read⟩ := bind_eq_ok read
      obtain ⟨⟨others, s'⟩, -, read⟩ := bind_eq_ok read
      cases read
      exact ⟨List.cons_ne_nil _ _, Rule.token_of_definition defined⟩

/-- The text of a document is not blank. -/
theorem isBlankDocument_of_parse {text : List Char} {document : Document}
    (parsed : Document.parse text = .ok document) : isBlankDocument text = false := by
  obtain ⟨-, t, rest, tokens⟩ := Document.token_of_parse parsed
  cases blank : isBlankDocument text with
  | true =>
      exact absurd tokens ((untokenized_of_isBlankDocument blank).ofText_ne t rest)
  | false =>
      rfl

/-- No document is passed over as blank: where a text has one, it has a definition, the text is not
blank, and reading the text is collecting that document. -/
theorem Snapshot.ofText_of_parse {text : String} {document : Document}
    (parsed : Document.parse text.toList = .ok document) (source : String) (modified : Int) :
    document ≠ [] ∧ isBlankDocument text.toList = false ∧
      Snapshot.ofText source modified text =
        Snapshot.ofContent source modified
          ((Catalog.collect document).mapError ContentError.document) := by
  have visible := isBlankDocument_of_parse parsed
  refine ⟨(Document.token_of_parse parsed).1, visible, ?_⟩
  simp only [Snapshot.ofText, Catalog.ofText, visible, parsed, Bool.false_eq_true, if_false]
  cases Catalog.collect document with
  | error e =>
      rfl
  | ok catalog =>
      rfl

/-- A comment with a line separator in it hides the type behind it, and one type stands between a
description with a line break of its own and a comment. -/
theorem Snapshot.ofText_of_parse_separators :
    let text := "\ufeff,#\u2028type B\r\"\u0085#\" type A#\x0b"
    ∃ document, Document.parse text.toList = .ok document ∧ document ≠ [] ∧
      isBlankDocument text.toList = false ∧
      Snapshot.ofText "schema.graphql" 0 text =
        Snapshot.ofContent "schema.graphql" 0
          ((Catalog.collect document).mapError ContentError.document) ∧
      ((Snapshot.ofText "schema.graphql" 0 text).toOption.map fun s => s.typeNames) =
        some ["A"] := by
  intro text
  have accepted : (Document.parse text.toList).isOk = true := by decide +kernel
  have names : ((Snapshot.ofText "schema.graphql" 0 text).toOption.map fun s => s.typeNames) =
      some ["A"] := by
    decide +kernel
  cases parsed : Document.parse text.toList with
  | error e =>
      rw [parsed] at accepted
      cases accepted
  | ok document =>
      rcases Snapshot.ofText_of_parse parsed "schema.graphql" 0 with ⟨defined, visible, read⟩
      exact ⟨document, rfl, defined, visible, read, names⟩

end SchemaCompletion
