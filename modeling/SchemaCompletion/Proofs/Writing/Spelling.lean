import SchemaCompletion.Proofs.Reading.Literals
import SchemaCompletion.Proofs.Reading.Yields
import SchemaCompletion.Proofs.Declaring.Unambiguous
import SchemaCompletion.Proofs.Writing.Takes

/-!
# What characters spell

Characters that are read as certain tokens, whatever stands behind them.

* `Clear`, `Delimits` — text behind which a token ends;
* `Spells` — characters that are read as tokens in front of every such text;
* `Spells.append`, `Spells.ignored`, `Spells.mark`, `Spells.intercalate` — texts made of texts;
* `IsName.spells` — names;
* `number_of_readNumber`, `spells_of_readNumber` — numbers: what was read as a number once is read
  as the same number again.
-/

namespace SchemaCompletion.Sdl

/-! ## What stands behind -/

/-- The text does not begin with a character of this kind. -/
def Clear (p : Char → Bool) (cs : List Char) : Prop := ∀ c ∈ cs.head?, p c = false

/-- A name, a number or a string ends before such text. -/
def Delimits (cs : List Char) : Prop := Clear (fun c => isNameContinue c || c == '.' || c == '"') cs

section

variable {p q : Char → Bool} {c : Char} {cs ds rest : List Char}

theorem clear_nil : Clear p [] := by
  intro c mem
  cases mem

theorem clear_cons (other : p c = false) : Clear p (c :: cs) := by
  intro d mem
  cases mem
  exact other

theorem Clear.append (clear : Clear p cs) (behind : Clear p ds) : Clear p (cs ++ ds) := by
  cases cs with
  | nil =>
      exact behind
  | cons c cs =>
      exact clear

theorem Clear.mono (clear : Clear p cs) (fewer : ∀ c, p c = false → q c = false) : Clear q cs :=
  fun c mem => fewer c (clear c mem)

theorem Clear.takeWhile (clear : Clear p cs) : cs.takeWhile p = [] := by
  cases cs with
  | nil =>
      rfl
  | cons c cs =>
      simp [clear c rfl]

theorem Clear.dropWhile (clear : Clear p cs) : cs.dropWhile p = cs := by
  cases cs with
  | nil =>
      rfl
  | cons c cs =>
      simp [clear c rfl]

/-- A run ends before text that is clear of its characters. -/
theorem Clear.takeWhile_append (clear : Clear p rest) (run : ∀ c ∈ cs, p c = true) :
    (cs ++ rest).takeWhile p = cs := by
  rw [List.takeWhile_append_of_pos run, clear.takeWhile, List.append_nil]

theorem Clear.dropWhile_append (clear : Clear p rest) (run : ∀ c ∈ cs, p c = true) :
    (cs ++ rest).dropWhile p = rest := by
  rw [List.dropWhile_append_of_pos run, clear.dropWhile]

end

/-! ## Texts made of texts -/

/-- In front of every text that delimits them the characters are read as these tokens. -/
def Spells (cs : List Char) (ts : List Token) : Prop :=
  ∀ rest, Delimits rest →
    TokenStream.ofText (cs ++ rest) = (TokenStream.ofText rest).after ts

section

variable {c : Char} {cs ds rest : List Char} {ts us : List Token} {t : Token}

theorem spells_nil : Spells [] [] := fun _ _ => rfl

/-- A text with nothing behind it has the tokens that it spells. -/
theorem Spells.ofText (spells : Spells cs ts) :
    TokenStream.ofText cs = TokenStream.ended.after ts := by
  have ended : TokenStream.ofText [] = .ended := TokenStream.ofText_of_nil rfl
  rw [← ended, ← spells [] clear_nil, List.append_nil]

theorem Spells.append (first : Spells cs ts) (second : Spells ds us) (delimits : Delimits ds) :
    Spells (cs ++ ds) (ts ++ us) := by
  intro rest behind
  rw [List.append_assoc, first _ (delimits.append behind), second rest behind,
    TokenStream.after_append]

/-- What is ignored at the front of a text spells nothing. -/
theorem ofText_ignored (ignored : isIgnored c = true) (cs : List Char) :
    TokenStream.ofText (c :: cs) = TokenStream.ofText cs := by
  have skipped : skipIgnored (c :: cs) = skipIgnored cs := by simp [skipIgnored, skipFrom, ignored]
  cases found : skipIgnored cs with
  | nil =>
      rw [TokenStream.ofText_of_nil found, TokenStream.ofText_of_nil (skipped.trans found)]
  | cons d rest =>
      cases read : readToken d rest with
      | error e =>
          rw [TokenStream.ofText_of_error found read,
            TokenStream.ofText_of_error (skipped.trans found) read]
      | ok r =>
          rw [TokenStream.ofText_of_token found read,
            TokenStream.ofText_of_token (skipped.trans found) read]

theorem Spells.ignored (spells : Spells cs ts) {white : List Char}
    (ignored : ∀ c ∈ white, isIgnored c = true) : Spells (white ++ cs) ts := by
  intro rest behind
  induction white with
  | nil =>
      exact spells rest behind
  | cons c white ih =>
      rw [List.cons_append, List.cons_append, ofText_ignored (ignored c List.mem_cons_self)]
      exact ih fun d mem => ignored d (List.mem_cons_of_mem c mem)

/-- A token that is read at the front of a text is its first. -/
theorem ignored_space : ∀ c ∈ [' '], isIgnored c = true := List.forall_mem_singleton.2 rfl

theorem ofText_token (visible : isIgnored c = false) (noComment : c ≠ '#')
    (read : readToken c cs = .ok (t, rest)) :
    TokenStream.ofText (c :: cs) = .token t (TokenStream.ofText rest) := by
  refine TokenStream.ofText_of_token ?_ read
  simp [skipIgnored, skipFrom, visible, noComment]

theorem readToken_quote (cs : List Char) : readToken '"' cs = readQuoted cs := rfl

theorem Spells.mark {p : Punctuator} (mark : Punctuator.ofChar? c = some p)
    (spells : Spells cs ts) :
    Spells (c :: cs) (.punctuator p :: ts) := by
  have visible : isIgnored c = false ∧ c ≠ '#' := by
    unfold Punctuator.ofChar? at mark
    split at mark <;> cases mark <;> decide
  intro rest behind
  have read : readToken c (cs ++ rest) = .ok (.punctuator p, cs ++ rest) := by
    simp [readToken, mark]
  rw [List.cons_append, ofText_token visible.1 visible.2 read, spells rest behind,
    TokenStream.after_cons]

/-- Texts with something ignored between each two of them spell what they spell one after the
other. -/
theorem Spells.intercalate {α : Type} {text : α → List Char} {tokens : α → List Token}
    {items : List α} {sep : List Char} (ignored : ∀ c ∈ sep, isIgnored c = true)
    (delimits : Delimits sep)
    (filled : sep ≠ []) (each : ∀ a ∈ items, Spells (text a) (tokens a)) :
    Spells (sep.intercalate (items.map text)) (items.flatMap tokens) := by
  induction items with
  | nil =>
      exact spells_nil
  | cons a items ih =>
      have first : Spells (text a) (tokens a) := each a List.mem_cons_self
      have others := ih fun b mem => each b (List.mem_cons_of_mem a mem)
      cases items with
      | nil =>
          simpa [List.intercalate] using first
      | cons b items =>
          have front : Delimits (sep ++ sep.intercalate ((b :: items).map text)) := by
            cases sep with
            | nil =>
                exact absurd rfl filled
            | cons c sep =>
                exact delimits
          have both := first.append (others.ignored ignored) front
          simpa [List.intercalate] using both

end

/-! ## Names -/

theorem visible_of_isNameContinue {c : Char} (continues : isNameContinue c = true) :
    isIgnored c = false ∧ c ≠ '#' := by
  refine ⟨?_, by rintro rfl; cases continues⟩
  cases ignored : isIgnored c with
  | false =>
      rfl
  | true =>
      simp only [isIgnored, Bool.or_eq_true, beq_iff_eq] at ignored
      rcases ignored with ((((rfl | rfl) | rfl) | rfl) | rfl) | rfl <;> cases continues

theorem ofChar?_of_isNameContinue {c : Char} (continues : isNameContinue c = true) :
    Punctuator.ofChar? c = none := by
  unfold Punctuator.ofChar?
  split <;> first | cases continues | rfl

theorem IsName.spells {text : String} (name : IsName text.toList) :
    Spells text.toList [.name text] := by
  rcases name with ⟨c, others, spelled, start, continues⟩
  intro rest behind
  have visible := visible_of_isNameContinue (isNameContinue_of_isNameStart start)
  have clear : Clear Sdl.isNameContinue rest := behind.mono fun c other => by
    simp only [Bool.or_eq_false_iff] at other
    exact other.1.1
  have read : readToken c (others ++ rest) = .ok (.name text, rest) := by
    rw [readToken, ofChar?_of_isNameContinue (isNameContinue_of_isNameStart start)]
    simp only [start, if_true, takeName, clear.takeWhile_append continues,
      clear.dropWhile_append continues, ← spelled, String.ofList_toList]
  rw [spelled, List.cons_append, ofText_token visible.1 visible.2 read]
  rfl

/-! ## Numbers -/

/-- A piece of a number is on one line, and it is taken again in front of every text that does not
begin with a character of this kind. -/
structure Retaken (take : List Char → Except LexicalError Piece) (stop : Char → Bool)
    (piece : List Char) : Prop where
  line : '\n' ∉ piece
  again : ∀ rest, Clear stop rest → take (piece ++ rest) = .ok (piece, rest)

/-- One digit or more. -/
structure Digits (ds : List Char) : Prop where
  filled : ds ≠ []
  each : ∀ d ∈ ds, d.isDigit = true

section

variable {cs ds rest : List Char} {p : Piece}

theorem Digits.line (digits : Digits ds) : '\n' ∉ ds := by
  intro mem
  cases digits.each '\n' mem

theorem Digits.not_begins (digits : Digits ds) {c : Char} (other : c.isDigit = false) :
    ∀ rest', ds ++ rest ≠ c :: rest' := by
  intro rest' same
  cases ds with
  | nil =>
      exact digits.filled rfl
  | cons d ds =>
      cases same
      exact Bool.false_ne_true (other.symm.trans (digits.each c List.mem_cons_self))

theorem digits_of_takeDigits (taken : takeDigits cs = .ok p) : Digits p.1 ∧ cs = p.1 ++ p.2 := by
  unfold takeDigits at taken
  split at taken
  · cases taken
  next filled =>
      cases taken
      refine ⟨⟨filled, ?_⟩, List.takeWhile_append_dropWhile.symm⟩
      exact List.all_eq_true.1 List.all_takeWhile

theorem Digits.takeDigits (digits : Digits ds) (clear : Clear Char.isDigit rest) :
    takeDigits (ds ++ rest) = .ok (ds, rest) := by
  unfold Sdl.takeDigits
  rw [clear.takeWhile_append digits.each, clear.dropWhile_append digits.each]
  split
  · exact absurd rfl digits.filled
  · rfl

/-- An integer part is made of digits, and is taken again. -/
theorem integer_of_takeInteger (taken : takeInteger cs = .ok p) :
    Digits p.1 ∧ ∀ rest, Clear Char.isDigit rest → takeInteger (p.1 ++ rest) = .ok (p.1, rest) := by
  by_cases zero : ∃ rest, cs = '0' :: rest
  · rcases zero with ⟨rest, rfl⟩
    rw [takeInteger_zero] at taken
    split at taken
    · cases taken
    · cases taken
      refine ⟨⟨by simp, by simp⟩, fun rest clear => ?_⟩
      rw [List.singleton_append, takeInteger_zero, if_neg]
      cases rest with
      | nil =>
          simp
      | cons c rest =>
          simpa using clear c rfl
  · have other : ∀ rest, cs ≠ '0' :: rest := fun rest same => zero ⟨rest, same⟩
    rw [takeInteger_other other] at taken
    rcases digits_of_takeDigits taken with ⟨digits, parts⟩
    refine ⟨digits, fun rest clear => ?_⟩
    rw [takeInteger_other, digits.takeDigits clear]
    -- the digits do not begin with a zero, since the text did not
    intro rest' same
    rcases List.exists_cons_of_ne_nil digits.filled with ⟨d, ds, first⟩
    rw [first] at same parts
    cases same
    exact other _ parts

theorem signed_of_takeSigned (taken : takeSigned cs = .ok p) :
    Retaken takeSigned Char.isDigit p.1 ∧
      ∃ c ds, p.1 = c :: ds ∧ (c.isDigit || decide (c = '-')) = true := by
  by_cases sign : ∃ rest, cs = '-' :: rest
  · rcases sign with ⟨rest, rfl⟩
    rcases bind_eq_ok taken with ⟨q, integer, same⟩
    cases same
    rcases integer_of_takeInteger integer with ⟨digits, again⟩
    refine ⟨⟨?_, fun rest clear => ?_⟩, '-', q.1, rfl, by decide⟩
    · simpa using digits.line
    · rw [List.cons_append, takeSigned, again rest clear]
      rfl
  · rw [takeSigned.eq_2 cs fun rest same => sign ⟨rest, same⟩] at taken
    rcases integer_of_takeInteger taken with ⟨digits, again⟩
    refine ⟨⟨digits.line, fun rest clear => ?_⟩, ?_⟩
    · rw [takeSigned.eq_2 _ (digits.not_begins (by decide)), again rest clear]
    · rcases List.exists_cons_of_ne_nil digits.filled with ⟨d, ds, first⟩
      exact ⟨d, ds, first, by simp [digits.each d (by simp [first])]⟩

theorem fraction_of_takeFraction (taken : takeFraction cs = .ok p) :
    Retaken takeFraction (fun c => c.isDigit || c == '.') p.1 ∧ Clear (fun c => c != '.') p.1 := by
  by_cases point : ∃ rest, cs = '.' :: rest
  · rcases point with ⟨rest, rfl⟩
    rcases bind_eq_ok taken with ⟨q, fraction, same⟩
    cases same
    have digits := (digits_of_takeDigits fraction).1
    refine ⟨⟨by simpa using digits.line, fun rest clear => ?_⟩, clear_cons (by decide)⟩
    have noDigit : Clear Char.isDigit rest :=
      clear.mono fun c other => (Bool.or_eq_false_iff.1 other).1
    rw [List.cons_append, takeFraction, digits.takeDigits noDigit]
    rfl
  · rw [takeFraction.eq_2 cs fun rest same => point ⟨rest, same⟩] at taken
    cases taken
    refine ⟨⟨List.not_mem_nil, fun rest clear => ?_⟩, clear_nil⟩
    refine takeFraction.eq_2 rest ?_
    rintro rest' rfl
    cases clear '.' rfl

/-- The digits of an exponent behind a sign. -/
theorem takeExponentDigits_sign {sign : Char} (plusMinus : sign = '+' ∨ sign = '-')
    (cs : List Char) :
    takeExponentDigits (sign :: cs) = takeDigits cs >>= fun q => .ok (sign :: q.1, q.2) := by
  rcases plusMinus with rfl | rfl <;> rfl

theorem exponentDigits_of_takeExponentDigits (taken : takeExponentDigits cs = .ok p) :
    Retaken takeExponentDigits Char.isDigit p.1 := by
  by_cases signed : ∃ sign rest, cs = sign :: rest ∧ (sign = '+' ∨ sign = '-')
  · rcases signed with ⟨sign, rest, rfl, plusMinus⟩
    rw [takeExponentDigits_sign plusMinus] at taken
    rcases bind_eq_ok taken with ⟨q, exponent, same⟩
    cases same
    have digits := (digits_of_takeDigits exponent).1
    refine ⟨?_, fun rest clear => ?_⟩
    · rcases plusMinus with rfl | rfl
      · simpa using digits.line
      · simpa using digits.line
    · rw [List.cons_append, takeExponentDigits_sign plusMinus, digits.takeDigits clear]
      rfl
  · have plus : ∀ rest, cs ≠ '+' :: rest := fun rest same => signed ⟨_, rest, same, .inl rfl⟩
    have minus : ∀ rest, cs ≠ '-' :: rest := fun rest same => signed ⟨_, rest, same, .inr rfl⟩
    rw [takeExponentDigits.eq_3 cs plus minus] at taken
    have digits := (digits_of_takeDigits taken).1
    refine ⟨digits.line, fun rest clear => ?_⟩
    rw [takeExponentDigits.eq_3 _ (digits.not_begins (by decide)) (digits.not_begins (by decide)),
      digits.takeDigits clear]

theorem takeExponent_begun {e : Char} (letter : e = 'e' ∨ e = 'E') (cs : List Char) :
    takeExponent (e :: cs) = takeExponentDigits cs >>= fun q => .ok (e :: q.1, q.2) := by
  rcases letter with rfl | rfl <;> rfl

theorem exponent_of_takeExponent (taken : takeExponent cs = .ok p) :
    Retaken takeExponent (fun c => c.isDigit || c == 'e' || c == 'E') p.1 ∧
      Clear (fun c => c != 'e' && c != 'E') p.1 := by
  by_cases begun : ∃ e rest, cs = e :: rest ∧ (e = 'e' ∨ e = 'E')
  · rcases begun with ⟨e, rest, rfl, letter⟩
    rw [takeExponent_begun letter] at taken
    rcases bind_eq_ok taken with ⟨q, exponent, same⟩
    cases same
    have digits := exponentDigits_of_takeExponentDigits exponent
    refine ⟨⟨?_, fun rest clear => ?_⟩, ?_⟩
    · rcases letter with rfl | rfl
      · simpa using digits.line
      · simpa using digits.line
    · have noDigit : Clear Char.isDigit rest :=
        clear.mono fun c other => (Bool.or_eq_false_iff.1 (Bool.or_eq_false_iff.1 other).1).1
      rw [List.cons_append, takeExponent_begun letter, digits.again rest noDigit]
      rfl
    · rcases letter with rfl | rfl
      · exact clear_cons (by decide)
      · exact clear_cons (by decide)
  · have lower : ∀ rest, cs ≠ 'e' :: rest := fun rest same => begun ⟨_, rest, same, .inl rfl⟩
    have upper : ∀ rest, cs ≠ 'E' :: rest := fun rest same => begun ⟨_, rest, same, .inr rfl⟩
    rw [takeExponent_other lower upper] at taken
    cases taken
    refine ⟨⟨List.not_mem_nil, fun rest clear => ?_⟩, clear_nil⟩
    refine takeExponent_other ?_ ?_
    · rintro rest' rfl
      cases clear 'e' rfl
    · rintro rest' rfl
      cases clear 'E' rfl

/-- What delimits a number begins with no digit, no letter, no underscore and no point. -/
theorem Delimits.ends_number (delimits : Delimits rest) : ∀ c ∈ rest.head?,
    c.isDigit = false ∧ c ≠ '.' ∧ c ≠ 'e' ∧ c ≠ 'E' ∧ isNameStart c = false := by
  intro c mem
  have other := delimits c mem
  simp only [Bool.or_eq_false_iff, beq_eq_false_iff_ne, isNameContinue, Char.isAlphanum] at other
  rcases other with ⟨⟨⟨⟨letter, digit⟩, underscore⟩, point⟩, -⟩
  refine ⟨digit, point, ?_, ?_, by simp [isNameStart, letter, underscore]⟩
  · rintro rfl
    cases letter
  · rintro rfl
    cases letter

theorem Delimits.checkNumberEnd (delimits : Delimits rest) : checkNumberEnd rest = .ok () := by
  cases rest with
  | nil =>
      rfl
  | cons c rest =>
      rcases delimits.ends_number c rfl with ⟨-, point, -, -, letter⟩
      simp [Sdl.checkNumberEnd, point, letter]

/-- No exponent goes on with what delimits a number. -/
theorem Delimits.clear_exponent (delimits : Delimits rest) :
    Clear (fun c => c.isDigit || c == 'e' || c == 'E') rest := by
  intro c mem
  rcases delimits.ends_number c mem with ⟨digit, -, lower, upper, -⟩
  simp [digit, lower, upper]

/-- No fraction goes on with an exponent, or with what delimits a number. -/
theorem Delimits.clear_fraction (delimits : Delimits rest)
    (letter : Clear (fun c => c != 'e' && c != 'E') cs) :
    Clear (fun c => c.isDigit || c == '.') (cs ++ rest) := by
  refine Clear.append (letter.mono fun c begins => ?_) fun c mem => ?_
  · simp only [Bool.and_eq_false_iff, bne_eq_false_iff_eq] at begins
    rcases begins with rfl | rfl <;> decide
  · rcases delimits.ends_number c mem with ⟨digit, other, -⟩
    simp [digit, other]

/-- No integer goes on with a fraction, or with what does not go on with a fraction. -/
theorem clear_integer (point : Clear (fun c => c != '.') cs)
    (behind : Clear (fun c => c.isDigit || c == '.') rest) :
    Clear Char.isDigit (cs ++ rest) := by
  refine Clear.append (point.mono fun c begins => ?_) (behind.mono fun c other => ?_)
  · rw [bne_eq_false_iff_eq] at begins
    rw [begins]
    decide
  · exact (Bool.or_eq_false_iff.1 other).1

/-- A number that has been read is on one line, begins as numbers begin, and is read again in front
of every text that delimits it. -/
theorem number_of_readNumber {r : Token × List Char} (read : readNumber cs = .ok r) :
    ∃ spelling, (r.1 = .int (String.ofList spelling) ∨ r.1 = .float (String.ofList spelling)) ∧
      '\n' ∉ spelling ∧ (∃ c ds, spelling = c :: ds ∧ (c.isDigit || decide (c = '-')) = true) ∧
      ∀ rest, Delimits rest → readNumber (spelling ++ rest) = .ok (r.1, rest) := by
  rcases bind_eq_ok read with ⟨integer, hinteger, read⟩
  rcases bind_eq_ok read with ⟨fraction, hfraction, read⟩
  rcases bind_eq_ok read with ⟨exponent, hexponent, read⟩
  rcases bind_eq_ok read with ⟨-, -, read⟩
  rcases signed_of_takeSigned hinteger with ⟨signed, first, ds, begun, numeric⟩
  rcases fraction_of_takeFraction hfraction with ⟨pointed, point⟩
  rcases exponent_of_takeExponent hexponent with ⟨raised, letter⟩
  refine ⟨integer.1 ++ fraction.1 ++ exponent.1, ?_, ?_,
    ⟨first, _, by rw [begun]; rfl, numeric⟩, ?_⟩
  · split at read
    · cases read
      exact .inl rfl
    · cases read
      exact .inr rfl
  · simp [signed.line, pointed.line, raised.line]
  · intro rest delimits
    -- every part is taken again, since what is behind it does not go on with it
    have behind := delimits.clear_fraction letter
    rw [readNumber, List.append_assoc, List.append_assoc,
      signed.again _ (clear_integer point behind), ok_bind]
    simp only [pointed.again _ behind, raised.again _ delimits.clear_exponent,
      delimits.checkNumberEnd, ok_bind]
    -- the kind of the number was settled by the same parts
    split at read
    next bare =>
        cases read
        rw [if_pos bare]
        rfl
    next bare =>
        cases read
        rw [if_neg bare]
        rfl

/-- No name begins with a digit. -/
theorem isNameStart_of_isDigit {c : Char} (digit : c.isDigit = true) : isNameStart c = false := by
  simp only [Char.isDigit, Bool.and_eq_true, decide_eq_true_eq, ge_iff_le,
    UInt32.le_iff_toNat_le] at digit
  have high : c.val.toNat ≤ 57 := digit.2
  change ((decide (c.val ≥ 'A'.val ∧ c.val ≤ 'Z'.val) ||
    (decide (c.val ≥ 'a'.val) && decide (c.val ≤ 'z'.val))) || c == '_') = false
  simp only [Bool.or_eq_false_iff, Bool.and_eq_false_iff, decide_eq_false_iff_not, ge_iff_le,
    UInt32.le_iff_toNat_le, beq_eq_false_iff_ne]
  refine ⟨⟨fun upper => ?_, .inl fun lower => ?_⟩, ?_⟩
  · have : 65 ≤ c.val.toNat := upper.1
    omega
  · have : 97 ≤ c.val.toNat := lower
    omega
  · rintro rfl
    exact absurd high (by decide)

theorem visible_of_numeric {c : Char} (numeric : (c.isDigit || decide (c = '-')) = true) :
    isIgnored c = false ∧ c ≠ '#' ∧ Punctuator.ofChar? c = none ∧ isNameStart c = false := by
  rw [Bool.or_eq_true, decide_eq_true_eq] at numeric
  rcases numeric with digit | rfl
  · have continues : Sdl.isNameContinue c = true := by
      simp [Sdl.isNameContinue, Char.isAlphanum, digit]
    have visible := visible_of_isNameContinue continues
    exact ⟨visible.1, visible.2, ofChar?_of_isNameContinue continues, isNameStart_of_isDigit digit⟩
  · decide

/-- A number is read again wherever it stands behind a delimiter. -/
theorem spells_of_readNumber {t : Token} {text : String} (kind : t = .int text ∨ t = .float text)
    (read : readNumber cs = .ok (t, rest)) : '\n' ∉ text.toList ∧ Spells text.toList [t] := by
  rcases number_of_readNumber read with ⟨spelling, same, line, ⟨c, ds, begun, numeric⟩, again⟩
  obtain rfl : String.ofList spelling = text := by
    rcases kind with rfl | rfl <;> rcases same with same | same <;> cases same <;> rfl
  rw [String.toList_ofList]
  refine ⟨line, fun rest delimits => ?_⟩
  rcases visible_of_numeric numeric with ⟨visible, noComment, noMark, noName⟩
  have read : readToken c (ds ++ rest) = .ok (t, rest) := by
    rw [readToken, noMark]
    simp only [noName, numeric, if_true, Bool.false_eq_true, if_false]
    rw [← List.cons_append, ← begun]
    exact again rest delimits
  rw [begun, List.cons_append, ofText_token visible noComment read]
  rfl

end

end SchemaCompletion.Sdl
