import SchemaCompletion.Proofs.Writing.Spelling

/-!
# Printed strings

A string that is printed as a literal is read as the same string.

* `readString_printChar` — one character, as it stands or as an escape sequence;
* `printString_spells` — the whole literal, which is on one line.
-/

namespace SchemaCompletion.Sdl

/-! ## Characters -/

/-- The letter of an escape stands for the character that it was chosen for. -/
theorem simpleEscape?_of_shortEscape? {c d : Char} (short : shortEscape? c = some d) :
    simpleEscape? d = some c ∧ d ≠ 'u' ∧ d ≠ '\n' := by
  unfold shortEscape? at short
  split at short <;> cases short <;> decide

/-- The code point of a control character is written in four digits. -/
theorem upperHex_of_small : ∀ n < 0xA0,
    (upperHex n).toList.length = 4 ∧ hexValue? (upperHex n).toList = some n := by
  decide +kernel

theorem lt_of_isControl {c : Char} (control : isControl c = true) : c.toNat < 0xA0 := by
  simp only [isControl, Bool.or_eq_true, Bool.and_eq_true, decide_eq_true_eq] at control
  omega

/-- A character that a literal shows as it is needs no escape. -/
theorem plain_of_printChar {c : Char} (long : shortEscape? c = none) :
    c ≠ '"' ∧ c ≠ '\\' ∧ c ≠ '\n' ∧ c ≠ '\r' := by
  refine ⟨?_, ?_, ?_, ?_⟩ <;> rintro rfl <;> cases long

/-- Four digits behind the letter are the character of the code point that they write. -/
theorem readEscape_digits {c : Char} {digits : List Char} (four : digits.length = 4)
    (value : hexValue? digits = some c.toNat) (small : c.toNat < 0xA0) (cs : List Char) :
    readEscape ('u' :: (digits ++ cs)) = .ok (c, cs) := by
  have taken : takeHex4 (digits ++ cs) = some (c.toNat, cs) :=
    takeHex4_eq_some_iff.2 ⟨digits, rfl, four, value⟩
  have scalar : isScalarValue c.toNat = true := by
    simp only [isScalarValue, Bool.or_eq_true, decide_eq_true_eq]
    omega
  -- a digit is no brace, so this is no escape in braces
  have unbraced : ∀ cs', digits ++ cs ≠ '{' :: cs' := by
    intro cs' same
    match digits, four with
    | d :: _, _ =>
        cases same
        cases hexDigit?_of_hexValue? value '{' List.mem_cons_self
  rw [readEscape.eq_2 _ unbraced, readFixedEscape, taken]
  simp only [scalar, if_true, Char.ofNat_toNat]

theorem readString_printChar (c : Char) (cs : List Char) :
    readString (printChar c ++ cs) = readString cs >>= fun q => .ok (c :: q.1, q.2) := by
  unfold printChar
  split
  next d short =>
      rcases simpleEscape?_of_shortEscape? short with ⟨simple, letter, -⟩
      have read : readEscape (d :: cs) = .ok (c, cs) := by rw [readEscape_letter letter, simple]
      change readString ('\\' :: (d :: cs)) = _
      rw [readString_escape, read, ok_bind]
  next long =>
      split
      next control =>
          rcases upperHex_of_small c.toNat (lt_of_isControl control) with ⟨four, value⟩
          change readString ('\\' :: ('u' :: ((upperHex c.toNat).toList ++ cs))) = _
          rw [readString_escape, readEscape_digits four value (lt_of_isControl control), ok_bind]
      · rcases plain_of_printChar long with ⟨quote, slash, feed, return_⟩
        change readString (c :: cs) = _
        rw [readString_character quote slash]
        simp [feed, return_]

/-! ## Literals -/

theorem readString_printed (value rest : List Char) :
    readString (value.flatMap printChar ++ '"' :: rest) = .ok (value, rest) := by
  induction value with
  | nil =>
      simp [readString]
  | cons c value ih =>
      rw [List.flatMap_cons, List.append_assoc, readString_printChar, ih, ok_bind]

/-- The first character of a string is not printed as a quotation mark. -/
theorem printChar_head (c : Char) : ∃ d ds, printChar c = d :: ds ∧ d ≠ '"' := by
  unfold printChar
  split
  · exact ⟨_, _, rfl, by decide⟩
  next long =>
      split
      · exact ⟨_, _, rfl, by decide⟩
      · exact ⟨c, [], rfl, (plain_of_printChar long).1⟩

theorem newline_not_mem_printChar (c : Char) : '\n' ∉ printChar c := by
  unfold printChar
  split
  next d short =>
      have letter := (simpleEscape?_of_shortEscape? short).2.2
      simpa using letter.symm
  next long =>
      split
      next control =>
          have value := (upperHex_of_small c.toNat (lt_of_isControl control)).2
          have digits : '\n' ∉ (upperHex c.toNat).toList := fun mem =>
            (other_of_hexDigit? (hexDigit?_of_hexValue? value '\n' mem)).2 rfl
          simpa using digits
      · simpa using (plain_of_printChar long).2.2.1.symm

/-- A string literal is on one line. -/
theorem newline_not_mem_printString (value : String) : '\n' ∉ printString value := by
  simp [printString, newline_not_mem_printChar]

/-- The string literal of a value is read as that value. -/
theorem printString_spells (value : String) : Spells (printString value) [.string value] := by
  intro rest delimits
  have read : readToken '"' (value.toList.flatMap printChar ++ ('"' :: rest)) =
      .ok (.string value, rest) := by
    -- the mark at the front begins no block string
    have single : ∀ rest', value.toList.flatMap printChar ++ ('"' :: rest) ≠
        '"' :: '"' :: rest' := by
      intro rest' same
      cases spelled : value.toList with
      | nil =>
          rw [spelled] at same
          cases same
          exact Bool.false_ne_true (delimits '"' rfl).symm
      | cons c cs =>
          rcases printChar_head c with ⟨d, ds, printed, other⟩
          rw [spelled, List.flatMap_cons, printed] at same
          exact other (List.cons.inj same).1
    rw [readToken_quote, readQuoted.eq_2 _ single, readString_printed, ok_bind]
    simp
  have text : printString value ++ rest =
      '"' :: (value.toList.flatMap printChar ++ ('"' :: rest)) := by
    simp [printString]
  rw [text, ofText_token (by decide) (by decide) read]
  rfl

end SchemaCompletion.Sdl
