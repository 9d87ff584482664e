import SchemaCompletion.Proofs.Reading.Literals
import SchemaCompletion.Proofs.Reading.Yields
import SchemaCompletion.Sdl.TokenStream

/-!
# Tokens and line ends

A text has the same tokens whatever ends its lines, and they are all well formed.

* `readToken_unaffected`, `readToken_wellFormed` — one token;
* `skipFrom_unifyLineBreaks` — what is between the tokens;
* `ofText_alike` — all tokens of a text.
-/

namespace SchemaCompletion.Sdl

open SchemaCompletion.Text

/-! ## Tokens -/

theorem readQuoted_unaffected : Unaffected readQuoted := by
  intro cs
  rcases starts_or_not ['"', '"'] (by simp) cs with ⟨rest, rfl, unified⟩ | ⟨block, block'⟩
  · rw [unified]
    simp only [List.cons_append, List.nil_append]
    rw [readQuoted, readQuoted, readBlock_unifyLineBreaks]
    cases readBlock rest with
    | error e =>
        exact .failure _ _
    | ok r =>
        simp only [Except.map, unifyBoth, ok_bind, pure_eq_ok, blockValue_unifyLineBreaks]
        exact .success _ r.2
  · rw [readQuoted.eq_2 cs block, readQuoted.eq_2 _ block']
    exact (readString_unaffected cs).bind fun value rest _ => .success _ rest

theorem readDots_unaffected : Unaffected readDots := by
  intro cs
  rcases starts_or_not ['.', '.'] (by simp) cs with ⟨rest, rfl, unified⟩ | ⟨two, two'⟩
  · rw [unified]
    exact .success _ rest
  rcases begins_or_not '.' (by decide) cs with ⟨rest, rfl, unified⟩ | ⟨one, one'⟩
  · rw [unified] at two' ⊢
    rw [readDots.eq_2 rest fun _ same => two _ (congrArg _ same),
      readDots.eq_2 _ fun _ same => two' _ (congrArg _ same)]
    exact .failure _ _
  · rw [readDots.eq_3 cs two one, readDots.eq_3 _ two' one',
      takeWhile_unifyLineBreaks (by decide) (by decide)]
    split
    · exact .failure _ _
    · exact .failure _ _

/-- What begins with a character is read the same, whatever line ends follow. -/
theorem readToken_unaffected (c : Char) : Unaffected (readToken c) := by
  intro cs
  unfold readToken
  split
  · exact .success _ cs
  · split
    · simp only [takeName, takeWhile_unifyLineBreaks (p := isNameContinue) (by decide) (by decide),
        dropWhile_unifyLineBreaks (p := isNameContinue) (by decide) (by decide)]
      exact .success _ _
    · split
      next numeric =>
          -- a number is read from its first character on
          have other : c ≠ '\r' := by
            rintro rfl
            cases numeric
          rw [← unifyLineBreaks_cons other]
          exact readNumber_unaffected (c :: cs)
      · split
        · exact readQuoted_unaffected cs
        · split
          · exact readDots_unaffected cs
          · split
            · exact .failure _ _
            · exact .failure _ _

theorem readNumber_wellFormed {cs : List Char} {r : Token × List Char}
    (read : readNumber cs = .ok r) : r.1.WellFormed := by
  rcases bind_eq_ok read with ⟨integer, -, parts⟩
  rcases bind_eq_ok parts with ⟨fraction, -, parts⟩
  rcases bind_eq_ok parts with ⟨exponent, -, parts⟩
  rcases bind_eq_ok parts with ⟨-, -, parts⟩
  split at parts
  · cases parts
    exact ⟨cs, _, read⟩
  · cases parts
    exact ⟨cs, _, read⟩

theorem readQuoted_wellFormed {cs : List Char} {r : Token × List Char}
    (read : readQuoted cs = .ok r) : r.1.WellFormed := by
  unfold readQuoted at read
  split at read
  · rcases bind_eq_ok read with ⟨raw, -, read⟩
    cases read
    exact ⟨raw.1, String.toList_ofList⟩
  · rcases bind_eq_ok read with ⟨value, -, read⟩
    cases read
    trivial

theorem readDots_wellFormed {cs : List Char} {r : Token × List Char}
    (read : readDots cs = .ok r) : r.1.WellFormed := by
  unfold readDots at read
  split at read
  · cases read
    trivial
  · cases read
  · split at read
    · cases read
    · cases read

/-- Every token that is read is well formed. -/
theorem readToken_wellFormed {c : Char} {cs : List Char} {r : Token × List Char}
    (read : readToken c cs = .ok r) : r.1.WellFormed := by
  unfold readToken at read
  split at read
  · cases read
    trivial
  · split at read
    next start =>
        cases read
        have continues : ∀ d ∈ cs.takeWhile isNameContinue, isNameContinue d = true :=
          List.all_eq_true.1 List.all_takeWhile
        change IsName (String.ofList _).toList
        rw [String.toList_ofList]
        exact ⟨c, _, rfl, start, continues⟩
    · split at read
      · exact readNumber_wellFormed read
      · split at read
        · exact readQuoted_wellFormed read
        · split at read
          · exact readDots_wellFormed read
          · split at read
            · cases read
            · cases read

/-! ## Between the tokens -/

/-- What is between tokens may have other line ends. -/
theorem skipFrom_unifyLineBreaks (inComment : Bool) (cs : List Char) :
    skipFrom inComment (unifyLineBreaks cs) = unifyLineBreaks (skipFrom inComment cs) := by
  fun_induction unifyLineBreaks cs generalizing inComment with
  | case1 =>
      rfl
  | case2 cs ih =>
      cases inComment with
      | true =>
          simp [skipFrom, isIgnored, ih]
      | false =>
          simp [skipFrom, isIgnored, ih]
  | case3 c cs pair ih =>
      by_cases returns : c = '\r'
      · subst returns
        cases inComment with
        | true =>
            simp [skipFrom, ih]
        | false =>
            simp [skipFrom, isIgnored, ih]
      · cases inComment with
        | true =>
            simp [skipFrom, returns, ih]
        | false =>
            simp only [skipFrom, returns, if_false, ih]
            split
            · rfl
            · split
              · rfl
              · split
                · rfl
                · exact (unifyLineBreaks_cons returns cs).symm

/-- The first token does not begin with a line end. -/
theorem skipFrom_other {inComment : Bool} {c : Char} {cs rest : List Char}
    (begins : skipFrom inComment cs = c :: rest) : c ≠ '\r' := by
  rintro rfl
  induction cs generalizing inComment with
  | nil =>
      cases begins
  | cons c cs ih =>
      unfold skipFrom at begins
      split at begins
      · exact ih begins
      · split at begins
        · exact ih begins
        next visible =>
            split at begins
            · exact ih begins
            · cases begins
              exact visible rfl

/-- A text with line feeds for all line ends has the tokens that it has as it stands. -/
theorem ofText_alike (cs : List Char) :
    (TokenStream.ofText (unifyLineBreaks cs)).Alike (TokenStream.ofText cs) := by
  -- by induction on the length, since a token takes at least the character that it begins with
  induction length : cs.length using Nat.strongRecOn generalizing cs with
  | ind n ih =>
      subst length
      cases skipped : skipIgnored cs with
      | nil =>
          have skipped' : skipIgnored (unifyLineBreaks cs) = [] := by
            rw [skipIgnored, skipFrom_unifyLineBreaks, ← skipIgnored, skipped, unifyLineBreaks]
          rw [TokenStream.ofText_of_nil skipped, TokenStream.ofText_of_nil skipped']
          exact .ended
      | cons c rest =>
          have other : c ≠ '\r' := skipFrom_other skipped
          have skipped' : skipIgnored (unifyLineBreaks cs) = c :: unifyLineBreaks rest := by
            rw [skipIgnored, skipFrom_unifyLineBreaks, ← skipIgnored, skipped,
              unifyLineBreaks_cons other]
          have same := readToken_unaffected c rest
          generalize read : readToken c rest = result,
            read' : readToken c (unifyLineBreaks rest) = result' at same
          cases same with
          | failure e e' =>
              rw [TokenStream.ofText_of_error skipped read,
                TokenStream.ofText_of_error skipped' read']
              exact .broken e e'
          | success t rest' =>
              have shorter : rest'.length < cs.length := by
                have hskip := skipFrom_length false cs
                have htoken := readToken_length read
                rw [← skipIgnored, skipped] at hskip
                simp only [List.length_cons] at hskip htoken
                omega
              rw [TokenStream.ofText_of_token skipped read,
                TokenStream.ofText_of_token skipped' read']
              exact .token (readToken_wellFormed read) (ih rest'.length shorter rest' rfl)

end SchemaCompletion.Sdl
