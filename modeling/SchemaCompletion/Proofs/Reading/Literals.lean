import SchemaCompletion.Proofs.Reading.LineEnds
import SchemaCompletion.Sdl.BlockString
import SchemaCompletion.Sdl.Number
import SchemaCompletion.Sdl.Quotation

/-!
# Literals and line ends

To no number and no string does it make a difference how the lines of the text end.

* `readNumber_unaffected` — numbers, part by part;
* `readEscape_unaffected`, `readString_unaffected` — strings, with every kind of escape sequence;
* `readBlock_unifyLineBreaks`, `blockValue_unifyLineBreaks` — block strings may have line ends in
  them, but their values are the same.
-/

namespace SchemaCompletion.Sdl

open SchemaCompletion.Text

/-! ## Numbers -/

theorem takeDigits_unaffected : Unaffected takeDigits := by
  intro cs
  unfold takeDigits
  rw [takeWhile_unifyLineBreaks (by decide) (by decide),
    dropWhile_unifyLineBreaks (by decide) (by decide)]
  split
  · exact .failure _ _
  · exact .success _ _

theorem takeInteger_zero (rest : List Char) :
    takeInteger ('0' :: rest) =
      if rest.head?.any Char.isDigit then .error (.digitAfterZero (rest.headD '0'))
      else .ok (['0'], rest) := by
  cases rest with
  | nil =>
      rfl
  | cons c rest =>
      simp [takeInteger]

theorem takeInteger_other {cs : List Char} (absent : ∀ rest, cs ≠ '0' :: rest) :
    takeInteger cs = takeDigits cs :=
  takeInteger.eq_3 cs (fun c rest => absent (c :: rest)) (absent [])

theorem takeInteger_unaffected : Unaffected takeInteger := by
  intro cs
  rcases begins_or_not '0' (by decide) cs with ⟨rest, rfl, unified⟩ | ⟨absent, absent'⟩
  · rw [unified, takeInteger_zero, takeInteger_zero, any_head?_unifyLineBreaks (by decide)]
    split
    · exact .failure _ _
    · exact .success _ _
  · rw [takeInteger_other absent, takeInteger_other absent']
    exact takeDigits_unaffected cs

theorem takeSigned_unaffected : Unaffected takeSigned := by
  intro cs
  rcases begins_or_not '-' (by decide) cs with ⟨rest, rfl, unified⟩ | ⟨absent, absent'⟩
  · rw [unified]
    exact (takeInteger_unaffected rest).bind fun digits rest _ => .success ('-' :: digits) rest
  · rw [takeSigned.eq_2 _ absent, takeSigned.eq_2 _ absent']
    exact takeInteger_unaffected cs

theorem takeFraction_unaffected : Unaffected takeFraction := by
  intro cs
  rcases begins_or_not '.' (by decide) cs with ⟨rest, rfl, unified⟩ | ⟨absent, absent'⟩
  · rw [unified]
    exact (takeDigits_unaffected rest).bind fun digits rest _ => .success ('.' :: digits) rest
  · rw [takeFraction.eq_2 _ absent, takeFraction.eq_2 _ absent']
    exact .success [] cs

theorem takeExponentDigits_unaffected : Unaffected takeExponentDigits := by
  intro cs
  rcases begins_or_not '+' (by decide) cs with ⟨rest, rfl, unified⟩ | ⟨plus, plus'⟩
  · rw [unified]
    exact (takeDigits_unaffected rest).bind fun digits rest _ => .success ('+' :: digits) rest
  rcases begins_or_not '-' (by decide) cs with ⟨rest, rfl, unified⟩ | ⟨minus, minus'⟩
  · rw [unified]
    exact (takeDigits_unaffected rest).bind fun digits rest _ => .success ('-' :: digits) rest
  · rw [takeExponentDigits.eq_3 _ plus minus, takeExponentDigits.eq_3 _ plus' minus']
    exact takeDigits_unaffected cs

theorem takeExponent_letter {e : Char} (letter : e = 'e' ∨ e = 'E') (rest : List Char) :
    SameReading (takeExponent (e :: unifyLineBreaks rest)) (takeExponent (e :: rest)) := by
  have begun : (decide (e = 'e') || decide (e = 'E')) = true := by simpa using letter
  simp only [takeExponent, begun, if_true]
  exact (takeExponentDigits_unaffected rest).bind fun digits rest _ => .success (e :: digits) rest

theorem takeExponent_other {cs : List Char} (lower : ∀ rest, cs ≠ 'e' :: rest)
    (upper : ∀ rest, cs ≠ 'E' :: rest) : takeExponent cs = .ok ([], cs) := by
  cases cs with
  | nil =>
      rfl
  | cons c rest =>
      have noLetter : c ≠ 'e' ∧ c ≠ 'E' :=
        ⟨fun same => lower rest (same ▸ rfl), fun same => upper rest (same ▸ rfl)⟩
      simp [takeExponent, noLetter]

theorem takeExponent_unaffected : Unaffected takeExponent := by
  intro cs
  rcases begins_or_not 'e' (by decide) cs with ⟨rest, rfl, unified⟩ | ⟨lower, lower'⟩
  · rw [unified]
    exact takeExponent_letter (.inl rfl) rest
  rcases begins_or_not 'E' (by decide) cs with ⟨rest, rfl, unified⟩ | ⟨upper, upper'⟩
  · rw [unified]
    exact takeExponent_letter (.inr rfl) rest
  · rw [takeExponent_other lower upper, takeExponent_other lower' upper']
    exact .success [] cs

theorem checkNumberEnd_eq (cs : List Char) :
    checkNumberEnd cs =
      if cs.head?.any fun c => c = '.' || isNameStart c then .error (.digitExpected cs.head?)
      else .ok () := by
  cases cs with
  | nil =>
      rfl
  | cons c rest =>
      simp [checkNumberEnd]

theorem readNumber_unaffected : Unaffected readNumber := by
  intro cs
  refine (takeSigned_unaffected cs).bind fun integer cs _ => ?_
  refine (takeFraction_unaffected cs).bind fun fraction cs _ => ?_
  refine (takeExponent_unaffected cs).bind fun exponent cs _ => ?_
  dsimp only
  rw [checkNumberEnd_eq, checkNumberEnd_eq, any_head?_unifyLineBreaks (by decide)]
  split
  · exact .failure _ _
  · simp only [ok_bind]
    split
    · exact .success _ _
    · exact .success _ _

/-! ## Escape sequences -/

/-- A hexadecimal digit is no line end. -/
theorem other_of_hexDigit? {c : Char} (digit : (hexDigit? c).isSome = true) :
    c ≠ '\r' ∧ c ≠ '\n' := by
  constructor <;> rintro rfl <;> cases digit

/-- A number is written in digits. -/
theorem hexDigit?_of_hexValue? {ds : List Char} {n : Nat} (value : hexValue? ds = some n) :
    ∀ d ∈ ds, (hexDigit? d).isSome = true := by
  unfold hexValue? at value
  generalize 0 = start at value
  induction ds generalizing start with
  | nil =>
      simp
  | cons d ds ih =>
      cases digit : hexDigit? d with
      | none =>
          simp [digit] at value
      | some m =>
          intro other mem
          rcases List.mem_cons.1 mem with rfl | mem
          · simp [digit]
          · exact ih (start * 16 + m) (by simpa [digit] using value) other mem

theorem takeHex4_eq_some_iff {cs rest : List Char} {n : Nat} :
    takeHex4 cs = some (n, rest) ↔
      ∃ ds, cs = ds ++ rest ∧ ds.length = 4 ∧ hexValue? ds = some n := by
  constructor
  · intro taken
    unfold takeHex4 at taken
    split at taken
    next a b c d rest' =>
        rcases Option.map_eq_some_iff.1 taken with ⟨m, value, same⟩
        cases same
        exact ⟨[a, b, c, d], rfl, rfl, value⟩
    · cases taken
  · rintro ⟨ds, rfl, four, value⟩
    match ds, four with
    | [a, b, c, d], _ =>
        simp [takeHex4, value]

theorem takeHex4_unifyLineBreaks (cs : List Char) :
    takeHex4 (unifyLineBreaks cs) = (takeHex4 cs).map fun r => (r.1, unifyLineBreaks r.2) := by
  ext ⟨n, rest⟩
  rw [takeHex4_eq_some_iff, Option.map_eq_some_iff]
  -- both ways: digits have no line end among them, so they stand at the front of both texts
  constructor
  · rintro ⟨ds, same, four, value⟩
    have others : ∀ d ∈ ds, d ≠ '\r' ∧ d ≠ '\n' := fun d mem =>
      other_of_hexDigit? (hexDigit?_of_hexValue? value d mem)
    rcases (unifyLineBreaks_eq_append_iff others).1 same with ⟨rest', rfl, rfl⟩
    exact ⟨(n, rest'), takeHex4_eq_some_iff.2 ⟨ds, rfl, four, value⟩, rfl⟩
  · rintro ⟨⟨n', rest'⟩, taken, same⟩
    cases same
    rcases takeHex4_eq_some_iff.1 taken with ⟨ds, rfl, four, value⟩
    have others : ∀ d ∈ ds, d ≠ '\r' ∧ d ≠ '\n' := fun d mem =>
      other_of_hexDigit? (hexDigit?_of_hexValue? value d mem)
    exact ⟨ds, (unifyLineBreaks_eq_append_iff others).2 ⟨rest', rfl, rfl⟩, four, value⟩

theorem readLowSurrogate?_unifyLineBreaks (cs : List Char) :
    readLowSurrogate? (unifyLineBreaks cs) =
      (readLowSurrogate? cs).map fun r => (r.1, unifyLineBreaks r.2) := by
  rcases starts_or_not ['\\', 'u'] (by simp) cs with
    ⟨rest, rfl, unified⟩ | ⟨absent, absent'⟩
  · rw [unified]
    simp [readLowSurrogate?, takeHex4_unifyLineBreaks, Option.filter_map, Function.comp_def]
  · rw [readLowSurrogate?.eq_2 cs absent, readLowSurrogate?.eq_2 _ absent', Option.map_none]

theorem readFixedEscape_unaffected : Unaffected readFixedEscape := by
  intro cs
  unfold readFixedEscape
  rw [takeHex4_unifyLineBreaks]
  rcases takeHex4 cs with _ | ⟨n, rest⟩
  · exact .failure _ _
  · simp only [Option.map_some]
    split
    · exact .success _ _
    · split
      · rw [readLowSurrogate?_unifyLineBreaks]
        rcases readLowSurrogate? rest with _ | ⟨m, rest⟩
        · exact .failure _ _
        · exact .success _ _
      · exact .failure _ _

/-- The digits of an escape in braces stand at its front. -/
theorem exists_bracedDigits (cs : List Char) :
    ∃ ds rest, cs = ds ++ rest ∧ bracedDigits (ds ++ rest) = ds := by
  rcases (List.takeWhile_prefix _).trans (List.take_prefix bracedEscapeLimit cs) with ⟨rest, same⟩
  exact ⟨bracedDigits cs, rest, same.symm, congrArg bracedDigits same⟩

theorem bracedDigits_unifyLineBreaks (cs : List Char) :
    bracedDigits (unifyLineBreaks cs) = bracedDigits cs := by
  unfold bracedDigits
  rw [← List.take_takeWhile, takeWhile_unifyLineBreaks (by decide) (by decide), List.take_takeWhile]

theorem other_of_bracedDigits (cs : List Char) : ∀ d ∈ bracedDigits cs, d ≠ '\r' ∧ d ≠ '\n' :=
  fun d mem => other_of_hexDigit? (List.all_eq_true.1 List.all_takeWhile d mem)

/-- What ends the digits of an escape in braces is what follows them, if they are few. -/
theorem bracedStop?_append {ds rest : List Char} (digits : bracedDigits (ds ++ rest) = ds) :
    bracedStop? (ds ++ rest) = if ds.length < bracedEscapeLimit then rest.head? else none := by
  have next : (ds ++ rest)[ds.length]? = rest.head? := by
    rw [List.getElem?_append_right (Nat.le_refl _), Nat.sub_self, List.head?_eq_getElem?]
  rw [bracedStop?, digits, List.head?_drop, List.getElem?_take, next]

/-- A brace ends the digits with line feeds if it ends them as they stand. -/
theorem bracedStop?_unifyLineBreaks {ds rest : List Char} (digits : bracedDigits (ds ++ rest) = ds)
    (digits' : bracedDigits (ds ++ unifyLineBreaks rest) = ds) :
    bracedStop? (ds ++ unifyLineBreaks rest) = some '}' ↔
      bracedStop? (ds ++ rest) = some '}' := by
  rw [bracedStop?_append digits, bracedStop?_append digits']
  split
  · rcases begins_or_not '}' (by decide) rest with ⟨rest, rfl, unified⟩ | ⟨brace, brace'⟩
    · simp [unified]
    · simp [List.head?_eq_some_iff, brace, brace']
  · simp

/-- An escape in braces is closed. -/
theorem bracedStop?_of_bracedPoint? {cs : List Char} {n : Nat} (found : bracedPoint? cs = some n) :
    bracedStop? cs = some '}' := by
  unfold bracedPoint? at found
  split at found
  next holds =>
      simpa using (Bool.and_eq_true_iff.1 holds).1
  · cases found

theorem readBracedEscape_unaffected : Unaffected readBracedEscape := by
  intro cs
  rcases exists_bracedDigits cs with ⟨ds, rest, rfl, digits⟩
  have others : ∀ d ∈ ds, d ≠ '\r' ∧ d ≠ '\n' := digits ▸ other_of_bracedDigits (ds ++ rest)
  have unified : unifyLineBreaks (ds ++ rest) = ds ++ unifyLineBreaks rest :=
    (unifyLineBreaks_eq_append_iff others).2 ⟨rest, rfl, rfl⟩
  have digits' : bracedDigits (ds ++ unifyLineBreaks rest) = ds := by
    rw [← unified, bracedDigits_unifyLineBreaks, digits]
  -- whether there is an escape is settled by the digits and by what closes them, the same in both
  have stop := bracedStop?_unifyLineBreaks digits digits'
  have point : bracedPoint? (ds ++ unifyLineBreaks rest) = bracedPoint? (ds ++ rest) := by
    simp only [bracedPoint?, digits, digits', stop]
  unfold readBracedEscape
  rw [unified, point, digits, digits']
  cases found : bracedPoint? (ds ++ rest) with
  | none =>
      exact .failure _ _
  | some n =>
      have closed := bracedStop?_of_bracedPoint? found
      rw [bracedStop?_append digits] at closed
      split at closed
      · rcases List.head?_eq_some_iff.1 closed with ⟨rest, rfl⟩
        rw [unifyLineBreaks_cons (by decide)]
        simpa using SameReading.success (Char.ofNat n) rest
      · cases closed

/-- An escape sequence of another letter is one character. -/
theorem readEscape_letter {c : Char} (other : c ≠ 'u') (cs : List Char) :
    readEscape (c :: cs) =
      match simpleEscape? c with
      | some d => .ok (d, cs)
      | none => .error (.badEscape (String.ofList ['\\', c])) :=
  readEscape.eq_3 c cs (fun _ same => absurd same other) fun same => absurd same other

theorem readEscape_unaffected : Unaffected readEscape := by
  intro cs
  rcases starts_or_not ['u', '{'] (by simp) cs with
    ⟨rest, rfl, unified⟩ | ⟨braced, braced'⟩
  · rw [unified]
    exact readBracedEscape_unaffected rest
  rcases begins_or_not 'u' (by decide) cs with ⟨rest, rfl, unified⟩ | ⟨letter, -⟩
  · rw [unified] at braced' ⊢
    rw [readEscape.eq_2 rest fun _ same => braced _ (congrArg _ same),
      readEscape.eq_2 _ fun _ same => braced' _ (congrArg _ same)]
    exact readFixedEscape_unaffected rest
  · cases cs with
    | nil =>
        exact .failure _ _
    | cons c cs =>
        have other : c ≠ 'u' := fun same => letter cs (same ▸ rfl)
        by_cases returns : c = '\r'
        · subst returns
          rcases unifyLineBreaks_return cs with ⟨rest, first⟩
          rw [first]
          exact .failure _ _
        · rw [unifyLineBreaks_cons returns, readEscape_letter other, readEscape_letter other]
          split
          · exact .success _ _
          · exact .failure _ _

/-! ## Strings -/

theorem readString_escape (cs : List Char) :
    readString ('\\' :: cs) =
      readEscape cs >>= fun p => readString p.2 >>= fun q => .ok (p.1 :: q.1, q.2) := by
  rw [readString]
  split
  next e failed =>
      rw [failed, error_bind]
  next c rest read =>
      rw [read, ok_bind]
      cases readString rest with
      | error e =>
          rfl
      | ok q =>
          rfl

theorem readString_character {c : Char} (quote : c ≠ '"') (slash : c ≠ '\\') (cs : List Char) :
    readString (c :: cs) =
      if c = '\n' || c = '\r' then .error .unterminatedString
      else readString cs >>= fun q => .ok (c :: q.1, q.2) := by
  rw [readString.eq_4 c cs (fun same => absurd same quote) fun same => absurd same slash]
  cases readString cs with
  | error e =>
      rfl
  | ok q =>
      rfl

theorem readString_unaffected : Unaffected readString := by
  intro cs
  -- by induction on the length, since an escape sequence takes several characters
  induction length : cs.length using Nat.strongRecOn generalizing cs with
  | ind n ih =>
      subst length
      rcases begins_or_not '"' (by decide) cs with ⟨rest, rfl, unified⟩ | ⟨quote, -⟩
      · rw [unified, readString, readString]
        exact .success [] rest
      rcases begins_or_not '\\' (by decide) cs with ⟨rest, rfl, unified⟩ | ⟨slash, -⟩
      · rw [unified, readString_escape, readString_escape]
        refine (readEscape_unaffected rest).bind fun c rest' read => ?_
        have shorter : rest'.length < rest.length := readEscape_length read
        refine (ih rest'.length (Nat.lt_succ_of_lt shorter) rest' rfl).bind fun value rest _ => ?_
        exact .success (c :: value) rest
      · cases cs with
        | nil =>
            rw [unifyLineBreaks, readString]
            exact .failure _ _
        | cons c cs =>
            have noQuote : c ≠ '"' := fun same => quote cs (same ▸ rfl)
            have noSlash : c ≠ '\\' := fun same => slash cs (same ▸ rfl)
            by_cases returns : c = '\r'
            · subst returns
              rcases unifyLineBreaks_return cs with ⟨rest, first⟩
              rw [first, readString_character (by decide) (by decide),
                readString_character (by decide) (by decide)]
              exact .failure _ _
            · rw [unifyLineBreaks_cons returns, readString_character noQuote noSlash,
                readString_character noQuote noSlash]
              split
              · exact .failure _ _
              · refine (ih cs.length (Nat.lt_succ_self _) cs rfl).bind fun value rest _ => ?_
                exact .success (c :: value) rest

/-! ## Block strings -/

theorem readBlock_escape (cs : List Char) :
    readBlock ('\\' :: '"' :: '"' :: '"' :: cs) =
      (readBlock cs).map fun r => ('"' :: '"' :: '"' :: r.1, r.2) := by
  rw [readBlock]
  cases readBlock cs with
  | error e =>
      rfl
  | ok r =>
      rfl

theorem readBlock_character {c : Char} {cs : List Char}
    (close : ∀ rest, c :: cs ≠ ['"', '"', '"'] ++ rest)
    (escape : ∀ rest, c :: cs ≠ ['\\', '"', '"', '"'] ++ rest) :
    readBlock (c :: cs) = (readBlock cs).map fun r => (c :: r.1, r.2) := by
  rw [readBlock.eq_4 c cs (fun rest first others => close rest (by rw [first, others]; rfl))
    fun rest first others => escape rest (by rw [first, others]; rfl)]
  cases readBlock cs with
  | error e =>
      rfl
  | ok r =>
      rfl

theorem readBlock_lineEnd {c : Char} (ends : c = '\r' ∨ c = '\n') (cs : List Char) :
    readBlock (c :: cs) = (readBlock cs).map fun r => (c :: r.1, r.2) := by
  rcases ends with rfl | rfl
  · exact readBlock_character (by simp) (by simp)
  · exact readBlock_character (by simp) (by simp)

/-- The text of a block string begins with a line feed only where it stands. -/
theorem begins_of_readBlock {cs raw rest : List Char}
    (read : readBlock cs = .ok ('\n' :: raw, rest)) :
    ∃ rest', cs = '\n' :: rest' := by
  unfold readBlock at read
  split at read
  · cases read
  · cases read
  · split at read <;> cases read
  next c cs _ _ =>
      split at read
      · cases read
      · cases read
        exact ⟨cs, rfl⟩

/-- A raw text and what follows it, with line feeds for all line ends in both. -/
def unifyBoth (r : List Char × List Char) : List Char × List Char :=
  (unifyLineBreaks r.1, unifyLineBreaks r.2)

/-- A line end at the front of a block string, one character or two, is a line feed. -/
theorem readBlock_return {cs : List Char}
    (ih : ∀ ds, ds.length ≤ cs.length →
      readBlock (unifyLineBreaks ds) = (readBlock ds).map unifyBoth) :
    readBlock (unifyLineBreaks ('\r' :: cs)) = (readBlock ('\r' :: cs)).map unifyBoth := by
  by_cases pair : ∃ rest, cs = '\n' :: rest
  · rcases pair with ⟨rest, rfl⟩
    rw [unifyLineBreaks, readBlock_lineEnd (.inr rfl), readBlock_lineEnd (.inl rfl),
      readBlock_lineEnd (.inr rfl), ih rest (Nat.le_succ _)]
    cases readBlock rest with
    | error e =>
        rfl
    | ok r =>
        rfl
  · rw [unifyLineBreaks.eq_3 '\r' cs fun rest _ same => pair ⟨rest, same⟩, if_pos rfl,
      readBlock_lineEnd (.inr rfl), readBlock_lineEnd (.inl rfl), ih cs (Nat.le_refl _)]
    cases read : readBlock cs with
    | error e =>
        rfl
    | ok r =>
        -- the raw text does not begin with the line feed that would belong to this line end
        have noPair : ∀ rest, '\r' = '\r' → r.1 = '\n' :: rest → False := by
          intro rest _ same
          have begun : readBlock cs = .ok ('\n' :: rest, r.2) := by rw [read, ← same]
          exact pair (begins_of_readBlock begun)
        simp [Except.map, unifyBoth, unifyLineBreaks.eq_3 '\r' r.1 noPair]

/-- A block string with line feeds is read as its text with line feeds. -/
theorem readBlock_unifyLineBreaks (cs : List Char) :
    readBlock (unifyLineBreaks cs) = (readBlock cs).map unifyBoth := by
  -- by induction on the length, since a line end may be two characters
  induction length : cs.length using Nat.strongRecOn generalizing cs with
  | ind n ih =>
      subst length
      rcases starts_or_not ['"', '"', '"'] (by simp) cs with
        ⟨rest, rfl, unified⟩ | ⟨close, close'⟩
      · rw [unified]
        rfl
      rcases starts_or_not ['\\', '"', '"', '"'] (by simp) cs with
        ⟨rest, rfl, unified⟩ | ⟨escape, escape'⟩
      · rw [unified]
        simp only [List.cons_append, List.nil_append, List.length_cons] at ih ⊢
        rw [readBlock_escape, readBlock_escape, ih rest.length (by omega) rest rfl]
        cases readBlock rest with
        | error e =>
            rfl
        | ok r =>
            simp [Except.map, unifyBoth, unifyLineBreaks_cons]
      · cases cs with
        | nil =>
            rfl
        | cons c cs =>
            by_cases returns : c = '\r'
            · subst returns
              exact readBlock_return fun ds shorter =>
                ih ds.length (Nat.lt_succ_of_le shorter) ds rfl
            · rw [unifyLineBreaks_cons returns] at close' escape' ⊢
              rw [readBlock_character close escape, readBlock_character close' escape',
                ih cs.length (Nat.lt_succ_self _) cs rfl]
              cases readBlock cs with
              | error e =>
                  rfl
              | ok r =>
                  simp [Except.map, unifyBoth, unifyLineBreaks_cons returns]

/-- The value of a block string is made of its lines. -/
theorem blockValue_unifyLineBreaks (raw : List Char) :
    blockValue (unifyLineBreaks raw) = blockValue raw := by
  unfold blockValue
  rw [splitSourceLines_unifyLineBreaks]

end SchemaCompletion.Sdl
