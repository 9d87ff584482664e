import Mathlib.Data.List.Forall2
import SchemaCompletion.Text.Utf8

/-!
# Decoding and encoding

The decoder of bytes against the encoding of characters in the core library.

* `Fills` — bytes that may stand after a lead byte;
* `spell_one`, `spell_two`, `spell_three`, `spell_four` — the code point that one to four bytes give
  is that of the character they encode;
* `spell_of_fills`, `fills_encodeChar` — the bytes that are taken for a character are those that
  encode one;
* `decode_eq_ok_iff` — decoding is the inverse of encoding;
* `decode_of_toUTF8`, `decode_eq_error_iff` — the bytes of a text give the text, and all others are
  refused.
-/

namespace SchemaCompletion.Text.Utf8

/-! ## The bytes after a lead byte -/

/-- A code point with the bits of one more byte. -/
def addBits (point : Nat) (b : UInt8) : Nat := point * 0x40 + b.toNat % 0x40

/-- The code point that a lead byte and the bytes after it give. -/
def pointOf (lead : UInt8) (bs : List UInt8) : Nat :=
  bs.foldl addBits (leadBits lead.toNat bs.length)

section

variable (b b₁ b₂ b₃ : UInt8)

theorem pointOf_one : pointOf b [] = b.toNat := rfl

theorem pointOf_two : pointOf b [b₁] = b.toNat % 0x20 * 0x40 + b₁.toNat % 0x40 := rfl

theorem pointOf_three :
    pointOf b [b₁, b₂] = (b.toNat % 0x10 * 0x40 + b₁.toNat % 0x40) * 0x40 + b₂.toNat % 0x40 := rfl

theorem pointOf_four :
    pointOf b [b₁, b₂, b₃] =
      ((b.toNat % 0x08 * 0x40 + b₁.toNat % 0x40) * 0x40 + b₂.toNat % 0x40) * 0x40 +
        b₃.toNat % 0x40 := rfl

end

/-- Each byte lies in its range. -/
abbrev Fills (ranges : List ByteRange) (bs : List UInt8) : Prop :=
  List.Forall₂ (fun r b => ByteRange.contains r b = true) ranges bs

theorem contains_iff {r : ByteRange} {b : UInt8} :
    r.contains b = true ↔ r.first ≤ b.toNat ∧ b.toNat ≤ r.last := by
  simp [ByteRange.contains]

theorem readFollowers_append {ranges : List ByteRange} {bs : List UInt8} (fills : Fills ranges bs)
    (point taken : Nat) (rest : List UInt8) :
    readFollowers point taken ranges (bs ++ rest) = .ok (bs.foldl addBits point, rest) := by
  induction fills generalizing point taken with
  | nil =>
      rfl
  | cons contained _ ih =>
      simp only [List.cons_append, readFollowers, contained, if_true, ih, List.foldl_cons]
      rfl

theorem fills_of_readFollowers {point taken : Nat} {ranges : List ByteRange} {bytes : List UInt8}
    {p : Nat} {rest : List UInt8} (read : readFollowers point taken ranges bytes = .ok (p, rest)) :
    ∃ bs, bytes = bs ++ rest ∧ Fills ranges bs ∧ p = bs.foldl addBits point := by
  induction ranges generalizing point taken bytes with
  | nil =>
      cases read
      exact ⟨[], rfl, .nil, rfl⟩
  | cons r ranges ih =>
      cases bytes with
      | nil =>
          cases read
      | cons b bytes =>
          rw [readFollowers] at read
          split at read
          next contained =>
              rcases ih read with ⟨bs, rfl, fills, rfl⟩
              exact ⟨b :: bs, rfl, .cons contained fills, rfl⟩
          next =>
              cases read

/-! ## Lead bytes -/

section

variable {n : Nat}

theorem followers_one (h : n < 0x80) : followers n = some [] := by
  simp (disch := omega) only [followers, if_pos]

theorem followers_two (h : 0xC2 ≤ n ∧ n < 0xE0) : followers n = some [continuation] := by
  simp (disch := omega) only [followers, if_pos, if_neg]

/-- Of three bytes, the second may not make the character one of two bytes, or a surrogate. -/
theorem followers_three (h : 0xE0 ≤ n ∧ n < 0xF0) :
    ∃ second, followers n = some [second, continuation] ∧ ∀ b : UInt8, second.contains b = true ↔
      (0x80 ≤ b.toNat ∧ b.toNat ≤ 0xBF) ∧ (n = 0xE0 → 0xA0 ≤ b.toNat) ∧
        (n = 0xED → b.toNat ≤ 0x9F) := by
  simp (disch := omega) only [followers, if_pos, if_neg]
  split_ifs with short surrogate
  all_goals
    refine ⟨_, rfl, fun b => ?_⟩
    simp only [contains_iff, continuation]
    omega

/-- Of four bytes, the second may not make the character one of three bytes, or take it past the
last plane. -/
theorem followers_four (h : 0xF0 ≤ n ∧ n < 0xF5) :
    ∃ second, followers n = some [second, continuation, continuation] ∧
      ∀ b : UInt8, second.contains b = true ↔
        (0x80 ≤ b.toNat ∧ b.toNat ≤ 0xBF) ∧ (n = 0xF0 → 0x90 ≤ b.toNat) ∧
          (n = 0xF4 → b.toNat ≤ 0x8F) := by
  have last : ¬n < 0xF4 → n = 0xF4 := by omega
  simp (disch := omega) only [followers, if_neg]
  split_ifs with short full past
  · refine ⟨_, rfl, fun b => ?_⟩
    simp only [contains_iff]
    omega
  · refine ⟨_, rfl, fun b => ?_⟩
    simp only [contains_iff, continuation]
    omega
  · refine ⟨_, rfl, fun b => ?_⟩
    simp only [contains_iff]
    omega
  · exact absurd (last full) past

theorem followers_none (h : (0x80 ≤ n ∧ n < 0xC2) ∨ 0xF5 ≤ n) : followers n = none := by
  rcases h with early | late
  · simp (disch := omega) only [followers, if_pos, if_neg]
  · simp (disch := omega) only [followers, if_neg]

end

/-! ## Encoding a code point -/

theorem encodeChar_ofNat {n : Nat} (valid : n.isValidChar) :
    String.utf8EncodeChar (Char.ofNat n) =
      if n ≤ 0x7F then [.ofNat n]
      else if n ≤ 0x7FF then [.ofNat (n / 64 % 0x20 + 0xC0), .ofNat (n % 0x40 + 0x80)]
      else if n ≤ 0xFFFF then
        [.ofNat (n / 4096 % 0x10 + 0xE0), .ofNat (n / 64 % 0x40 + 0x80), .ofNat (n % 0x40 + 0x80)]
      else
        [.ofNat (n / 262144 % 0x08 + 0xF0), .ofNat (n / 4096 % 0x40 + 0x80),
          .ofNat (n / 64 % 0x40 + 0x80), .ofNat (n % 0x40 + 0x80)] := by
  have val : (Char.ofNat n).val.toNat = n := by
    rw [Char.ofNat, dif_pos valid]
    rfl
  simp only [String.utf8EncodeChar, val]

/-- The bytes are what encodes the character of their code point. -/
def Spell (lead : UInt8) (bs : List UInt8) : Prop :=
  (pointOf lead bs).isValidChar ∧
    String.utf8EncodeChar (Char.ofNat (pointOf lead bs)) = lead :: bs

section

variable {b b₁ b₂ b₃ : UInt8}

theorem spell_one (lead : b.toNat < 0x80) : Spell b [] := by
  have point := pointOf_one b
  have valid : (pointOf b []).isValidChar := by omega
  refine ⟨valid, ?_⟩
  rw [encodeChar_ofNat valid, if_pos (by omega)]
  simp only [List.cons.injEq, ← UInt8.toNat_inj, UInt8.toNat_ofNat', and_true]
  omega

theorem spell_two (lead : 0xC2 ≤ b.toNat ∧ b.toNat < 0xE0)
    (h₁ : 0x80 ≤ b₁.toNat ∧ b₁.toNat ≤ 0xBF) : Spell b [b₁] := by
  have point := pointOf_two b b₁
  have valid : (pointOf b [b₁]).isValidChar := by omega
  refine ⟨valid, ?_⟩
  rw [encodeChar_ofNat valid, if_neg (by omega), if_pos (by omega)]
  simp only [List.cons.injEq, ← UInt8.toNat_inj, UInt8.toNat_ofNat', and_true]
  omega

theorem spell_three (lead : 0xE0 ≤ b.toNat ∧ b.toNat < 0xF0)
    (h₁ : (0x80 ≤ b₁.toNat ∧ b₁.toNat ≤ 0xBF) ∧ (b.toNat = 0xE0 → 0xA0 ≤ b₁.toNat) ∧
      (b.toNat = 0xED → b₁.toNat ≤ 0x9F))
    (h₂ : 0x80 ≤ b₂.toNat ∧ b₂.toNat ≤ 0xBF) : Spell b [b₁, b₂] := by
  have point := pointOf_three b b₁ b₂
  have valid : (pointOf b [b₁, b₂]).isValidChar := by omega
  refine ⟨valid, ?_⟩
  rw [encodeChar_ofNat valid, if_neg (by omega), if_neg (by omega), if_pos (by omega)]
  simp only [List.cons.injEq, ← UInt8.toNat_inj, UInt8.toNat_ofNat', and_true]
  omega

theorem spell_four (lead : 0xF0 ≤ b.toNat ∧ b.toNat < 0xF5)
    (h₁ : (0x80 ≤ b₁.toNat ∧ b₁.toNat ≤ 0xBF) ∧ (b.toNat = 0xF0 → 0x90 ≤ b₁.toNat) ∧
      (b.toNat = 0xF4 → b₁.toNat ≤ 0x8F))
    (h₂ : 0x80 ≤ b₂.toNat ∧ b₂.toNat ≤ 0xBF) (h₃ : 0x80 ≤ b₃.toNat ∧ b₃.toNat ≤ 0xBF) :
    Spell b [b₁, b₂, b₃] := by
  have point := pointOf_four b b₁ b₂ b₃
  have valid : (pointOf b [b₁, b₂, b₃]).isValidChar := by omega
  refine ⟨valid, ?_⟩
  rw [encodeChar_ofNat valid, if_neg (by omega), if_neg (by omega), if_neg (by omega)]
  simp only [List.cons.injEq, ← UInt8.toNat_inj, UInt8.toNat_ofNat', and_true]
  omega

end

/-- A lead byte and bytes that may follow it encode a character. -/
theorem spell_of_fills {b : UInt8} {ranges : List ByteRange} {bs : List UInt8}
    (leads : followers b.toNat = some ranges) (fills : Fills ranges bs) : Spell b bs := by
  have regions : b.toNat < 0x80 ∨ (0xC2 ≤ b.toNat ∧ b.toNat < 0xE0) ∨
      (0xE0 ≤ b.toNat ∧ b.toNat < 0xF0) ∨ (0xF0 ≤ b.toNat ∧ b.toNat < 0xF5) ∨
      ((0x80 ≤ b.toNat ∧ b.toNat < 0xC2) ∨ 0xF5 ≤ b.toNat) := by omega
  rcases regions with one | two | three | four | none
  · cases leads.symm.trans (followers_one one)
    cases fills
    exact spell_one one
  · cases leads.symm.trans (followers_two two)
    rcases fills with _ | ⟨h₁, ⟨⟩⟩
    exact spell_two two (contains_iff.1 h₁)
  · rcases followers_three three with ⟨second, ranges, inSecond⟩
    cases leads.symm.trans ranges
    rcases fills with _ | ⟨h₁, _ | ⟨h₂, ⟨⟩⟩⟩
    exact spell_three three ((inSecond _).1 h₁) (contains_iff.1 h₂)
  · rcases followers_four four with ⟨second, ranges, inSecond⟩
    cases leads.symm.trans ranges
    rcases fills with _ | ⟨h₁, _ | ⟨h₂, _ | ⟨h₃, ⟨⟩⟩⟩⟩
    exact spell_four four ((inSecond _).1 h₁) (contains_iff.1 h₂) (contains_iff.1 h₃)
  · cases leads.symm.trans (followers_none none)

/-- A byte holds a number that is small enough. -/
theorem toNat_ofNat_of_lt {n : Nat} (h : n < 0x100) : (UInt8.ofNat n).toNat = n := by
  rw [UInt8.toNat_ofNat']
  omega

/-- Every character is encoded by a lead byte and bytes that may follow it. -/
theorem fills_encodeChar (c : Char) :
    ∃ b ranges bs, String.utf8EncodeChar c = b :: bs ∧ followers b.toNat = some ranges ∧
      Fills ranges bs ∧ pointOf b bs = c.toNat := by
  have valid : c.toNat.isValidChar := c.valid
  have encoded := encodeChar_ofNat valid
  rw [Char.ofNat_toNat] at encoded
  generalize c.toNat = n at valid encoded ⊢
  rw [encoded]
  split_ifs with one two three
  · have lead := toNat_ofNat_of_lt (n := n) (by omega)
    exact ⟨_, _, _, rfl, followers_one (by omega), .nil, by rw [pointOf_one]; omega⟩
  · have lead := toNat_ofNat_of_lt (n := n / 64 % 0x20 + 0xC0) (by omega)
    have second := toNat_ofNat_of_lt (n := n % 0x40 + 0x80) (by omega)
    refine ⟨_, _, _, rfl, followers_two (by omega), .cons (contains_iff.2 ?_) .nil, ?_⟩
    · simp only [continuation]
      omega
    · rw [pointOf_two]
      omega
  · have lead := toNat_ofNat_of_lt (n := n / 4096 % 0x10 + 0xE0) (by omega)
    have second := toNat_ofNat_of_lt (n := n / 64 % 0x40 + 0x80) (by omega)
    have third := toNat_ofNat_of_lt (n := n % 0x40 + 0x80) (by omega)
    rcases followers_three (n := n / 4096 % 0x10 + 0xE0) (by omega) with ⟨range, leads, inRange⟩
    refine ⟨_, _, _, rfl, lead ▸ leads,
      .cons ((inRange _).2 ?_) (.cons (contains_iff.2 ?_) .nil), ?_⟩
    · omega
    · simp only [continuation]
      omega
    · rw [pointOf_three]
      omega
  · have lead := toNat_ofNat_of_lt (n := n / 262144 % 0x08 + 0xF0) (by omega)
    have second := toNat_ofNat_of_lt (n := n / 4096 % 0x40 + 0x80) (by omega)
    have third := toNat_ofNat_of_lt (n := n / 64 % 0x40 + 0x80) (by omega)
    have fourth := toNat_ofNat_of_lt (n := n % 0x40 + 0x80) (by omega)
    rcases followers_four (n := n / 262144 % 0x08 + 0xF0) (by omega) with ⟨range, leads, inRange⟩
    refine ⟨_, _, _, rfl, lead ▸ leads,
      .cons ((inRange _).2 ?_) (.cons (contains_iff.2 ?_) (.cons (contains_iff.2 ?_) .nil)), ?_⟩
    · omega
    · simp only [continuation]
      omega
    · simp only [continuation]
      omega
    · rw [pointOf_four]
      omega

/-! ## Decoding -/

/-- Bytes that encode a character are decoded into it, whatever follows them. -/
theorem decodeFrom_encodeChar (position : Nat) (c : Char) (rest : List UInt8) {cs : List Char}
    (h : ∀ position, decodeFrom position rest = .ok cs) :
    decodeFrom position (String.utf8EncodeChar c ++ rest) = .ok (c :: cs) := by
  rcases fills_encodeChar c with ⟨b, ranges, bs, encoded, leads, fills, point⟩
  have read := readFollowers_append fills (leadBits b.toNat ranges.length) 1 rest
  rw [fills.length_eq] at read
  rw [encoded, List.cons_append, decodeFrom]
  split
  next unled =>
      cases leads.symm.trans unled
  next found =>
      cases leads.symm.trans found
      split
      next failed =>
          rw [fills.length_eq] at failed
          cases read.symm.trans failed
      next found =>
          rw [fills.length_eq] at found
          cases read.symm.trans found
          rw [h, ← pointOf, point, Char.ofNat_toNat]

theorem decodeFrom_flatMap (position : Nat) (cs : List Char) :
    decodeFrom position (cs.flatMap String.utf8EncodeChar) = .ok cs := by
  induction cs generalizing position with
  | nil =>
      rw [List.flatMap_nil, decodeFrom]
  | cons c cs ih =>
      rw [List.flatMap_cons]
      exact decodeFrom_encodeChar position c _ ih

/-- Bytes that are decoded are those that encode what comes out. -/
theorem flatMap_of_decodeFrom {position : Nat} {bytes : List UInt8} {cs : List Char}
    (decoded : decodeFrom position bytes = .ok cs) : bytes = cs.flatMap String.utf8EncodeChar := by
  fun_induction decodeFrom position bytes generalizing cs with
  | case1 =>
      cases decoded
      rfl
  | case5 position b bytes ranges leads point rest read cs' rest_decoded ih =>
      cases decoded
      rcases fills_of_readFollowers read with ⟨bs, rfl, fills, rfl⟩
      rw [List.flatMap_cons, ← ih rest_decoded, fills.length_eq]
      exact congrArg (· ++ rest) (spell_of_fills leads fills).2.symm
  | _ =>
      cases decoded

/-- Decoding is the inverse of encoding. -/
theorem decode_eq_ok_iff {bytes : List UInt8} {cs : List Char} :
    decode bytes = .ok cs ↔ bytes = cs.flatMap String.utf8EncodeChar := by
  constructor
  · exact flatMap_of_decodeFrom
  · rintro rfl
    exact decodeFrom_flatMap 0 cs

/-! ## Texts and their bytes -/

theorem toByteArray_injective {bytes bytes' : List UInt8}
    (same : bytes.toByteArray = bytes'.toByteArray) : bytes = bytes' := by
  have data := congrArg (fun array => array.data.toList) same
  simpa using data

/-- The bytes of a text are decoded into the text. -/
theorem decode_of_toUTF8 {bytes : List UInt8} {text : String}
    (encoded : text.toUTF8 = bytes.toByteArray) : decode bytes = .ok text.toList := by
  have bytesOf : text.toUTF8 = (text.toList.flatMap String.utf8EncodeChar).toByteArray := by
    conv_lhs => rw [← String.ofList_toList (s := text)]
    rfl
  rw [decode_eq_ok_iff]
  exact toByteArray_injective (encoded.symm.trans bytesOf)

/-- Bytes are refused if they are not those of a text, and only then. -/
theorem decode_eq_error_iff {bytes : List UInt8} :
    (∃ fault, decode bytes = .error fault) ↔ ¬bytes.toByteArray.IsValidUTF8 := by
  cases decoded : decode bytes with
  | ok cs =>
      have valid : bytes.toByteArray.IsValidUTF8 :=
        ⟨cs, congrArg List.toByteArray (decode_eq_ok_iff.1 decoded)⟩
      simp [valid]
  | error fault =>
      have invalid : ¬bytes.toByteArray.IsValidUTF8 := by
        rintro ⟨cs, same⟩
        have decodable := decode_eq_ok_iff.2 (toByteArray_injective same)
        cases decoded.symm.trans decodable
      simp [invalid]

end SchemaCompletion.Text.Utf8
