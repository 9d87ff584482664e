/-!
# UTF-8

Decoding of bytes, with the place and the cause of the first fault.

* `followers` — where the bytes after a lead byte have to lie;
* `decode` — the characters of a byte sequence, or the first ill-formed sequence in it;
* `Fault.message` — the wording of a fault.
-/

namespace SchemaCompletion.Text.Utf8

/-! ## Well-formed sequences -/

/-- An inclusive range of byte values. -/
structure ByteRange where
  first : Nat
  last : Nat
  deriving DecidableEq, Repr

def ByteRange.contains (r : ByteRange) (b : UInt8) : Bool := r.first ≤ b.toNat && b.toNat ≤ r.last

/-- The range of an ordinary continuation byte. -/
def continuation : ByteRange := ⟨0x80, 0xBF⟩

/-- The ranges of the bytes that follow a lead byte; `none` for a byte that leads nothing. -/
def followers (lead : Nat) : Option (List ByteRange) :=
  if lead < 0x80 then some []
  -- below, continuation bytes and the two that could only spell a character of one byte
  else if lead < 0xC2 then none
  else if lead < 0xE0 then some [continuation]
  -- narrower ranges keep out longer spellings than needed, surrogates,
  -- and what is past the last plane
  else if lead = 0xE0 then some [⟨0xA0, 0xBF⟩, continuation]
  else if lead = 0xED then some [⟨0x80, 0x9F⟩, continuation]
  else if lead < 0xF0 then some [continuation, continuation]
  else if lead = 0xF0 then some [⟨0x90, 0xBF⟩, continuation, continuation]
  else if lead < 0xF4 then some [continuation, continuation, continuation]
  else if lead = 0xF4 then some [⟨0x80, 0x8F⟩, continuation, continuation]
  else none

/-- The bits that a lead byte gives to the code point, by the number of bytes that follow it. -/
def leadBits (lead following : Nat) : Nat :=
  match following with
  | 0 => lead
  | 1 => lead % 0x20
  | 2 => lead % 0x10
  | _ => lead % 0x08

/-! ## Faults -/

/-- Why a sequence is ill-formed. -/
inductive Cause where
  | invalidStart
  | invalidContinuation
  | unexpectedEnd
  deriving DecidableEq, Repr

/-- An ill-formed sequence: its offset, its lead byte, how many bytes it has, and why it is bad. -/
structure Fault where
  position : Nat
  lead : UInt8
  length : Nat
  cause : Cause
  deriving DecidableEq, Repr

def Cause.message : Cause → String
  | .invalidStart => "invalid start byte"
  | .invalidContinuation => "invalid continuation byte"
  | .unexpectedEnd => "unexpected end of data"

def hexByte (b : UInt8) : String :=
  String.ofList [Nat.digitChar (b.toNat / 16), Nat.digitChar (b.toNat % 16)]

/-- The wording of a fault: a single byte is shown, a longer sequence is given by its offsets. -/
def Fault.message (f : Fault) : String :=
  let place :=
    if f.length = 1 then "byte 0x" ++ hexByte f.lead ++ " in position " ++ toString f.position
    else "bytes in position " ++ toString f.position ++ "-" ++ toString (f.position + f.length - 1)
  "'utf-8' codec can't decode " ++ place ++ ": " ++ f.cause.message

/-! ## Decoding -/

/-- Reads the bytes that have to follow: the code point and the rest, or the number of bytes that
were acceptable and the cause of the fault. -/
def readFollowers (point taken : Nat) :
    List ByteRange → List UInt8 → Except (Nat × Cause) (Nat × List UInt8)
  | [], bytes => .ok (point, bytes)
  | _ :: _, [] => .error (taken, .unexpectedEnd)
  | r :: ranges, b :: bytes =>
    if r.contains b then readFollowers (point * 0x40 + b.toNat % 0x40) (taken + 1) ranges bytes
    else .error (taken, .invalidContinuation)

/-- What is left after the following bytes is no longer than what was there. -/
theorem readFollowers_length {point taken : Nat} {ranges : List ByteRange} {bytes : List UInt8}
    {p : Nat} {rest : List UInt8} (h : readFollowers point taken ranges bytes = .ok (p, rest)) :
    rest.length ≤ bytes.length := by
  induction ranges generalizing point taken bytes with
  | nil => simp only [readFollowers, Except.ok.injEq, Prod.mk.injEq] at h; simp [h.2]
  | cons r ranges ih =>
    cases bytes with
    | nil => simp [readFollowers] at h
    | cons b bytes =>
      simp only [readFollowers] at h
      split at h
      · have := ih h
        simp only [List.length_cons]
        omega
      · simp at h

/-- Decodes bytes that begin at the given offset. -/
def decodeFrom (position : Nat) : List UInt8 → Except Fault (List Char)
  | [] => .ok []
  | b :: bytes =>
    match followers b.toNat with
    | none => .error ⟨position, b, 1, .invalidStart⟩
    | some ranges =>
      match _h : readFollowers (leadBits b.toNat ranges.length) 1 ranges bytes with
      | .error (length, cause) => .error ⟨position, b, length, cause⟩
      | .ok (point, rest) =>
        match decodeFrom (position + 1 + ranges.length) rest with
        | .error f => .error f
        | .ok cs => .ok (Char.ofNat point :: cs)
termination_by bytes => bytes.length
decreasing_by
  have := readFollowers_length _h
  simp only [List.length_cons]
  omega

/-- The characters of a byte sequence, or its first fault. -/
def decode (bytes : List UInt8) : Except Fault (List Char) := decodeFrom 0 bytes

end SchemaCompletion.Text.Utf8
