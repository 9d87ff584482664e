/-!
# Terminal control sequences

A control sequence is an escape character, an opening bracket, any number of parameter characters,
any number of intermediate characters, and one final character. The three classes divide the
printable ASCII characters among them.

* `isControlParameter`, `isControlIntermediate`, `isControlFinal` — the three classes;
* `afterControlSequence?` — the rest of a text after a control sequence;
* `withoutControlSequences` — a text as it is written where no terminal listens.
-/

namespace SchemaCompletion.Text

/-- The characters of the parameters of a control sequence: digits and `:;<=>?`. -/
def isControlParameter (c : Char) : Bool := '0' ≤ c && c ≤ '?'

/-- The characters between the parameters and the end of a control sequence: the space and the marks
before the digits. -/
def isControlIntermediate (c : Char) : Bool := ' ' ≤ c && c ≤ '/'

/-- The characters that end a control sequence: letters and the marks around them. -/
def isControlFinal (c : Char) : Bool := '@' ≤ c && c ≤ '~'

/-- The rest of a text after a control sequence whose opening has been read, if it is one. -/
def afterControlSequence? (cs : List Char) : Option (List Char) :=
  match (cs.dropWhile isControlParameter).dropWhile isControlIntermediate with
  | c :: rest => if isControlFinal c then some rest else none
  | [] => none

/-- What follows a control sequence is shorter than what follows its opening. -/
theorem afterControlSequence?_length {cs rest : List Char}
    (h : afterControlSequence? cs = some rest) : rest.length < cs.length := by
  unfold afterControlSequence? at h
  have hle : ((cs.dropWhile isControlParameter).dropWhile isControlIntermediate).length ≤
      cs.length :=
    ((List.dropWhile_sublist _).trans (List.dropWhile_sublist _)).length_le
  split at h
  next c r heq =>
    rw [heq] at hle
    split at h
    · cases h
      simp only [List.length_cons] at hle
      omega
    · cases h
  next => cases h

def withoutControlSequences : List Char → List Char
  | [] => []
  | '\x1b' :: '[' :: cs =>
    match _h : afterControlSequence? cs with
    | some rest => withoutControlSequences rest
    | none => '\x1b' :: '[' :: withoutControlSequences cs
  | c :: cs => c :: withoutControlSequences cs
termination_by cs => cs.length
decreasing_by
  · have := afterControlSequence?_length _h
    simp only [List.length_cons]
    omega
  · simp only [List.length_cons]
    omega
  · simp

end SchemaCompletion.Text
