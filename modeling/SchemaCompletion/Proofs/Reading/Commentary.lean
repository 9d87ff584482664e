import SchemaCompletion.Proofs.Reading.Blank

/-!
# White space and comments

Texts that have nothing but white space and comments, and what reading them comes to. A comment ends
at a line feed or a carriage return, but the lines of a document are those of Unicode text, so a
line can begin inside of a comment.

* `Commentary` — such a text, with its comments in order;
* `BlankBehindBreaks` — a comment in which no line begins with anything to be read;
* `Text.splitLines_append` — the lines of a text in two parts, the second of which begins with a
  break;
* `Commentary.isBlankDocument_iff` — the text is blank if all its comments are of that kind;
* `Commentary.parse_eq` — it has no tokens in any case;
* `Snapshot.ofText_of_commentary` — so it is the empty schema, or it is no schema.
-/

namespace SchemaCompletion

open SchemaCompletion.Sdl SchemaCompletion.Text

/-! ## Comments -/

namespace Sdl

/-- The characters that end a comment. -/
def endsComment (c : Char) : Bool := c == '\n' || c == '\r'

/-- A text of white space and comments, with the comments in order, each without its hash sign. A
comment has any characters, up to the next one that ends it or to the end of the text. -/
inductive Commentary : List (List Char) → List Char → Prop where
  | ended : Commentary [] []
  | space {comments : List (List Char)} {cs : List Char} {c : Char}
      (white : c ∈ [' ', '\t', '\n', '\r']) (rest : Commentary comments cs) :
      Commentary comments (c :: cs)
  | comment {comments : List (List Char)} {comment cs : List Char}
      (inside : ∀ c ∈ comment, endsComment c = false)
      (ends : ∀ c, cs.head? = some c → endsComment c = true) (rest : Commentary comments cs) :
      Commentary (comment :: comments) ('#' :: (comment ++ cs))

end Sdl

/-- Every line of Unicode text that begins inside of a comment, behind a break, has only white space
or is a comment again. -/
def BlankBehindBreaks (comment : List Char) : Prop :=
  ∀ line ∈ (splitLines comment).tail, isBlankOrComment line = true

instance (comment : List Char) : Decidable (BlankBehindBreaks comment) :=
  inferInstanceAs (Decidable (∀ line ∈ (splitLines comment).tail, isBlankOrComment line = true))

/-! ## Lines of a text in two parts -/

namespace Text

variable {c : Char} {cs front rest : List Char}

theorem splitLines_eq_nil_iff : splitLines cs = [] ↔ cs = [] := by
  constructor
  · intro none
    cases cs with
    | nil =>
        rfl
    | cons c cs =>
        cases ends : isLineBreak c with
        | true =>
            rcases splitLines_of_break ends cs with ⟨lines, split, -⟩
            cases none.symm.trans split
        | false =>
            cases none.symm.trans (splitLines_cons ends cs)
  · rintro rfl
    rfl

/-- A break with one character ends a line, whatever follows. -/
theorem splitLines_of_single_break (ends : isLineBreak c = true) (single : c ≠ '\r')
    (cs : List Char) : splitLines (c :: cs) = [] :: splitLines cs := by
  rw [splitLines.eq_3 c cs fun _ first _ => single first, if_pos ends]

/-- The lines of two texts, where the second one begins with a break or not at all: if a line of the
first is open, that break only ends it. -/
theorem splitLines_append (single : '\r' ∉ front)
    (breaks : ∀ c, rest.head? = some c → isLineBreak c = true) :
    ∃ lines, splitLines (front ++ rest) = splitLines front ++ lines ∧
      (splitLines rest = lines ∨ splitLines rest = [] :: lines) := by
  induction front with
  | nil =>
      exact ⟨splitLines rest, rfl, .inl rfl⟩
  | cons c front ih =>
      rw [List.mem_cons, not_or] at single
      rcases ih single.2 with ⟨lines, split, same⟩
      cases ends : isLineBreak c with
      | true =>
          have first : c ≠ '\r' := Ne.symm single.1
          refine ⟨lines, ?_, same⟩
          rw [List.cons_append, splitLines_of_single_break ends first,
            splitLines_of_single_break ends first, split, List.cons_append]
      | false =>
          rw [List.cons_append, splitLines_cons ends, splitLines_cons ends, split]
          cases opened : splitLines front with
          | cons line later =>
              exact ⟨lines, rfl, same⟩
          | nil =>
              -- the first text is this one character, and the second one ends its line
              obtain rfl : front = [] := splitLines_eq_nil_iff.1 opened
              obtain rfl : splitLines rest = lines := by simpa [splitLines] using split
              cases rest with
              | nil =>
                  exact ⟨[], rfl, .inl rfl⟩
              | cons d rest =>
                  rcases splitLines_of_break (breaks d rfl) rest with ⟨lines, split, -⟩
                  exact ⟨lines, by rw [split]; rfl, .inr split⟩

end Text

/-! ## Blank or not -/

section

variable {comments : List (List Char)} {comment cs : List Char} {c : Char}

theorem endsComment_iff : endsComment c = true ↔ c = '\n' ∨ c = '\r' := by
  simp [endsComment]

theorem isLineBreak_of_endsComment (ends : endsComment c = true) : isLineBreak c = true := by
  rcases endsComment_iff.1 ends with rfl | rfl <;> rfl

theorem eq_of_mem_white (white : c ∈ [' ', '\t', '\n', '\r']) :
    c = ' ' ∨ c = '\t' ∨ c = '\n' ∨ c = '\r' := by
  simpa using white

/-- A comment is blank, except for the lines that begin in it. -/
theorem blankFrom_comment (inside : ∀ c ∈ comment, endsComment c = false)
    (ends : ∀ c, cs.head? = some c → endsComment c = true) :
    BlankFrom false ('#' :: (comment ++ cs)) ↔ BlankBehindBreaks comment ∧ BlankFrom false cs := by
  have single : '\r' ∉ '#' :: comment := by
    intro mem
    rcases List.mem_cons.1 mem with first | mem
    · cases first
    · cases inside _ mem
  have breaks : ∀ c, cs.head? = some c → isLineBreak c = true :=
    fun c first => isLineBreak_of_endsComment (ends c first)
  rcases splitLines_append single breaks with ⟨lines, split, same⟩
  -- the line that is open where the comment ends may count twice, as an empty one
  have later : BlankFrom false cs ↔ ∀ line ∈ lines, isBlankOrComment line = true := by
    rcases same with same | same
    · simp [BlankFrom, same]
    · simp [BlankFrom, same, isBlankOrComment, trimStart]
  have first : isBlankOrComment ('#' :: (splitLines comment).headD []) = true := rfl
  rw [later, BlankFrom, if_neg Bool.false_ne_true, ← List.cons_append, split,
    List.forall_mem_append, splitLines_cons rfl, List.forall_mem_cons, BlankBehindBreaks]
  simp only [first, true_and]

theorem blankFrom_space (white : c ∈ [' ', '\t', '\n', '\r']) :
    BlankFrom false (c :: cs) ↔ BlankFrom false cs := by
  have blank : isBlank c = true := by
    rcases eq_of_mem_white white with rfl | rfl | rfl | rfl <;> rfl
  cases ends : isLineBreak c with
  | true =>
      refine ⟨BlankFrom.of_break ends, fun later line mem => ?_⟩
      rcases splitLines_of_break ends cs with ⟨lines, split, same⟩
      rw [if_neg Bool.false_ne_true, split] at mem
      rcases List.mem_cons.1 mem with rfl | mem
      · rfl
      · apply later
        rcases same with same | same
        · simpa [same] using mem
        · simpa [same] using .inr mem
  | false =>
      refine ⟨BlankFrom.of_isBlank ends blank, fun later line mem => ?_⟩
      rw [if_neg Bool.false_ne_true, splitLines_cons ends] at mem
      rcases List.mem_cons.1 mem with rfl | mem
      · -- the line that the character begins goes on as the first line of the rest
        cases split : splitLines cs with
        | nil =>
            simp [isBlankOrComment, trimStart, blank]
        | cons first others =>
            have head : isBlankOrComment first = true := later first (by simp [split])
            simpa [isBlankOrComment, trimStart, blank] using head
      · exact later line (List.mem_of_mem_tail mem)

namespace Sdl.Commentary

/-- The text has only blank lines if no comment has a line to be read. -/
theorem blankFrom_iff (remarks : Commentary comments cs) :
    BlankFrom false cs ↔ ∀ comment ∈ comments, BlankBehindBreaks comment := by
  induction remarks with
  | ended =>
      simp [BlankFrom, splitLines]
  | space white _ ih =>
      rw [blankFrom_space white, ih]
  | comment inside ends _ ih =>
      rw [blankFrom_comment inside ends, ih, List.forall_mem_cons]

/-- Comments and white space begin otherwise than with a byte order mark. -/
theorem dropWhile_byteOrderMark (remarks : Commentary comments cs) :
    cs.dropWhile (· == byteOrderMark) = cs := by
  cases remarks with
  | ended =>
      rfl
  | @space _ _ c white _ =>
      have other : (c == byteOrderMark) = false := by
        rcases eq_of_mem_white white with rfl | rfl | rfl | rfl <;> rfl
      rw [List.dropWhile_cons, other, if_neg Bool.false_ne_true]
  | comment =>
      rfl

/-! ## No tokens -/

theorem skipFrom_comment (inside : ∀ c ∈ comment, endsComment c = false)
    (ends : ∀ c, cs.head? = some c → endsComment c = true) :
    skipFrom true (comment ++ cs) = skipFrom false cs := by
  induction comment with
  | nil =>
      cases cs with
      | nil =>
          rfl
      | cons c cs =>
          -- what ends the comment is ignored outside of it, too
          have last : endsComment c = true := ends c rfl
          have ignored : isIgnored c = true := by
            rcases endsComment_iff.1 last with rfl | rfl <;> rfl
          have stops : (c == '\n' || c == '\r') = true := last
          simp [skipFrom, stops, ignored]
  | cons c comment ih =>
      rw [List.forall_mem_cons] at inside
      have goesOn : (c == '\n' || c == '\r') = false := inside.1
      rw [List.cons_append, skipFrom, if_pos rfl, goesOn]
      exact ih inside.2

theorem skipIgnored_eq (remarks : Commentary comments cs) : skipIgnored cs = [] := by
  unfold skipIgnored
  induction remarks with
  | ended =>
      rfl
  | @space _ cs c white _ ih =>
      have ignored : isIgnored c = true := by
        rcases eq_of_mem_white white with rfl | rfl | rfl | rfl <;> rfl
      rw [skipFrom, if_neg Bool.false_ne_true, if_pos ignored]
      exact ih
  | comment inside ends _ ih =>
      have opens : ∀ cs, skipFrom false ('#' :: cs) = skipFrom true cs := fun _ => rfl
      rw [opens, skipFrom_comment inside ends, ih]

variable {text : List Char}

/-- The text may have a byte order mark in front. -/
theorem skipIgnored_marked (remarks : Commentary comments cs)
    (marked : text = cs ∨ text = byteOrderMark :: cs) : skipIgnored text = [] := by
  rcases marked with rfl | rfl
  · exact remarks.skipIgnored_eq
  · have ignored : skipIgnored (byteOrderMark :: cs) = skipIgnored cs := rfl
    rw [ignored, remarks.skipIgnored_eq]

/-- The text is no document: it ends before the first definition. -/
theorem parse_eq (remarks : Commentary comments cs)
    (marked : text = cs ∨ text = byteOrderMark :: cs) :
    Document.parse text = .error (.unexpected none) := by
  rw [Document.parse, TokenStream.ofText_of_nil (remarks.skipIgnored_marked marked)]
  rfl

/-- The text is blank if no comment of it has a line to be read. -/
theorem isBlankDocument_iff (remarks : Commentary comments cs)
    (marked : text = cs ∨ text = byteOrderMark :: cs) :
    isBlankDocument text = true ↔ ∀ comment ∈ comments, BlankBehindBreaks comment := by
  have unmarked : text.dropWhile (· == byteOrderMark) = cs := by
    rcases marked with rfl | rfl
    · exact remarks.dropWhile_byteOrderMark
    · rw [List.dropWhile_cons_of_pos (by simp), remarks.dropWhile_byteOrderMark]
  rw [← remarks.blankFrom_iff, isBlankDocument, unmarked, List.all_eq_true]
  rfl

end Sdl.Commentary

/-- A comment without breaks of any kind is on one line. -/
theorem BlankBehindBreaks.of_oneLine (oneLine : ∀ c ∈ comment, isLineBreak c = false) :
    BlankBehindBreaks comment := by
  induction comment with
  | nil =>
      exact List.forall_mem_nil _
  | cons c comment ih =>
      rw [List.forall_mem_cons] at oneLine
      rw [BlankBehindBreaks, splitLines_cons oneLine.1]
      exact ih oneLine.2

end

/-! ## Schemas -/

namespace Sdl.Commentary

variable {comments : List (List Char)} {cs : List Char} {text : String}

theorem ofText_eq_ok (remarks : Commentary comments cs)
    (marked : text.toList = cs ∨ text.toList = byteOrderMark :: cs)
    (blank : ∀ comment ∈ comments, BlankBehindBreaks comment) (source : String) (modified : Int) :
    Snapshot.ofText source modified text = .ok { Catalog.empty with modified, source } := by
  rw [Snapshot.ofText, Catalog.ofText, if_pos ((remarks.isBlankDocument_iff marked).2 blank)]
  rfl

theorem ofText_eq_error (remarks : Commentary comments cs)
    (marked : text.toList = cs ∨ text.toList = byteOrderMark :: cs)
    (broken : ¬ ∀ comment ∈ comments, BlankBehindBreaks comment) (source : String)
    (modified : Int) :
    Snapshot.ofText source modified text =
      .error { source, cause := .syntactic (.unexpected none) } := by
  rw [Snapshot.ofText, Catalog.ofText, if_neg (mt (remarks.isBlankDocument_iff marked).1 broken),
    remarks.parse_eq marked]
  rfl

end Sdl.Commentary

/-- A text of white space and comments, with or without a byte order mark in front, is the empty
schema exactly if every line of Unicode text that begins inside of its comments is blank or a
comment again; so it is one if no comment has any line break in it. Else it is no schema, because it
ends before the first definition. -/
theorem Snapshot.ofText_of_commentary {comments : List (List Char)} {cs : List Char}
    (remarks : Commentary comments cs) {text : String}
    (marked : text.toList = cs ∨ text.toList = byteOrderMark :: cs) (source : String)
    (modified : Int) :
    (Snapshot.ofText source modified text = .ok { Catalog.empty with modified, source } ↔
      ∀ comment ∈ comments, BlankBehindBreaks comment) ∧
    ((∀ comment ∈ comments, ∀ c ∈ comment, isLineBreak c = false) →
      Snapshot.ofText source modified text = .ok { Catalog.empty with modified, source }) ∧
    ((∃ comment ∈ comments, ¬ BlankBehindBreaks comment) →
      Snapshot.ofText source modified text =
        .error { source, cause := .syntactic (.unexpected none) }) := by
  refine ⟨⟨fun read => ?_, fun blank => remarks.ofText_eq_ok marked blank source modified⟩, ?_, ?_⟩
  · by_cases blank : ∀ comment ∈ comments, BlankBehindBreaks comment
    · exact blank
    · cases read.symm.trans (remarks.ofText_eq_error marked blank source modified)
  · intro oneLine
    have blank : ∀ comment ∈ comments, BlankBehindBreaks comment :=
      fun comment mem => .of_oneLine (oneLine comment mem)
    exact remarks.ofText_eq_ok marked blank source modified
  · rintro ⟨comment, mem, broken⟩
    exact remarks.ofText_eq_error marked (fun blank => broken (blank comment mem)) source modified

/-- Two comments behind a byte order mark, one with a separator before a hash sign of its own, and
one with nothing behind a separator. -/
theorem Snapshot.ofText_of_commentary_separators :
    let text := "\ufeff # to do\u2028  # later\r\n\t#\u0085 \n"
    Commentary [" to do\u2028  # later".toList, "\u0085 ".toList]
        " # to do\u2028  # later\r\n\t#\u0085 \n".toList ∧
      Snapshot.ofText "schema.graphql" 0 text =
        .ok { Catalog.empty with modified := 0, source := "schema.graphql" } := by
  intro text
  have remarks : Commentary [" to do\u2028  # later".toList, "\u0085 ".toList]
      " # to do\u2028  # later\r\n\t#\u0085 \n".toList := by
    have last : Commentary ["\u0085 ".toList] ('#' :: ("\u0085 ".toList ++ ['\n'])) :=
      .comment (by simp [endsComment]) (by simp [endsComment]) (.space (by decide) .ended)
    have between : Commentary ["\u0085 ".toList] "\r\n\t#\u0085 \n".toList :=
      .space (by decide) (.space (by decide) (.space (by decide) last))
    have first : Commentary [" to do\u2028  # later".toList, "\u0085 ".toList]
        ('#' :: (" to do\u2028  # later".toList ++ "\r\n\t#\u0085 \n".toList)) :=
      .comment (by simp [endsComment]) (by simp [endsComment]) between
    exact .space (by decide) first
  have marked : text.toList =
      byteOrderMark :: " # to do\u2028  # later\r\n\t#\u0085 \n".toList := by
    decide
  exact ⟨remarks,
    (Snapshot.ofText_of_commentary remarks (.inr marked) "schema.graphql" 0).1.2 (by decide)⟩

/-- A single comment is no schema if a line of Unicode text begins inside of it. -/
theorem Snapshot.separator_inside_comment :
    let text := "# a\u2028b"
    Commentary [" a\u2028b".toList] text.toList ∧
      (∀ s, Snapshot.ofText "schema.graphql" 0 text ≠ .ok s) ∧
      ∃ e, Snapshot.ofText "schema.graphql" 0 text = .error e ∧
        e.message =
          "parsing of schema at schema.graphql failed:\nSyntax Error: Unexpected <EOF>." := by
  intro text
  have remarks : Commentary [" a\u2028b".toList] ('#' :: (" a\u2028b".toList ++ [])) :=
    .comment (by simp [endsComment]) (by simp [endsComment]) .ended
  have same : text.toList = '#' :: (" a\u2028b".toList ++ []) := by decide
  have read := remarks.ofText_eq_error (.inl same) (by decide) "schema.graphql" 0
  refine ⟨same ▸ remarks, fun s accepted => ?_, _, read, by decide⟩
  cases accepted.symm.trans read

end SchemaCompletion
