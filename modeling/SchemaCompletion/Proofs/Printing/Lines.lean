import Mathlib.Data.List.Basic
import SchemaCompletion.CommandLine
import SchemaCompletion.Proofs.Declaring.OneLine

/-!
# Lines in print

Text in lines that end in a line feed, read back and printed.

* `Text.linesOf?`, `readLines?` — the lines of a text, if the last of them ends, too;
* `readLines?_unlines` — lines without line feeds read back as they were written;
* `withoutControlSequences_append_newline` — no control sequence goes on behind a line feed;
* `printed_unlines` — so printing lines is printing each of them;
* `printed_unlines_of_plain`, `printed_declarations` — and plain lines, such as declarations, are
  printed as they are.
-/

namespace SchemaCompletion

open SchemaCompletion.Text

namespace Text

/-! ## Reading lines -/

/-- The lines of a text without the line feeds that end them. -/
def linesOf? : List Char → Option (List (List Char))
  | [] => some []
  | c :: cs =>
    if c = '\n' then (linesOf? cs).map ([] :: ·)
    else
      match linesOf? cs with
      | some (line :: lines) => some ((c :: line) :: lines)
      | _ => none

/-- A line ends at the first line feed. -/
theorem linesOf?_append_newline {line : List Char} (single : '\n' ∉ line) (rest : List Char) :
    linesOf? (line ++ '\n' :: rest) = (linesOf? rest).map (line :: ·) := by
  induction line with
  | nil =>
      simp [linesOf?]
  | cons c line ih =>
      simp only [List.mem_cons, not_or] at single
      rw [List.cons_append, linesOf?, if_neg (Ne.symm single.1), ih single.2]
      cases linesOf? rest with
      | none =>
          rfl
      | some lines =>
          rfl

theorem linesOf?_flatMap {lines : List (List Char)} (single : ∀ line ∈ lines, '\n' ∉ line) :
    linesOf? (lines.flatMap (· ++ ['\n'])) = some lines := by
  induction lines with
  | nil =>
      rfl
  | cons line lines ih =>
      rw [List.forall_mem_cons] at single
      rw [List.flatMap_cons, List.append_assoc, List.singleton_append,
        linesOf?_append_newline single.1, ih single.2]
      rfl

/-! ## Dropping control sequences -/

variable {c : Char} {cs rest : List Char}

theorem withoutControlSequences_cons (other : c ≠ '\x1b') :
    withoutControlSequences (c :: cs) = c :: withoutControlSequences cs := by
  rw [withoutControlSequences]
  rintro _ rfl
  exact absurd rfl other

/-- A control sequence begins with an escape character, so none begins in a text without one. -/
theorem withoutControlSequences_append_of_not_mem (plain : '\x1b' ∉ cs) :
    withoutControlSequences (cs ++ rest) = cs ++ withoutControlSequences rest := by
  induction cs with
  | nil =>
      rfl
  | cons c cs ih =>
      simp only [List.mem_cons, not_or] at plain
      rw [List.cons_append, withoutControlSequences_cons (Ne.symm plain.1), ih plain.2,
        List.cons_append]

theorem withoutControlSequences_of_not_mem (plain : '\x1b' ∉ cs) :
    withoutControlSequences cs = cs := by
  have all : withoutControlSequences (cs ++ []) = cs ++ withoutControlSequences [] :=
    withoutControlSequences_append_of_not_mem plain
  simpa [withoutControlSequences] using all

/-- The line feed belongs to none of the classes of characters in a control sequence. -/
theorem afterControlSequence?_append_newline (cs ds : List Char) :
    afterControlSequence? (cs ++ '\n' :: ds) =
      (afterControlSequence? cs).map (· ++ '\n' :: ds) := by
  have parameter : isControlParameter '\n' = false := by decide
  have intermediate : isControlIntermediate '\n' = false := by decide
  have final : isControlFinal '\n' = false := by decide
  -- dropping a class from the front stops at the line feed, if not before
  have dropping : ∀ (p : Char → Bool) (xs : List Char), p '\n' = false →
      (xs ++ '\n' :: ds).dropWhile p = xs.dropWhile p ++ '\n' :: ds := by
    intro p xs stop
    induction xs with
    | nil =>
        simp [stop]
    | cons x xs ih =>
        cases taken : p x with
        | true =>
            simp [taken, ih]
        | false =>
            simp [taken]
  simp only [afterControlSequence?, dropping _ _ parameter, dropping _ _ intermediate]
  cases (cs.dropWhile isControlParameter).dropWhile isControlIntermediate with
  | nil =>
      simp [final]
  | cons d rest =>
      simp only [List.cons_append]
      cases isControlFinal d with
      | true =>
          rfl
      | false =>
          rfl

/-- No control sequence goes on behind a line feed. -/
theorem withoutControlSequences_append_newline (cs ds : List Char) :
    withoutControlSequences (cs ++ '\n' :: ds) =
      withoutControlSequences cs ++ '\n' :: withoutControlSequences ds := by
  induction cs using withoutControlSequences.induct with
  | case1 =>
      have other : '\n' ≠ '\x1b' := by decide
      simp [withoutControlSequences_cons other, withoutControlSequences]
  | case2 cs rest after ih =>
      have after' := afterControlSequence?_append_newline cs ds
      rw [after, Option.map_some] at after'
      rw [List.cons_append, List.cons_append, withoutControlSequences, withoutControlSequences,
        after, after']
      exact ih
  | case3 cs after ih =>
      have after' := afterControlSequence?_append_newline cs ds
      rw [after, Option.map_none] at after'
      rw [List.cons_append, List.cons_append, withoutControlSequences, withoutControlSequences,
        after, after', ih]
      rfl
  | case4 c cs other ih =>
      have other' : ∀ cs', c = '\x1b' → cs ++ '\n' :: ds = '[' :: cs' → False := by
        intro cs' escape opens
        cases cs with
        | nil =>
            cases opens
        | cons d cs =>
            exact other cs escape (by rw [(List.cons.inj opens).1])
      rw [List.cons_append, withoutControlSequences, withoutControlSequences, ih, List.cons_append]
      · exact other
      · exact other'

theorem afterControlSequence?_suffix (after : afterControlSequence? cs = some rest) :
    rest <:+ cs := by
  unfold afterControlSequence? at after
  have dropped : (cs.dropWhile isControlParameter).dropWhile isControlIntermediate <:+ cs :=
    (List.dropWhile_suffix _).trans (List.dropWhile_suffix _)
  split at after
  · next c r ends =>
      rw [ends] at dropped
      split at after
      · cases after
        exact (List.suffix_cons c rest).trans dropped
      · cases after
  · cases after

/-- What is printed of a text has no character that the text has not. -/
theorem withoutControlSequences_subset (cs : List Char) : withoutControlSequences cs ⊆ cs := by
  induction cs using withoutControlSequences.induct with
  | case1 =>
      simp [withoutControlSequences]
  | case2 cs rest after ih =>
      have inside : rest ⊆ '\x1b' :: '[' :: cs := fun c mem =>
        List.mem_cons_of_mem _
          (List.mem_cons_of_mem _ ((afterControlSequence?_suffix after).mem mem))
      rw [withoutControlSequences, after]
      exact List.Subset.trans ih inside
  | case3 cs after ih =>
      rw [withoutControlSequences, after]
      exact List.cons_subset_cons _ (List.cons_subset_cons _ ih)
  | case4 c cs other ih =>
      rw [withoutControlSequences]
      · exact List.cons_subset_cons _ ih
      · exact other

end Text

namespace CommandLine

variable {lines : List String}

theorem toList_unlines (lines : List String) :
    (unlines lines).toList = (lines.map String.toList).flatMap (· ++ ['\n']) := by
  simp [unlines, String.toList_join, List.flatMap_map]

/-- The lines of a text that consists of lines. -/
def readLines? (text : String) : Option (List String) :=
  (linesOf? text.toList).map (·.map String.ofList)

/-- Lines without line feeds read back as they were written. -/
theorem readLines?_unlines (single : ∀ line ∈ lines, '\n' ∉ line.toList) :
    readLines? (unlines lines) = some lines := by
  have single' : ∀ line ∈ lines.map String.toList, '\n' ∉ line := by
    simpa using single
  rw [readLines?, toList_unlines, linesOf?_flatMap single']
  simp

theorem toList_printed (text : String) :
    (printed text).toList = withoutControlSequences text.toList := by
  rw [printed, String.toList_ofList]

theorem printed_of_not_mem {text : String} (plain : '\x1b' ∉ text.toList) :
    printed text = text := by
  rw [printed, withoutControlSequences_of_not_mem plain, String.ofList_toList]

theorem printed_empty : printed "" = "" := printed_of_not_mem (by decide)

/-- A listing that says that there is nothing is printed as it is. -/
theorem printed_listing_nil : printed (listing []) = "no suggestions\n" :=
  printed_of_not_mem (by decide)

/-- Printing lines is printing each of them. -/
theorem printed_unlines (lines : List String) :
    printed (unlines lines) = unlines (lines.map printed) := by
  rw [← String.toList_inj, toList_printed, toList_unlines, toList_unlines]
  induction lines with
  | nil =>
      simp [withoutControlSequences]
  | cons line lines ih =>
      simp [withoutControlSequences_append_newline, toList_printed, ih]

/-- Printing breaks no line. -/
theorem newline_not_mem_printed {text : String} (single : '\n' ∉ text.toList) :
    '\n' ∉ (printed text).toList := by
  intro mem
  rw [toList_printed] at mem
  exact single (withoutControlSequences_subset _ mem)

/-! ## Plain text in print -/

/-- A plain text has no control sequence to drop. -/
theorem Plain.printed {text : String} (plain : Plain text.toList) : printed text = text :=
  printed_of_not_mem (plain.not_mem (by decide))

/-- Nothing is dropped before the first control sequence. -/
theorem printed_append_of_plain {front : String} (plain : Plain front.toList) (text : String) :
    printed (front ++ text) = front ++ printed text := by
  have escape : '\x1b' ∉ front.toList := plain.not_mem (by decide)
  rw [← String.toList_inj, toList_printed, String.toList_append, String.toList_append,
    toList_printed]
  exact withoutControlSequences_append_of_not_mem escape

theorem printed_unlines_of_plain (plain : ∀ line ∈ lines, Plain line.toList) :
    printed (unlines lines) = unlines lines := by
  have same : lines.map printed = lines.map id :=
    List.map_congr_left fun line mem => Plain.printed (plain line mem)
  rw [printed_unlines, same, List.map_id]

theorem Form.plain_text {m : Member} (named : m.Named) (form : Form) :
    Plain (form.text .java m).toList := by
  cases form with
  | method =>
      exact named.plain_methodText
  | field =>
      exact named.plain_fieldText

/-- Declarations are printed as they are. -/
theorem printed_declarations {members : List Member} (named : ∀ m ∈ members, m.Named)
    (form : Form) :
    printed (unlines (members.map (form.text .java))) =
      unlines (members.map (form.text .java)) := by
  apply printed_unlines_of_plain
  intro line mem
  rcases List.mem_map.1 mem with ⟨m, member, rfl⟩
  exact form.plain_text (named m member)

end CommandLine

end SchemaCompletion
