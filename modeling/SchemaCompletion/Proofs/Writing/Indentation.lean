import Mathlib.Data.List.DropRight
import SchemaCompletion.Sdl.BlockString

/-!
# Indentation

What the layout of a block string does to its lines, and that it does not show in the value.

* `Clean` — lines without line ends; `splitSourceLines_intercalate` — joined lines are split into
  the same lines;
* `Dedented` — the lines of a value: what `dedent` leaves, `dedent_dedented`;
* `indentBy` — a line behind more spaces; `dedent_indented` — such lines are brought back;
* `moveLines` — a text all of whose lines after the first are behind more spaces.
-/

namespace SchemaCompletion.Sdl

open SchemaCompletion.Text

/-! ## Lines -/

/-- The line has no line end in it. -/
def Clean (line : List Char) : Prop := ∀ c ∈ line, c ≠ '\n' ∧ c ≠ '\r'

section

variable {line cs : List Char} {lines : List (List Char)} {c : Char}

@[simp] theorem clean_nil : Clean [] := List.forall_mem_nil _

@[simp] theorem clean_cons : Clean (c :: cs) ↔ (c ≠ '\n' ∧ c ≠ '\r') ∧ Clean cs :=
  List.forall_mem_cons

theorem splitSourceLines_cons (other : c ≠ '\n' ∧ c ≠ '\r') {first : List Char}
    (split : splitSourceLines cs = first :: lines) :
    splitSourceLines (c :: cs) = (c :: first) :: lines := by
  rw [splitSourceLines.eq_3 c cs fun _ same => absurd same other.2, if_neg (by simp [other]), split]

theorem splitSourceLines_append (clean : Clean line) {first : List Char}
    (split : splitSourceLines cs = first :: lines) :
    splitSourceLines (line ++ cs) = (line ++ first) :: lines := by
  induction line with
  | nil =>
      exact split
  | cons c line ih =>
      have others : splitSourceLines (line ++ cs) = (line ++ first) :: lines :=
        ih fun d mem => clean d (List.mem_cons_of_mem c mem)
      exact splitSourceLines_cons (clean c List.mem_cons_self) others

/-- Lines that are joined by line feeds are the lines of the text. -/
theorem splitSourceLines_intercalate (filled : lines ≠ []) (clean : ∀ line ∈ lines, Clean line) :
    splitSourceLines (['\n'].intercalate lines) = lines := by
  induction lines with
  | nil =>
      exact absurd rfl filled
  | cons line lines ih =>
      have here : Clean line := clean line List.mem_cons_self
      cases lines with
      | nil =>
          have empty : splitSourceLines [] = [[]] := by rw [splitSourceLines]
          simpa [List.intercalate] using splitSourceLines_append here empty
      | cons next lines =>
          have others :=
            ih (List.cons_ne_nil _ _) fun l mem => clean l (List.mem_cons_of_mem line mem)
          have broken : splitSourceLines ('\n' :: ['\n'].intercalate (next :: lines)) =
              [] :: next :: lines := by
            rw [splitSourceLines.eq_3 '\n' _ (by simp), if_pos (by decide), others]
          simpa [List.intercalate] using splitSourceLines_append here broken

theorem clean_of_mem_splitSourceLines : ∀ line ∈ splitSourceLines cs, Clean line := by
  fun_induction splitSourceLines cs with
  | case1 =>
      simp
  | case2 cs ih =>
      simpa using ih
  | case3 c cs _ _ ih =>
      simpa using ih
  | case4 c cs _ _ split ih =>
      exact absurd split (splitSourceLines_ne_nil cs)
  | case5 c cs _ other first lines split ih =>
      have differs : c ≠ '\n' ∧ c ≠ '\r' := by simpa using other
      rw [split] at ih
      intro line mem
      rcases List.mem_cons.1 mem with rfl | mem
      · exact clean_cons.2 ⟨differs, ih first List.mem_cons_self⟩
      · exact ih line (List.mem_cons_of_mem first mem)

/-- A text is one line if it has no line end, and only then. -/
theorem length_splitSourceLines_eq_one_iff : (splitSourceLines cs).length = 1 ↔ Clean cs := by
  fun_induction splitSourceLines cs with
  | case1 =>
      simp
  | case2 cs ih =>
      simp [splitSourceLines_ne_nil]
  | case3 c cs _ ends ih =>
      have end_ : c = '\n' ∨ c = '\r' := by simpa using ends
      have dirty : ¬Clean (c :: cs) :=
        fun clean => end_.elim (clean_cons.1 clean).1.1 (clean_cons.1 clean).1.2
      simp [dirty, -clean_cons, splitSourceLines_ne_nil]
  | case4 c cs _ _ split ih =>
      exact absurd split (splitSourceLines_ne_nil cs)
  | case5 c cs _ other first lines split ih =>
      have differs : c ≠ '\n' ∧ c ≠ '\r' := by simpa using other
      rw [split, List.length_cons] at ih
      rw [List.length_cons, ih, clean_cons, and_iff_right differs]

end

/-! ## The lines of a value -/

/-- Of the lines neither the first nor the last is blank, and if they are several, some line that is
not blank is not indented. -/
structure Dedented (lines : List (List Char)) : Prop where
  first : ∀ line ∈ lines.head?, isBlankLine line = false
  last : ∀ line ∈ lines.getLast?, isBlankLine line = false
  flush : 1 < lines.length → ∃ line ∈ lines, isBlankLine line = false ∧ indentWidth line = 0

section

variable {line : List Char} {lines : List (List Char)} {n : Nat}

theorem dropBlankEnd_cons (line : List Char) (lines : List (List Char)) :
    dropBlankEnd (line :: lines) =
      if (dropBlankEnd lines).isEmpty && isBlankLine line then []
      else line :: dropBlankEnd lines := by
  rw [dropBlankEnd]
  cases dropBlankEnd lines with
  | nil =>
      simp
  | cons next rest =>
      simp

theorem dropBlankEnd_eq (lines : List (List Char)) :
    dropBlankEnd lines = lines.rdropWhile isBlankLine := by
  induction lines with
  | nil =>
      rfl
  | cons line lines ih =>
      rw [dropBlankEnd_cons, ih, List.rdropWhile, List.rdropWhile, List.reverse_cons,
        List.dropWhile_append]
      cases remaining : lines.reverse.dropWhile isBlankLine with
      | nil =>
          cases blank : isBlankLine line with
          | true =>
              simp [blank]
          | false =>
              simp [blank]
      | cons next rest =>
          simp

/-- The common indentation is the least that a line has. -/
theorem commonIndent?_eq_some_iff : commonIndent? lines = some n ↔
    (∃ line ∈ lines, isBlankLine line = false ∧ indentWidth line = n) ∧
      ∀ line ∈ lines, isBlankLine line = false → n ≤ indentWidth line := by
  rw [commonIndent?, List.min?_eq_some_iff]
  refine and_congr ?_ ?_
  · simp [and_assoc]
  · simp only [List.mem_map, List.mem_filter, Bool.not_eq_true', forall_exists_index, and_imp]
    exact ⟨fun least line mem solid => least _ line mem solid rfl,
      fun least w line mem solid same => same ▸ least line mem solid⟩

/-- A line that is not blank stays among the others without blank ones around them. -/
theorem mem_trimmed (mem : line ∈ lines) (solid : isBlankLine line = false) :
    line ∈ dropBlankEnd (lines.dropWhile isBlankLine) := by
  have noBlank : ¬isBlankLine line = true := by simp [solid]
  rw [← List.takeWhile_append_dropWhile (p := isBlankLine) (l := lines)] at mem
  have begun : line ∈ lines.dropWhile isBlankLine :=
    (List.mem_append.1 mem).resolve_left fun first => noBlank (List.mem_takeWhile_imp first)
  rw [← List.rdropWhile_append_rtakeWhile (p := isBlankLine)
    (l := lines.dropWhile isBlankLine)] at begun
  rw [dropBlankEnd_eq]
  exact (List.mem_append.1 begun).resolve_right fun last => noBlank (List.mem_rtakeWhile_imp last)

/-- A line that is not blank is its indentation and the rest. -/
theorem exists_indent (solid : isBlankLine line = false) :
    ∃ indent c rest, line = indent ++ c :: rest ∧ (∀ d ∈ indent, isIndent d = true) ∧
      isIndent c = false := by
  cases behind : line.dropWhile isIndent with
  | nil =>
      have blank : isBlankLine line = true := by
        rw [isBlankLine, List.all_eq_true]
        exact List.dropWhile_eq_nil_iff.1 behind
      exact absurd blank (by simp [solid])
  | cons c rest =>
      refine ⟨line.takeWhile isIndent, c, rest, ?_, List.all_eq_true.1 List.all_takeWhile, ?_⟩
      · rw [← behind, List.takeWhile_append_dropWhile]
      · have first := List.head?_dropWhile_not isIndent line
        rw [behind] at first
        simpa using first

theorem indentWidth_append {indent rest : List Char} {c : Char}
    (all : ∀ d ∈ indent, isIndent d = true) (other : isIndent c = false) :
    indentWidth (indent ++ c :: rest) = indent.length ∧
    isBlankLine (indent ++ c :: rest) = false := by
  constructor
  · rw [indentWidth, List.takeWhile_append_of_pos all]
    simp [other]
  · simp [isBlankLine, other]

/-- A line that is not blank, without some of its indentation. -/
theorem drop_indent (solid : isBlankLine line = false) (few : n ≤ indentWidth line) :
    isBlankLine (line.drop n) = false ∧ indentWidth (line.drop n) = indentWidth line - n := by
  rcases exists_indent solid with ⟨indent, c, rest, rfl, all, other⟩
  rw [(indentWidth_append all other).1] at few ⊢
  rw [List.drop_append_of_le_length few]
  have fewer : ∀ d ∈ indent.drop n, isIndent d = true :=
    fun d mem => all d (List.mem_of_mem_drop mem)
  exact ⟨(indentWidth_append fewer other).2,
    by rw [(indentWidth_append fewer other).1, List.length_drop]⟩

/-- Of the lines after the first, one that is not blank loses all of its indentation. -/
theorem exists_flush (mem : line ∈ dropIndent lines) (solid : isBlankLine line = false) :
    ∃ flush ∈ dropIndent lines, isBlankLine flush = false ∧ indentWidth flush = 0 := by
  unfold dropIndent at mem ⊢
  cases common : commonIndent? lines with
  | none =>
      rw [common] at mem
      rcases List.mem_map.1 mem with ⟨original, there, rfl⟩
      cases solid
  | some n =>
      rcases (commonIndent?_eq_some_iff.1 common).1 with ⟨least, there, full, width⟩
      have dropped := drop_indent full (Nat.le_of_eq width.symm)
      exact ⟨least.drop n, List.mem_map_of_mem there, dropped.1, by omega⟩

/-- What is left between blank lines has the last of its lines behind the first, if they are
several. -/
theorem mem_of_several {first : List Char}
    (several : 1 < (dropBlankEnd ((first :: lines).dropWhile isBlankLine)).length) :
    ∃ line ∈ lines, isBlankLine line = false := by
  rw [dropBlankEnd_eq] at several
  have filled : ((first :: lines).dropWhile isBlankLine).rdropWhile isBlankLine ≠ [] := by
    intro none
    rw [none] at several
    exact absurd several (by decide)
  refine ⟨_, ?_, eq_false_of_ne_true (List.rdropWhile_last_not isBlankLine _ filled)⟩
  rcases List.rdropWhile_prefix isBlankLine (l := (first :: lines).dropWhile isBlankLine) with
    ⟨blanks, same⟩
  generalize ((first :: lines).dropWhile isBlankLine).rdropWhile isBlankLine = value at *
  match value with
  | [line] =>
      exact absurd several (Nat.lt_irrefl 1)
  | line :: next :: rest =>
      -- whether blank lines were dropped or not, only one line is in front of the last
      have behind : next :: rest ++ blanks <:+ lines := by
        have suffix := List.dropWhile_suffix (l := first :: lines) isBlankLine
        rw [← same] at suffix
        rcases List.suffix_cons_iff.1 suffix with whole | part
        · cases whole
          exact List.suffix_rfl
        · exact (List.suffix_cons line _).trans part
      refine behind.subset (List.mem_append_left _ ?_)
      rw [List.getLast_cons (List.cons_ne_nil next rest)]
      exact List.getLast_mem _

theorem dedented_dedent (lines : List (List Char)) : Dedented (dedent lines) := by
  cases lines with
  | nil =>
      exact ⟨by simp [dedent], by simp [dedent], by simp [dedent]⟩
  | cons first lines =>
      refine ⟨fun line mem => ?_, fun line mem => ?_, fun several => ?_⟩
      · rw [dedent, dropBlankEnd_eq] at mem
        rcases List.rdropWhile_prefix isBlankLine
          (l := (first :: dropIndent lines).dropWhile isBlankLine)
          with ⟨blanks, same⟩
        have begins := List.head?_dropWhile_not isBlankLine (first :: dropIndent lines)
        rw [← same, List.head?_append, mem] at begins
        exact begins
      · rw [dedent, dropBlankEnd_eq] at mem
        rcases List.mem_getLast?_eq_getLast mem with ⟨filled, rfl⟩
        exact eq_false_of_ne_true (List.rdropWhile_last_not isBlankLine _ filled)
      · rcases mem_of_several several with ⟨line, mem, solid⟩
        rcases exists_flush mem solid with ⟨flush, there, full, width⟩
        exact ⟨flush, mem_trimmed (List.mem_cons_of_mem first there) full, full, width⟩

/-- The lines of a value have no line ends if the lines of the raw text have none. -/
theorem clean_of_mem_dedent (clean : ∀ line ∈ lines, Clean line) :
    ∀ line ∈ dedent lines, Clean line := by
  cases lines with
  | nil =>
      exact List.forall_mem_nil _
  | cons first lines =>
      intro line mem
      rw [dedent, dropBlankEnd_eq] at mem
      have there : line ∈ first :: dropIndent lines :=
        (List.dropWhile_suffix _).subset ((List.rdropWhile_prefix _ _).subset mem)
      rcases List.mem_cons.1 there with rfl | there
      · exact clean line List.mem_cons_self
      · unfold dropIndent at there
        split at there
        · rcases List.mem_map.1 there with ⟨original, within, rfl⟩
          exact fun c part =>
            clean original (List.mem_cons_of_mem _ within) c (List.mem_of_mem_drop part)
        · rcases List.mem_map.1 there with ⟨original, -, rfl⟩
          exact clean_nil

/-! ## Indented lines -/

/-- A line behind so many more spaces. -/
def indentBy (k : Nat) (line : List Char) : List Char := List.replicate k ' ' ++ line

theorem isIndent_of_mem_replicate {k : Nat} : ∀ c ∈ List.replicate k ' ', isIndent c = true := by
  intro c mem
  rw [List.eq_of_mem_replicate mem]
  rfl

theorem isBlankLine_indentBy (k : Nat) (line : List Char) :
    isBlankLine (indentBy k line) = isBlankLine line := by
  simp [isBlankLine, indentBy, isIndent]

theorem indentWidth_indentBy (k : Nat) (line : List Char) :
    indentWidth (indentBy k line) = k + indentWidth line := by
  rw [indentWidth, indentBy, List.takeWhile_append_of_pos isIndent_of_mem_replicate,
    List.length_append, List.length_replicate, ← indentWidth]

theorem drop_indentBy (k : Nat) (line : List Char) : (indentBy k line).drop k = line := by
  rw [indentBy, List.drop_left' List.length_replicate]

theorem Clean.indentBy (clean : Clean line) (k : Nat) : Clean (indentBy k line) := by
  intro c mem
  rcases List.mem_append.1 mem with space | mem
  · rw [List.eq_of_mem_replicate space]
    decide
  · exact clean c mem

/-- Lines one of which was not indented have their common indentation from what they are behind. -/
theorem dropIndent_indentBy
    (flush : ∃ line ∈ lines, isBlankLine line = false ∧ indentWidth line = 0) (k : Nat) :
    dropIndent (lines.map (indentBy k)) = lines := by
  have common : commonIndent? (lines.map (indentBy k)) = some k := by
    refine commonIndent?_eq_some_iff.2 ⟨?_, ?_⟩
    · rcases flush with ⟨line, mem, solid, width⟩
      refine ⟨indentBy k line, List.mem_map_of_mem mem, ?_, ?_⟩
      · rw [isBlankLine_indentBy, solid]
      · rw [indentWidth_indentBy, width, Nat.add_zero]
    · intro line mem _
      rcases List.mem_map.1 mem with ⟨original, -, rfl⟩
      rw [indentWidth_indentBy]
      exact Nat.le_add_right k _
  rw [dropIndent, common]
  simp [Function.comp_def, drop_indentBy]

/-- Between blank lines are the lines of a value. -/
theorem Dedented.trimmed (value : Dedented lines) (filled : lines ≠ [])
    (before behind : List (List Char))
    (blank : ∀ line ∈ before, isBlankLine line = true)
    (blank' : ∀ line ∈ behind, isBlankLine line = true) :
    dropBlankEnd ((before ++ (lines ++ behind)).dropWhile isBlankLine) = lines := by
  have begun : (lines ++ behind).dropWhile isBlankLine = lines ++ behind := by
    cases lines with
    | nil =>
        exact absurd rfl filled
    | cons line lines =>
        simp [value.first line rfl]
  have ended : lines.rdropWhile isBlankLine = lines := by
    refine List.rdropWhile_eq_self_iff.2 fun filled => ?_
    simp [value.last _ (List.getLast_mem_getLast? filled)]
  rw [List.dropWhile_append_of_pos blank, begun, dropBlankEnd_eq, List.rdropWhile,
    List.reverse_append, List.dropWhile_append_of_pos (by simpa using blank')]
  exact ended

/-- The lines of a value, all of them indented and between lines of white space. -/
theorem Dedented.dedent_indented (value : Dedented lines)
    (flush : ∃ line ∈ lines, isBlankLine line = false ∧ indentWidth line = 0) (k : Nat) :
    dedent ([] :: (lines ++ [[]]).map (indentBy k)) = lines := by
  have filled : lines ≠ [] := by
    rintro rfl
    rcases flush with ⟨line, mem, -⟩
    cases mem
  have flush' : ∃ line ∈ lines ++ [[]], isBlankLine line = false ∧ indentWidth line = 0 := by
    rcases flush with ⟨line, mem, flat⟩
    exact ⟨line, List.mem_append_left _ mem, flat⟩
  rw [dedent, dropIndent_indentBy flush' k]
  exact value.trimmed filled [[]] _ (by simp [isBlankLine]) (by simp [isBlankLine])

/-- A single line of a value, and the same line in front of white space. -/
theorem Dedented.dedent_single (value : Dedented [line]) (k : Nat) :
    dedent [line] = [line] ∧ dedent [line, indentBy k []] = [line] := by
  have white : dropIndent [indentBy k []] = [[]] := by
    have none : commonIndent? [indentBy k []] = none := by
      simp [commonIndent?, isBlankLine_indentBy, -List.append_nil]
      rfl
    rw [dropIndent, none]
    rfl
  constructor
  · exact value.trimmed (List.cons_ne_nil _ _) [] [] (by simp) (by simp)
  · rw [dedent, white]
    exact value.trimmed (List.cons_ne_nil _ _) [] [[]] (by simp) (by simp [isBlankLine])

end

/-! ## Texts behind an indentation -/

/-- A text with every line after the first behind so many more spaces. -/
def moveLines (k : Nat) (cs : List Char) : List Char :=
  cs.flatMap fun c => if c = '\n' then '\n' :: List.replicate k ' ' else [c]

section

variable {cs ds : List Char} {c : Char} {k : Nat}

@[simp] theorem moveLines_nil : moveLines k [] = [] := rfl

@[simp] theorem moveLines_append : moveLines k (cs ++ ds) = moveLines k cs ++ moveLines k ds :=
  List.flatMap_append

@[simp] theorem moveLines_newline :
    moveLines k ('\n' :: cs) = '\n' :: (List.replicate k ' ' ++ moveLines k cs) := by
  simp [moveLines]

theorem moveLines_cons (other : c ≠ '\n') : moveLines k (c :: cs) = c :: moveLines k cs := by
  simp [moveLines, other]

theorem moveLines_of_not_mem (line : '\n' ∉ cs) : moveLines k cs = cs := by
  induction cs with
  | nil =>
      rfl
  | cons c cs ih =>
      rw [moveLines_cons fun same => line (same ▸ List.mem_cons_self),
        ih fun mem => line (List.mem_cons_of_mem c mem)]

theorem moveLines_zero (cs : List Char) : moveLines 0 cs = cs := by
  induction cs with
  | nil =>
      rfl
  | cons c cs ih =>
      by_cases newline : c = '\n'
      · simp [newline, ih]
      · rw [moveLines_cons newline, ih]

theorem moveLines_spaces (j : Nat) (n : Nat) (cs : List Char) :
    moveLines j (List.replicate n ' ' ++ cs) = List.replicate n ' ' ++ moveLines j cs := by
  have line : '\n' ∉ List.replicate n ' ' := fun mem => by cases List.eq_of_mem_replicate mem
  rw [moveLines_append, moveLines_of_not_mem line]

/-- Moving twice is moving once, by both widths. -/
theorem moveLines_moveLines (j k : Nat) (cs : List Char) :
    moveLines j (moveLines k cs) = moveLines (j + k) cs := by
  induction cs with
  | nil =>
      rfl
  | cons c cs ih =>
      by_cases newline : c = '\n'
      · subst newline
        rw [moveLines_newline, moveLines_newline, moveLines_newline, moveLines_spaces, ih,
          ← List.append_assoc, List.replicate_append_replicate]
      · rw [moveLines_cons newline, moveLines_cons newline, moveLines_cons newline, ih]

theorem moveLines_intercalate (sep : List Char) (items : List (List Char)) :
    moveLines k (sep.intercalate items) =
      (moveLines k sep).intercalate (items.map (moveLines k)) := by
  induction items with
  | nil =>
      rfl
  | cons item items ih =>
      cases items with
      | nil =>
          simp
      | cons next items =>
          rw [List.intercalate_cons_cons, moveLines_append, moveLines_append, ih, List.map_cons,
            List.map_cons, List.map_cons, List.intercalate_cons_cons]

/-- What stands in front of the first of some joined texts stands in front of all. -/
theorem intercalate_append (sep front item : List Char) (items : List (List Char)) :
    sep.intercalate ((front ++ item) :: items) = front ++ sep.intercalate (item :: items) := by
  cases items with
  | nil =>
      simp
  | cons next items =>
      simp [List.intercalate_cons_cons]

/-- Moving joined lines indents those after the first. -/
theorem moveLines_lines {line : List Char} {lines : List (List Char)}
    (clean : ∀ l ∈ line :: lines, Clean l) :
    moveLines k (['\n'].intercalate (line :: lines)) =
      ['\n'].intercalate (line :: lines.map (indentBy k)) := by
  induction lines generalizing line with
  | nil =>
      have single : '\n' ∉ line := fun mem => (clean line List.mem_cons_self '\n' mem).1 rfl
      simp [moveLines_of_not_mem single]
  | cons next lines ih =>
      have single : '\n' ∉ line := fun mem => (clean line List.mem_cons_self '\n' mem).1 rfl
      have others := ih fun l mem => clean l (List.mem_cons_of_mem line mem)
      rw [List.intercalate_cons_cons, moveLines_append, moveLines_append,
        moveLines_of_not_mem single, others, List.map_cons, List.intercalate_cons_cons, indentBy,
        intercalate_append]
      simp

end

end SchemaCompletion.Sdl
