import Mathlib.Data.List.Basic
import SchemaCompletion.Text.Blank

/-!
# Words on one line

The two ways of tidying a text, seen through its words.

* `words_append_blank` — white space keeps words apart;
* `words_eq_nil_iff`, `not_isBlank_of_mem_words` — words have no white space, and leave out nothing
  else;
* `words_intercalate` — words with single spaces between them are read back;
* `SingleSpaced`, `singleSpaced_intercalate` — and have no other white space between or around them;
* `trim_eq_nil_iff` — trimming leaves nothing of white space alone;
* `trimEnd_collapse` — after the white space at its front, a collapsed text is words and single
  spaces;
* `toList_oneLine` — a text on one line is its words with single spaces between them;
* `words_oneLine`, `oneLine_of_words_eq` — so it has the same words, and depends on nothing else.
-/

namespace SchemaCompletion.Text

variable {c d : Char} {cs ds : List Char}

/-! ## Words -/

theorem words_cons_of_isBlank (blank : isBlank c = true) : words (c :: cs) = words cs := by
  simp [words, blank]

theorem words_singleton (solid : isBlank c = false) : words [c] = [[c]] := by
  simp [words, solid]

/-- A word ends where white space begins. -/
theorem words_cons_blank (solid : isBlank c = false) (blank : isBlank d = true) :
    words (c :: d :: ds) = [c] :: words ds := by
  simp [words, solid, blank]

/-- Two characters that are not white space stand in one word. -/
theorem words_cons_solid (ds : List Char) (solid : isBlank c = false) (solid' : isBlank d = false) :
    ∃ w ws, words (d :: ds) = w :: ws ∧ words (c :: d :: ds) = (c :: w) :: ws := by
  have first : ∃ w ws, words (d :: ds) = w :: ws := by
    rw [words, solid', if_neg Bool.false_ne_true]
    split
    · exact ⟨_, _, rfl⟩
    · split
      · exact ⟨_, _, rfl⟩
      · exact ⟨_, _, rfl⟩
  rcases first with ⟨w, ws, begins⟩
  refine ⟨w, ws, begins, ?_⟩
  rw [words, begins]
  simp [solid, solid']

/-- A text without white space is one word. -/
theorem words_of_solid (filled : cs ≠ []) (solid : ∀ c ∈ cs, isBlank c = false) :
    words cs = [cs] := by
  induction cs with
  | nil =>
      exact absurd rfl filled
  | cons c cs ih =>
      rw [List.forall_mem_cons] at solid
      cases cs with
      | nil =>
          exact words_singleton solid.1
      | cons d ds =>
          rcases words_cons_solid ds solid.1 (solid.2 d List.mem_cons_self) with
            ⟨w, ws, begins, joined⟩
          rw [ih (List.cons_ne_nil d ds) solid.2] at begins
          cases begins
          exact joined

/-- White space between two texts keeps their words apart. -/
theorem words_append_blank (blank : isBlank d = true) (cs ds : List Char) :
    words (cs ++ d :: ds) = words cs ++ words ds := by
  induction cs with
  | nil =>
      exact words_cons_of_isBlank blank
  | cons c cs ih =>
      cases blank' : isBlank c with
      | true =>
          rw [List.cons_append, words_cons_of_isBlank blank', words_cons_of_isBlank blank', ih]
      | false =>
          cases cs with
          | nil =>
              rw [List.singleton_append, words_cons_blank blank' blank, words_singleton blank']
              rfl
          | cons e es =>
              cases blank'' : isBlank e with
              | true =>
                  rw [List.cons_append, words_cons_of_isBlank blank'',
                    words_cons_of_isBlank blank''] at ih
                  rw [List.cons_append, List.cons_append, words_cons_blank blank' blank'',
                    words_cons_blank blank' blank'', ih, List.cons_append]
              | false =>
                  -- the word goes on, in both texts in the same way
                  rcases words_cons_solid es blank' blank'' with ⟨w, ws, begins, joined⟩
                  rcases words_cons_solid (es ++ d :: ds) blank' blank'' with
                    ⟨w', ws', begins', joined'⟩
                  rw [begins, List.cons_append, begins', List.cons_append] at ih
                  rcases List.cons.inj ih with ⟨rfl, rfl⟩
                  rw [List.cons_append, List.cons_append, joined, joined', List.cons_append]

/-- White space in front of a text leaves its words as they are. -/
theorem words_append_of_blank (blank : ∀ c ∈ ds, isBlank c = true) (cs : List Char) :
    words (ds ++ cs) = words cs := by
  induction ds with
  | nil =>
      rfl
  | cons d ds ih =>
      rw [List.forall_mem_cons] at blank
      rw [List.cons_append, words_cons_of_isBlank blank.1, ih blank.2]

/-- White space between two texts, of any length, keeps their words apart. -/
theorem words_append_white {white : List Char} (filled : white ≠ [])
    (blank : ∀ c ∈ white, isBlank c = true) (cs ds : List Char) :
    words (cs ++ white ++ ds) = words cs ++ words ds := by
  rcases List.exists_cons_of_ne_nil filled with ⟨d, white, rfl⟩
  rw [List.forall_mem_cons] at blank
  rw [List.append_assoc, List.cons_append, words_append_blank blank.1,
    words_append_of_blank blank.2]

/-- Only white space has no words. -/
theorem words_eq_nil_iff : words cs = [] ↔ ∀ c ∈ cs, isBlank c = true := by
  induction cs with
  | nil =>
      simp [words]
  | cons c cs ih =>
      cases blank : isBlank c with
      | true =>
          rw [words_cons_of_isBlank blank, ih, List.forall_mem_cons]
          simp [blank]
      | false =>
          have filled : words (c :: cs) ≠ [] := by
            cases cs with
            | nil =>
                simp [words_singleton blank]
            | cons d ds =>
                cases blank' : isBlank d with
                | true =>
                    simp [words_cons_blank blank blank']
                | false =>
                    rcases words_cons_solid ds blank blank' with ⟨w, ws, -, joined⟩
                    simp [joined]
          simp [filled, blank]

/-- A word is not empty, and has no white space. -/
theorem not_isBlank_of_mem_words : ∀ w ∈ words cs, w ≠ [] ∧ ∀ c ∈ w, isBlank c = false := by
  induction cs with
  | nil =>
      simp [words]
  | cons c cs ih =>
      cases blank : isBlank c with
      | true =>
          rw [words_cons_of_isBlank blank]
          exact ih
      | false =>
          cases cs with
          | nil =>
              simp [words_singleton blank, blank]
          | cons d ds =>
              cases blank' : isBlank d with
              | true =>
                  rw [words_cons_of_isBlank blank'] at ih
                  rw [words_cons_blank blank blank']
                  exact List.forall_mem_cons.2 ⟨by simp [blank], ih⟩
              | false =>
                  rcases words_cons_solid ds blank blank' with ⟨w, ws, begins, joined⟩
                  rw [begins, List.forall_mem_cons] at ih
                  rw [joined, List.forall_mem_cons]
                  exact ⟨⟨by simp, List.forall_mem_cons.2 ⟨blank, ih.1.2⟩⟩, ih.2⟩

/-! ## Words with single spaces between them -/

/-- Words with single spaces between them are read back as they are. -/
theorem words_intercalate {ws : List (List Char)}
    (solid : ∀ w ∈ ws, w ≠ [] ∧ ∀ c ∈ w, isBlank c = false) :
    words ([' '].intercalate ws) = ws := by
  induction ws with
  | nil =>
      rfl
  | cons w ws ih =>
      rw [List.forall_mem_cons] at solid
      have first : words w = [w] := words_of_solid solid.1.1 solid.1.2
      cases ws with
      | nil =>
          simpa using first
      | cons w' ws =>
          rw [List.intercalate_cons_cons, List.append_assoc, List.singleton_append,
            words_append_blank isBlank_space, first, ih solid.2, List.singleton_append]

/-- All white space of a line is single spaces, each between two characters that are none. -/
def SingleSpaced (line : List Char) : Prop :=
  ∀ before c after, line = before ++ c :: after → isBlank c = true →
    c = ' ' ∧ ∃ front a b back, before = front ++ [a] ∧ after = b :: back ∧
      isBlank a = false ∧ isBlank b = false

theorem SingleSpaced.head?_ne {line : List Char} (spaced : SingleSpaced line) :
    line.head? ≠ some ' ' := by
  intro space
  rcases List.head?_eq_some_iff.1 space with ⟨after, rfl⟩
  rcases spaced [] ' ' after rfl isBlank_space with ⟨-, front, a, b, back, none, -⟩
  simp at none

theorem SingleSpaced.getLast?_ne {line : List Char} (spaced : SingleSpaced line) :
    line.getLast? ≠ some ' ' := by
  intro space
  rcases List.getLast?_eq_some_iff.1 space with ⟨before, rfl⟩
  rcases spaced before ' ' [] rfl isBlank_space with ⟨-, front, a, b, back, -, none, -⟩
  cases none

/-- A character that is not in the first part of a text stands behind it. -/
theorem exists_behind_of_not_mem {front rest before after : List Char} (outside : c ∉ front)
    (split : front ++ rest = before ++ c :: after) :
    ∃ part, before = front ++ part ∧ rest = part ++ c :: after := by
  rcases List.append_eq_append_iff.1 split with behind | ⟨part, rfl, starts⟩
  · exact behind
  · cases part with
    | nil =>
        exact ⟨[], by simp, by simpa using starts.symm⟩
    | cons d part =>
        rcases List.cons.inj starts with ⟨rfl, -⟩
        simp at outside

/-- Words with single spaces between them start with a character of the first word. -/
theorem intercalate_cons_eq_cons {w : List Char} (filled : w ≠ []) (ws : List (List Char)) :
    ∃ b ∈ w, ∃ back, [' '].intercalate (w :: ws) = b :: back := by
  rcases List.exists_cons_of_ne_nil filled with ⟨b, tail, rfl⟩
  cases ws with
  | nil =>
      exact ⟨b, List.mem_cons_self, tail, by simp⟩
  | cons w' ws =>
      exact ⟨b, List.mem_cons_self, _, List.intercalate_cons_cons⟩

theorem singleSpaced_intercalate {ws : List (List Char)}
    (solid : ∀ w ∈ ws, w ≠ [] ∧ ∀ c ∈ w, isBlank c = false) :
    SingleSpaced ([' '].intercalate ws) := by
  induction ws with
  | nil =>
      intro before c after split
      simp at split
  | cons w ws ih =>
      rw [List.forall_mem_cons] at solid
      intro before c after split blank
      have outside : c ∉ w := fun there => by simp [solid.1.2 c there] at blank
      cases ws with
      | nil =>
          have single : w = before ++ c :: after := by simpa using split
          exact absurd (by simp [single]) outside
      | cons w' ws =>
          rw [List.intercalate_cons_cons, List.append_assoc, List.singleton_append] at split
          -- the white space is behind the first word: it is the space there, or comes later
          rcases exists_behind_of_not_mem outside split with ⟨part, rfl, rest⟩
          cases part with
          | nil =>
              rcases List.cons.inj rest with ⟨space, rfl⟩
              rcases List.eq_nil_or_concat' w with none | ⟨front, a, rfl⟩
              · exact absurd none solid.1.1
              · have solid' := (List.forall_mem_cons.1 solid.2).1
                rcases intercalate_cons_eq_cons solid'.1 ws with ⟨b, mem, back, starts⟩
                exact ⟨space.symm, front, a, b, back, by simp, starts, solid.1.2 a (by simp),
                  solid'.2 b mem⟩
          | cons d part =>
              rcases ih solid.2 part c after (List.cons.inj rest).2 blank with
                ⟨space, front, a, b, back, rfl, rfl, solid'⟩
              exact ⟨space, w ++ d :: front, a, b, back, by simp, rfl, solid'⟩

/-! ## Trimming -/

theorem trimEnd_cons_of_not_isBlank (solid : isBlank c = false) :
    trimEnd (c :: cs) = c :: trimEnd cs := by
  rw [trimEnd]
  split
  · next nothing => simp [solid, nothing]
  · next rest => simp [rest]

theorem trimEnd_cons_of_isBlank (blank : isBlank c = true) :
    trimEnd (c :: cs) = if trimEnd cs = [] then [] else c :: trimEnd cs := by
  rw [trimEnd]
  split
  · next nothing => simp [blank, nothing]
  · next rest => simp [rest]

theorem trimEnd_eq_nil_iff : trimEnd cs = [] ↔ ∀ c ∈ cs, isBlank c = true := by
  induction cs with
  | nil =>
      simp [trimEnd]
  | cons c cs ih =>
      cases blank : isBlank c with
      | true =>
          simp [trimEnd_cons_of_isBlank blank, ih, blank]
      | false =>
          simp [trimEnd_cons_of_not_isBlank blank, blank]

/-- Trimming leaves nothing of a text that is all white space, and something of any other. -/
theorem trim_eq_nil_iff : trim cs = [] ↔ ∀ c ∈ cs, isBlank c = true := by
  rw [trim, trimEnd_eq_nil_iff, trimStart]
  induction cs with
  | nil =>
      simp
  | cons c cs ih =>
      cases blank : isBlank c with
      | true =>
          simp [blank, ih]
      | false =>
          simp [blank]

/-! ## One line -/

theorem collapse_cons_of_not_isBlank (solid : isBlank c = false) (inRun : Bool) :
    collapse inRun (c :: cs) = c :: collapse false cs := by
  simp [collapse, solid]

theorem collapse_true_cons_of_isBlank (blank : isBlank c = true) :
    collapse true (c :: cs) = collapse true cs := by
  simp [collapse, blank]

theorem collapse_false_cons_of_isBlank (blank : isBlank c = true) :
    collapse false (c :: cs) = ' ' :: collapse true cs := by
  simp [collapse, blank]

/-- Inside a run of white space nothing is left to trim at the front. -/
theorem trimStart_collapse_true : trimStart (collapse true cs) = collapse true cs := by
  induction cs with
  | nil =>
      rfl
  | cons c cs ih =>
      cases blank : isBlank c with
      | true =>
          rw [collapse_true_cons_of_isBlank blank, ih]
      | false =>
          simp [collapse_cons_of_not_isBlank blank, trimStart, blank]

theorem trimStart_collapse_false : trimStart (collapse false cs) = collapse true cs := by
  cases cs with
  | nil =>
      rfl
  | cons c cs =>
      cases blank : isBlank c with
      | true =>
          have space : trimStart (' ' :: collapse true cs) = trimStart (collapse true cs) := by
            simp [trimStart, isBlank_space]
          rw [collapse_false_cons_of_isBlank blank, space, trimStart_collapse_true,
            collapse_true_cons_of_isBlank blank]
      | false =>
          simp [collapse_cons_of_not_isBlank blank, trimStart, blank]

theorem intercalate_words_eq_nil_iff :
    [' '].intercalate (words cs) = [] ↔ words cs = [] := by
  cases found : words cs with
  | nil =>
      simp
  | cons w ws =>
      have mem : w ∈ words cs := found ▸ List.mem_cons_self
      rcases intercalate_cons_eq_cons (not_isBlank_of_mem_words w mem).1 ws with
        ⟨b, -, back, starts⟩
      simp [starts]

/-- From the first word on, a collapsed text is words and single spaces, but for a space at its
end. -/
theorem trimEnd_collapse : trimEnd (collapse true cs) = [' '].intercalate (words cs) := by
  -- by induction on the text; what follows a character decides whether its word goes on
  induction cs with
  | nil =>
      rfl
  | cons c cs ih =>
      cases blank : isBlank c with
      | true =>
          rw [collapse_true_cons_of_isBlank blank, words_cons_of_isBlank blank, ih]
      | false =>
          rw [collapse_cons_of_not_isBlank blank, trimEnd_cons_of_not_isBlank blank]
          cases cs with
          | nil =>
              simp [words_singleton blank, collapse, trimEnd]
          | cons d ds =>
              cases blank' : isBlank d with
              | true =>
                  rw [collapse_true_cons_of_isBlank blank', words_cons_of_isBlank blank'] at ih
                  rw [collapse_false_cons_of_isBlank blank', trimEnd_cons_of_isBlank isBlank_space,
                    ih, words_cons_blank blank blank']
                  simp only [intercalate_words_eq_nil_iff]
                  cases words ds with
                  | nil =>
                      simp
                  | cons w ws =>
                      simp
              | false =>
                  have same : collapse false (d :: ds) = collapse true (d :: ds) := by
                    simp only [collapse_cons_of_not_isBlank blank']
                  rcases words_cons_solid ds blank blank' with ⟨w, ws, begins, joined⟩
                  rw [same, ih, begins, joined]
                  cases ws with
                  | nil =>
                      simp
                  | cons w' ws =>
                      simp

/-- A text on one line is its words with single spaces between them. -/
theorem toList_oneLine (text : String) :
    (oneLine text).toList = [' '].intercalate (words text.toList) := by
  rw [oneLine, String.toList_ofList, trim, trimStart_collapse_false, trimEnd_collapse]

/-- Nothing is left on one line of white space alone, and something of any other text. -/
theorem oneLine_eq_empty_iff {text : String} :
    oneLine text = "" ↔ ∀ c ∈ text.toList, isBlank c = true := by
  rw [← String.toList_inj, toList_oneLine, String.toList_empty, intercalate_words_eq_nil_iff,
    words_eq_nil_iff]

/-- A text on one line has the same words. -/
theorem words_oneLine (text : String) : words (oneLine text).toList = words text.toList := by
  rw [toList_oneLine]
  exact words_intercalate not_isBlank_of_mem_words

/-- Texts with the same words are the same on one line. -/
theorem oneLine_of_words_eq {text text' : String} (same : words text.toList = words text'.toList) :
    oneLine text = oneLine text' := by
  rw [← String.toList_inj, toList_oneLine, toList_oneLine, same]

theorem singleSpaced_oneLine (text : String) : SingleSpaced (oneLine text).toList := by
  rw [toList_oneLine]
  exact singleSpaced_intercalate not_isBlank_of_mem_words

/-- On one line, the only white space is the space. -/
theorem eq_space_of_mem_oneLine {text : String} (mem : c ∈ (oneLine text).toList)
    (blank : isBlank c = true) : c = ' ' := by
  rcases List.append_of_mem mem with ⟨before, after, split⟩
  exact (singleSpaced_oneLine text before c after split blank).1

end SchemaCompletion.Text
