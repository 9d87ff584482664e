import SchemaCompletion.Proofs.Printing.Words
import SchemaCompletion.Proofs.Reading.Blank
import SchemaCompletion.Proofs.Writing.Spelling

/-!
# Runs of a text on one line

A text on one line against the runs of characters that it had, found by their places.

* `Run`, `Run.Maximal` — a run of a text, and that it goes on neither way;
* `AllRuns` — all maximal runs of a text, from its start to its end;
* `AllRuns.unique`, `exists_allRuns` — there is one list of them, and it has the words of the text;
* `oneLine_joins_runs` — so a text on one line is its runs with single spaces between them, which
  settles what it shows of any text, and of texts that are put together.
-/

namespace SchemaCompletion.Text

variable {c : Char} {cs front rest : List Char}

/-! ## Maximal runs -/

/-- Some characters of a text, with what stands before and behind them. -/
structure Run where
  before : List Char
  letters : List Char
  behind : List Char

/-- A run of a text that has no white space, and stands between white space or the ends of the
text. -/
structure Run.Maximal (text : List Char) (r : Run) : Prop where
  text_eq : r.before ++ r.letters ++ r.behind = text
  filled : r.letters ≠ []
  solid : ∀ c ∈ r.letters, isBlank c = false
  opens : ∀ c ∈ r.before.getLast?, isBlank c = true
  closes : ∀ c ∈ r.behind.head?, isBlank c = true

/-- In a text that starts with white space, no run stands at the start. -/
theorem Run.Maximal.before_ne_nil {r : Run} (maximal : r.Maximal cs)
    (blank : ∀ c ∈ cs.head?, isBlank c = true) : r.before ≠ [] := by
  intro first
  rcases List.exists_cons_of_ne_nil maximal.filled with ⟨d, tail, starts⟩
  have head : cs.head? = some d := by simp [← maximal.text_eq, first, starts]
  have solid := maximal.solid d (by simp [starts])
  rw [blank d head] at solid
  cases solid

/-- All maximal runs of a text, from its start to its end. -/
structure AllRuns (text : List Char) (runs : List Run) : Prop where
  mem_iff : ∀ r, r ∈ runs ↔ r.Maximal text
  inOrder : runs.Pairwise fun r s => r.before.length < s.before.length

/-- A text has one list of all its maximal runs. -/
theorem AllRuns.unique {text : List Char} {runs runs' : List Run} (all : AllRuns text runs)
    (all' : AllRuns text runs') : runs = runs' := by
  have distinct {runs : List Run} (all : AllRuns text runs) : runs.Nodup :=
    all.inOrder.imp fun less same => absurd (same ▸ less) (Nat.lt_irrefl _)
  have same : runs.Perm runs' :=
    (List.perm_ext_iff_of_nodup (distinct all) (distinct all')).2 fun r =>
      (all.mem_iff r).trans (all'.mem_iff r).symm
  exact same.eq_of_pairwise (fun _ _ _ _ less less' => absurd less (Nat.lt_asymm less')) all.inOrder
    all'.inOrder

/-! ## Runs behind the front of a text -/

/-- The same run in a text with something more in front. -/
def Run.moved (front : List Char) (r : Run) : Run := { r with before := front ++ r.before }

theorem Run.map_letters_moved (front : List Char) (runs : List Run) :
    (runs.map (Run.moved front)).map Run.letters = runs.map Run.letters := by
  rw [List.map_map]
  rfl

/-- A run stays maximal behind something more, unless it is right behind a character that would
belong to it. -/
theorem Run.maximal_moved_iff (front cs : List Char) (r : Run) :
    (r.moved front).Maximal (front ++ cs) ↔
      r.Maximal cs ∧ (r.before = [] → ∀ c ∈ front.getLast?, isBlank c = true) := by
  have opens : (∀ c ∈ (front ++ r.before).getLast?, isBlank c = true) ↔
      (∀ c ∈ r.before.getLast?, isBlank c = true) ∧
        (r.before = [] → ∀ c ∈ front.getLast?, isBlank c = true) := by
    rcases List.eq_nil_or_concat' r.before with none | ⟨before, c, some⟩
    · simp [none]
    · simp [some]
  constructor
  · rintro ⟨text_eq, filled, solid, before, closes⟩
    rcases opens.1 before with ⟨opens, next⟩
    exact ⟨⟨by simpa [moved] using text_eq, filled, solid, opens, closes⟩, next⟩
  · rintro ⟨⟨text_eq, filled, solid, before, closes⟩, next⟩
    exact ⟨by simp [moved, ← text_eq], filled, solid, opens.2 ⟨before, next⟩, closes⟩

theorem AllRuns.nil : AllRuns [] [] where
  mem_iff r := by
    constructor
    · intro mem
      cases mem
    · intro maximal
      have empty := maximal.text_eq
      simp only [List.append_eq_nil_iff] at empty
      exact absurd empty.1.2 maximal.filled
  inOrder := .nil

/-- Moving runs keeps their order. -/
theorem AllRuns.moved_inOrder {runs : List Run} (all : AllRuns cs runs) (front : List Char) :
    (runs.map (Run.moved front)).Pairwise fun r s => r.before.length < s.before.length :=
  all.inOrder.map _ fun r s less => by simpa [Run.moved] using less

/-- White space in front of a text is in none of its runs. -/
theorem AllRuns.cons_blank {runs : List Run} (blank : isBlank c = true) (all : AllRuns cs runs) :
    AllRuns (c :: cs) (runs.map (Run.moved [c])) where
  inOrder := all.moved_inOrder [c]
  mem_iff s := by
    constructor
    · intro mem
      rcases List.mem_map.1 mem with ⟨r, there, rfl⟩
      exact (Run.maximal_moved_iff [c] cs r).2
        ⟨(all.mem_iff r).1 there, fun _ => by simpa using blank⟩
    · intro maximal
      rcases s with ⟨before, letters, behind⟩
      cases before with
      | nil =>
          exact absurd rfl (maximal.before_ne_nil (by simpa using blank))
      | cons d before =>
          obtain rfl : d = c := (List.cons.inj maximal.text_eq).1
          have earlier : Run.Maximal cs ⟨before, letters, behind⟩ :=
            ((Run.maximal_moved_iff [d] cs ⟨before, letters, behind⟩).1 maximal).1
          exact List.mem_map.2 ⟨_, (all.mem_iff _).2 earlier, rfl⟩

/-- A text begins with at most one word that ends at white space or at the end of the text. -/
theorem word_unique {word word' rest' : List Char} (solid : ∀ c ∈ word, isBlank c = false)
    (closes : ∀ c ∈ rest.head?, isBlank c = true) (solid' : ∀ c ∈ word', isBlank c = false)
    (closes' : ∀ c ∈ rest'.head?, isBlank c = true) (same : word ++ rest = word' ++ rest') :
    word = word' ∧ rest = rest' := by
  have taken {word rest : List Char} (solid : ∀ c ∈ word, isBlank c = false)
      (closes : ∀ c ∈ rest.head?, isBlank c = true) :
      (word ++ rest).takeWhile (!isBlank ·) = word := by
    have clear : Sdl.Clear (!isBlank ·) rest := fun c mem => by simp [closes c mem]
    exact clear.takeWhile_append fun c there => by simp [solid c there]
  have words : word = word' := by
    rw [← taken solid closes, same, taken solid' closes']
  subst words
  exact ⟨rfl, List.append_cancel_left same⟩

/-- A word at the front of a text, up to white space or the end of the text, is its first run. -/
theorem AllRuns.word_append {word : List Char} {runs : List Run} (filled : word ≠ [])
    (solid : ∀ c ∈ word, isBlank c = false) (closes : ∀ c ∈ rest.head?, isBlank c = true)
    (all : AllRuns rest runs) :
    AllRuns (word ++ rest) (⟨[], word, rest⟩ :: runs.map (Run.moved word)) where
  inOrder := by
    refine List.pairwise_cons.2 ⟨?_, all.moved_inOrder word⟩
    intro s mem
    rcases List.mem_map.1 mem with ⟨r, -, rfl⟩
    have moved : word.length ≤ (r.moved word).before.length := by simp [Run.moved]
    exact Nat.lt_of_lt_of_le (List.length_pos_iff.2 filled) moved
  mem_iff s := by
    rw [List.mem_cons]
    constructor
    · rintro (rfl | mem)
      · exact ⟨by simp, filled, solid, by simp, closes⟩
      · rcases List.mem_map.1 mem with ⟨r, there, rfl⟩
        have maximal := (all.mem_iff r).1 there
        exact (Run.maximal_moved_iff word rest r).2
          ⟨maximal, fun first => absurd first (maximal.before_ne_nil closes)⟩
    · intro maximal
      rcases s with ⟨before, letters, behind⟩
      rcases List.eq_nil_or_concat' before with rfl | ⟨before, d, rfl⟩
      · rcases word_unique maximal.solid maximal.closes solid closes maximal.text_eq with ⟨rfl, rfl⟩
        exact .inl rfl
      · -- the white space in front of the run is not in the word, and so stands behind it
        have blank : isBlank d = true := maximal.opens d (by simp)
        have outside : d ∉ word := fun there => by simp [solid d there] at blank
        have split : word ++ rest = before ++ d :: (letters ++ behind) := by
          simp [← maximal.text_eq]
        rcases exists_behind_of_not_mem outside split with ⟨part, rfl, -⟩
        have later : Run.Maximal rest ⟨part ++ [d], letters, behind⟩ :=
          ((Run.maximal_moved_iff word rest _).1 (by simpa [Run.moved] using maximal)).1
        exact .inr (List.mem_map.2 ⟨_, (all.mem_iff _).2 later, by simp [Run.moved]⟩)

/-- Every text has a list of all its maximal runs, and they are its words. -/
theorem exists_allRuns (text : List Char) :
    ∃ runs, AllRuns text runs ∧ runs.map Run.letters = words text := by
  -- by induction on the text, with the part of a word that has been read already
  suffices ∀ word, (∀ c ∈ word, isBlank c = false) →
      ∃ runs, AllRuns (word ++ text) runs ∧ runs.map Run.letters = words (word ++ text) from
    this [] (by simp)
  induction text with
  | nil =>
      intro word solid
      by_cases filled : word = []
      · subst filled
        exact ⟨[], .nil, rfl⟩
      · exact ⟨_, AllRuns.nil.word_append filled solid (by simp),
          by simp [words_of_solid filled solid]⟩
  | cons c cs ih =>
      intro word solid
      cases blank : isBlank c with
      | false =>
          have longer := ih (word ++ [c]) (by simpa [or_imp, forall_and] using ⟨solid, blank⟩)
          simpa using longer
      | true =>
          rcases ih [] (by simp) with ⟨runs, all, same⟩
          have behind := all.cons_blank blank
          by_cases filled : word = []
          · subst filled
            refine ⟨_, behind, ?_⟩
            rw [Run.map_letters_moved, same]
            exact (words_cons_of_isBlank blank).symm
          · refine ⟨_, behind.word_append filled solid (by simpa using blank), ?_⟩
            rw [words_append_blank blank, words_of_solid filled solid, List.map_cons,
              Run.map_letters_moved, Run.map_letters_moved, same]
            rfl

/-! ## Texts on one line -/

/-- No line break of Unicode text is left on one line. -/
theorem isLineBreak_of_mem_oneLine {text : String} (mem : c ∈ (oneLine text).toList) :
    isLineBreak c = false := by
  cases ends : isLineBreak c with
  | false =>
      rfl
  | true =>
      obtain rfl := eq_space_of_mem_oneLine mem (isBlank_of_isLineBreak ends)
      have goesOn : isLineBreak ' ' = false := by decide
      exact ends.symm.trans goesOn

/-- White space between two texts, of any kind and length, counts as a space between their lines. -/
theorem oneLine_append {white : String} (filled : white ≠ "")
    (blank : ∀ c ∈ white.toList, isBlank c = true) (text text' : String) :
    oneLine (text ++ white ++ text') = oneLine (oneLine text ++ " " ++ oneLine text') := by
  have filled' : white.toList ≠ [] := fun none => filled (String.toList_inj.1 none)
  have space : ∀ c ∈ " ".toList, isBlank c = true := List.all_eq_true.1 (by decide)
  apply oneLine_of_words_eq
  calc
    words (text ++ white ++ text').toList
        = words text.toList ++ words text'.toList := by
          rw [String.toList_append, String.toList_append, words_append_white filled' blank]
    _ = words (oneLine text).toList ++ words (oneLine text').toList := by
          rw [words_oneLine, words_oneLine]
    _ = words (oneLine text ++ " " ++ oneLine text').toList := by
          rw [String.toList_append, String.toList_append, words_append_white (by decide) space]

/-- A text has one list of all its maximal runs of characters that are not white space, and on one
line it is these runs with single spaces between them. So it neither starts nor ends with a space
there, has no white space but single spaces between other characters, and no line break of any kind.
It is empty exactly if all of the text is white space, which is to say that trimming leaves nothing
of it. Being on one line already, it does not change again; and of two texts with white space
between them, of any kind and length, the same is left as of their lines with a space between
them. -/
theorem oneLine_joins_runs (text : String) :
    (∃ runs, (∀ runs', AllRuns text.toList runs' ↔ runs' = runs) ∧
      (oneLine text).toList = [' '].intercalate (runs.map Run.letters)) ∧
    (oneLine text).toList.head? ≠ some ' ' ∧ (oneLine text).toList.getLast? ≠ some ' ' ∧
    SingleSpaced (oneLine text).toList ∧
    (∀ c ∈ (oneLine text).toList, isLineBreak c = false) ∧
    (oneLine text = "" ↔ ∀ c ∈ text.toList, isBlank c = true) ∧
    (oneLine text = "" ↔ trim text.toList = []) ∧
    oneLine (oneLine text) = oneLine text ∧
    ∀ white text' : String, white ≠ "" → (∀ c ∈ white.toList, isBlank c = true) →
      oneLine (text ++ white ++ text') = oneLine (oneLine text ++ " " ++ oneLine text') := by
  rcases exists_allRuns text.toList with ⟨runs, all, same⟩
  have spaced := singleSpaced_oneLine text
  refine ⟨⟨runs, fun runs' => ⟨fun all' => all'.unique all, ?_⟩, ?_⟩, spaced.head?_ne,
    spaced.getLast?_ne, spaced, fun c mem => isLineBreak_of_mem_oneLine mem, oneLine_eq_empty_iff,
    oneLine_eq_empty_iff.trans trim_eq_nil_iff.symm, oneLine_of_words_eq (words_oneLine text),
    fun white text' filled blank => oneLine_append filled blank text text'⟩
  · rintro rfl
    exact all
  · rw [toList_oneLine, same]

/-- Two texts with a wide space, a line separator and a carriage return in them, and a unit
separator and a line feed between them. -/
theorem oneLine_joins_runs_around_separators :
    let text := "\u2003a\u2028b \t"
    let white := "\x1f\n"
    white ≠ "" ∧ (∀ c ∈ white.toList, isBlank c = true) ∧ oneLine text = "a b" ∧
      oneLine (text ++ white ++ "\rc d") = oneLine (oneLine text ++ " " ++ oneLine "\rc d") ∧
      oneLine (text ++ white ++ "\rc d") = "a b c d" := by
  intro text white
  have filled : white ≠ "" := by decide
  have blank : ∀ c ∈ white.toList, isBlank c = true := List.all_eq_true.1 (by decide)
  rcases oneLine_joins_runs text with ⟨-, -, -, -, -, -, -, -, joins⟩
  exact ⟨filled, blank, by decide, joins white "\rc d" filled blank, by decide⟩

end SchemaCompletion.Text
