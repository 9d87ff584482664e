import SchemaCompletion.Sdl.SyntaxError
import SchemaCompletion.Text.LineBreak

/-!
# Line ends

A text against the same text with a line feed for every line end: the lines are the same, and what
has no line end stands where it stood.

* `starts_or_not`, `begins_or_not` — what stands at the front of a text;
* `takeWhile_unifyLineBreaks`, `dropWhile_unifyLineBreaks` — a run without line ends, and what
  follows it;
* `splitSourceLines_unifyLineBreaks`, `splitLines_unifyLineBreaks` — the lines;
* `SameReading`, `Unaffected` — a reading to which line ends make no difference.
-/

namespace SchemaCompletion

/-! ## Texts with line feeds only -/

namespace Text

theorem unifyLineBreaks_cons {c : Char} (other : c ≠ '\r') (cs : List Char) :
    unifyLineBreaks (c :: cs) = c :: unifyLineBreaks cs := by
  rw [unifyLineBreaks.eq_3 c cs (fun _ same => absurd same other), if_neg other]

/-- A carriage return becomes a line feed, and may take one with it. -/
theorem unifyLineBreaks_return (cs : List Char) :
    ∃ rest, unifyLineBreaks ('\r' :: cs) = '\n' :: rest := by
  by_cases pair : ∃ rest, cs = '\n' :: rest
  · rcases pair with ⟨rest, rfl⟩
    exact ⟨_, rfl⟩
  · rw [unifyLineBreaks.eq_3 '\r' cs fun rest _ same => pair ⟨rest, same⟩]
    exact ⟨_, rfl⟩

/-- What is no line end stands at the front of a text if it stands there with line feeds. -/
theorem unifyLineBreaks_eq_cons_iff {c : Char} (other : c ≠ '\r' ∧ c ≠ '\n') {cs ds : List Char} :
    unifyLineBreaks cs = c :: ds ↔ ∃ rest, cs = c :: rest ∧ unifyLineBreaks rest = ds := by
  constructor
  · intro same
    cases cs with
    | nil =>
        cases same
    | cons d cs =>
        by_cases returns : d = '\r'
        · subst returns
          rcases unifyLineBreaks_return cs with ⟨rest, first⟩
          cases first.symm.trans same
          exact absurd rfl other.2
        · rw [unifyLineBreaks_cons returns] at same
          cases same
          exact ⟨cs, rfl, rfl⟩
  · rintro ⟨rest, rfl, rfl⟩
    exact unifyLineBreaks_cons other.1 rest

/-- What has no line end stands at the front of a text if it stands there with line feeds. -/
theorem unifyLineBreaks_eq_append_iff {ds : List Char} (others : ∀ d ∈ ds, d ≠ '\r' ∧ d ≠ '\n')
    {cs es : List Char} :
    unifyLineBreaks cs = ds ++ es ↔ ∃ rest, cs = ds ++ rest ∧ unifyLineBreaks rest = es := by
  induction ds generalizing cs with
  | nil =>
      simp
  | cons d ds ih =>
      have first : d ≠ '\r' ∧ d ≠ '\n' := others d (by simp)
      rw [List.cons_append, unifyLineBreaks_eq_cons_iff first]
      constructor
      · rintro ⟨rest, rfl, tail⟩
        rcases (ih fun d mem => others d (by simp [mem])).1 tail with ⟨rest, rfl, same⟩
        exact ⟨rest, rfl, same⟩
      · rintro ⟨rest, rfl, same⟩
        exact ⟨ds ++ rest, rfl, (ih fun d mem => others d (by simp [mem])).2 ⟨rest, rfl, same⟩⟩

/-- What has no line end stands at the front of a text and of the same text with line feeds, or of
neither. -/
theorem starts_or_not (ds : List Char) (others : ∀ d ∈ ds, d ≠ '\r' ∧ d ≠ '\n') (cs : List Char) :
    (∃ rest, cs = ds ++ rest ∧ unifyLineBreaks (ds ++ rest) = ds ++ unifyLineBreaks rest) ∨
      (∀ rest, cs ≠ ds ++ rest) ∧ ∀ rest, unifyLineBreaks cs ≠ ds ++ rest := by
  by_cases starts : ∃ rest, cs = ds ++ rest
  · rcases starts with ⟨rest, rfl⟩
    exact .inl ⟨rest, rfl, (unifyLineBreaks_eq_append_iff others).2 ⟨rest, rfl, rfl⟩⟩
  · have absent : ∀ rest, cs ≠ ds ++ rest := fun rest same => starts ⟨rest, same⟩
    refine .inr ⟨absent, fun rest same => ?_⟩
    rcases (unifyLineBreaks_eq_append_iff others).1 same with ⟨rest, starts, -⟩
    exact absent rest starts

/-- A character that is no line end begins a text and the same text with line feeds, or neither. -/
theorem begins_or_not (c : Char) (other : c ≠ '\r' ∧ c ≠ '\n') (cs : List Char) :
    (∃ rest, cs = c :: rest ∧ unifyLineBreaks (c :: rest) = c :: unifyLineBreaks rest) ∨
      (∀ rest, cs ≠ c :: rest) ∧ ∀ rest, unifyLineBreaks cs ≠ c :: rest :=
  starts_or_not [c] (by simpa using other) cs

/-- A question to the first character that takes line ends alike. -/
theorem any_head?_unifyLineBreaks {p : Char → Bool} (alike : p '\r' = p '\n') (cs : List Char) :
    (unifyLineBreaks cs).head?.any p = cs.head?.any p := by
  cases cs with
  | nil =>
      rfl
  | cons c cs =>
      by_cases returns : c = '\r'
      · subst returns
        rcases unifyLineBreaks_return cs with ⟨rest, first⟩
        simp [first, alike]
      · simp [unifyLineBreaks_cons returns]

section

variable {p : Char → Bool} (noReturn : p '\r' = false) (noFeed : p '\n' = false)

include noReturn noFeed

/-- A run without line ends is the same with line feeds. -/
theorem takeWhile_unifyLineBreaks (cs : List Char) :
    (unifyLineBreaks cs).takeWhile p = cs.takeWhile p := by
  fun_induction unifyLineBreaks cs with
  | case1 =>
      rfl
  | case2 cs ih =>
      simp [noReturn, noFeed]
  | case3 c cs _ ih =>
      by_cases returns : c = '\r'
      · simp [returns, noReturn, noFeed]
      · simp [returns, List.takeWhile_cons, ih]

theorem dropWhile_unifyLineBreaks (cs : List Char) :
    (unifyLineBreaks cs).dropWhile p = unifyLineBreaks (cs.dropWhile p) := by
  fun_induction unifyLineBreaks cs with
  | case1 =>
      rfl
  | case2 cs ih =>
      simp [noReturn, noFeed, unifyLineBreaks]
  | case3 c cs pair ih =>
      by_cases returns : c = '\r'
      · subst returns
        simp [noReturn, noFeed, unifyLineBreaks.eq_3 '\r' cs pair]
      · cases continues : p c with
        | true =>
            simp [returns, continues, ih]
        | false =>
            simp [returns, continues, unifyLineBreaks_cons returns]

end

/-- The lines of a document are the same with line feeds. -/
theorem splitSourceLines_unifyLineBreaks (cs : List Char) :
    splitSourceLines (unifyLineBreaks cs) = splitSourceLines cs := by
  fun_induction unifyLineBreaks cs with
  | case1 =>
      rfl
  | case2 cs ih =>
      rw [splitSourceLines.eq_3 '\n' _ (by simp), if_pos (by decide), ih, splitSourceLines]
  | case3 c cs pair ih =>
      rw [splitSourceLines.eq_3 c cs pair]
      by_cases returns : c = '\r'
      · subst returns
        rw [if_pos rfl, splitSourceLines.eq_3 '\n' _ (by simp), if_pos (by decide), ih,
          if_pos (by decide)]
      · rw [if_neg returns, splitSourceLines.eq_3 c _ (fun _ same => absurd same returns), ih]

/-- The lines of Unicode text are the same with line feeds. -/
theorem splitLines_unifyLineBreaks (cs : List Char) :
    splitLines (unifyLineBreaks cs) = splitLines cs := by
  fun_induction unifyLineBreaks cs with
  | case1 =>
      rfl
  | case2 cs ih =>
      rw [splitLines.eq_3 '\n' _ (by simp), if_pos (by decide), ih, splitLines]
  | case3 c cs pair ih =>
      rw [splitLines.eq_3 c cs pair]
      by_cases returns : c = '\r'
      · subst returns
        rw [if_pos rfl, splitLines.eq_3 '\n' _ (by simp), if_pos (by decide), ih,
          if_pos (by decide)]
      · rw [if_neg returns, splitLines.eq_3 c _ (fun _ same => absurd same returns), ih]

end Text

namespace Sdl

open SchemaCompletion.Text

/-! ## Readings -/

/-- Two readings come to the same: both fail, or both read the same, and the first leaves what the
second leaves, with line feeds for all line ends. -/
inductive SameReading {α : Type} : Except LexicalError (α × List Char) →
    Except LexicalError (α × List Char) → Prop where
  | failure (e e' : LexicalError) : SameReading (.error e) (.error e')
  | success (a : α) (rest : List Char) :
      SameReading (.ok (a, unifyLineBreaks rest)) (.ok (a, rest))

variable {α β : Type}

theorem SameReading.bind {x x' : Except LexicalError (α × List Char)}
    {f f' : α × List Char → Except LexicalError (β × List Char)} (first : SameReading x x')
    (second : ∀ a rest, x' = .ok (a, rest) →
      SameReading (f (a, unifyLineBreaks rest)) (f' (a, rest))) :
    SameReading (x >>= f) (x' >>= f') := by
  cases first with
  | failure e e' =>
      exact .failure e e'
  | success a rest =>
      exact second a rest rfl

/-- Line ends make no difference to a reading. -/
def Unaffected (read : List Char → Except LexicalError (α × List Char)) : Prop :=
  ∀ cs, SameReading (read (unifyLineBreaks cs)) (read cs)

end Sdl

end SchemaCompletion
