import SchemaCompletion.Proofs.Writing.Indentation
import SchemaCompletion.Proofs.Writing.Spelling

/-!
# Printed block strings

A value of a block string that is printed as one is read as the same value, however far the printed
lines are moved to the right.

* `escapeTripleQuotes_append`, `moveLines_escapeTripleQuotes` — escapes, and what stands around or
  inside them;
* `readBlock_escaped` — an escaped text is read up to the closing marks;
* `framed` — a value with the line breaks of its layout; `blockValue_framed` — which are no part of
  it;
* `printBlock_spells` — the whole literal.
-/

namespace SchemaCompletion.Sdl

open SchemaCompletion.Text

section

variable {c : Char} {cs ds : List Char}

/-! ## Escapes -/

/-- Where no triple quotation mark begins, a character stays as it is. -/
theorem escapeTripleQuotes_cons (single : ∀ rest, c :: cs ≠ ['"', '"', '"'] ++ rest) :
    escapeTripleQuotes (c :: cs) = c :: escapeTripleQuotes cs :=
  escapeTripleQuotes.eq_2 c cs fun rest first others => single rest (by rw [first, others]; rfl)

theorem escapeTripleQuotes_other (other : c ≠ '"') (cs : List Char) :
    escapeTripleQuotes (c :: cs) = c :: escapeTripleQuotes cs :=
  escapeTripleQuotes_cons fun _ same => other (List.cons.inj same).1

theorem escapeTripleQuotes_plain (plain : '"' ∉ ds) (cs : List Char) :
    escapeTripleQuotes (ds ++ cs) = ds ++ escapeTripleQuotes cs := by
  induction ds with
  | nil =>
      rfl
  | cons d ds ih =>
      rw [List.cons_append, escapeTripleQuotes_other fun same => plain (same ▸ List.mem_cons_self),
        ih fun mem => plain (List.mem_cons_of_mem d mem), List.cons_append]

/-- In front of a text that does not begin with a quotation mark escapes end where the text
begins. -/
theorem escapeTripleQuotes_append (clear : Clear (· == '"') ds) (cs : List Char) :
    escapeTripleQuotes (cs ++ ds) = escapeTripleQuotes cs ++ escapeTripleQuotes ds := by
  fun_induction escapeTripleQuotes cs with
  | case1 cs ih =>
      simp only [List.cons_append, escapeTripleQuotes, ih]
  | case2 c cs single ih =>
      rw [List.cons_append, escapeTripleQuotes_cons, ih, List.cons_append]
      -- a mark that began inside would have to go on with the text behind
      intro rest same
      match cs with
      | [] =>
          cases ds with
          | nil =>
              cases same
          | cons d ds =>
              cases same
              cases clear '"' rfl
      | [d] =>
          cases ds with
          | nil =>
              cases same
          | cons e ds =>
              cases same
              cases clear '"' rfl
      | d :: e :: cs =>
          cases same
          exact single cs rfl rfl
  | case3 =>
      rfl

/-- What is no line feed stands at the front of a text if it stands there after the lines were
moved. -/
theorem moveLines_eq_cons {k : Nat} (other : c ≠ '\n') (same : moveLines k cs = c :: ds) :
    ∃ rest, cs = c :: rest ∧ moveLines k rest = ds := by
  cases cs with
  | nil =>
      cases same
  | cons d cs =>
      by_cases newline : d = '\n'
      · subst newline
        rw [moveLines_newline] at same
        exact absurd (List.cons.inj same).1.symm other
      · rw [moveLines_cons newline] at same
        cases same
        exact ⟨cs, rfl, rfl⟩

/-- Moving lines does not touch quotation marks. -/
theorem moveLines_escapeTripleQuotes (k : Nat) (cs : List Char) :
    moveLines k (escapeTripleQuotes cs) = escapeTripleQuotes (moveLines k cs) := by
  fun_induction escapeTripleQuotes cs with
  | case1 cs ih =>
      simp [moveLines_cons, escapeTripleQuotes, ih]
  | case2 c cs single ih =>
      by_cases newline : c = '\n'
      · subst newline
        have plain : '"' ∉ List.replicate k ' ' := fun mem => by cases List.eq_of_mem_replicate mem
        rw [moveLines_newline, moveLines_newline, escapeTripleQuotes_other (by decide),
          escapeTripleQuotes_plain plain, ih]
      · rw [moveLines_cons newline, moveLines_cons newline, escapeTripleQuotes_cons, ih]
        intro rest same
        rcases List.cons.inj same with ⟨rfl, second⟩
        rcases moveLines_eq_cons (by decide) second with ⟨ds, rfl, third⟩
        rcases moveLines_eq_cons (by decide) third with ⟨ds, rfl, -⟩
        exact single ds rfl rfl
  | case3 =>
      rfl

/-! ## Reading -/

/-- An escaped text that does not end with a quotation mark does not begin with the closing
marks. -/
theorem escapeTripleQuotes_not_begins (filled : cs ≠ []) (ends : ∀ c ∈ cs.getLast?, c ≠ '"')
    (tail rest : List Char) : escapeTripleQuotes cs ++ tail ≠ ['"', '"', '"'] ++ rest := by
  intro same
  by_cases triple : ∃ rest, cs = ['"', '"', '"'] ++ rest
  · rcases triple with ⟨rest', rfl⟩
    change '\\' :: _ = _ at same
    cases same
  -- otherwise the marks at the front would be the first characters of the text,
  -- and it has more than two
  have single : ∀ rest, cs ≠ ['"', '"', '"'] ++ rest := fun rest same => triple ⟨rest, same⟩
  match cs with
  | [] =>
      exact filled rfl
  | [c] =>
      rw [escapeTripleQuotes_cons single] at same
      exact ends c rfl (List.cons.inj same).1
  | c :: d :: ds =>
      rw [escapeTripleQuotes_cons single] at same
      rcases List.cons.inj same with ⟨rfl, second⟩
      have single' : ∀ rest, d :: ds ≠ ['"', '"', '"'] ++ rest := by
        rintro rest same
        cases same
        exact single _ rfl
      rw [escapeTripleQuotes_cons single'] at second
      rcases List.cons.inj second with ⟨rfl, third⟩
      match ds with
      | [] =>
          exact ends '"' rfl rfl
      | e :: ds =>
          have other : e ≠ '"' := by
            rintro rfl
            exact single ds rfl
          rw [escapeTripleQuotes_other other] at third
          exact other (List.cons.inj third).1

/-- The last character of a text is that of the text with more in front. -/
theorem getLast?_behind {P : Char → Prop} (front : List Char)
    (ends : ∀ c ∈ (front ++ cs).getLast?, P c) :
    ∀ c ∈ cs.getLast?, P c := by
  intro c mem
  have last : (front ++ cs).getLast? = some c := by
    rw [List.getLast?_append, Option.mem_def.1 mem, Option.some_or]
  exact ends c last

/-- An escaped text is read up to the closing marks, if these are not taken for a part of it. -/
theorem readBlock_escaped (ends : ∀ c ∈ cs.getLast?, c ≠ '"' ∧ c ≠ '\\') (rest : List Char) :
    readBlock (escapeTripleQuotes cs ++ (['"', '"', '"'] ++ rest)) = .ok (cs, rest) := by
  fun_induction escapeTripleQuotes cs with
  | case1 cs ih =>
      have behind := getLast?_behind ['"', '"', '"'] ends
      change readBlock ('\\' :: '"' :: '"' :: '"' :: (escapeTripleQuotes cs ++ _)) = _
      rw [readBlock_escape, ih behind]
      rfl
  | case2 c cs single ih =>
      have behind := getLast?_behind [c] ends
      -- neither closing marks nor an escape of them stand in front
      have close : ∀ rest', c :: (escapeTripleQuotes cs ++ (['"', '"', '"'] ++ rest)) ≠
          ['"', '"', '"'] ++ rest' := by
        intro rest' same
        refine escapeTripleQuotes_not_begins (List.cons_ne_nil c cs) (fun d mem => (ends d mem).1)
          (['"', '"', '"'] ++ rest) rest' ?_
        rw [escapeTripleQuotes.eq_2 c cs single]
        exact same
      have escape : ∀ rest', c :: (escapeTripleQuotes cs ++ (['"', '"', '"'] ++ rest)) ≠
          ['\\', '"', '"', '"'] ++ rest' := by
        intro rest' same
        rcases List.cons.inj same with ⟨rfl, others⟩
        have filled : cs ≠ [] := by
          rintro rfl
          exact (ends '\\' rfl).2 rfl
        exact escapeTripleQuotes_not_begins filled (fun d mem => (behind d mem).1) _ rest' others
      rw [List.cons_append, readBlock_character close escape, ih behind]
      rfl
  | case3 =>
      rfl

/-! ## Layout -/

/-- A value with the line breaks around it that its layout asks for. -/
def framed (layout : BlockLayout) (value : List Char) : List Char :=
  (if layout.breakBefore then ['\n'] else []) ++ value ++ (if layout.breakAfter then ['\n'] else [])

theorem mem_escapeTripleQuotes (other : c ≠ '\\') : c ∈ escapeTripleQuotes cs ↔ c ∈ cs := by
  fun_induction escapeTripleQuotes cs with
  | case1 cs ih =>
      simp [other, ih]
  | case2 d cs _ ih =>
      simp [ih]
  | case3 =>
      simp

theorem clean_escapeTripleQuotes : Clean (escapeTripleQuotes cs) ↔ Clean cs := by
  have iff (lines : List Char) : Clean lines ↔ '\n' ∉ lines ∧ '\r' ∉ lines :=
    ⟨fun clean => ⟨fun mem => (clean _ mem).1 rfl, fun mem => (clean _ mem).2 rfl⟩,
      fun absent c mem => ⟨fun same => absent.1 (same ▸ mem), fun same => absent.2 (same ▸ mem)⟩⟩
  rw [iff, iff, mem_escapeTripleQuotes (by decide), mem_escapeTripleQuotes (by decide)]

theorem single_iff :
    ((splitSourceLines (escapeTripleQuotes cs)).length == 1) = true ↔ Clean cs := by
  rw [beq_iff_eq, length_splitSourceLines_eq_one_iff, clean_escapeTripleQuotes]

/-- The line breaks of the layout are inside the escaped text. -/
theorem printBlock_eq (value : String) :
    printBlock value = ['"', '"', '"'] ++
      (escapeTripleQuotes (framed (blockLayout value.toList) value.toList) ++ ['"', '"', '"']) := by
  have behind : Clear (· == '"')
      (if (blockLayout value.toList).breakAfter then ['\n'] else []) := by
    split
    · exact clear_cons (by decide)
    · exact clear_nil
  have front : '"' ∉ (if (blockLayout value.toList).breakBefore then ['\n'] else []) := by
    split <;> simp
  have last : escapeTripleQuotes (if (blockLayout value.toList).breakAfter then ['\n'] else []) =
      if (blockLayout value.toList).breakAfter then ['\n'] else [] := by
    split <;> simp [escapeTripleQuotes]
  rw [framed, List.append_assoc, escapeTripleQuotes_plain front,
    escapeTripleQuotes_append behind, last]
  simp [printBlock]

/-- Without a break in front of it the value is one line. -/
theorem blockLayout_unbroken (unbroken : (blockLayout cs).breakBefore = false) : Clean cs := by
  by_contra several
  have lines := eq_false_of_ne_true (mt single_iff.1 several)
  simp [blockLayout, lines] at unbroken

/-- With a break in front of it the value has one behind it, too, and it is not one indented
line. -/
theorem blockLayout_broken (broken : (blockLayout cs).breakBefore = true) :
    (blockLayout cs).breakAfter = true ∧ (Clean cs → ∀ c ∈ cs.head?, isIndent c = false) := by
  have ended : (blockLayout cs).breakAfter = true := by
    simp only [blockLayout, Bool.or_eq_true, Bool.and_eq_true] at broken ⊢
    rcases broken with ⟨several, -⟩ | indented
    · exact .inl several
    · exact .inl (.inl (.inr indented))
  refine ⟨ended, fun clean c mem => ?_⟩
  have first : cs.head?.map isIndent = some (isIndent c) := by
    rw [Option.mem_def.1 mem, Option.map_some]
  simp only [blockLayout, single_iff.2 clean, first, Bool.not_true, Bool.false_and, Bool.or_false,
    Bool.true_and, Option.getD_some, Bool.and_eq_true, Bool.not_eq_true'] at broken
  exact broken.2

/-- Without a break behind it the value does not end with a character that the closing marks would
change. -/
theorem blockLayout_unended (unended : (blockLayout cs).breakAfter = false) :
    ∀ c ∈ cs.getLast?, c ≠ '"' ∧ c ≠ '\\' := by
  intro c mem
  simp only [blockLayout, Bool.or_eq_false_iff] at unended
  rcases unended with ⟨⟨-, triple⟩, quote, slash⟩
  rw [Option.mem_def.1 mem] at quote slash
  rw [triple] at quote
  exact ⟨by simpa using quote, by simpa using slash⟩

/-! ## Values -/

/-- The value of a block string is made of lines as they are left without layout. -/
theorem exists_lines (raw : List Char) : ∃ lines, blockValue raw = ['\n'].intercalate lines ∧
    Dedented lines ∧ ∀ line ∈ lines, Clean line :=
  ⟨dedent (splitSourceLines raw), rfl, dedented_dedent _,
    clean_of_mem_dedent fun _ mem => clean_of_mem_splitSourceLines _ mem⟩

/-- The value of joined lines that are moved to the right. -/
theorem blockValue_moveLines {line : List Char} {lines : List (List Char)} (k : Nat)
    (clean : ∀ l ∈ line :: lines, Clean l) :
    blockValue (moveLines k (['\n'].intercalate (line :: lines))) =
      ['\n'].intercalate (dedent (line :: lines.map (indentBy k))) := by
  have indented : ∀ l ∈ line :: lines.map (indentBy k), Clean l := by
    intro l mem
    rcases List.mem_cons.1 mem with rfl | mem
    · exact clean l List.mem_cons_self
    · rcases List.mem_map.1 mem with ⟨original, there, rfl⟩
      exact (clean original (List.mem_cons_of_mem line there)).indentBy k
  rw [moveLines_lines clean, blockValue,
    splitSourceLines_intercalate (List.cons_ne_nil _ _) indented]

/-- Joined lines are one line only if there are no two of them. -/
theorem eq_nil_or_singleton_of_clean {lines : List (List Char)}
    (clean : Clean (['\n'].intercalate lines)) :
    lines = [] ∨ ∃ line, lines = [line] := by
  match lines with
  | [] =>
      exact .inl rfl
  | [line] =>
      exact .inr ⟨line, rfl⟩
  | line :: next :: lines =>
      rw [List.intercalate_cons_cons] at clean
      exact absurd rfl (clean '\n' (by simp)).1

theorem intercalate_concat {lines : List (List Char)} (filled : lines ≠ []) :
    ['\n'].intercalate (lines ++ [[]]) = ['\n'].intercalate lines ++ ['\n'] := by
  induction lines with
  | nil =>
      exact absurd rfl filled
  | cons line lines ih =>
      cases lines with
      | nil =>
          simp [List.intercalate_cons_cons]
      | cons next lines =>
          rw [List.cons_append, List.cons_append, List.intercalate_cons_cons,
            List.intercalate_cons_cons, ← List.cons_append, ih (List.cons_ne_nil _ _),
            ← List.append_assoc]

/-- A line without indentation at its front, or one of several lines, is flush. -/
theorem exists_flush_of_broken {lines : List (List Char)} (value : Dedented lines)
    (filled : lines ≠ []) (clean : ∀ line ∈ lines, Clean line)
    (broken : (blockLayout (['\n'].intercalate lines)).breakBefore = true) :
    ∃ line ∈ lines, isBlankLine line = false ∧ indentWidth line = 0 := by
  match lines with
  | [line] =>
      rw [List.intercalate_singleton] at broken
      have head := (blockLayout_broken broken).2 (clean line List.mem_cons_self)
      refine ⟨line, List.mem_cons_self, value.first line rfl, ?_⟩
      have clear : Clear isIndent line := head
      rw [indentWidth, clear.takeWhile, List.length_nil]
  | line :: next :: lines =>
      exact value.flush (by simp)

/-- A value between line breaks, with all of its lines indented. -/
theorem blockValue_broken {lines : List (List Char)} (value : Dedented lines) (filled : lines ≠ [])
    (clean : ∀ line ∈ lines, Clean line)
    (flush : ∃ line ∈ lines, isBlankLine line = false ∧ indentWidth line = 0) (k : Nat) :
    blockValue (moveLines k ('\n' :: (['\n'].intercalate lines ++ ['\n']))) =
      ['\n'].intercalate lines := by
  have whole : '\n' :: (['\n'].intercalate lines ++ ['\n']) =
      ['\n'].intercalate ([] :: (lines ++ [[]])) := by
    rw [List.intercalate_cons_of_ne_nil (by simp), intercalate_concat filled]
    simp
  have cleanWhole : ∀ l ∈ [] :: (lines ++ [[]]), Clean l := by
    intro l mem
    rcases List.mem_cons.1 mem with rfl | mem
    · exact clean_nil
    · rcases List.mem_append.1 mem with mem | last
      · exact clean l mem
      · rw [List.mem_singleton.1 last]
        exact clean_nil
  rw [whole, blockValue_moveLines k cleanWhole, value.dedent_indented flush]

/-- A value of a single line, perhaps with a line of white space behind it. -/
theorem blockValue_single {line : List Char} (value : Dedented [line]) (clean : Clean line)
    (ended : Bool) (k : Nat) :
    blockValue (moveLines k (line ++ if ended then ['\n'] else [])) = line := by
  have single := value.dedent_single k
  cases ended with
  | true =>
      have whole : line ++ ['\n'] = ['\n'].intercalate [line, []] := by
        simp [List.intercalate_cons_cons]
      rw [if_pos rfl, whole, blockValue_moveLines k (by simpa using clean),
        List.map_singleton, single.2, List.intercalate_singleton]
  | false =>
      have whole : line = ['\n'].intercalate [line] := List.intercalate_singleton.symm
      rw [if_neg Bool.false_ne_true, List.append_nil, whole,
        blockValue_moveLines k (by simpa using clean), List.map_nil, single.1]

/-- Neither the line breaks of the layout nor the indentation shows in the value. -/
theorem blockValue_framed {lines : List (List Char)} (value : Dedented lines)
    (clean : ∀ line ∈ lines, Clean line) (k : Nat) :
    blockValue
      (moveLines k (framed (blockLayout (['\n'].intercalate lines)) (['\n'].intercalate lines))) =
      ['\n'].intercalate lines := by
  by_cases filled : lines = []
  · subst filled
    rfl
  cases before : (blockLayout (['\n'].intercalate lines)).breakBefore with
  | true =>
      have flush := exists_flush_of_broken value filled clean before
      have broken := blockValue_broken value filled clean flush k
      simpa [framed, before, (blockLayout_broken before).1] using broken
  | false =>
      rcases eq_nil_or_singleton_of_clean (blockLayout_unbroken before) with rfl | ⟨line, rfl⟩
      · exact absurd rfl filled
      · rw [framed, before, List.intercalate_singleton]
        exact blockValue_single value (clean line List.mem_cons_self) _ k

/-- What stands in front of the closing marks is not taken for a part of them. -/
theorem getLast?_framed (value : List Char) (k : Nat) :
    ∀ c ∈ (moveLines k (framed (blockLayout value) value)).getLast?, c ≠ '"' ∧ c ≠ '\\' := by
  intro c mem
  cases behind : (blockLayout value).breakAfter with
  | true =>
      simp only [framed, behind, if_true, moveLines_append, moveLines_newline, moveLines_nil,
        List.append_nil, List.getLast?_append_cons] at mem
      rcases List.mem_cons.1 (List.mem_of_getLast? mem) with rfl | space
      · decide
      · rw [List.eq_of_mem_replicate space]
        decide
  | false =>
      cases before : (blockLayout value).breakBefore with
      | true =>
          exact absurd behind (by simp [(blockLayout_broken before).1])
      | false =>
          have line : '\n' ∉ value := fun mem => (blockLayout_unbroken before '\n' mem).1 rfl
          simp only [framed, behind, before, Bool.false_eq_true, if_false, List.nil_append,
            List.append_nil, moveLines_of_not_mem line] at mem
          exact blockLayout_unended behind c mem

/-- A printed block string, however far its lines are moved to the right, is read as the value. -/
theorem printBlock_spells {value : String}
    (wellFormed : (Token.blockString value).WellFormed) (k : Nat) :
    Spells (moveLines k (printBlock value)) [.blockString value] := by
  rcases wellFormed with ⟨raw, left⟩
  rcases exists_lines raw with ⟨lines, joined, dedented, clean⟩
  rw [joined] at left
  have body := blockValue_framed dedented clean k
  have ends := getLast?_framed value.toList k
  have text : moveLines k (printBlock value) = ['"', '"', '"'] ++
      (escapeTripleQuotes (moveLines k (framed (blockLayout value.toList) value.toList)) ++
        ['"', '"', '"']) := by
    rw [printBlock_eq, moveLines_append, moveLines_append, moveLines_escapeTripleQuotes,
      moveLines_of_not_mem (by decide)]
  rw [← left] at body
  intro rest _
  have read : readToken '"' ('"' :: '"' :: (escapeTripleQuotes
      (moveLines k (framed (blockLayout value.toList) value.toList)) ++
      (['"', '"', '"'] ++ rest))) =
        .ok (.blockString value, rest) := by
    rw [readToken_quote, readQuoted, readBlock_escaped ends, ok_bind]
    simp [body]
  rw [text, List.append_assoc, List.append_assoc, List.cons_append, List.cons_append,
    List.cons_append, List.nil_append, ofText_token (by decide) (by decide) read]
  rfl

end

end SchemaCompletion.Sdl
