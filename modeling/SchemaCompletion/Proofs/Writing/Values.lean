import SchemaCompletion.Proofs.Reading.Grammar
import SchemaCompletion.Proofs.Writing.BlockStrings
import SchemaCompletion.Proofs.Writing.Strings

/-!
# Printed literals

A literal that is printed is read as the same literal.

* `Value.tokens` — the tokens of a literal;
* `Rule.value_takes` — the grammar reads a literal from its tokens;
* `printBracketed_layout`, `Spells.bracketed` — items between brackets, on one line or on several;
* `Value.WellFormed.spells` — a printed literal, however far its lines are moved to the right, is
  read as its tokens;
* `Value.WellFormed.parse_print` — so it is read as the literal.
-/

namespace SchemaCompletion.Sdl

/-! ## Tokens -/

namespace Value

mutual

/-- The tokens of a literal. -/
def tokens : Value → List Token
  | .int spelling => [.int spelling]
  | .float spelling => [.float spelling]
  | .string text => [.string text]
  | .block text => [.blockString text]
  | .boolean true => [.name "true"]
  | .boolean false => [.name "false"]
  | .null => [.name "null"]
  | .enum name => [.name name]
  | .variable name => [.punctuator .dollar, .name name]
  | .list items => .punctuator .bracketOpen :: (itemTokens items ++ [.punctuator .bracketClose])
  | .object fields => .punctuator .braceOpen :: (fieldTokens fields ++ [.punctuator .braceClose])

def itemTokens : List Value → List Token
  | [] => []
  | v :: vs => v.tokens ++ itemTokens vs

def fieldTokens : List (String × Value) → List Token
  | [] => []
  | (name, v) :: fields => .name name :: .punctuator .colon :: v.tokens ++ fieldTokens fields

end

theorem itemTokens_eq (items : List Value) : itemTokens items = items.flatMap tokens := by
  induction items with
  | nil =>
      rfl
  | cons v items ih =>
      rw [itemTokens, ih, List.flatMap_cons]

theorem fieldTokens_eq (fields : List (String × Value)) :
    fieldTokens fields = fields.flatMap fun f => .name f.1 :: .punctuator .colon :: f.2.tokens := by
  induction fields with
  | nil =>
      rfl
  | cons f fields ih =>
      rw [fieldTokens, ih, List.flatMap_cons]

theorem printItems_eq (items : List Value) : printItems items = items.map printChars := by
  induction items with
  | nil =>
      rfl
  | cons v items ih =>
      rw [printItems, ih, List.map_cons]

theorem printFields_eq (fields : List (String × Value)) :
    printFields fields = fields.map fun f => f.1.toList ++ ':' :: ' ' :: f.2.printChars := by
  induction fields with
  | nil =>
      rfl
  | cons f fields ih =>
      rw [printFields, ih, List.map_cons]

end Value

/-! ## Reading tokens -/

/-- A literal does not begin with the mark that closes a list. -/
theorem Value.WellFormed.begins {v : Value} {levels : Nat} (wellFormed : v.WellFormed levels) :
    ∃ t us, v.tokens = t :: us ∧ t ≠ .punctuator .bracketClose := by
  cases wellFormed with
  | boolean b =>
      cases b with
      | true | false =>
          exact ⟨_, _, rfl, by simp⟩
  | _ =>
      exact ⟨_, _, rfl, by simp⟩

namespace Rule

/-- A literal with no other literal in it is a single token. -/
theorem value_takes_single {constant : Bool} {levels : Nat} {t : Token} {v : Value}
    (single : ∀ inner : Option (Rule Value), (valueOver constant inner).Takes [t] Always v) :
    (value constant levels).Takes [t] Always v := by
  cases levels with
  | zero =>
      exact single none
  | succ levels =>
      exact single (some (value constant levels))

theorem value_takes {v : Value} {levels : Nat} (wellFormed : v.WellFormed levels)
    (constant : Bool) :
    (value constant levels).Takes v.tokens Always v := by
  -- by induction on the literal: what is inside is taken at one level less
  induction wellFormed with
  | int | float | string | block | null =>
      exact value_takes_single fun _ => Takes.looking fun _ _ => (advance_takes _).andThen (.pure _)
  | boolean b =>
      cases b with
      | true | false =>
          exact value_takes_single fun _ => Takes.looking fun _ _ =>
            (advance_takes _).andThen (.pure _)
  | @enum levels text name unreserved =>
      refine value_takes_single fun _ => Takes.looking fun _ _ => (advance_takes _).andThen ?_
      rw [unreserved]
      exact .pure _
  | @list levels items each ih =>
      have pieces : List.Forall₂
          (TakesItem (value constant levels) (· ≠ .punctuator .bracketClose) Always) items
          (items.map Value.tokens) :=
        takesItems_map fun v mem => ⟨(each v mem).begins, ih v mem⟩
      rw [Value.tokens, Value.itemTokens_eq, List.flatMap_def]
      refine Takes.looking fun _ _ => Takes.giving ?_
      exact manyBetween_takes .bracketOpen pieces (fun t begins => ⟨trivial, begins⟩) trivial
  | @object levels fields names each ih =>
      have item (f : String × Value) (mem : f ∈ fields) :
          (objectField (value constant levels)).Takes
            (.name f.1 :: .punctuator .colon :: f.2.tokens) Always f :=
        (expectName_takes f.1).andThen ((expectMark_takes .colon).andThen (ih f mem).giving)
      have pieces : List.Forall₂
          (TakesItem (objectField (value constant levels)) (· ≠ .punctuator .braceClose)
          Always) fields (fields.map fun f => .name f.1 :: .punctuator .colon :: f.2.tokens) :=
        takesItems_map fun f mem => ⟨⟨_, _, rfl, by simp⟩, item f mem⟩
      rw [Value.tokens, Value.fieldTokens_eq, List.flatMap_def]
      refine Takes.looking fun _ _ => Takes.giving ?_
      exact manyBetween_takes .braceOpen pieces (fun t begins => ⟨trivial, begins⟩) trivial

end Rule

/-! ## Brackets -/

theorem delimits_of_ignored {cs : List Char} (ignored : ∀ c ∈ cs, isIgnored c = true) :
    Delimits cs := by
  intro c mem
  have white := ignored c (List.mem_of_mem_head? mem)
  have name : isNameContinue c = false := by
    refine eq_false_of_ne_true fun continues => ?_
    exact Bool.false_ne_true ((visible_of_isNameContinue continues).1.symm.trans white)
  have point : c ≠ '.' := by
    rintro rfl
    cases white
  have quote : c ≠ '"' := by
    rintro rfl
    cases white
  simp [name, point, quote]

theorem isIgnored_of_mem_replicate {n : Nat} : ∀ c ∈ List.replicate n ' ', isIgnored c = true := by
  intro c mem
  rw [List.eq_of_mem_replicate mem]
  rfl

theorem indentLines_eq (cs : List Char) : Value.indentLines cs = ' ' :: ' ' :: moveLines 2 cs := rfl

/-- Items between brackets, on one line or on several, are separated by what is ignored, and no item
is touched but for its indentation. -/
theorem printBracketed_layout {opening closing padding : List Char} (line : '\n' ∉ opening)
    (line' : '\n' ∉ closing) (spaces : ∀ c ∈ padding, c = ' ')
    (items : List (List Char)) (k : Nat) :
    ∃ j front sep back, (∀ c ∈ front, isIgnored c = true) ∧ (∀ c ∈ sep, isIgnored c = true) ∧
      (∀ c ∈ back, isIgnored c = true) ∧ sep ≠ [] ∧
      moveLines k (Value.printBracketed opening closing padding items) =
        opening ++ (front ++ (sep.intercalate (items.map (moveLines j)) ++ (back ++ closing))) := by
  have linePadding : '\n' ∉ padding := fun mem => by cases spaces '\n' mem
  have ignored : ∀ c ∈ padding, isIgnored c = true := fun c mem => by
    rw [spaces c mem]
    rfl
  have newline (n : Nat) : ∀ c ∈ '\n' :: List.replicate n ' ', isIgnored c = true :=
    List.forall_mem_cons.2 ⟨rfl, isIgnored_of_mem_replicate⟩
  unfold Value.printBracketed
  dsimp only
  split
  · have comma : ∀ c ∈ [',', ' '], isIgnored c = true := List.forall_mem_cons.2 ⟨rfl, ignored_space⟩
    refine ⟨k, padding, [',', ' '], padding, ignored, comma, ignored, by simp, ?_⟩
    simp only [moveLines_append, moveLines_intercalate, moveLines_of_not_mem line,
      moveLines_of_not_mem line', moveLines_of_not_mem linePadding, List.append_assoc]
    rw [moveLines_of_not_mem (by decide)]
  · refine ⟨k + 2, '\n' :: List.replicate (k + 2) ' ', '\n' :: List.replicate (k + 2) ' ',
      '\n' :: List.replicate k ' ', newline _, newline _, newline _, by simp, ?_⟩
    have two : List.replicate (k + 2) ' ' = List.replicate k ' ' ++ [' ', ' '] :=
      List.replicate_append_replicate.symm
    have sep : moveLines (k + 2) ['\n'] = '\n' :: List.replicate (k + 2) ' ' := by simp
    rw [indentLines_eq, ← sep, ← moveLines_intercalate, sep, two]
    simp [moveLines_of_not_mem line, moveLines_of_not_mem line', moveLines_cons,
      moveLines_moveLines]

/-- Items between brackets are read as the marks with the tokens of the items between them. -/
theorem Spells.bracketed {α : Type} {text : α → List Char} {tokens : α → List Token}
    {items : List α} {opening closing : Char} {p q : Punctuator}
    (opens : Punctuator.ofChar? opening = some p) (closes : Punctuator.ofChar? closing = some q)
    (delimits : Delimits [closing])
    {padding : List Char} (spaces : ∀ c ∈ padding, c = ' ')
    (each : ∀ a ∈ items, ∀ j, Spells (moveLines j (text a)) (tokens a)) (k : Nat) :
    Spells (moveLines k (Value.printBracketed [opening] [closing] padding (items.map text)))
      (.punctuator p :: (items.flatMap tokens ++ [.punctuator q])) := by
  have line : '\n' ∉ [opening] := by
    rintro mem
    rw [← List.mem_singleton.1 mem] at opens
    cases opens
  have line' : '\n' ∉ [closing] := by
    rintro mem
    rw [← List.mem_singleton.1 mem] at closes
    cases closes
  rcases printBracketed_layout line line' spaces (items.map text) k with
    ⟨j, front, sep, back, ignoredFront, ignoredSep, ignoredBack, filled, printed⟩
  have inner : Spells (sep.intercalate (items.map fun a => moveLines j (text a)))
      (items.flatMap tokens) :=
    Spells.intercalate ignoredSep (delimits_of_ignored ignoredSep) filled fun a mem => each a mem j
  have closed : Spells (back ++ [closing]) [.punctuator q] :=
    (spells_nil.mark closes).ignored ignoredBack
  have behind : Delimits (back ++ [closing]) := (delimits_of_ignored ignoredBack).append delimits
  rw [printed, List.map_map]
  exact ((inner.append closed behind).ignored ignoredFront).mark opens

/-! ## Literals -/

/-- A name has no line end in it. -/
theorem IsName.line {text : String} (name : IsName text.toList) : '\n' ∉ text.toList := by
  intro mem
  cases name.isNameContinue '\n' mem

theorem Value.WellFormed.spells {v : Value} {levels : Nat}
    (wellFormed : v.WellFormed levels) (k : Nat) :
    Spells (moveLines k v.printChars) v.tokens := by
  -- by induction on the literal: what is inside may be moved further than what is around it
  induction wellFormed generalizing k with
  | int number =>
      rcases number with ⟨cs, rest, read⟩
      have spelled := spells_of_readNumber (.inl rfl) read
      rw [printChars, moveLines_of_not_mem spelled.1]
      exact spelled.2
  | float number =>
      rcases number with ⟨cs, rest, read⟩
      have spelled := spells_of_readNumber (.inr rfl) read
      rw [printChars, moveLines_of_not_mem spelled.1]
      exact spelled.2
  | string text =>
      rw [printChars, moveLines_of_not_mem (newline_not_mem_printString text)]
      exact printString_spells text
  | block token =>
      exact printBlock_spells token k
  | boolean b =>
      cases b with
      | true =>
          have name : IsName "true".toList := by decide
          exact name.spells
      | false =>
          have name : IsName "false".toList := by decide
          exact name.spells
  | null =>
      have name : IsName "null".toList := by decide
      exact name.spells
  | enum name _ =>
      rw [printChars, moveLines_of_not_mem name.line]
      exact name.spells
  | list each ih =>
      rw [printChars, printItems_eq, tokens, itemTokens_eq]
      exact Spells.bracketed rfl rfl (clear_cons (by decide)) (by simp) ih k
  | object names each ih =>
      rw [printChars, printFields_eq, tokens, fieldTokens_eq]
      refine Spells.bracketed rfl rfl (clear_cons (by decide)) (by simp) (fun f mem j => ?_) k
      have value := (ih f mem j).ignored ignored_space
      have line := (names f mem).line
      simp only [moveLines_append, moveLines_of_not_mem line, moveLines_cons (c := ':') (by decide),
        moveLines_cons (c := ' ') (by decide)]
      exact (names f mem).spells.append (value.mark rfl) (clear_cons (by decide))

/-- A printed literal is the same literal. -/
theorem Value.WellFormed.parse_print {v : Value} (wellFormed : v.WellFormed Rule.levelLimit) :
    Value.parse v.print.toList = .ok v := by
  have text : TokenStream.ofText v.print.toList = TokenStream.ended.after v.tokens := by
    have printed := (wellFormed.spells 0).ofText
    rw [moveLines_zero] at printed
    rw [print, String.toList_ofList, printed]
  have taken :=
    Rule.value_takes wellFormed true TokenStream.ended TokenStream.unbroken_ended trivial
  rw [Value.parse, text, taken]
  rfl

end SchemaCompletion.Sdl
