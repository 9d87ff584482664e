import SchemaCompletion.Proofs.Reading.Grammar
import SchemaCompletion.Proofs.Writing.Spelling

/-!
# Written type expressions

A type expression that is written in the notation of the language is read as the same expression,
unless its lists are nested too deeply.

* `TypeExpr.tokens`, `TypeExpr.toSdl_spells` — the tokens of an expression, which its notation
  spells;
* `Rule.bareType`, `Rule.markedType` — an expression without its last mark, and that mark;
* `Rule.typeExpr_takes`, `Rule.typeExpr_refuses` — expressions that the grammar takes, and those
  that it refuses;
* `TypeExpr.parse_toSdl` — reading a written expression.
-/

namespace SchemaCompletion.Sdl

/-! ## Tokens -/

namespace TypeExpr

/-- The tokens of an expression: a list stands between brackets, what is never null in front of a
mark. -/
def tokens : TypeExpr → List Token
  | name text => [.name text]
  | list item => .punctuator .bracketOpen :: (item.tokens ++ [.punctuator .bracketClose])
  | nonNull inner => inner.tokens ++ [.punctuator .bang]

/-- The notation of an expression is read as its tokens. -/
theorem toSdl_spells {e : TypeExpr} (named : IsName e.named.toList) :
    Spells e.toSdl.toList e.tokens := by
  induction e with
  | name text =>
      exact named.spells
  | list item ih =>
      have closed := (ih named).append (spells_nil.mark (c := ']') rfl) (clear_cons (by decide))
      have text : (list item).toSdl.toList = '[' :: (item.toSdl.toList ++ [']']) := by simp [toSdl]
      rw [text]
      exact closed.mark rfl
  | nonNull inner ih =>
      have text : (nonNull inner).toSdl.toList = inner.toSdl.toList ++ ['!'] := by simp [toSdl]
      rw [text]
      exact (ih named).append (spells_nil.mark rfl) (clear_cons (by decide))

end TypeExpr

/-! ## Reading tokens -/

namespace Rule

/-- A list or a name, without a mark behind it, given the rule for what stands in a list. -/
def bareType (inner : Option (Rule TypeExpr)) : Rule TypeExpr := do
  if ← skipMark .bracketOpen then
    match inner with
    | none => throw .tooDeep
    | some item => do
      let e ← item
      expectMark .bracketClose
      return .list e
  else return .name (← namedType)

/-- The mark behind an expression, which makes it a non-null one. -/
def markedType (base : TypeExpr) : Rule TypeExpr := do
  if ← skipMark .bang then return .nonNull base else return base

theorem typeExprOver_eq (inner : Option (Rule TypeExpr)) :
    typeExprOver inner = bareType inner >>= markedType := by
  unfold typeExprOver bareType markedType
  rw [bind_assoc]
  refine bind_congr fun opened => ?_
  cases opened with
  | false =>
      simp
  | true =>
      cases inner with
      | none =>
          rfl
      | some item =>
          simp

/-- The rule for what stands in a list, if a list may open. -/
def typeExprBelow? : Nat → Option (Rule TypeExpr)
  | 0 => none
  | levels + 1 => some (typeExpr levels)

theorem typeExpr_eq (levels : Nat) :
    typeExpr levels = bareType (typeExprBelow? levels) >>= markedType := by
  cases levels with
  | zero | succ =>
      exact typeExprOver_eq _

theorem markedType_takes (base : TypeExpr) :
    (markedType base).Takes [.punctuator .bang] Always (.nonNull base) :=
  (skipMark_takes .bang).andThen (.pure _)

theorem markedType_takes_none (base : TypeExpr) : (markedType base).Takes [] (NoMark .bang) base :=
  (skipMark_takes_none .bang).ending (.pure _) fun _ absent => absent

theorem bareType_takes_name (inner : Option (Rule TypeExpr)) (text : String) :
    (bareType inner).Takes [.name text] Always (.name text) := by
  refine (skipMark_takes_none .bracketOpen).skipping (expectName_takes text).giving ?_
  exact fun _ _ same => by cases same

theorem bareType_takes_list {item : Rule TypeExpr} {e : TypeExpr} {ts : List Token}
    (takes : item.Takes ts (NoMark .bang) e) :
    (bareType (some item)).Takes
      (.punctuator .bracketOpen :: (ts ++ [.punctuator .bracketClose])) Always (.list e) := by
  have closed : (do expectMark .bracketClose; return .list e : Rule TypeExpr).Takes
      [.punctuator .bracketClose] Always (.list e) :=
    (expectMark_takes .bracketClose).andThen (.pure _)
  exact (skipMark_takes .bracketOpen).andThen (takes.bind closed fun _ _ same => by cases same)

/-- An expression is taken from its tokens if its lists are not nested too deeply; one that is not a
non-null one leaves a mark behind it to be read. -/
theorem typeExpr_takes_bare {e : TypeExpr} (normal : e.Normal) {levels : Nat}
    (fits : e.levels ≤ levels) :
    (typeExpr levels).Takes e.tokens (NoMark .bang) e ∧
      ((∀ inner, e ≠ .nonNull inner) →
        (bareType (typeExprBelow? levels)).Takes e.tokens Always e) := by
  have unmarked {base : TypeExpr} (levels : Nat)
      (bare : (bareType (typeExprBelow? levels)).Takes base.tokens Always base) :
      (typeExpr levels).Takes base.tokens (NoMark .bang) base := by
    rw [typeExpr_eq, ← List.append_nil base.tokens]
    exact bare.andThen (markedType_takes_none base)
  -- by induction on the expression: what is in a list is taken at one level less
  induction e generalizing levels with
  | name text =>
      have bare := bareType_takes_name (typeExprBelow? levels) text
      exact ⟨unmarked levels bare, fun _ => bare⟩
  | list item ih =>
      rcases Nat.exists_eq_add_of_le' fits with ⟨spare, rfl⟩
      have inside : (typeExpr (spare + item.levels)).Takes item.tokens (NoMark .bang) item :=
        (ih normal (Nat.le_add_left ..)).1
      have bare := bareType_takes_list inside
      exact ⟨unmarked (spare + item.levels + 1) bare, fun _ => bare⟩
  | nonNull inner ih =>
      refine ⟨?_, fun bare => absurd rfl (bare inner)⟩
      rw [typeExpr_eq]
      exact (((ih normal.1 fits).2 normal.2).andThen (markedType_takes inner)).mono
        fun _ _ => trivial

theorem typeExpr_takes {e : TypeExpr} (normal : e.Normal) {levels : Nat}
    (fits : e.levels ≤ levels) :
    (typeExpr levels).Takes e.tokens (NoMark .bang) e :=
  (typeExpr_takes_bare normal fits).1

/-- An expression whose lists are nested too deeply is refused, whatever follows it. -/
theorem typeExpr_refuses {e : TypeExpr} {levels : Nat} (deep : levels < e.levels) :
    (typeExpr levels).Refuses e.tokens .tooDeep := by
  have opened : (skipMark .bracketOpen).Takes [.punctuator .bracketOpen] Always true :=
    skipMark_takes _
  induction e generalizing levels with
  | name text =>
      cases deep
  | list item ih =>
      rw [typeExpr_eq]
      cases levels with
      | zero =>
          exact (opened.refuses (.throwing _ _) fun _ => trivial).bind _
      | succ levels =>
          have inside :=
            ((ih (Nat.lt_of_succ_lt_succ deep)).append [.punctuator .bracketClose]).bind
            fun e => (do expectMark .bracketClose; return .list e : Rule TypeExpr)
          exact (opened.refuses inside fun _ => trivial).bind _
  | nonNull inner ih =>
      exact (ih deep).append _

end Rule

/-! ## Reading text -/

/-- A written expression is the same expression, unless there are more lists around its name than
the grammar allows for. -/
theorem TypeExpr.parse_toSdl {e : TypeExpr} (named : IsName e.named.toList) (normal : e.Normal) :
    TypeExpr.parse e.toSdl.toList =
      if e.levels ≤ Rule.levelLimit then .ok e else .error .tooDeep := by
  rw [TypeExpr.parse, (toSdl_spells named).ofText]
  split
  next fits =>
      have noMark : Rule.NoMark .bang none := fun same => by cases same
      rw [Rule.typeExpr_takes normal fits _ TokenStream.unbroken_ended noMark]
      rfl
  next deep =>
      rw [Rule.typeExpr_refuses (Nat.lt_of_not_le deep) _ TokenStream.unbroken_ended]
      rfl

end SchemaCompletion.Sdl
