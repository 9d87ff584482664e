/-!
# Names

The names of the schema definition language: ASCII letters, digits and the underscore, not beginning
with a digit.

* `isNameStart`, `isNameContinue` — the characters of a name;
* `IsName` — the texts that are names;
* `takeName` — the name at the front of a text.
-/

namespace SchemaCompletion.Sdl

/-- A character that a name can begin with. -/
def isNameStart (c : Char) : Bool := c.isAlpha || c == '_'

/-- A character that can stand in a name after the first. -/
def isNameContinue (c : Char) : Bool := c.isAlphanum || c == '_'

/-- The text is a name. -/
def IsName (cs : List Char) : Prop :=
  ∃ c rest, cs = c :: rest ∧ isNameStart c = true ∧ ∀ d ∈ rest, isNameContinue d = true

instance : DecidablePred IsName
  | [] => isFalse fun ⟨_, _, h, _⟩ => by cases h
  | c :: rest =>
    decidable_of_iff (isNameStart c && rest.all isNameContinue)
      ⟨fun h => by
        rw [Bool.and_eq_true, List.all_eq_true] at h
        exact ⟨c, rest, rfl, h.1, h.2⟩,
      fun ⟨_, _, h, start, others⟩ => by
        cases h
        rw [Bool.and_eq_true, List.all_eq_true]
        exact ⟨start, others⟩⟩

/-- The characters of a name at the front of a text, and what follows it. -/
def takeName (cs : List Char) : List Char × List Char :=
  (cs.takeWhile isNameContinue, cs.dropWhile isNameContinue)

end SchemaCompletion.Sdl
