import Mathlib.Data.List.Induction

/-!
# Last values

Lists of names and values in which a name may stand more than once, so that the last value counts.

* `LastValue` — the value that stands last with a name;
* `lastValue_iff_lookup` — it is found from the end;
* `lastValue_append_iff` — a list that goes on after another has the last word;
* `not_mem_names_iff` — a name that stands nowhere has no value.
-/

namespace SchemaCompletion

/-- The value stands with the name, and nothing behind it stands with the name again. -/
def LastValue {α : Type} (values : List (String × α)) (name : String) (value : α) : Prop :=
  ∃ before after, values = before ++ (name, value) :: after ∧ ∀ v ∈ after, v.1 ≠ name

variable {α : Type} {values others : List (String × α)} {name : String} {value value' : α}

theorem lastValue_iff_lookup :
    LastValue values name value ↔ values.reverse.lookup name = some value := by
  rw [List.lookup_eq_some_iff]
  constructor
  · rintro ⟨before, after, rfl, last⟩
    refine ⟨after.reverse, before.reverse, by simp, fun v mem => ?_⟩
    exact bne_iff_ne.2 (last v (List.mem_reverse.1 mem)).symm
  · rintro ⟨after, before, split, last⟩
    refine ⟨before.reverse, after.reverse, ?_, fun v mem => ?_⟩
    · rw [← List.reverse_reverse values, split]
      simp
    · exact (bne_iff_ne.1 (last v (List.mem_reverse.1 mem))).symm

/-- There is one last value. -/
theorem LastValue.unique (last : LastValue values name value)
    (last' : LastValue values name value') :
    value' = value := by
  rw [lastValue_iff_lookup] at last last'
  exact Option.some.inj (last'.symm.trans last)

/-- A name that stands nowhere has no value. -/
theorem not_mem_names_iff : name ∉ values.map (·.1) ↔ values.reverse.lookup name = none := by
  simp only [List.lookup_eq_none_iff, List.mem_reverse, bne_iff_ne, List.mem_map,
    not_exists, not_and]
  exact forall₂_congr fun v _ => ne_comm

theorem not_mem_names_iff_forall_not :
    name ∉ values.map (·.1) ↔ ∀ value, ¬ LastValue values name value := by
  rw [not_mem_names_iff, Option.eq_none_iff_forall_ne_some]
  exact forall_congr' fun value => not_congr lastValue_iff_lookup.symm

/-- What comes last is in the later list, or nothing there stands with the name. -/
theorem lastValue_append_iff :
    LastValue (values ++ others) name value ↔
      LastValue others name value ∨ name ∉ others.map (·.1) ∧ LastValue values name value := by
  rw [lastValue_iff_lookup, lastValue_iff_lookup, lastValue_iff_lookup, not_mem_names_iff,
    List.reverse_append, List.lookup_append, Option.or_eq_some_iff]

end SchemaCompletion
