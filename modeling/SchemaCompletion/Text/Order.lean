/-!
# The order of texts

Texts in the order of the code points of their characters.

* `precedes` — the order: the first difference decides, and a text comes before its continuations;
* `precedes_trans`, `eq_or_precedes` — it is a strict order of all texts;
* `sorted` — texts in this order;
* `pairwise_sorted` — texts that all differ are sorted strictly.
-/

namespace SchemaCompletion.Text

def precedes : List Char → List Char → Bool
  | _, [] => false
  | [], _ :: _ => true
  | c :: cs, d :: ds => c.toNat < d.toNat || (c == d && precedes cs ds)

/-- Texts in the order of the code points of their characters. -/
def sorted (texts : List String) : List String :=
  texts.mergeSort fun a b => !precedes b.toList a.toList

/-! ## The order -/

/-- Nothing comes before itself. -/
@[simp]
theorem precedes_self (cs : List Char) : precedes cs cs = false := by
  induction cs with
  | nil => rfl
  | cons c cs ih => simp [precedes, ih]

theorem precedes_cons_iff {c d : Char} {cs ds : List Char} :
    precedes (c :: cs) (d :: ds) = true ↔ c.toNat < d.toNat ∨ c = d ∧ precedes cs ds = true := by
  simp [precedes]

theorem precedes_trans {cs ds es : List Char} (first : precedes cs ds = true)
    (second : precedes ds es = true) : precedes cs es = true := by
  induction cs generalizing ds es with
  | nil =>
      -- a text that something comes before is not empty
      cases es with
      | nil =>
          cases ds <;> cases second
      | cons e es =>
          rfl
  | cons c cs ih =>
      cases ds with
      | nil =>
          cases first
      | cons d ds =>
          cases es with
          | nil =>
              cases second
          | cons e es =>
              rw [precedes_cons_iff] at first second ⊢
              rcases first with less | ⟨rfl, first⟩
              · rcases second with less' | ⟨rfl, -⟩
                · exact .inl (Nat.lt_trans less less')
                · exact .inl less
              · rcases second with less' | ⟨rfl, second⟩
                · exact .inl less'
                · exact .inr ⟨rfl, ih first second⟩

/-- Of two texts that differ, one comes before the other. -/
theorem eq_or_precedes (cs ds : List Char) :
    cs = ds ∨ precedes cs ds = true ∨ precedes ds cs = true := by
  induction cs generalizing ds with
  | nil =>
      cases ds with
      | nil =>
          exact .inl rfl
      | cons d ds =>
          exact .inr (.inl rfl)
  | cons c cs ih =>
      cases ds with
      | nil =>
          exact .inr (.inr rfl)
      | cons d ds =>
          rw [precedes_cons_iff, precedes_cons_iff]
          rcases Nat.lt_trichotomy c.toNat d.toNat with less | same | more
          · exact .inr (.inl (.inl less))
          · obtain rfl : c = d := Char.toNat_inj.1 same
            rcases ih ds with rfl | before | behind
            · exact .inl rfl
            · exact .inr (.inl (.inr ⟨rfl, before⟩))
            · exact .inr (.inr (.inr ⟨rfl, behind⟩))
          · exact .inr (.inr (.inl more))

/-! ## Sorting -/

/-- Sorting keeps the texts. -/
theorem sorted_perm (texts : List String) : (sorted texts).Perm texts := List.mergeSort_perm ..

/-- Texts that all differ are sorted so that each comes before all that stand behind it. -/
theorem pairwise_sorted {texts : List String} (distinct : texts.Nodup) :
    (sorted texts).Pairwise fun a b => precedes a.toList b.toList = true := by
  have transitive : ∀ a b c : String, (!precedes b.toList a.toList) = true →
      (!precedes c.toList b.toList) = true → (!precedes c.toList a.toList) = true := by
    intro a b c first second
    rw [Bool.not_eq_true', Bool.eq_false_iff] at first second ⊢
    intro before
    rcases eq_or_precedes b.toList c.toList with same | between | between
    · exact first (same ▸ before)
    · exact first (precedes_trans between before)
    · exact second between
  have total : ∀ a b : String,
      (!precedes b.toList a.toList || !precedes a.toList b.toList) = true := by
    intro a b
    cases behind : precedes b.toList a.toList with
    | false =>
        rfl
    | true =>
        -- otherwise the text would come before itself
        cases before : precedes a.toList b.toList with
        | false =>
            rfl
        | true =>
            exact (Bool.false_ne_true
              ((precedes_self _).symm.trans (precedes_trans behind before))).elim
  have ordered := List.pairwise_mergeSort transitive total texts
  have different : (sorted texts).Pairwise (· ≠ ·) := (sorted_perm texts).nodup_iff.2 distinct
  refine ordered.imp₂ ?_ different
  intro a b notBehind differ
  rw [Bool.not_eq_true', Bool.eq_false_iff] at notBehind
  rcases eq_or_precedes a.toList b.toList with same | before | behind
  · exact absurd (String.toList_inj.1 same) differ
  · exact before
  · exact absurd behind notBehind

end SchemaCompletion.Text
