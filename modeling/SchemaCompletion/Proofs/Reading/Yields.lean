import SchemaCompletion.Sdl.Rule

/-!
# What a rule yields

What the rules of the grammar have in common: what a rule makes of a text is settled by the tokens
of the text, whatever error breaks the text off, and the tokens of a text are well formed.

* `TokenStream.Alike` — streams of the same tokens, which end alike;
* `Rule.Yields` — on such streams a rule fails, or gives the same value, of which a property holds;
* `Rule.Yields.bind`, `Rule.Yields.pure`, `Rule.Yields.failing` — rules made of rules;
* `Rule.peek_yields` and so on — single tokens;
* `Rule.repeatUntil_yields` and so on — sequences of items.
-/

namespace SchemaCompletion.Sdl

/-- The token carries what its kind asks for: a proper name, a number as it can be read, or what is
left of the raw text of a block string. Marks are all alike, and a string can be any. -/
def Token.WellFormed : Token → Prop
  | .name text => IsName text.toList
  | .int spelling => ∃ cs rest, readNumber cs = .ok (.int spelling, rest)
  | .float spelling => ∃ cs rest, readNumber cs = .ok (.float spelling, rest)
  | .blockString value => ∃ raw, value.toList = blockValue raw
  | _ => True

namespace TokenStream

/-- Streams of the same tokens, all well formed. Both end with the text or both are broken off,
though perhaps by different errors. -/
inductive Alike : TokenStream → TokenStream → Prop where
  | ended : Alike .ended .ended
  | broken (e e' : LexicalError) : Alike (.broken e) (.broken e')
  | token {t : Token} {s s' : TokenStream} (wellFormed : t.WellFormed) (rest : Alike s s') :
      Alike (.token t s) (.token t s')

variable {s s' : TokenStream}

theorem Alike.length_eq (alike : s.Alike s') : s.length = s'.length := by
  induction alike with
  | ended =>
      rfl
  | broken e e' =>
      rfl
  | token _ _ ih =>
      simp only [length, ih]

/-- A stream like another is like itself. -/
theorem Alike.right (alike : s.Alike s') : s'.Alike s' := by
  induction alike with
  | ended =>
      exact .ended
  | broken e e' =>
      exact .broken e' e'
  | token wellFormed _ ih =>
      exact .token wellFormed ih

end TokenStream

/-- Two runs of a rule come to the same: both fail, or both give one value, of which a property
holds, and leave streams alike. -/
inductive Agree {α : Type} (P : α → Prop) :
    Except SyntaxError (α × TokenStream) → Except SyntaxError (α × TokenStream) → Prop where
  | failure (e e' : SyntaxError) : Agree P (.error e) (.error e')
  | success {a : α} {s s' : TokenStream} (holds : P a) (rest : s.Alike s') :
      Agree P (.ok (a, s)) (.ok (a, s'))

namespace Rule

variable {α β : Type} {P : α → Prop} {Q : β → Prop}

/-- On streams alike the rule comes to the same, with a property of what it gives. -/
def Yields (r : Rule α) (P : α → Prop) : Prop :=
  ∀ ⦃s s' : TokenStream⦄, s.Alike s' → Agree P (r s) (r s')

/-! ## Rules made of rules -/

theorem Yields.bind {r : Rule α} {f : α → Rule β} (first : r.Yields P)
    (second : ∀ a, P a → (f a).Yields Q) : (r >>= f).Yields Q := by
  intro s s' alike
  change Agree Q ((r s).bind fun p => f p.1 p.2) ((r s').bind fun p => f p.1 p.2)
  have agree := first alike
  generalize r s = result, r s' = result' at agree
  cases agree with
  | failure e e' =>
      exact .failure e e'
  | success holds rest =>
      exact second _ holds rest

theorem Yields.pure {a : α} (holds : P a) : (pure a : Rule α).Yields P :=
  fun _ _ alike => .success holds alike

/-- A rule that fails has every property. -/
theorem Yields.failing (e : SyntaxError) : (throw e : Rule α).Yields P :=
  fun _ _ _ => .failure e e

theorem Yields.map {r : Rule α} {f : α → β} (yields : r.Yields P) (holds : ∀ a, P a → Q (f a)) :
    (f <$> r).Yields Q := by
  rw [map_eq_pure_bind]
  exact yields.bind fun a ha => .pure (holds a ha)

theorem Yields.mono {P' : α → Prop} {r : Rule α} (yields : r.Yields P) (sub : ∀ a, P a → P' a) :
    r.Yields P' := by
  intro s s' alike
  have agree := yields alike
  generalize r s = result, r s' = result' at agree
  cases agree with
  | failure e e' =>
      exact .failure e e'
  | success holds rest =>
      exact .success (sub _ holds) rest

theorem Yields.ite {c : Prop} [Decidable c] {r r' : Rule α} (yes : c → r.Yields P)
    (no : ¬c → r'.Yields P) : (if c then r else r').Yields P := by
  split
  next holds =>
      exact yes holds
  next fails =>
      exact no fails

/-- The rule gives something. -/
abbrev YieldsAny (r : Rule α) : Prop := r.Yields fun _ => True

theorem Yields.any {r : Rule α} (yields : r.Yields P) : r.YieldsAny :=
  yields.mono fun _ _ => trivial

/-! ## Single tokens -/

theorem peek_yields : peek.Yields fun found => ∀ t ∈ found, t.WellFormed := by
  intro s s' alike
  cases alike with
  | ended =>
      exact .success (by simp) .ended
  | broken e e' =>
      exact .failure _ _
  | token wellFormed rest =>
      exact .success (by simpa using wellFormed) (.token wellFormed rest)

theorem peekSecond_yields : peekSecond.YieldsAny := by
  intro s s' alike
  cases alike with
  | ended =>
      exact .success trivial .ended
  | broken e e' =>
      exact .failure _ _
  | token wellFormed rest =>
      cases rest with
      | ended =>
          exact .success trivial (.token wellFormed .ended)
      | broken e e' =>
          exact .failure _ _
      | token wellFormed' rest =>
          exact .success trivial (.token wellFormed (.token wellFormed' rest))

theorem advance_yields : advance.YieldsAny := by
  intro s s' alike
  cases alike with
  | ended =>
      exact .success trivial .ended
  | broken e e' =>
      exact .failure _ _
  | token wellFormed rest =>
      cases rest with
      | ended =>
          exact .success trivial .ended
      | broken e e' =>
          exact .failure _ _
      | token wellFormed' rest =>
          exact .success trivial (.token wellFormed' rest)

theorem unexpected_yields : (unexpected : Rule α).Yields P :=
  peek_yields.bind fun _ _ => .failing _

theorem atEnd_yields : atEnd.YieldsAny := peek_yields.bind fun _ _ => .pure trivial

theorem isMark_yields (p : Punctuator) : (isMark p).YieldsAny :=
  peek_yields.bind fun _ _ => .pure trivial

theorem isName_yields : isName.YieldsAny := by
  refine peek_yields.bind fun found _ => ?_
  split
  · exact .pure trivial
  · exact .pure trivial

theorem skipMark_yields (p : Punctuator) : (skipMark p).YieldsAny := by
  refine (isMark_yields p).bind fun found _ => .ite (fun _ => ?_) fun _ => .pure trivial
  exact advance_yields.bind fun _ _ => .pure trivial

theorem skipWord_yields (word : String) : (skipWord word).YieldsAny := by
  refine peek_yields.bind fun found _ => .ite (fun _ => ?_) fun _ => .pure trivial
  exact advance_yields.bind fun _ _ => .pure trivial

theorem expectMark_yields (p : Punctuator) : (expectMark p).YieldsAny := by
  refine peek_yields.bind fun found _ => ?_
  split
  · exact .ite (fun _ => advance_yields) fun _ => .failing _
  · exact .failing _

theorem expectWord_yields (word : String) : (expectWord word).YieldsAny := by
  refine peek_yields.bind fun found _ => ?_
  split
  · exact .ite (fun _ => advance_yields) fun _ => .failing _
  · exact .failing _

/-- A name that stands in the text is a proper one. -/
theorem expectName_yields : expectName.Yields fun name => IsName name.toList := by
  refine peek_yields.bind fun found wellFormed => ?_
  split
  next text =>
      have proper : IsName text.toList := wellFormed (.name text) rfl
      exact advance_yields.bind fun _ _ => .pure proper
  · exact .failing _

/-! ## Sequences -/

variable {stop : Rule Bool} {item : Rule α}

/-- Every item of a sequence has the property of an item. -/
theorem repeatUntil_yields (stops : stop.YieldsAny) (each : item.Yields P) :
    (repeatUntil stop item).Yields fun items => ∀ a ∈ items, P a := by
  intro s s' alike
  -- by induction on the tokens that are left
  generalize left : s.length = n
  induction n using Nat.strongRecOn generalizing s s' with
  | ind n ih =>
      subst left
      rw [repeatUntil, repeatUntil]
      have agree := stops alike
      generalize stop s = result, stop s' = result' at agree
      cases agree with
      | failure e e' =>
          exact .failure e e'
      | @success stopped t t' _ rest =>
          cases stopped with
          | true =>
              exact .success (by simp) rest
          | false =>
              have agree := each rest
              dsimp only
              generalize item t = result, item t' = result' at agree
              cases agree with
              | failure e e' =>
                  exact .failure e e'
              | @success a u u' holds rest =>
                  dsimp only
                  rw [← rest.length_eq, ← alike.length_eq]
                  by_cases shorter : u.length < s.length
                  · rw [if_pos shorter, if_pos shorter]
                    have agree := ih u.length shorter rest rfl
                    generalize repeatUntil stop item u = result,
                      repeatUntil stop item u' = result' at agree
                    cases agree with
                    | failure e e' =>
                        exact .failure e e'
                    | success others rest =>
                        exact .success (by simpa using ⟨holds, others⟩) rest
                  · rw [if_neg shorter, if_neg shorter]
                    exact .success (by simpa using holds) rest

theorem someUntil_yields (stops : stop.YieldsAny) (each : item.Yields P) :
    (someUntil stop item).Yields fun items => ∀ a ∈ items, P a := by
  refine each.bind fun first holds => (repeatUntil_yields stops each).bind fun others rest => ?_
  exact .pure (by simpa using ⟨holds, rest⟩)

theorem manyBetween_yields (opening closing : Punctuator) (each : item.Yields P) :
    (manyBetween opening closing item).Yields fun items => ∀ a ∈ items, P a :=
  (expectMark_yields opening).bind fun _ _ => repeatUntil_yields (skipMark_yields closing) each

theorem someBetween_yields (opening closing : Punctuator) (each : item.Yields P) :
    (someBetween opening closing item).Yields fun items => ∀ a ∈ items, P a :=
  (expectMark_yields opening).bind fun _ _ => someUntil_yields (skipMark_yields closing) each

theorem optionalBetween_yields (opening closing : Punctuator) (each : item.Yields P) :
    (optionalBetween opening closing item).Yields fun items => ∀ a ∈ items, P a := by
  refine (skipMark_yields opening).bind fun _ _ => .ite (fun _ => ?_) fun _ => .pure (by simp)
  exact someUntil_yields (skipMark_yields closing) each

theorem separatedBy_yields (mark : Punctuator) (each : item.Yields P) :
    (separatedBy mark item).Yields fun items => ∀ a ∈ items, P a := by
  have stops : (do return !(← isMark mark) : Rule Bool).YieldsAny :=
    (isMark_yields mark).bind fun _ _ => .pure trivial
  have next : (do advance; item : Rule α).Yields P := advance_yields.bind fun _ _ => each
  refine (skipMark_yields mark).bind fun _ _ => each.bind fun first holds => ?_
  refine (repeatUntil_yields stops next).bind fun others rest => ?_
  exact .pure (by simpa using ⟨holds, rest⟩)

end Rule

end SchemaCompletion.Sdl
