import Mathlib.Data.List.Forall2
import SchemaCompletion.Sdl.Rule

/-!
# What a rule takes

What a rule makes of tokens that are known: it takes them from the front of any stream, if what
follows them does not make it go on.

* `TokenStream.after` — a stream behind some tokens;
* `Rule.Takes` — a rule takes tokens and gives a value, whatever suitable follows;
* `Rule.Takes.bind`, `Rule.Takes.looking` — rules made of rules, and rules that look ahead;
* `Rule.expectMark_takes` and so on — single tokens;
* `Rule.repeatUntil_takes` and so on — sequences, each item of which is taken from its own piece.
-/

namespace SchemaCompletion.Sdl

/-! ## Streams behind tokens -/

namespace TokenStream

/-- The stream behind some tokens. -/
def after (s : TokenStream) (ts : List Token) : TokenStream := ts.foldr .token s

/-- The token at the front, if there is one. -/
def front? : TokenStream → Option Token
  | .token t _ => some t
  | _ => none

/-- The front can be read: it is a token or the end. -/
def Unbroken (s : TokenStream) : Prop := ∀ e, s ≠ .broken e

variable {s : TokenStream} {ts : List Token}

@[simp] theorem after_nil : s.after [] = s := rfl

@[simp] theorem after_cons (t : Token) : s.after (t :: ts) = .token t (s.after ts) := rfl

@[simp] theorem after_append (us : List Token) : s.after (ts ++ us) = (s.after us).after ts :=
  List.foldr_append

theorem front?_after (s : TokenStream) (ts : List Token) :
    (s.after ts).front? = ts.head?.or s.front? := by
  cases ts with
  | nil =>
      simp
  | cons t ts =>
      rfl

theorem length_after (s : TokenStream) (ts : List Token) :
    (s.after ts).length = ts.length + s.length := by
  induction ts with
  | nil =>
      simp
  | cons t ts ih =>
      simp only [after_cons, length, ih, List.length_cons]
      omega

theorem unbroken_token (t : Token) (s : TokenStream) : (TokenStream.token t s).Unbroken := by
  intro e same
  cases same

theorem unbroken_ended : TokenStream.ended.Unbroken := by
  intro e same
  cases same

theorem Unbroken.after (unbroken : s.Unbroken) (ts : List Token) : (s.after ts).Unbroken := by
  cases ts with
  | nil =>
      exact unbroken
  | cons t ts =>
      exact unbroken_token t (s.after ts)

end TokenStream

/-! ## Sequences of tokens -/

/-- Pieces between two marks, or nothing if there are no pieces. -/
def enclosed (opening closing : Punctuator) : List (List Token) → List Token
  | [] => []
  | piece :: pieces => .punctuator opening :: ((piece :: pieces).flatten ++ [.punctuator closing])

/-- Names with a mark between them. -/
def apart (mark : Punctuator) : List String → List Token
  | [] => []
  | name :: names => .name name :: names.flatMap fun n => [.punctuator mark, .name n]

namespace Rule

open TokenStream

variable {α β : Type} {ts us : List Token} {ok ok' : Option Token → Prop}

/-! ## Rules made of rules -/

/-- The rule takes the tokens from the front of every stream and gives the value, provided that what
is behind them can be read, and is suitable. -/
def Takes (r : Rule α) (ts : List Token) (ok : Option Token → Prop) (a : α) : Prop :=
  ∀ rest : TokenStream, rest.Unbroken → ok rest.front? → r (rest.after ts) = .ok (a, rest)

/-- Whatever follows is suitable. -/
abbrev Always : Option Token → Prop := fun _ => True

theorem Takes.bind {r : Rule α} {f : α → Rule β} {a : α} {b : β} (first : r.Takes ts ok a)
    (second : (f a).Takes us ok' b) (next : ∀ t, ok' t → ok (us.head?.or t)) :
    (r >>= f).Takes (ts ++ us) ok' b := by
  intro rest unbroken suitable
  have taken : r ((rest.after us).after ts) = .ok (a, rest.after us) :=
    first _ (unbroken.after us) (by rw [front?_after]; exact next _ suitable)
  change (r (rest.after (ts ++ us)) >>= fun p => f p.1 p.2) = .ok (b, rest)
  rw [after_append, taken]
  exact second rest unbroken suitable

theorem Takes.pure (a : α) : (pure a : Rule α).Takes [] ok a := fun _ _ _ => rfl

theorem Takes.mono {r : Rule α} {a : α} (takes : r.Takes ts ok a) (next : ∀ t, ok' t → ok t) :
    r.Takes ts ok' a :=
  fun rest unbroken suitable => takes rest unbroken (next _ suitable)

/-- What follows need not be looked at behind a rule that is content with everything. -/
theorem Takes.andThen {r : Rule α} {f : α → Rule β} {a : α} {b : β} (first : r.Takes ts Always a)
    (second : (f a).Takes us ok b) : (r >>= f).Takes (ts ++ us) ok b :=
  first.bind second fun _ _ => trivial

/-- A first step that takes nothing. -/
theorem Takes.skipping {r : Rule α} {f : α → Rule β} {a : α} {b : β} (first : r.Takes [] ok a)
    (second : (f a).Takes us ok' b) (next : ∀ t, ok' t → ok (us.head?.or t)) :
    (r >>= f).Takes us ok' b :=
  first.bind second next

/-- A last step that takes nothing. -/
theorem Takes.ending {r : Rule α} {f : α → Rule β} {a : α} {b : β} (first : r.Takes ts ok a)
    (second : (f a).Takes [] ok' b) (next : ∀ t, ok' t → ok t) : (r >>= f).Takes ts ok' b := by
  have both := first.bind second next
  rwa [List.append_nil] at both

theorem Takes.giving {r : Rule α} {f : α → β} {a : α} (takes : r.Takes ts ok a) :
    (do return f (← r) : Rule β).Takes ts ok (f a) :=
  takes.ending (.pure (f a)) fun _ suitable => suitable

theorem Takes.map {r : Rule α} {f : α → β} {a : α} (takes : r.Takes ts ok a) :
    (f <$> r).Takes ts ok (f a) := by
  rw [map_eq_pure_bind]
  exact takes.giving

theorem peek_of_unbroken {s : TokenStream} (unbroken : s.Unbroken) :
    peek s = .ok (s.front?, s) := by
  cases s with
  | ended | token =>
      rfl
  | broken e =>
      exact absurd rfl (unbroken e)

/-- A rule that looks ahead sees the first of the tokens, or else what follows them. -/
theorem Takes.looking {f : Option Token → Rule α} {a : α}
    (second : ∀ t, ok t → (f (ts.head?.or t)).Takes ts ok a) : (peek >>= f).Takes ts ok a := by
  intro rest unbroken suitable
  change (peek (rest.after ts) >>= fun p => f p.1 p.2) = .ok (a, rest)
  rw [peek_of_unbroken (unbroken.after ts), front?_after]
  exact second _ suitable rest unbroken suitable

/-- A rule that looks two tokens ahead sees the second of the tokens. -/
theorem Takes.lookingSecond {t u : Token} {f : Option Token → Rule α} {a : α}
    (second : (f (some u)).Takes (t :: u :: ts) ok a) :
    (peekSecond >>= f).Takes (t :: u :: ts) ok a :=
  fun rest unbroken suitable => second rest unbroken suitable

/-! ## Rules that fail -/

/-- The rule fails on the tokens, whatever follows them that can be read. -/
def Refuses (r : Rule α) (ts : List Token) (e : SyntaxError) : Prop :=
  ∀ rest : TokenStream, rest.Unbroken → r (rest.after ts) = .error e

section

variable {r : Rule α} {e : SyntaxError}

theorem Refuses.throwing (ts : List Token) (e : SyntaxError) : (throw e : Rule α).Refuses ts e :=
  fun _ _ => rfl

theorem Refuses.append (refuses : r.Refuses ts e) (us : List Token) : r.Refuses (ts ++ us) e := by
  intro rest unbroken
  rw [after_append]
  exact refuses _ (unbroken.after us)

theorem Refuses.bind (refuses : r.Refuses ts e) (f : α → Rule β) : (r >>= f).Refuses ts e := by
  intro rest unbroken
  change (r (rest.after ts) >>= fun p => f p.1 p.2) = .error e
  rw [refuses rest unbroken]
  rfl

theorem Refuses.map (refuses : r.Refuses ts e) (f : α → β) : (f <$> r).Refuses ts e := by
  rw [map_eq_pure_bind]
  exact refuses.bind _

theorem Refuses.looking {f : Option Token → Rule α}
    (second : ∀ t, (f (ts.head?.or t)).Refuses ts e) :
    (peek >>= f).Refuses ts e := by
  intro rest unbroken
  change (peek (rest.after ts) >>= fun p => f p.1 p.2) = .error e
  rw [peek_of_unbroken (unbroken.after ts), front?_after]
  exact second _ rest unbroken

/-- A rule fails where the second of its steps does. -/
theorem Takes.refuses {f : α → Rule β} {a : α} (first : r.Takes ts ok a)
    (second : (f a).Refuses us e) (next : ∀ t, ok (us.head?.or t)) :
    (r >>= f).Refuses (ts ++ us) e := by
  intro rest unbroken
  have taken : r ((rest.after us).after ts) = .ok (a, rest.after us) :=
    first _ (unbroken.after us) (by rw [front?_after]; exact next _)
  change (r (rest.after (ts ++ us)) >>= fun p => f p.1 p.2) = .error e
  rw [after_append, taken]
  exact second rest unbroken

end

/-! ## Single tokens -/

theorem advance_takes (t : Token) : advance.Takes [t] ok () := by
  intro rest unbroken _
  cases rest with
  | ended =>
      rfl
  | broken e =>
      exact absurd rfl (unbroken e)
  | token u s =>
      rfl

theorem expectMark_takes (p : Punctuator) : (expectMark p).Takes [.punctuator p] ok () := by
  refine Takes.looking fun _ _ => ?_
  change (if p = p then advance else _).Takes _ _ _
  rw [if_pos rfl]
  exact advance_takes _

theorem expectName_takes (text : String) : expectName.Takes [.name text] ok text := by
  refine Takes.looking fun _ _ => ?_
  exact (advance_takes _).andThen (.pure text)

theorem expectWord_takes (word : String) : (expectWord word).Takes [.name word] ok () := by
  refine Takes.looking fun _ _ => ?_
  change (if word = word then advance else _).Takes _ _ _
  rw [if_pos rfl]
  exact advance_takes _

/-- What follows is not this mark. -/
def NoMark (p : Punctuator) (t : Option Token) : Prop := t ≠ some (.punctuator p)

/-- What follows is not this word. -/
def NoWord (word : String) (t : Option Token) : Prop := t ≠ some (.name word)

theorem Takes.lookingFor {p : Punctuator} {f : Bool → Rule α} {a : α}
    (second : ∀ t, ok t → (f (ts.head?.or t == some (.punctuator p))).Takes ts ok a) :
    (isMark p >>= f).Takes ts ok a := by
  rw [isMark, bind_assoc]
  exact Takes.looking fun t suitable => second t suitable

/-- A mark that is looked for, and is not there. -/
theorem Takes.missing {p : Punctuator} {f : Bool → Rule α} {a : α}
    (second : (f false).Takes [] (NoMark p) a) : (isMark p >>= f).Takes [] (NoMark p) a := by
  refine Takes.lookingFor fun t absent => ?_
  have other : (t == some (.punctuator p)) = false := beq_eq_false_iff_ne.2 absent
  rwa [List.head?_nil, Option.none_or, other]

theorem skipMark_takes (p : Punctuator) : (skipMark p).Takes [.punctuator p] ok true := by
  refine Takes.lookingFor fun _ _ => ?_
  have taken : (do advance; return true : Rule Bool).Takes [.punctuator p] ok true :=
    (advance_takes _).andThen (.pure true)
  simpa using taken

/-- A mark that is not there is not skipped. -/
theorem skipMark_takes_none (p : Punctuator) : (skipMark p).Takes [] (NoMark p) false :=
  Takes.missing (.pure false)

theorem skipWord_takes (word : String) : (skipWord word).Takes [.name word] ok true := by
  refine Takes.looking fun _ _ => ?_
  have taken : (do advance; return true : Rule Bool).Takes [.name word] ok true :=
    (advance_takes _).andThen (.pure true)
  simpa using taken

theorem skipWord_takes_none (word : String) : (skipWord word).Takes [] (NoWord word) false := by
  refine Takes.looking fun t absent => ?_
  have other : (t == some (.name word)) = false := beq_eq_false_iff_ne.2 absent
  rw [List.head?_nil, Option.none_or, other]
  exact .pure false

/-! ## Sequences -/

variable {stop : Rule Bool} {item : Rule α} {starts : Token → Prop} {items : List α}
  {pieces : List (List Token)} {ends : List Token}

/-- An item is taken from its piece, which begins as items begin. -/
def TakesItem (item : Rule α) (starts : Token → Prop) (ok : Option Token → Prop) (a : α)
    (ts : List Token) : Prop :=
  (∃ t us, ts = t :: us ∧ starts t) ∧ item.Takes ts ok a

theorem takesItems_map {tokens : α → List Token}
    (each : ∀ a ∈ items, TakesItem item starts ok a (tokens a)) :
    List.Forall₂ (TakesItem item starts ok) items (items.map tokens) :=
  List.forall₂_map_right_iff.2 (List.forall₂_same.2 each)

/-- The first token of some items is one that items begin with. -/
theorem starts_of_head? (each : List.Forall₂ (TakesItem item starts ok) items pieces) {t : Token}
    (first : pieces.flatten.head? = some t) : starts t := by
  cases each with
  | nil =>
      cases first
  | cons begun _ =>
      rcases begun.1 with ⟨u, us, rfl, begins⟩
      cases first
      exact begins

/-- Items are taken from their pieces one after the other, until the end of the sequence is seen. -/
theorem repeatUntil_takes
    (goes : ∀ t s, starts t → stop (.token t s) = .ok (false, .token t s))
    (stops : stop.Takes ends ok' true) (each : List.Forall₂ (TakesItem item starts ok) items pieces)
    (between : ∀ t, starts t → ok (some t)) (last : ∀ t, ok' t → ok (ends.head?.or t)) :
    (repeatUntil stop item).Takes (pieces.flatten ++ ends) ok' items := by
  intro rest unbroken suitable
  -- by induction on the items, each of which takes at least the token that it begins with
  induction each with
  | nil =>
      rw [repeatUntil, List.flatten_nil, List.nil_append, stops rest unbroken suitable]
  | @cons a ts items pieces begun each ih =>
      rcases begun with ⟨⟨t, us, rfl, begins⟩, takes⟩
      have next : ok ((rest.after (pieces.flatten ++ ends)).front?) := by
        rw [front?_after, List.head?_append, Option.or_assoc]
        cases first : pieces.flatten.head? with
        | none =>
            exact last _ suitable
        | some u =>
            exact between u (starts_of_head? each first)
      have taken := takes _ (unbroken.after (pieces.flatten ++ ends)) next
      rw [after_cons] at taken
      have shorter : (rest.after (pieces.flatten ++ ends)).length <
          (TokenStream.token t ((rest.after (pieces.flatten ++ ends)).after us)).length := by
        simp only [TokenStream.length, length_after]
        omega
      rw [repeatUntil, List.flatten_cons, List.cons_append, List.cons_append,
        List.append_assoc, after_cons, after_append, goes t _ begins]
      simp only [taken, shorter, if_true, ih]

theorem someUntil_takes (goes : ∀ t s, starts t → stop (.token t s) = .ok (false, .token t s))
    (stops : stop.Takes ends ok' true) (each : List.Forall₂ (TakesItem item starts ok) items pieces)
    (some : items ≠ []) (between : ∀ t, starts t → ok (.some t))
    (last : ∀ t, ok' t → ok (ends.head?.or t)) :
    (someUntil stop item).Takes (pieces.flatten ++ ends) ok' items := by
  cases each with
  | nil =>
      exact absurd rfl some
  | @cons a ts items pieces begun each =>
      rw [List.flatten_cons, List.append_assoc]
      refine begun.2.bind (repeatUntil_takes goes stops each between last).giving
        fun t suitable => ?_
      rw [List.head?_append, Option.or_assoc]
      cases first : pieces.flatten.head? with
      | none =>
          exact last t suitable
      | some u =>
          exact between u (starts_of_head? each first)

section

variable {closing mark : Punctuator}

/-- A mark that does not stand at the front ends nothing. -/
theorem skipMark_other {p : Punctuator} {t : Token} (other : t ≠ .punctuator p) (s : TokenStream) :
    skipMark p (.token t s) = .ok (false, .token t s) :=
  skipMark_takes_none p _ (unbroken_token t s) fun same => other (Option.some.inj same)

/-- Behind the opening mark of a sequence are its items and the closing mark. -/
theorem repeatUntil_closing (each : List.Forall₂ (TakesItem item starts ok) items pieces)
    (between : ∀ t, starts t → ok (some t) ∧ t ≠ .punctuator closing)
    (last : ok (some (.punctuator closing))) :
    (repeatUntil (skipMark closing) item).Takes (pieces.flatten ++ [.punctuator closing])
      ok' items :=
  repeatUntil_takes (fun t s begins => skipMark_other (between t begins).2 s)
    (skipMark_takes closing) each
    (fun t begins => (between t begins).1) fun _ _ => last

theorem someUntil_closing (each : List.Forall₂ (TakesItem item starts ok) items pieces)
    (some : items ≠ []) (between : ∀ t, starts t → ok (.some t) ∧ t ≠ .punctuator closing)
    (last : ok (.some (.punctuator closing))) :
    (someUntil (skipMark closing) item).Takes (pieces.flatten ++ [.punctuator closing]) ok' items :=
  someUntil_takes (fun t s begins => skipMark_other (between t begins).2 s)
    (skipMark_takes closing) each
    some (fun t begins => (between t begins).1) fun _ _ => last

theorem manyBetween_takes (opening : Punctuator)
    (each : List.Forall₂ (TakesItem item starts ok) items pieces)
    (between : ∀ t, starts t → ok (some t) ∧ t ≠ .punctuator closing)
    (last : ok (some (.punctuator closing))) :
    (manyBetween opening closing item).Takes
      (.punctuator opening :: (pieces.flatten ++ [.punctuator closing])) ok' items :=
  (expectMark_takes opening).andThen (repeatUntil_closing each between last)

theorem someBetween_takes (opening : Punctuator)
    (each : List.Forall₂ (TakesItem item starts ok) items pieces)
    (some : items ≠ []) (between : ∀ t, starts t → ok (.some t) ∧ t ≠ .punctuator closing)
    (last : ok (.some (.punctuator closing))) :
    (someBetween opening closing item).Takes (enclosed opening closing pieces) ok' items := by
  cases each with
  | nil =>
      exact absurd rfl some
  | cons begun each =>
      exact (expectMark_takes opening).andThen
        (someUntil_closing (.cons begun each) some between last)

/-- Nothing stands between the marks of an optional sequence if it is empty, and then there are no
marks. -/
theorem optionalBetween_takes (opening : Punctuator)
    (each : List.Forall₂ (TakesItem item starts ok) items pieces)
    (between : ∀ t, starts t → ok (some t) ∧ t ≠ .punctuator closing)
    (last : ok (some (.punctuator closing))) (absent : items = [] → ∀ t, ok' t → NoMark opening t) :
    (optionalBetween opening closing item).Takes (enclosed opening closing pieces) ok' items := by
  cases each with
  | nil =>
      have skipped := (skipMark_takes_none opening).mono (absent rfl)
      exact skipped.ending (.pure []) fun _ suitable => suitable
  | cons begun each =>
      exact (skipMark_takes opening).andThen
        (someUntil_closing (.cons begun each) (List.cons_ne_nil _ _) between last)

/-- A sequence of items that all begin with a mark goes on at the mark. -/
theorem notMark_goes (t : Token) (s : TokenStream) (begins : t = .punctuator mark) :
    (do return !(← isMark mark) : Rule Bool) (.token t s) = .ok (false, .token t s) := by
  subst begins
  change Except.ok (!(some (Token.punctuator mark) == some (.punctuator mark)), _) = _
  rw [beq_self_eq_true]
  rfl

theorem notMark_stops (mark : Punctuator) :
    (do return !(← isMark mark) : Rule Bool).Takes [] (NoMark mark) true :=
  Takes.missing (.pure true)

/-- Behind the first of some names are the others, each behind a mark. -/
theorem apart_takes (mark : Punctuator) {item : Rule String} {names : List String}
    (some : names ≠ []) (each : ∀ n ∈ names, item.Takes [.name n] Always n) :
    (do return (← item) :: (← repeatUntil (do return !(← isMark mark)) (do advance; item)) :
      Rule (List String)).Takes (apart mark names) (NoMark mark) names := by
  cases names with
  | nil =>
      exact absurd rfl some
  | cons name names =>
      have others : List.Forall₂ (TakesItem (do advance; item) (· = .punctuator mark) Always) names
          (names.map fun n => [.punctuator mark, .name n]) :=
        takesItems_map fun n mem =>
          ⟨⟨_, _, rfl, rfl⟩, (advance_takes _).andThen (each n (List.mem_cons_of_mem _ mem))⟩
      have rest := repeatUntil_takes notMark_goes (notMark_stops mark) others (fun _ _ => trivial)
        fun _ _ => trivial
      rw [List.append_nil, ← List.flatMap_def] at rest
      exact (each name List.mem_cons_self).andThen rest.giving

theorem separatedBy_takes {item : Rule String} {names : List String} {leading : List Token}
    (lead : leading = [] ∨ leading = [.punctuator mark]) (some : names ≠ [])
    (each : ∀ n ∈ names, item.Takes [.name n] Always n) :
    (separatedBy mark item).Takes (leading ++ apart mark names) (NoMark mark) names := by
  have taken := apart_takes mark some each
  rcases lead with rfl | rfl
  · refine (skipMark_takes_none mark).bind taken fun t _ => ?_
    -- the first token is a name, and so no mark
    cases names with
    | nil =>
        exact absurd rfl some
    | cons name names =>
        exact fun same => by cases same
  · exact (skipMark_takes mark).andThen taken

end

end Rule

end SchemaCompletion.Sdl
