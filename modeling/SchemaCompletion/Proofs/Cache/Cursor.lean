import SchemaCompletion.Proofs.Cache.Run
import SchemaCompletion.Proofs.Overwriting

/-!
# Cursors

Sessions whose iterators look up a member only when it is asked for, against those that list the
names when an iterator is opened.

* `MemberCursor` — the members of a type, each looked up only when it is asked for;
* `MemberCursor.advance_eq` — an advance takes the first of the members that remain;
* `CursorSession` — a session whose iterators are cursors;
* `Session.perform_withIterators` — which steps do not look at the iterators;
* `CursorSession.Follows` — the cursors have to give what the iterators list;
* `CursorSession.Follows.run_reports` — so a run shows the same with either.
-/

namespace SchemaCompletion

open SchemaCompletion.Sdl

/-! ## Cursors -/

/-- The members of a type, to be given one after the other. Nothing is looked up before the first
one is asked for; then the rest of a block is at hand, and blocks after it wait to be taken up. -/
inductive MemberCursor where
  | unopened (c : Catalog) (type : String)
  | opened (block : List Member) (later : List TypeDefinition)

namespace MemberCursor

def exhausted : MemberCursor := .opened [] []

/-- The next member of a block, or else of the first block after it that has one. -/
def give : List Member → List TypeDefinition → Option Member × MemberCursor
  | m :: block, later => (some m, .opened block later)
  | [], d :: later => give (membersOf d) later
  | [], [] => (none, exhausted)

/-- The next member, and the cursor after it. -/
def advance : MemberCursor → Option Member × MemberCursor
  | .unopened c type => give [] ((c.type? type).toList ++ c.extensionsOf type)
  | .opened block later => give block later

/-- The members that are still to come. -/
def remaining : MemberCursor → List Member
  | .unopened c type => c.members type
  | .opened block later => block ++ later.flatMap membersOf

theorem give_eq (block : List Member) (later : List TypeDefinition) :
    (give block later).1 = (block ++ later.flatMap membersOf).head? ∧
      (give block later).2.remaining = (block ++ later.flatMap membersOf).tail := by
  induction later generalizing block with
  | nil =>
      cases block with
      | nil =>
          exact ⟨rfl, rfl⟩
      | cons m block =>
          exact ⟨rfl, rfl⟩
  | cons d later ih =>
      cases block with
      | nil =>
          -- the block is used up, so the next one is taken up
          exact ih (membersOf d)
      | cons m block =>
          exact ⟨rfl, rfl⟩

/-- An advance gives the first member that remains, and leaves the others. -/
theorem advance_eq (cursor : MemberCursor) :
    cursor.advance.1 = cursor.remaining.head? ∧
      cursor.advance.2.remaining = cursor.remaining.tail := by
  cases cursor with
  | unopened c type =>
      exact give_eq [] ((c.type? type).toList ++ c.extensionsOf type)
  | opened block later =>
      exact give_eq block later

end MemberCursor

/-! ## Sessions with cursors -/

namespace Query

/-- A cursor on the members of a type. A name that is neither declared nor extended gets a
diagnostic. -/
def cursorOn (h : Host) (schemaFile name : String) : Query MemberCursor := do
  match ← snapshot h schemaFile with
  | some s =>
    if s.knows name then return .unopened s.toCatalog name
    else
      diagnose (.unknownType name s.source)
      return .exhausted
  | none => return .exhausted

/-- The members of a type are what a cursor on it has to give. -/
theorem run_cursorOn (h : Host) (schemaFile name : String) (m : Memory) :
    (fieldsIn h schemaFile name).run.run m =
      (((cursorOn h schemaFile name).run.run m).1.map MemberCursor.remaining,
        ((cursorOn h schemaFile name).run.run m).2) := by
  simp only [fieldsIn, cursorOn, run_bind]
  rcases (snapshot h schemaFile).run.run m with ⟨e | _ | s, m'⟩
  · rfl
  · rfl
  · cases known : s.knows name with
    | true =>
        simp only [known, if_true, run_pure]
        rfl
    | false =>
        simp only [known, Bool.false_eq_true, if_false, run_bind, run_diagnose, run_pure]
        rfl

end Query

/-- A session whose iterators are cursors; those of the session itself are not used. -/
structure CursorSession where
  session : Session
  cursors : List (String × MemberCursor)

namespace CursorSession

def start (host : Host) : CursorSession := { session := .start host, cursors := [] }

def setCursor (s : CursorSession) (key : String) (cursor : MemberCursor) : CursorSession :=
  { s with cursors := (key, cursor) :: s.cursors.filter (·.1 != key) }

/-- Opens a cursor on the members of a type. -/
def openFields (c : Configuration) (s : CursorSession) (key type : String) :
    Outcome × CursorSession :=
  match s.session.ask (Query.cursorOn s.session.host c.schemaFile type) with
  | (.ok cursor, session) => (.answered .done, { s with session }.setCursor key cursor)
  | (.error e, session) => (.failed e, { s with session })

/-- Advances a cursor. -/
def next (s : CursorSession) (key : String) : Outcome × CursorSession :=
  match s.cursors.lookup key with
  | some cursor =>
    (.answered (.member (cursor.advance.1.map (·.name))), s.setCursor key cursor.advance.2)
  | none => (.answered (.member none), s)

def perform (c : Configuration) (s : CursorSession) : Step → Outcome × CursorSession
  | .openFields key type => s.openFields c key type
  | .next key => s.next key
  | step => ((s.session.perform c step).1, { s with session := (s.session.perform c step).2 })

def performReporting (c : Configuration) (s : CursorSession) (step : Step) :
    Session.Report × CursorSession :=
  let before := s.session.memory.events.length
  let (outcome, after) := s.perform c step
  let events := after.session.memory.events.drop before
  let delivered := if after.session.delivers then events.filterMap Event.diagnostic? else []
  ({ outcome, events, delivered, loads := after.session.memory.loads }, after)

/-- A sequence of steps with a report on each. -/
def run (c : Configuration) (s : CursorSession) : List Step → List Session.Report × CursorSession
  | [] => ([], s)
  | step :: steps =>
    let (report, s) := s.performReporting c step
    let (reports, s) := run c s steps
    (report :: reports, s)

end CursorSession

/-! ## Cursors against lists of names -/

namespace Session

/-- The session with other iterators. -/
def withIterators (s : Session) (iterators : List (String × List String)) : Session :=
  { s with iterators }

/-- An iterator is set, and the others stay as they are. -/
theorem lookup_setIterator (s : Session) (key other : String) (names : List String) :
    (s.setIterator key names).iterators.lookup other =
      if other = key then some names else s.iterators.lookup other :=
  lookup_set s.iterators key other names

/-- A step that neither opens nor advances an iterator does not look at the iterators, and passes
them on. -/
theorem perform_withIterators (c : Configuration) (s : Session) {step : Step}
    (opens : ∀ key type, step ≠ .openFields key type) (advances : ∀ key, step ≠ .next key)
    (iterators : List (String × List String)) :
    (s.withIterators iterators).perform c step =
      ((s.perform c step).1, (s.perform c step).2.withIterators iterators) := by
  have change : ∀ result, (s.withIterators iterators).changeFiles result =
      ((s.changeFiles result).1, (s.changeFiles result).2.withIterators iterators) := by
    intro result
    cases result <;> rfl
  have inquire : ∀ {α : Type} (q : Query α) (answer : α → Answer),
      (s.withIterators iterators).inquire q answer =
        ((s.inquire q answer).1, (s.inquire q answer).2.withIterators iterators) := by
    intro α q answer
    simp only [Session.inquire, ask, withIterators]
    rcases q.run.run s.memory with ⟨result, m⟩
    cases result <;> rfl
  cases step with
  | write path bytes modified =>
      exact change _
  | remove path =>
      exact change _
  | makeDirectory path modified =>
      exact change _
  | types =>
      exact inquire _ _
  | fields type =>
      exact inquire _ _
  | snapshot =>
      exact inquire _ _
  | api existing =>
      exact inquire _ _
  | suggest type existing =>
      exact inquire _ _
  | path =>
      simp only [perform, withIterators]
      cases s.host.schemaPath c.schemaFile <;> rfl
  | openFields key type =>
      exact absurd rfl (opens key type)
  | next key =>
      exact absurd rfl (advances key)
  | _ =>
      rfl

end Session

namespace CursorSession

theorem lookup_setCursor (s : CursorSession) (key other : String) (cursor : MemberCursor) :
    (s.setCursor key cursor).cursors.lookup other =
      if other = key then some cursor else s.cursors.lookup other :=
  lookup_set s.cursors key other cursor

/-- The sessions are alike but for the iterators, and the cursors have the names still to give that
the iterators list. -/
structure Follows (x : CursorSession) (s : Session) : Prop where
  alike : x.session.withIterators s.iterators = s
  listed : ∀ key, s.iterators.lookup key =
    (x.cursors.lookup key).map fun cursor => cursor.remaining.map (·.name)

variable {c : Configuration} {x : CursorSession} {s : Session}

theorem follows_start (h : Host) : (start h).Follows (Session.start h) where
  alike := rfl
  listed := fun _ => rfl

/-- Setting an iterator and a cursor that has the same names to give. -/
theorem Follows.set (follows : x.Follows s) (key : String) {cursor : MemberCursor}
    {names : List String} (same : names = cursor.remaining.map (·.name)) :
    (x.setCursor key cursor).Follows (s.setIterator key names) where
  alike := by
    rw [← follows.alike]
    rfl
  listed := by
    intro other
    rw [Session.lookup_setIterator, lookup_setCursor, follows.listed other]
    by_cases changed : other = key
    · simp [changed, same]
    · simp [changed]

/-- The cursor looks for the schema as the listing of the names does. -/
theorem Follows.openFields (follows : x.Follows s) (key type : String) :
    (x.openFields c key type).1 = (s.openFields c key type).1 ∧
      (x.openFields c key type).2.Follows (s.openFields c key type).2 := by
  rcases follows with ⟨alike, listed⟩
  rw [← alike]
  simp only [CursorSession.openFields, Session.openFields, Session.ask, Session.withIterators,
    Query.run_cursorOn]
  rcases (Query.cursorOn x.session.host c.schemaFile type).run.run x.session.memory with
    ⟨e | cursor, m⟩
  · exact ⟨rfl, rfl, listed⟩
  · have next : CursorSession.Follows { x with session := { x.session with memory := m } }
        { x.session with memory := m, iterators := s.iterators } := ⟨rfl, listed⟩
    exact ⟨rfl, next.set key rfl⟩

/-- A cursor that is at its end stays there, like an iterator without names. -/
theorem Follows.next (follows : x.Follows s) (key : String) :
    (x.next key).1 = (s.next key).1 ∧ (x.next key).2.Follows (s.next key).2 := by
  have listed := follows.listed key
  cases found : x.cursors.lookup key with
  | none =>
      rw [found, Option.map_none] at listed
      simp only [CursorSession.next, Session.next, found, listed]
      exact ⟨trivial, follows⟩
  | some cursor =>
      rcases cursor.advance_eq with ⟨given, left⟩
      rw [found, Option.map_some] at listed
      cases remaining : cursor.remaining with
      | nil =>
          rw [remaining] at listed given left
          simp only [CursorSession.next, Session.next, found, listed, given, List.map_nil,
            List.head?_nil, Option.map_none]
          -- the cursor is set again, but has nothing to give as before
          refine ⟨trivial, follows.alike, fun other => ?_⟩
          rw [lookup_setCursor, follows.listed other]
          by_cases same : other = key
          · simp [same, found, remaining, left]
          · simp [same]
      | cons m rest =>
          rw [remaining] at listed given left
          simp only [CursorSession.next, Session.next, found, listed, given, List.map_cons,
            List.head?_cons, Option.map_some]
          exact ⟨trivial, follows.set key (by simp [left])⟩

/-- Every step shows the same in both sessions, and leaves them alike. -/
theorem Follows.perform (follows : x.Follows s) (step : Step) :
    (x.perform c step).1 = (s.perform c step).1 ∧
      (x.perform c step).2.Follows (s.perform c step).2 := by
  by_cases opens : ∃ key type, step = .openFields key type
  · rcases opens with ⟨key, type, rfl⟩
    exact follows.openFields key type
  by_cases advances : ∃ key, step = .next key
  · rcases advances with ⟨key, rfl⟩
    exact follows.next key
  -- any other step is one of the session that is part of the other
  have delegated : x.perform c step =
      ((x.session.perform c step).1, { x with session := (x.session.perform c step).2 }) := by
    cases step with
    | openFields key type =>
        exact absurd ⟨key, type, rfl⟩ opens
    | next key =>
        exact absurd ⟨key, rfl⟩ advances
    | _ =>
        rfl
  have passed := x.session.perform_withIterators c (fun key type same => opens ⟨key, type, same⟩)
    (fun key same => advances ⟨key, same⟩) s.iterators
  rw [follows.alike] at passed
  rw [delegated, passed]
  exact ⟨rfl, rfl, follows.listed⟩

theorem Follows.memory_eq (follows : x.Follows s) : x.session.memory = s.memory := by
  rw [← follows.alike]
  rfl

theorem Follows.delivers_eq (follows : x.Follows s) : x.session.delivers = s.delivers := by
  rw [← follows.alike]
  rfl

/-- Every step is reported alike in both sessions. -/
theorem Follows.report_eq (follows : x.Follows s) (step : Step) :
    (x.performReporting c step).1 = (s.performReporting c step).1 := by
  rcases follows.perform (c := c) step with ⟨outcome, next⟩
  simp only [CursorSession.performReporting, Session.performReporting, outcome, next.memory_eq,
    next.delivers_eq, follows.memory_eq]

/-- A run with members looked up only when they are asked for shows what a run shows whose iterators
list the names from the start. -/
theorem Follows.run_reports (follows : x.Follows s) (steps : List Step) :
    (x.run c steps).1 = (s.run c steps).1 := by
  induction steps generalizing x s with
  | nil =>
      rfl
  | cons step steps ih =>
      have first := follows.report_eq (c := c) step
      have rest := ih (follows.perform (c := c) step).2
      exact congrArg₂ List.cons first rest

end CursorSession

end SchemaCompletion
