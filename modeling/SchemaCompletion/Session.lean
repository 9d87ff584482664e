import SchemaCompletion.Suggestion

/-!
# Sessions

A run of changes to the surroundings of a schema and of questions to it.

* `Step` — one change or question;
* `Session` — the surroundings, the memory, the open iterators and whether diagnostics are
  delivered;
* `Outcome` — what came of a step;
* `Session.perform`, `Session.run` — one step, and a sequence of them with a report on each.
-/

namespace SchemaCompletion

/-- One change or question. Files are given by their absolute paths. -/
inductive Step where
  | write (path : Path) (bytes : List UInt8) (modified : Int)
  | remove (path : Path)
  | makeDirectory (path : Path) (modified : Int)
  | setClock (clock : Clock)
  | setWorkspace (workspace : Option Workspace)
  | invalidate
  | setSink (installed : Bool)
  | types
  | fields (type : String)
  | openFields (key type : String)
  | next (key : String)
  | snapshot
  | path
  | api (existing : List String)
  | suggest (type : String) (existing : List String)
  deriving Repr

/-- The answer to a step that succeeded. -/
inductive Answer where
  | done
  | names (names : List String)
  | members (members : List Member)
  | member (name : Option String)
  | snapshot (s : Option Snapshot)
  | path (path : Path)
  | suggestions (suggestions : List Suggestion)
  deriving Repr

/-- What came of a step. -/
inductive Outcome where
  | answered (a : Answer)
  | failed (e : OsError)
  | unavailable (u : Unavailable)
  deriving Repr

/-- What does not change in a session. -/
structure Configuration where
  schemaFile : String
  dialect : Dialect

/-- The state of a session. An iterator is the list of the names that it still has to give. -/
structure Session where
  host : Host
  memory : Memory
  iterators : List (String × List String)
  delivers : Bool
  deriving Repr

namespace Session

def start (host : Host) : Session :=
  { host, memory := .fresh, iterators := [], delivers := true }

def setIterator (s : Session) (key : String) (names : List String) : Session :=
  { s with iterators := (key, names) :: s.iterators.filter (·.1 != key) }

/-- A question put to the schema. -/
def ask {α : Type} (s : Session) (question : Query α) : Except OsError α × Session :=
  let (result, memory) := question.run.run s.memory
  (result, { s with memory })

/-- A question whose answer is the outcome of a step. -/
def inquire {α : Type} (s : Session) (question : Query α) (answer : α → Answer) :
    Outcome × Session :=
  match s.ask question with
  | (.ok a, s) => (.answered (answer a), s)
  | (.error e, s) => (.failed e, s)

def changeFiles (s : Session) (result : Except OsError Storage) : Outcome × Session :=
  match result with
  | .ok storage => (.answered .done, { s with host := { s.host with storage } })
  | .error e => (.failed e, s)

/-- Opens an iterator on the members of a type. -/
def openFields (c : Configuration) (s : Session) (key type : String) : Outcome × Session :=
  match s.ask (Query.fieldsIn s.host c.schemaFile type) with
  | (.ok members, s) => (.answered .done, s.setIterator key (members.map (·.name)))
  | (.error e, s) => (.failed e, s)

/-- The next name of an iterator, and the iterator without it. An iterator at its end stays
there. -/
def next (s : Session) (key : String) : Outcome × Session :=
  match s.iterators.lookup key with
  | some (name :: names) => (.answered (.member (some name)), s.setIterator key names)
  | _ => (.answered (.member none), s)

def perform (c : Configuration) (s : Session) : Step → Outcome × Session
  | .write path bytes modified => s.changeFiles (s.host.storage.write path bytes modified)
  | .remove path => s.changeFiles (s.host.storage.remove path)
  | .makeDirectory path modified => s.changeFiles (s.host.storage.makeDirectory path modified)
  | .setClock clock => (.answered .done, { s with host := { s.host with clock } })
  | .setWorkspace workspace => (.answered .done, { s with host := { s.host with workspace } })
  | .invalidate => (.answered .done, { s with memory := s.memory.invalidate })
  | .setSink installed => (.answered .done, { s with delivers := installed })
  | .types => s.inquire (Query.typeNames s.host c.schemaFile) .names
  | .fields type => s.inquire (Query.fieldsIn s.host c.schemaFile type) .members
  | .openFields key type => s.openFields c key type
  | .next key => s.next key
  | .snapshot => s.inquire (Query.snapshot s.host c.schemaFile) .snapshot
  | .path =>
    match s.host.schemaPath c.schemaFile with
    | .ok path => (.answered (.path path), s)
    | .error u => (.unavailable u, s)
  | .api existing =>
    s.inquire (Query.apiSuggestions s.host c.schemaFile c.dialect existing) .suggestions
  | .suggest type existing =>
    s.inquire (Query.typeSuggestions s.host c.schemaFile c.dialect type existing) .suggestions

/-! ## Reports -/

/-- A report on one step: its outcome, what happened in its course, the diagnostics that were
delivered, and how often a file has been read up to now. -/
structure Report where
  outcome : Outcome
  events : List Event
  delivered : List Diagnostic
  loads : Nat
  deriving Repr

def performReporting (c : Configuration) (s : Session) (step : Step) : Report × Session :=
  let before := s.memory.events.length
  let (outcome, after) := s.perform c step
  -- events are only ever added, so those of this step are at the end
  let events := after.memory.events.drop before
  let delivered := if after.delivers then events.filterMap Event.diagnostic? else []
  ({ outcome, events, delivered, loads := after.memory.loads }, after)

/-- A sequence of steps with a report on each. -/
def run (c : Configuration) (s : Session) : List Step → List Report × Session
  | [] => ([], s)
  | step :: steps =>
    let (report, s) := s.performReporting c step
    let (reports, s) := run c s steps
    (report :: reports, s)

end Session

end SchemaCompletion
