import SchemaCompletion.Host

/-!
# The schema cache

The schema of the active workspace, read again only when its file may have changed.

* `Memory` — the snapshot that is kept and where it is from, what has happened so far, and how often
  a file was read;
* `Memory.current?` — the kept snapshot, as long as it counts;
* `Memory.invalidate` — forgetting the kept snapshot;
* `Query` — questions that consult and change the memory; a failure keeps what has happened;
* `snapshot`, `typeNames`, `fieldsIn` — the questions.
-/

namespace SchemaCompletion

/-! ## Diagnostics and events -/

/-- What is told about a question that found nothing. -/
inductive Diagnostic where
  | unavailable (u : Unavailable)
  | unknownType (name source : String)
  deriving DecidableEq, Repr

def Diagnostic.message : Diagnostic → String
  | .unavailable u => u.message
  | .unknownType name source => "no type " ++ name ++ " in schema at " ++ source

/-- What happens in the course of a question. -/
inductive Event where
  | reloading (path : Path)
  | parsing (source : String)
  | diagnosed (d : Diagnostic)
  deriving DecidableEq, Repr

def Event.logLine : Event → String
  | .reloading path => "DEBUG:gql_assist.core.schema:reload schema " ++ path.toString
  | .parsing source => "DEBUG:gql_assist.core.parser:parsing schema " ++ source
  | .diagnosed d => "DEBUG:gql_assist.core.schema:" ++ d.message

def Event.diagnostic? : Event → Option Diagnostic
  | .diagnosed d => some d
  | _ => none

/-! ## Memory -/

/-- What is remembered from one question to the next: the kept snapshot, the path that it was read
from, what has happened, and how often the reading of a file has begun. -/
structure Memory where
  cached : Option Snapshot
  cachedPath : Option Path
  events : List Event
  loads : Nat
  deriving Repr

namespace Memory

def fresh : Memory := { cached := none, cachedPath := none, events := [], loads := 0 }

/-- The memory without the kept snapshot. -/
def invalidate (m : Memory) : Memory := { m with cached := none, cachedPath := none }

def record (m : Memory) (e : Event) : Memory := { m with events := m.events ++ [e] }

/-- The memory after the reading of a file has begun. -/
def beginLoad (m : Memory) (path : Path) : Memory :=
  { m.record (.reloading path) with loads := m.loads + 1 }

/-- The memory after the bytes of a file were handed on to be parsed, which begins if they are
text. -/
def beginParse (m : Memory) (path : Path) (bytes : List UInt8) : Memory :=
  match decodeFile bytes with
  | .ok _ => m.record (.parsing path.toString)
  | .error _ => m

/-- The memory with another kept snapshot. -/
def keep (m : Memory) (path : Path) (s : Snapshot) : Memory :=
  { m with cached := some s, cachedPath := some path }

/-- The kept snapshot, if it still counts at a path and a time: it was read from the same path, and
the time is not later than its own. -/
def current? (m : Memory) (path : Path) (modified : Int) : Option Snapshot :=
  m.cached.filter fun s => m.cachedPath = some path && modified ≤ s.modified

def diagnostics (m : Memory) : List Diagnostic := m.events.filterMap Event.diagnostic?

/-! ### What the operations leave alone -/

@[simp] theorem cached_record (m : Memory) (e : Event) : (m.record e).cached = m.cached := rfl

@[simp] theorem cachedPath_record (m : Memory) (e : Event) :
    (m.record e).cachedPath = m.cachedPath := rfl

@[simp] theorem cached_beginLoad (m : Memory) (path : Path) :
    (m.beginLoad path).cached = m.cached := rfl

@[simp] theorem cachedPath_beginLoad (m : Memory) (path : Path) :
    (m.beginLoad path).cachedPath = m.cachedPath := rfl

@[simp] theorem cached_beginParse (m : Memory) (path : Path) (bytes : List UInt8) :
    (m.beginParse path bytes).cached = m.cached := by
  unfold beginParse
  split <;> rfl

@[simp] theorem cachedPath_beginParse (m : Memory) (path : Path) (bytes : List UInt8) :
    (m.beginParse path bytes).cachedPath = m.cachedPath := by
  unfold beginParse
  split <;> rfl

/-- What counts at a path and a time is the kept snapshot, if it is from that path and not older. -/
theorem current?_eq_some_iff {m : Memory} {path : Path} {modified : Int} {s : Snapshot} :
    m.current? path modified = some s ↔
      m.cached = some s ∧ m.cachedPath = some path ∧ modified ≤ s.modified := by
  simp [current?, Option.filter_eq_some_iff]

/-- A snapshot counts at the path that it was kept for, up to its own time. -/
theorem current?_keep {m : Memory} {path : Path} {modified : Int} {s : Snapshot}
    (h : modified ≤ s.modified) : (m.keep path s).current? path modified = some s :=
  current?_eq_some_iff.2 ⟨rfl, rfl, h⟩

end Memory

/-! ## Questions -/

/-- A question to the schema. -/
abbrev Query := ExceptT OsError (StateM Memory)

namespace Query

/-- A step that only looks at the surroundings. -/
def look {α : Type} (x : Except OsError α) : Query α := fun m => (x, m)

def diagnose (d : Diagnostic) : Query Unit := modify fun m => m.record (.diagnosed d)

/-- Parses the bytes of the file at a path and keeps the schema that they are. Bytes that are no
schema leave the kept snapshot alone. -/
def digest (path : Path) (modified : Int) (bytes : List UInt8) :
    Query (Except ParseError Snapshot) := do
  modify fun m => m.beginParse path bytes
  let result := Snapshot.ofBytes path.toString modified bytes
  if let .ok s := result then
    modify fun m => m.keep path s
  return result

/-- Reads the schema in the file at a path; the time is that at which the file was looked at
before. -/
def reload (h : Host) (path : Path) (modified : Int) : Query (Except ParseError Snapshot) := do
  modify fun m => m.beginLoad path
  let bytes ← look (h.storage.read path)
  digest path modified bytes

/-- The schema in the file at a path: the kept snapshot as long as it counts, else the file's. -/
def loadAt (h : Host) (path : Path) (modified : Int) : Query (Except ParseError Snapshot) := do
  match (← get).current? path modified with
  | some s => return .ok s
  | none => reload h path modified

/-- The schema of the active workspace, or why there is none. -/
def load (h : Host) (schemaFile : String) : Query (Except Unavailable Snapshot) := do
  match ← look (h.locate schemaFile) with
  | .error u => return .error u
  | .ok (path, modified) => return (← loadAt h path modified).mapError Unavailable.unparsable

/-- The schema of the active workspace; if there is none, a diagnostic says why. -/
def snapshot (h : Host) (schemaFile : String) : Query (Option Snapshot) := do
  match ← load h schemaFile with
  | .ok s => return some s
  | .error u =>
    diagnose (.unavailable u)
    return none

/-- The names of the declared types, in document order. -/
def typeNames (h : Host) (schemaFile : String) : Query (List String) := do
  match ← snapshot h schemaFile with
  | some s => return s.typeNames
  | none => return []

/-- The members of a type. A name that is neither declared nor extended gets a diagnostic. -/
def fieldsIn (h : Host) (schemaFile name : String) : Query (List Member) := do
  match ← snapshot h schemaFile with
  | some s =>
    if s.knows name then return s.members name
    else
      diagnose (.unknownType name s.source)
      return []
  | none => return []

end Query

end SchemaCompletion
