import SchemaCompletion.Snapshot
import SchemaCompletion.Storage
import SchemaCompletion.Workspace

/-!
# Hosts

What surrounds a schema: the files, the source of modification times and the active workspace.

* `Clock`, `Host` — the surroundings at one time;
* `Unavailable` — why there is no schema at that time;
* `Host.schemaPath` — where the schema of the active workspace lies;
* `Host.locate` — the path and the modification time of a schema file that exists;
* `Host.readAfresh` — the schema as its file holds it now.
-/

namespace SchemaCompletion

/-! ## Surroundings -/

/-- Where modification times come from. -/
inductive Clock where
  | fixed (time : Int)
  | failing (e : OsError)
  | files
  deriving DecidableEq, Repr

/-- The surroundings of a schema at one time. -/
structure Host where
  storage : Storage
  clock : Clock
  workspace : Option Workspace
  deriving Repr

/-- Why no schema is available. -/
inductive Unavailable where
  | noWorkspace
  | noBasePath (workspace : String)
  | missing (path : Path)
  | unparsable (e : ParseError)
  deriving DecidableEq, Repr

def Unavailable.message : Unavailable → String
  | .noWorkspace => "no active workspace"
  | .noBasePath workspace => "no base path in workspace " ++ workspace
  | .missing path => "no GraphQL schema found at " ++ path.toString
  | .unparsable e => e.message

namespace Host

/-! ## Finding the schema -/

def modifiedAt (h : Host) (path : Path) : Except OsError Int :=
  match h.clock with
  | .fixed time => .ok time
  | .failing e => .error e
  | .files => h.storage.modifiedAt path

/-- The path of a schema file in the active workspace. -/
def schemaPath (h : Host) (schemaFile : String) : Except Unavailable Path :=
  match h.workspace with
  | none => .error .noWorkspace
  | some { name, root := none } => .error (.noBasePath name)
  | some { root := some root, .. } => .ok (root.join (Path.parse schemaFile))

/-- The path of a schema file that exists, and its modification time. -/
def locate (h : Host) (schemaFile : String) : Except OsError (Except Unavailable (Path × Int)) :=
  match h.schemaPath schemaFile with
  | .error u => .ok (.error u)
  | .ok path => do
    if ← h.storage.contains path then return .ok (path, ← h.modifiedAt path)
    else return .error (.missing path)

/-! ## Reading the schema -/

def read (h : Host) (path : Path) (modified : Int) : Except OsError (Except ParseError Snapshot) :=
  (h.storage.read path).map (Snapshot.ofBytes path.toString modified)

/-- The schema of the active workspace as its file holds it now. -/
def readAfresh (h : Host) (schemaFile : String) : Except OsError (Except Unavailable Snapshot) := do
  match ← h.locate schemaFile with
  | .error u => return .error u
  | .ok (path, modified) => return (← h.read path modified).mapError Unavailable.unparsable

end Host

end SchemaCompletion
