import SchemaCompletion.Path
import SchemaCompletion.Text.Quoted

/-!
# Storage

A tree of files and directories, and the failures that the operating system reports on it.

* `OsError` — a failure with its kind and wording;
* `OsError.nulCharacter` — the failure of a path that cannot be handed over at all;
* `Storage` — entries by their absolute components;
* `Storage.find` — what a path leads to, followed component by component;
* `Storage.read`, `Storage.modifiedAt` — a file's bytes and modification time;
* `Storage.write`, `Storage.remove`, `Storage.makeDirectory` — changes.
-/

namespace SchemaCompletion

open SchemaCompletion.Text

/-! ## Failures -/

/-- The kinds of failures of the operating system. -/
inductive OsErrorKind where
  | notFound
  | isDirectory
  | permission
  | unusablePath
  | other
  deriving DecidableEq, Repr

/-- A failure that the operating system reports. -/
structure OsError where
  kind : OsErrorKind
  message : String
  deriving DecidableEq, Repr

namespace OsError

/-- A failure at a path, with its number and name. -/
def atPath (kind : OsErrorKind) (number : Nat) (reason : String) (path : Path) : OsError :=
  { kind, message := "[Errno " ++ toString number ++ "] " ++ reason ++ ": " ++
      quoted path.toString }

/-- There is nothing at the path. -/
def notFound (path : Path) : OsError := atPath .notFound 2 "No such file or directory" path

/-- There is a directory at the path. -/
def isDirectory (path : Path) : OsError := atPath .isDirectory 21 "Is a directory" path

/-- The path has a component that is too long, or is too long itself. -/
def nameTooLong (path : Path) : OsError := atPath .other 36 "File name too long" path

/-- A NUL character would end the path where it stands, so it is refused before anything is looked
at. -/
def nulCharacter : OsError := { kind := .unusablePath, message := "embedded null byte" }

end OsError

/-! ## Entries -/

/-- What is stored at a path, with its modification time. -/
inductive Entry where
  | file (bytes : List UInt8) (modified : Int)
  | directory (modified : Int)
  deriving DecidableEq, Repr

def Entry.modified : Entry → Int
  | .file _ modified => modified
  | .directory modified => modified

def Entry.isDirectory : Entry → Bool
  | .file .. => false
  | .directory _ => true

/-- Files and directories by their components from the root; the root itself is a directory. -/
structure Storage where
  entries : List (List String × Entry)
  deriving Repr

namespace Storage

def empty : Storage := { entries := [] }

def entryAt (s : Storage) (place : List String) : Option Entry :=
  if place = [] then some (.directory 0) else s.entries.lookup place

/-- The storage with another entry at a place. -/
def setEntry (s : Storage) (place : List String) (entry : Option Entry) : Storage :=
  let others := s.entries.filter (·.1 != place)
  { entries := (entry.map (place, ·)).toList ++ others }

/-! ## Following a path -/

/-- The most bytes that a component of a path can have. -/
def componentLimit : Nat := 255

/-- The most bytes that a path can have. -/
def pathLimit : Nat := 4095

/-- Where the components of a path lead from a directory. Nothing is found below a file, below
nothing, or at a component that is too long, which is a failure. -/
def walk (s : Storage) (path : Path) (place : List String) :
    List String → Except OsError (Option (List String))
  | [] => .ok (some place)
  | part :: parts =>
    -- even a way up needs a directory to go up from
    if ((s.entryAt place).map Entry.isDirectory).getD false then
      if part = Path.parent then s.walk path place.dropLast parts
      else if part.utf8ByteSize ≤ componentLimit then
        match s.entryAt (place ++ [part]) with
        | some _ => s.walk path (place ++ [part]) parts
        | none => .ok none
      else .error (.nameTooLong path)
    else .ok none

/-- The entry that an absolute path leads to. -/
def find (s : Storage) (path : Path) : Except OsError (Option Entry) :=
  if path.hasNul then .error .nulCharacter
  else if path.toString.utf8ByteSize ≤ pathLimit then
    (s.walk path [] path.parts).map fun place => place.bind s.entryAt
  else .error (.nameTooLong path)

/-- The path leads to a file or a directory. A path with a NUL character leads nowhere. -/
def contains (s : Storage) (path : Path) : Except OsError Bool :=
  if path.hasNul then .ok false else (s.find path).map Option.isSome

/-- The path leads to a directory. Where it cannot be followed there is none, but a path with a NUL
character is a failure. -/
def hasDirectory (s : Storage) (path : Path) : Except OsError Bool :=
  if path.hasNul then .error .nulCharacter
  else
    match s.find path with
    | .ok (some entry) => .ok entry.isDirectory
    | _ => .ok false

def read (s : Storage) (path : Path) : Except OsError (List UInt8) := do
  match ← s.find path with
  | some (.file bytes _) => return bytes
  | some (.directory _) => throw (.isDirectory path)
  | none => throw (.notFound path)

def modifiedAt (s : Storage) (path : Path) : Except OsError Int := do
  match ← s.find path with
  | some entry => return entry.modified
  | none => throw (.notFound path)

/-- The places that following a path may look at, in order. -/
def placesOn (path : Path) : List (List String) :=
  path.parts.scanl Path.follow []

/-! ## Changes -/

/-- The storage with a directory at every place on the way to a place. -/
def makeParents (s : Storage) (modified : Int) (place : List String) : Storage :=
  (List.range place.length).foldl
    (fun s n =>
      if (s.entryAt (place.take n)).isSome then s
      else s.setEntry (place.take n) (some (.directory modified)))
    s

/-- The place that is meant by a path whose components can all be names. -/
def nameable (path : Path) : Except OsError (List String) :=
  if path.hasNul then .error .nulCharacter
  else if path.parts.all (·.utf8ByteSize ≤ componentLimit) then
    .ok (path.parts.foldl Path.follow [])
  else .error (.nameTooLong path)

/-- The storage with a directory at a path, and at every place on the way to it. -/
def makeDirectory (s : Storage) (path : Path) (modified : Int) : Except OsError Storage := do
  let place ← nameable path
  let s := s.makeParents modified place
  if (s.entryAt place).isSome then return s
  else return s.setEntry place (some (.directory modified))

/-- The storage with a file at a path; directories on the way to it are made first, so their names
are looked at before that of the file. -/
def write (s : Storage) (path : Path) (bytes : List UInt8) (modified : Int) :
    Except OsError Storage := do
  -- a bad name among the directories is told with their path, not with the file's
  let _ ← nameable path.directory
  let place ← nameable path
  match s.entryAt place with
  | some (.directory _) => throw (.isDirectory path)
  | _ => return (s.makeParents modified place).setEntry place (some (.file bytes modified))

def remove (s : Storage) (path : Path) : Except OsError Storage := do
  match ← s.find path with
  | some (.file ..) => return s.setEntry (path.parts.foldl Path.follow []) none
  | some (.directory _) => throw (.isDirectory path)
  | none => throw (.notFound path)

end Storage

end SchemaCompletion
