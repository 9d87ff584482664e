import SchemaCompletion.Storage

/-!
# Workspaces

The projects that a schema can belong to.

* `Workspace` — a name and a root directory, which may be missing;
* `Workspace.static` — a workspace as it is given;
* `Workspace.directory` — a workspace at a directory, named after it.
-/

namespace SchemaCompletion

/-- A project with a name and, mostly, a root directory. -/
structure Workspace where
  name : String
  root : Option Path
  deriving DecidableEq, Repr

def Workspace.static (name : String) (root : Option String) : Workspace :=
  { name, root := root.map Path.parse }

/-- The workspace at a directory, as seen from the current one; it is named after its last
component. Resolving the directory looks at every component of it, so none may have a NUL
character. -/
def Workspace.directory (current : Path) (root : String) : Except OsError Workspace :=
  let path := current.resolve (Path.parse root)
  if (Path.parse root).hasNul then .error .nulCharacter
  else .ok { name := if path.name = "" then path.toString else path.name, root := some path }

end SchemaCompletion
