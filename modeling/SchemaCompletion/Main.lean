import SchemaCompletion.CommandLine

/-!
# The program

Reads the surroundings that a run looks at, runs the command line on them and prints what comes of
it.
-/

namespace SchemaCompletion

def placeText (place : List String) : String := "/" ++ "/".intercalate place

/-- What is stored at a place, if anything is there. -/
def observe (place : List String) : IO (Option Entry) := do
  try
    let info ← (← IO.FS.realPath (placeText place)).metadata
    let modified := info.modified.sec * 1000000000 + Int.ofNat info.modified.nsec.toNat
    match info.type with
    | .dir => return some (.directory modified)
    | _ => return some (.file (← IO.FS.readBinFile (placeText place)).toList modified)
  catch _ => return none

/-- The storage with what is found on the way along a path. -/
def observeOn (storage : Storage) (path : Path) : IO Storage :=
  (Storage.placesOn path).foldlM
    (fun storage place => return storage.setEntry place (← observe place)) storage

def observeVariables : IO (List (String × String)) :=
  CommandLine.variableNames.filterMapM fun name =>
    return (← IO.getEnv name).map fun value => (name, value)

end SchemaCompletion

open SchemaCompletion in
def main (args : List String) : IO UInt32 := do
  let directory := Path.parse (← IO.currentDir).toString
  let bindings ← observeVariables
  let bare : CommandLine.Environment := { directory, storage := .empty, bindings }
  let storage ← (CommandLine.pathsOf bare args).foldlM observeOn Storage.empty
  match CommandLine.run { bare with storage } args with
  | .misused =>
    IO.eprint CommandLine.usageText
    return 2
  | .finished status out err =>
    IO.print out
    IO.eprint err
    return UInt32.ofNat status
  | .failed e =>
    IO.eprintln e.message
    return 1
