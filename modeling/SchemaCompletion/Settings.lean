import SchemaCompletion.Path
import SchemaCompletion.Target
import SchemaCompletion.Text.Quoted
import SchemaCompletion.Text.UpperCase

/-!
# Settings

Where the schema lies, which language declarations are written in, and how much is logged.

* `Settings` — valid settings;
* `Given` — a value that was given for a setting, from arguments or from the environment;
* `Settings.Choice` — the value chosen for every setting: an override, else a variable, else
  nothing;
* `Settings.build` — the settings of a choice, or one problem for every bad value.
-/

namespace SchemaCompletion

open SchemaCompletion.Text

/-! ## Fields and values -/

/-- The settings that can be given, in the order in which they are checked. -/
inductive Setting where
  | schemaFile
  | target
  | logLevel
  deriving DecidableEq, Repr

def Setting.name : Setting → String
  | .schemaFile => "schema_file"
  | .target => "target"
  | .logLevel => "log_level"

def Setting.variableName (s : Setting) : String := "GQL_ASSIST_" ++ (upper s.name)

/-- A value that was given for a setting. -/
inductive Given where
  | text (s : String)
  | notText
  deriving DecidableEq, Repr

structure Settings where
  schemaFile : String
  target : String
  logLevel : String
  deriving DecidableEq, Repr

namespace Settings

def standard : Settings :=
  { schemaFile := "schema.graphql", target := "java", logLevel := "WARNING" }

/-! ## Problems -/

/-- Why the value of a setting is bad. -/
inductive Cause where
  | notText
  | outsideRoot
  | unknownTarget (name : String)
  | unknownLevel (name : String)
  | frozen
  deriving DecidableEq, Repr

/-- A bad value of a setting; a value that is assigned later is given by the name it is assigned
to. -/
structure Problem where
  place : String
  cause : Cause
  deriving DecidableEq, Repr

def Cause.label : Cause → String
  | .notText => "string_type"
  | .outsideRoot => "value_error"
  | .unknownTarget _ => "value_error"
  | .unknownLevel _ => "value_error"
  | .frozen => "frozen_instance"

def quotedList (names : List String) : String :=
  "[" ++ ", ".intercalate (names.map quoted) ++ "]"

def Cause.message : Cause → String
  | .notText => "Input should be a valid string"
  | .outsideRoot => "Value error, schema_file must be a path inside the workspace root"
  | .unknownTarget name =>
    "Value error, unknown target " ++ quoted name ++ ", expected one of " ++ quotedList targets
  | .unknownLevel name => "Value error, unknown log level " ++ quoted name
  | .frozen => "Instance is frozen"

/-! ## Checks -/

/-- A path inside the workspace root: not empty, not absolute, and never up. -/
def isInsideRoot (text : String) : Bool :=
  text != "" && !(Path.parse text).isAbsolute && !(Path.parse text).parts.contains Path.parent

/-- A path inside the workspace root is kept as it is given. -/
def checkSchemaFile (text : String) : Except Cause String :=
  if isInsideRoot text then .ok text else .error .outsideRoot

/-- The target has to be a language that declarations can be written in. -/
def checkTarget (text : String) : Except Cause String :=
  if targets.contains text then .ok text else .error (.unknownTarget text)

def levelNames : List String :=
  ["CRITICAL", "FATAL", "ERROR", "WARN", "WARNING", "INFO", "DEBUG", "NOTSET"]

/-- The level is the name in upper case. -/
def checkLogLevel (text : String) : Except Cause String :=
  let level := upper text
  if levelNames.contains level then .ok level else .error (.unknownLevel level)

/-- A value that was given is checked; a default is not. -/
def checkGiven (check : String → Except Cause String) (default : String) :
    Option Given → Except Cause String
  | none => .ok default
  | some .notText => .error .notText
  | some (.text s) => check s

/-! ## Building -/

/-- The values given for the settings. -/
abbrev Choice := Setting → Option Given

/-- The value of a name in a list of names and values; the last one counts. -/
def lastGiven (values : List (String × Option Given)) (name : String) : Option (Option Given) :=
  values.foldl (fun found v => if v.1 = name then some v.2 else found) none

/-- The values given by name. A value that is missing altogether is no text. -/
def Choice.ofValues (values : List (String × Option Given)) : Choice := fun s =>
  (lastGiven values s.name).map fun given => given.getD .notText

/-- The override of a setting if there is one, else its variable in the environment. A missing value
overrides nothing, but in the environment it is no text. -/
def Choice.ofEnvironment (environment overrides : List (String × Option Given)) : Choice := fun s =>
  match (lastGiven overrides s.name).join with
  | some given => some given
  | none => (lastGiven environment s.variableName).map fun given => given.getD .notText

def problemOf (s : Setting) : Except Cause String → List Problem
  | .ok _ => []
  | .error cause => [{ place := s.name, cause }]

theorem problemOf_eq_nil_iff {s : Setting} {checked : Except Cause String} :
    problemOf s checked = [] ↔ ∃ value, checked = .ok value := by
  cases checked with
  | ok value =>
      exact ⟨fun _ => ⟨value, rfl⟩, fun _ => rfl⟩
  | error cause =>
      simp [problemOf]

/-- A problem is told at the place of its setting. -/
theorem place_of_mem_problemOf {s : Setting} {checked : Except Cause String} {p : Problem}
    (mem : p ∈ problemOf s checked) : p.place = s.name := by
  cases checked with
  | ok value =>
      cases mem
  | error cause =>
      rw [List.mem_singleton.1 mem]

/-- The settings of a choice, or one problem for every bad value. -/
def build (choice : Choice) : Except (List Problem) Settings :=
  let schemaFile := checkGiven checkSchemaFile standard.schemaFile (choice .schemaFile)
  let target := checkGiven checkTarget standard.target (choice .target)
  let logLevel := checkGiven checkLogLevel standard.logLevel (choice .logLevel)
  -- all three are checked before any problem is told
  match schemaFile, target, logLevel with
  | .ok schemaFile, .ok target, .ok logLevel => .ok { schemaFile, target, logLevel }
  | _, _, _ =>
    .error (problemOf .schemaFile schemaFile ++ problemOf .target target ++
      problemOf .logLevel logLevel)

/-- Settings are built of values that all pass their checks. -/
theorem build_eq_ok_iff {choice : Choice} {s : Settings} :
    build choice = .ok s ↔
      checkGiven checkSchemaFile standard.schemaFile (choice .schemaFile) = .ok s.schemaFile ∧
      checkGiven checkTarget standard.target (choice .target) = .ok s.target ∧
      checkGiven checkLogLevel standard.logLevel (choice .logLevel) = .ok s.logLevel := by
  simp only [build]
  split
  next schemaFile target logLevel schemaFileChecked targetChecked logLevelChecked =>
    rw [schemaFileChecked, targetChecked, logLevelChecked]
    cases s
    simp
  next bad =>
    constructor
    · intro built
      cases built
    · rintro ⟨schemaFile, target, logLevel⟩
      exact (bad _ _ _ schemaFile target logLevel).elim

/-- Else there is a problem for every value that does not pass its check, and no other. -/
theorem build_eq_error_iff {choice : Choice} {problems : List Problem} :
    build choice = .error problems ↔
      problems ≠ [] ∧
      problems =
        problemOf .schemaFile
            (checkGiven checkSchemaFile standard.schemaFile (choice .schemaFile)) ++
          problemOf .target (checkGiven checkTarget standard.target (choice .target)) ++
          problemOf .logLevel (checkGiven checkLogLevel standard.logLevel (choice .logLevel)) := by
  simp only [build]
  split
  next schemaFile target logLevel schemaFileChecked targetChecked logLevelChecked =>
    rw [schemaFileChecked, targetChecked, logLevelChecked]
    simp [problemOf]
  next bad =>
    constructor
    · intro failed
      cases failed
      refine ⟨fun none => ?_, rfl⟩
      -- without a problem each value passes
      simp only [List.append_eq_nil_iff, problemOf_eq_nil_iff] at none
      rcases none with ⟨⟨⟨schemaFile, first⟩, target, second⟩, logLevel, third⟩
      exact bad schemaFile target logLevel first second third
    · rintro ⟨-, rfl⟩
      rfl

/-- Settings cannot be changed once they are built. -/
def assign (_ : Settings) (name : String) : Except (List Problem) Settings :=
  .error [{ place := name, cause := .frozen }]

/-- Messages for debugging are logged at this level. -/
def logsDebug (s : Settings) : Bool := s.logLevel = "DEBUG" || s.logLevel = "NOTSET"

end Settings

end SchemaCompletion
