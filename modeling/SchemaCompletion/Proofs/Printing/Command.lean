import SchemaCompletion.Proofs.Printing.Answer

/-!
# Commands in a run

What comes of arguments that ask for a command.

* `readPreamble_append` — a command can stand behind any options of the program;
* `Asks` — what arguments ask for in some surroundings: a command, with settings and a host;
* `asks_of_preamble` — the arguments of a command behind options of the program ask for it;
* `Asks.schemaPath_eq` — where the schema of the run lies;
* `Asks.run_of_found`, `Asks.run_of_failure` — the run loads the schema once, prints the answer to
  the question of the command, and tells what the question tells.
-/

namespace SchemaCompletion

/-- The fixed part of a session with the settings. -/
def Settings.configuration (s : Settings) : Configuration where
  schemaFile := s.schemaFile
  dialect := .java

/-- Valid settings have a target whose reserved words are known, and those are the ones of Java. -/
theorem Settings.reservedWords_of_build {choice : Choice} {s : Settings}
    (built : build choice = .ok s) : reservedWords s.target = .ok javaReserved := by
  have checked := (build_eq_ok_iff.1 built).2.1
  have target : s.target = "java" := by
    unfold checkGiven at checked
    split at checked
    · exact (Except.ok.inj checked).symm
    · cases checked
    · unfold checkTarget at checked
      split at checked
      next listed =>
          rw [Except.ok.inj checked] at listed
          simpa [targets] using listed
      · cases checked
  rw [reservedWords, if_pos target]

namespace CommandLine

/-! ## Arguments behind options -/

/-- Behind options that need nothing more, an argument that is no option begins the operands. -/
theorem readArguments?_append {α : Type} {forms : List (OptionForm α)} {front : List String}
    {found : List (Found α)} {name : String} (plain : looksLikeOption name = false)
    (rest : List String)
    (read : readArguments? forms false front = some { options := found, operands := [] }) :
    readArguments? forms false (front ++ name :: rest) =
      some { options := found, operands := name :: rest } := by
  -- two lone dashes would look like an option
  have single : name ≠ "--" := by
    rintro rfl
    cases plain
  -- along the options in front; in the other cases they are not read,
  -- or something stands behind them
  fun_induction readArguments? forms false front generalizing found with
  | case1 =>
      cases read
      simp only [List.nil_append, readArguments?, if_neg single, plain,
        Bool.false_eq_true, if_false]
  | case2 operands =>
      cases read
      simp only [List.singleton_append, readArguments?, if_true]
  | case3 arg operands lone option unread =>
      cases read
  | case4 arg operands lone option first complete ih =>
      rcases Option.map_eq_some_iff.1 read with ⟨⟨found', operands'⟩, behind, same⟩
      cases same
      simp only [List.cons_append, readArguments?, if_neg lone, option, if_true,
        complete, ih behind]
      rfl
  | case5 =>
      cases read
  | case6 arg lone option first last pending value operands ih =>
      rcases Option.map_eq_some_iff.1 read with ⟨⟨found', operands'⟩, behind, same⟩
      cases same
      simp only [List.cons_append, readArguments?, if_neg lone, option, if_true, pending, ih behind]
      rfl
  | case7 arg operands lone noOption mixed ih =>
      cases mixed
  | case8 =>
      cases read

/-- A command can stand behind any options of the program. -/
theorem readPreamble_append {env : Environment} {front : List String} {o : ProgramOptions}
    {name : String} (plain : looksLikeOption name = false) (rest : List String)
    (preamble : readPreamble env front = .options o []) :
    readPreamble env (front ++ name :: rest) = .options o (name :: rest) := by
  cases read : readArguments? programForms false front with
  | none =>
      simp only [readPreamble, read] at preamble
      cases preamble
  | some found =>
      rcases found with ⟨found, operands⟩
      simp only [readPreamble, read] at preamble
      cases shown : shownText? found with
      | some text =>
          simp only [shown] at preamble
          cases preamble
      | none =>
          simp only [shown] at preamble
          split at preamble
          · cases preamble
          next isRoot =>
              cases preamble
              simp only [readPreamble, readArguments?_append plain rest read, shown, isRoot]
          · cases preamble

/-! ## Asking -/

/-- In the surroundings, the arguments ask for a command: the options of the program and those of
the command can be read, the settings are valid, and the root can be followed. -/
structure Asks (env : Environment) (args : List String) (o : ProgramOptions) (settings : Settings)
    (host : Host) (command : Command) : Prop where
  read : ∃ name reader rest, readPreamble env args = .options o (name :: rest) ∧
    commandReader? name = some reader ∧ reader rest = .command command
  valid : settingsOf env o = .ok settings
  rooted : hostOf env o = .ok host

/-- Where the schema of a run lies. -/
def Environment.schemaPath (env : Environment) (o : ProgramOptions) (settings : Settings) : Path :=
  (env.directory.resolve (Path.parse o.root)).join (Path.parse settings.schemaFile)

/-- Surroundings with a schema file in a workspace. -/
def Environment.withSchema (bytes : List UInt8) : Environment where
  directory := { anchor := .root, parts := [] }
  storage := (Host.withSchema bytes 1).storage
  bindings := []

/-- The options that lead to this workspace. -/
def ProgramOptions.workspace : ProgramOptions :=
  { root := "/ws", schemaFile := none, verbose := false }

theorem readPreamble_withSchema (bytes : List UInt8) :
    readPreamble (.withSchema bytes) ["-r", "/ws"] = .options .workspace [] := rfl

theorem settingsOf_withSchema (bytes : List UInt8) :
    settingsOf (.withSchema bytes) .workspace = .ok .standard := rfl

theorem hostOf_withSchema (bytes : List UInt8) :
    hostOf (.withSchema bytes) .workspace = .ok (Host.withSchema bytes 1) := rfl

section

variable {env : Environment} {args front : List String} {o : ProgramOptions} {settings : Settings}
  {host : Host} {command : Command}

theorem asks_of_preamble (preamble : readPreamble env front = .options o [])
    (valid : settingsOf env o = .ok settings) (rooted : hostOf env o = .ok host)
    {name : String} {reader : List String → Request} (plain : looksLikeOption name = false)
    (reads : commandReader? name = some reader) {rest : List String}
    (request : reader rest = .command command) :
    Asks env (front ++ name :: rest) o settings host command where
  read := ⟨name, reader, rest, readPreamble_append plain rest preamble, reads, request⟩
  valid := valid
  rooted := rooted

namespace Asks

variable (asks : Asks env args o settings host command)

include asks

/-- The host of a run has the files of the surroundings, and its workspace is the root. -/
theorem host_eq : ∃ name, host =
    { storage := env.storage
      clock := .files
      workspace := some { name, root := some (env.directory.resolve (Path.parse o.root)) } } := by
  have rooted := asks.rooted
  unfold hostOf Workspace.directory at rooted
  split at rooted
  · cases rooted
  · cases rooted
    exact ⟨_, rfl⟩

theorem storage_eq : host.storage = env.storage := by
  rcases asks.host_eq with ⟨name, rfl⟩
  rfl

theorem schemaPath_eq : host.schemaPath settings.schemaFile = .ok (env.schemaPath o settings) := by
  rcases asks.host_eq with ⟨name, rfl⟩
  rfl

/-- The command is performed from an empty memory, with declarations in Java. -/
theorem run_eq :
    run env args = conclude (o.verbose || settings.logsDebug)
      ((command.output host settings.schemaFile .java).run.run Memory.fresh) := by
  rcases asks.read with ⟨name, reader, rest, preamble, reads, request⟩
  have reserved := Settings.reservedWords_of_build asks.valid
  simp only [run, preamble, reads, runCommand, asks.valid, asks.rooted, request, perform, reserved]
  rfl

variable {m : Memory}

/-- The run prints the answer to the question of the command. The status tells whether there was a
diagnostic. -/
theorem run_of_found {found : Except Unavailable Snapshot} {reply : Reply}
    (loads : Loads host settings.schemaFile Memory.fresh (.ok found) m)
    (replied : command.question.reply settings.configuration found = reply) :
    run env args = .finished (if reply.told.isEmpty then 0 else 1)
      (printed (command.text .java reply.answer))
      (String.join
        ((m.tell reply.told).events.map (errorText (o.verbose || settings.logsDebug)))) := by
  have load : (Query.load host settings.configuration.schemaFile).run.run Memory.fresh =
      (.ok found, m) := loads.run_eq
  have output : (command.output host settings.schemaFile .java).run.run Memory.fresh =
      (.ok (command.text .java reply.answer), m.tell reply.told) := by
    subst replied
    have consults := command.output_consults host settings.configuration Memory.fresh
    rw [load] at consults
    exact consults
  have told : (m.tell reply.told).diagnostics = reply.told := by
    rw [Memory.diagnostics_tell, loads.diagnostics_eq]
    rfl
  rw [asks.run_eq, output, conclude, told]

theorem run_of_failure {e : OsError}
    (loads : Loads host settings.schemaFile Memory.fresh (.error e) m) :
    run env args = .failed e := by
  have output := command.output_consults host settings.configuration Memory.fresh
  have load : (Query.load host settings.configuration.schemaFile).run.run Memory.fresh =
      (.error e, m) := loads.run_eq
  rw [load] at output
  rw [asks.run_eq]
  exact congrArg _ output

end Asks

end

end CommandLine

end SchemaCompletion
