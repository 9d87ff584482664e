import SchemaCompletion.Proofs.Cache.Iteration
import SchemaCompletion.Proofs.Printing.Command
import SchemaCompletion.Proofs.Printing.Lines

/-!
# Status, output and diagnostics

The status of a run, what it prints and what it writes to the error stream fit together.

* `Storage.Reads` — what the file at a path is read as;
* `Tells` — the message that a command owes for what lies at the path of the schema, if it owes one;
* `Prints` — what a command prints of a schema;
* `Asks.tells_of_unavailable`, `Asks.reads_of_found` — what a run finds, against what lies at that
  path;
* `tells_or_silent`, `prints_use` — what a command tells of a schema and what it prints of it;
* `join_errorText` — without a log, the error stream has the diagnostics only;
* `status_tells` — a run tells one message and has the status 1, or prints what is asked for.
-/

namespace SchemaCompletion

open SchemaCompletion.Sdl SchemaCompletion.Text

/-! ## Schema files -/

/-- There is a file at the path, and what its bytes are read as. -/
def Storage.Reads (storage : Storage) (path : Path) (read : Except ContentError Catalog) : Prop :=
  storage.contains path = .ok true ∧
    ∃ bytes, storage.read path = .ok bytes ∧ Catalog.ofBytes bytes = read

namespace Storage.Reads

variable {storage : Storage} {path : Path} {read read' : Except ContentError Catalog}

theorem unique (reads : storage.Reads path read) (reads' : storage.Reads path read') :
    read = read' := by
  rcases reads with ⟨-, bytes, content, rfl⟩
  rcases reads' with ⟨-, bytes', content', rfl⟩
  rw [content, Except.ok.injEq] at content'
  rw [content']

theorem exists_document {catalog : Catalog} (reads : storage.Reads path (.ok catalog)) :
    ∃ document, catalog.Holds document ∧ ∀ d ∈ document, d.WellFormed := by
  rcases reads with ⟨-, bytes, -, read⟩
  exact Catalog.exists_document_of_ofBytes read

theorem not_absent (reads : storage.Reads path read) : storage.contains path ≠ .ok false := by
  rw [reads.1]
  intro same
  cases same

end Storage.Reads

namespace CommandLine

/-! ## What a command owes -/

/-- What a command has to tell about the schema at a path. A schema that is missing or is none is
told to every command, and a name that the schema does not know only to the one that prints
declarations. -/
inductive Tells (storage : Storage) (path : Path) (command : Command) : String → Prop where
  | missing (absent : storage.contains path = .ok false) :
      Tells storage path command ("no GraphQL schema found at " ++ path.toString)
  | unparsable {cause : ContentError} (reads : storage.Reads path (.error cause)) :
      Tells storage path command
        ("parsing of schema at " ++ path.toString ++ " failed:\n" ++ cause.message)
  | unknownType {type : String} {form : Option Form} {catalog : Catalog}
      (asked : command = .fields type form) (reads : storage.Reads path (.ok catalog))
      (undeclared : type ∉ catalog.typeNames) (unextended : type ∉ catalog.extensions.map (·.1)) :
      Tells storage path command ("no type " ++ type ++ " in schema at " ++ path.toString)

/-- What a command prints of a schema: the names of the declared types in ascending order, a
declaration for each member of a type, or the completions that are left. -/
inductive Prints (catalog : Catalog) : Command → String → Prop where
  | types {names : List String}
      (ascending : names.Pairwise fun a b => precedes a.toList b.toList = true)
      (declared : ∀ name, name ∈ names ↔ name ∈ catalog.typeNames) :
      Prints catalog .types (unlines names)
  | declarations {type : String} {form : Option Form} :
      Prints catalog (.fields type form)
        (unlines ((catalog.members type).map ((form.getD (.standard type)).text .java)))
  | operations {type : Option String} {existing : List String} (unnamed : type.getD "" = "") :
      Prints catalog (.suggest type existing)
        (printed (listing (suggestionsFor Dialect.java.methodText existing catalog.operations)))
  | completions {type : String} {existing : List String} (declared : type ∈ catalog.typeNames) :
      Prints catalog (.suggest (some type) existing)
        (printed (listing (suggestionsFor Dialect.java.fieldText existing (catalog.members type))))
  | nothing {type : String} {existing : List String} (named : type ≠ "")
      (undeclared : type ∉ catalog.typeNames) :
      Prints catalog (.suggest (some type) existing) "no suggestions\n"

/-- What a command prints where there is nothing to print. -/
def Command.blank : Command → String
  | .types => ""
  | .fields _ _ => ""
  | .suggest _ _ => "no suggestions\n"

section

variable {storage : Storage} {path : Path} {command : Command}

/-- Where a schema is read, only a name that it does not know is told. -/
theorem Tells.asked_of_reads {catalog : Catalog} (reads : storage.Reads path (.ok catalog))
    {message : String} (tells : Tells storage path command message) :
    ∃ type form, command = .fields type form ∧ type ∉ catalog.typeNames ∧
      type ∉ catalog.extensions.map (·.1) ∧
      message = "no type " ++ type ++ " in schema at " ++ path.toString := by
  cases tells with
  | missing absent =>
      exact absurd absent reads.not_absent
  | unparsable broken =>
      cases broken.unique reads
  | unknownType asked reads' undeclared unextended =>
      cases reads'.unique reads
      exact ⟨_, _, asked, undeclared, unextended, rfl⟩

/-- A command owes one message at most. -/
theorem Tells.unique {message other : String} (tells : Tells storage path command message)
    (tells' : Tells storage path command other) : other = message := by
  cases tells with
  | missing absent =>
      cases tells' with
      | missing absent' =>
          rfl
      | unparsable broken =>
          exact absurd absent broken.not_absent
      | unknownType asked reads undeclared unextended =>
          exact absurd absent reads.not_absent
  | unparsable broken =>
      cases tells' with
      | missing absent =>
          exact absurd absent broken.not_absent
      | unparsable broken' =>
          cases broken.unique broken'
          rfl
      | unknownType asked reads undeclared unextended =>
          cases broken.unique reads
  | unknownType asked reads undeclared unextended =>
      rcases tells'.asked_of_reads reads with ⟨type, form, asked', -, -, rfl⟩
      cases asked.symm.trans asked'
      rfl

end

/-- Where there is nothing to print, it is printed so. -/
theorem Command.printed_text_blank (command : Command) :
    printed (command.text .java command.question.blank.answer) = command.blank := by
  cases command with
  | types =>
      have empty : Text.sorted [] = [] := List.mergeSort_nil
      have text : Command.text .java .types (.names []) = "" := by
        rw [Command.text, empty]
        rfl
      exact (congrArg printed text).trans printed_empty
  | fields type form =>
      exact printed_empty
  | suggest type existing =>
      simp only [Command.question]
      split
      · exact printed_listing_nil
      · exact printed_listing_nil

/-! ## The error stream -/

/-- Without a log, the error stream has a diagnostic for each event that is one, and nothing
else. -/
theorem join_errorText (events : List Event) :
    String.join (events.map (errorText false)) =
      unlines ((events.filterMap Event.diagnostic?).map fun d => printed d.message) := by
  have line (text : String) : printed (text ++ "\n") = printed text ++ "\n" := by
    have lines := printed_unlines [text]
    simpa [unlines] using lines
  rw [← String.toList_inj, toList_unlines, String.toList_join]
  induction events with
  | nil =>
      rfl
  | cons e events ih =>
      rw [List.map_cons, List.flatMap_cons, ih]
      cases e with
      | diagnosed d =>
          simp [errorText, Event.diagnostic?, line]
      | _ =>
          simp [errorText, Event.diagnostic?, List.filterMap_cons]

/-! ## What a run finds -/

namespace Asks

variable {env : Environment} {args : List String} {o : ProgramOptions} {settings : Settings}
  {host : Host} {command : Command} {m : Memory} (asks : Asks env args o settings host command)

include asks

/-- A run that finds no schema has a message for what lies at the path, or for nothing there. -/
theorem tells_of_unavailable {u : Unavailable}
    (loads : Loads host settings.schemaFile Memory.fresh (.ok (.error u)) m) :
    Tells env.storage (env.schemaPath o settings) command u.message := by
  rw [← asks.storage_eq]
  cases loads with
  | unresolved resolved =>
      rw [asks.schemaPath_eq] at resolved
      cases resolved
  | missing resolved found =>
      rw [asks.schemaPath_eq] at resolved
      cases resolved
      exact .missing found
  | @unparsable path modified bytes e located outdated content parsed =>
      have resolved := located.resolved
      rw [asks.schemaPath_eq] at resolved
      cases resolved
      rcases e with ⟨source, cause⟩
      rcases Snapshot.ofBytes_eq_error_iff.1 parsed with ⟨read, rfl⟩
      exact .unparsable ⟨located.found, bytes, content, read⟩

theorem reads_of_found {s : Snapshot}
    (loads : Loads host settings.schemaFile Memory.fresh (.ok (.ok s)) m) :
    env.storage.Reads (env.schemaPath o settings) (.ok s.toCatalog) ∧
      s.source = (env.schemaPath o settings).toString := by
  rw [← asks.storage_eq]
  cases loads with
  | current located counts =>
      -- nothing is kept at first
      cases (Memory.current?_eq_some_iff.1 counts).1
  | reloaded located outdated content parsed =>
      have resolved := located.resolved
      rw [asks.schemaPath_eq] at resolved
      cases resolved
      rcases Snapshot.ofBytes_eq_ok_iff.1 parsed with ⟨read, -, source⟩
      exact ⟨⟨located.found, _, content, read⟩, source⟩

/-- Without a log, a run writes its diagnostics to the error stream, each on a line. -/
theorem run_unlogged (unlogged : (o.verbose || settings.logsDebug) = false)
    {found : Except Unavailable Snapshot} {reply : Reply}
    (loads : Loads host settings.schemaFile Memory.fresh (.ok found) m)
    (replied : command.question.reply settings.configuration found = reply) :
    run env args = .finished (if reply.told.isEmpty then 0 else 1)
      (printed (command.text .java reply.answer))
      (unlines (reply.told.map fun d => printed d.message)) := by
  have told : (m.tell reply.told).events.filterMap Event.diagnostic? = reply.told := by
    have told := m.diagnostics_tell reply.told
    rw [loads.diagnostics_eq] at told
    exact told
  rw [asks.run_of_found loads replied, unlogged, join_errorText, told]

end Asks

/-! ## What a command makes of a schema -/

section

variable {storage : Storage} {path : Path} {s : Snapshot}

/-- A command owes a message for the schema that is read, tells just that and has nothing to print,
or it owes none and tells nothing. -/
theorem tells_or_silent (command : Command) (c : Configuration)
    (reads : storage.Reads path (.ok s.toCatalog)) (source : s.source = path.toString) :
    (∃ d, Tells storage path command d.message ∧ (command.question.use c s).told = [d] ∧
      command.text .java (command.question.use c s).answer =
        command.text .java command.question.blank.answer) ∨
    (∀ message, ¬ Tells storage path command message) ∧ (command.question.use c s).told = [] := by
  -- only a name that declarations are asked for can be unknown
  have silent : (∀ type form, command ≠ .fields type form) →
      ∀ message, ¬ Tells storage path command message := by
    intro other message tells
    rcases tells.asked_of_reads reads with ⟨type, form, asked, -⟩
    exact other type form asked
  cases command with
  | types =>
      exact .inr ⟨silent (by simp), rfl⟩
  | fields type form =>
      cases knows : s.knows type with
      | true =>
          refine .inr ⟨?_, ?_⟩
          · intro message tells
            rcases tells.asked_of_reads reads with ⟨type, form, asked, undeclared, unextended, -⟩
            cases asked
            have unknown := Catalog.knows_eq_false_iff.2 ⟨undeclared, unextended⟩
            exact Bool.false_ne_true (unknown.symm.trans knows)
          · simp [Command.question, Question.use, Snapshot.fieldsIn, knows]
      | false =>
          have absent := Catalog.knows_eq_false_iff.1 knows
          have tells : Tells storage path (.fields type form)
              (Diagnostic.unknownType type s.source).message := by
            rw [source]
            exact .unknownType rfl reads absent.1 absent.2
          refine .inl ⟨_, tells, ?_, ?_⟩
          · simp [Command.question, Question.use, Snapshot.fieldsIn, knows]
          · simp [Command.question, Question.use, Question.blank, Snapshot.fieldsIn, knows]
  | suggest type existing =>
      refine .inr ⟨silent (by simp), ?_⟩
      simp only [Command.question]
      split
      · rfl
      · rfl

/-- What a command makes of a schema of well-formed definitions is printed so. -/
theorem prints_use (command : Command) {c : Configuration} (java : c.dialect = .java)
    {document : Document} (holds : s.toCatalog.Holds document)
    (definitions : ∀ d ∈ document, d.WellFormed) :
    Prints s.toCatalog command
      (printed (command.text .java (command.question.use c s).answer)) := by
  cases command with
  | types =>
      have sorted : (Text.sorted s.typeNames).Perm s.typeNames := sorted_perm s.typeNames
      have plain : ∀ name ∈ Text.sorted s.typeNames, Plain name.toList := by
        intro name mem
        exact (holds.isName_of_mem_typeNames definitions name (sorted.mem_iff.1 mem)).plain
      have same : printed (unlines (Text.sorted s.typeNames)) = unlines (Text.sorted s.typeNames) :=
        printed_unlines_of_plain plain
      have prints : Prints s.toCatalog .types (unlines (Text.sorted s.typeNames)) :=
        .types (pairwise_sorted holds.nodup_typeNames) fun name => sorted.mem_iff
      exact same ▸ prints
  | fields type form =>
      have named := holds.named_members definitions type
      have same := printed_declarations named (form.getD (.standard type))
      have prints : Prints s.toCatalog (.fields type form)
          (unlines ((s.members type).map ((form.getD (.standard type)).text .java))) :=
        .declarations
      rw [← same, ← Snapshot.fieldsIn_fst] at prints
      exact prints
  | suggest type existing =>
      -- an empty name asks for operations, as no name does
      simp only [Command.question]
      by_cases unnamed : type.getD "" = ""
      · rw [if_pos unnamed, Question.use, java]
        exact .operations unnamed
      · rw [if_neg unnamed, Question.use, java]
        cases type with
        | none =>
            exact absurd rfl unnamed
        | some type =>
            rw [Option.getD_some] at unnamed ⊢
            by_cases declared : type ∈ s.typeNames
            · rw [if_pos (List.contains_iff_mem.2 declared)]
              exact .completions declared
            · rw [if_neg fun contained => declared (List.contains_iff_mem.1 contained)]
              exact printed_listing_nil ▸ .nothing unnamed declared

end

/-! ## Status -/

/-- Whatever lies in the files, a command whose options and settings can be read, with no log and no
failure of the operating system, has one of two ends. Either there is a message to tell, and no
other: then the error stream is this message on a line of its own, the status is 1 and nothing is
printed, or that there are no suggestions. Or the schema is read and there is nothing to tell: then
the error stream is empty, the status is 0, and what is asked for is printed. A text without the
character that begins control sequences is printed as it is. -/
theorem status_tells {env : Environment} {args : List String} {o : ProgramOptions}
    {settings : Settings} {host : Host} {command : Command}
    (asks : Asks env args o settings host command) (terse : o.verbose = false)
    (level : settings.logsDebug = false) (undisturbed : ∀ e, run env args ≠ .failed e) :
    ((∃ message, Tells env.storage (env.schemaPath o settings) command message ∧
        (∀ other, Tells env.storage (env.schemaPath o settings) command other → other = message) ∧
        run env args = .finished 1 command.blank (printed message ++ "\n")) ∨
      ∃ catalog out, env.storage.Reads (env.schemaPath o settings) (.ok catalog) ∧
        (∀ message, ¬ Tells env.storage (env.schemaPath o settings) command message) ∧
        Prints catalog command out ∧ run env args = .finished 0 out "") ∧
    ∀ text : String, '\x1b' ∉ text.toList → printed text = text := by
  refine ⟨?_, fun text => printed_of_not_mem⟩
  have unlogged : (o.verbose || settings.logsDebug) = false := by
    rw [terse, level]
    rfl
  -- the one load of the run fails, finds no schema or finds one
  rcases exists_loads host settings.schemaFile Memory.fresh with ⟨e | u | s, m, loads⟩
  · exact absurd (asks.run_of_failure loads) (undisturbed e)
  · have tells := asks.tells_of_unavailable loads
    refine .inl ⟨u.message, tells, fun other => tells.unique, ?_⟩
    rw [asks.run_unlogged unlogged loads rfl, ← command.printed_text_blank]
    simp [Question.reply, Diagnostic.message, unlines]
  · rcases asks.reads_of_found loads with ⟨reads, source⟩
    rcases tells_or_silent command settings.configuration reads source with
      ⟨d, tells, told, answer⟩ | ⟨silent, told⟩
    · refine .inl ⟨d.message, tells, fun other => tells.unique, ?_⟩
      rw [asks.run_unlogged unlogged loads rfl, Question.reply, told, answer,
        command.printed_text_blank]
      simp [unlines]
    · rcases reads.exists_document with ⟨document, holds, definitions⟩
      have java : settings.configuration.dialect = .java := rfl
      refine .inr ⟨s.toCatalog, _, reads, silent, prints_use command java holds definitions, ?_⟩
      rw [asks.run_unlogged unlogged loads rfl, Question.reply, told]
      rfl

/-- Declarations are asked for a name that the schema does not know. -/
theorem status_tells_unknown_type :
    let bytes := "type Query \x7b a: Int \x7d".toUTF8.toList
    let env := Environment.withSchema bytes
    let args := ["-r", "/ws", "fields", "Ghost"]
    let said := "no type Ghost in schema at /ws/schema.graphql\n"
    run env args = .finished 1 "" said ∧
      ∃ message, Tells env.storage { anchor := .root, parts := ["ws", "schema.graphql"] }
        (.fields "Ghost" none) message ∧ printed message ++ "\n" = said := by
  intro bytes env args said
  have asks : Asks env args .workspace .standard (Host.withSchema bytes 1) (.fields "Ghost" none) :=
    asks_of_preamble (readPreamble_withSchema bytes) (settingsOf_withSchema bytes)
      (hostOf_withSchema bytes) (by decide) rfl rfl
  have ends : run env args = .finished 1 "" said := by decide +kernel
  have undisturbed : ∀ e, run env args ≠ .failed e := by
    intro e failed
    rw [ends] at failed
    cases failed
  rcases (status_tells asks rfl rfl undisturbed).1 with
    ⟨message, tells, -, told⟩ | ⟨catalog, out, -, -, -, silent⟩
  · rw [ends, Result.finished.injEq] at told
    exact ⟨ends, message, tells, told.2.2.symm⟩
  · rw [ends] at silent
    cases silent

end CommandLine

end SchemaCompletion
