import SchemaCompletion.Proofs.Cache.Iteration
import SchemaCompletion.Proofs.Printing.Command
import SchemaCompletion.Proofs.Printing.Listing

/-!
# Declarations and completions

The command that prints declarations and the one that shows completions agree.

* `readListing?_printed` — a printed listing reads back, and only its descriptions may differ;
* `linesPrinted?`, `lookupsListed?` — the lines that a run prints, and the texts to insert that it
  lists;
* `Asks.linesPrinted?_fields`, `Asks.lookupsListed?_suggest` — what they are in terms of the schema;
* `declarations_agree_with_completions` — the texts to insert that are listed for a type are the
  declarations that are printed for it.
-/

namespace SchemaCompletion

open SchemaCompletion.Sdl SchemaCompletion.Text

namespace CommandLine

/-! ## Listings in print -/

section

variable {m : Member} {lookup : String}

/-- In print, the two lines of a member have another note at most. -/
theorem printed_entryLines (named : m.Named) (plain : Plain lookup.toList) :
    (m.entryLines m.note lookup).map printed = m.entryLines (printed m.note) lookup := by
  have front : Plain (m.name ++ "  [GraphQL " ++ m.container ++ "]").toList := by
    simp [named.name.plain, named.container.plain]
  have line : Plain ("    " ++ lookup).toList := by
    simp [plain]
  simp only [Member.entryLines, List.map_cons, List.map_nil, printed_append_of_plain front,
    Plain.printed line]

theorem readNote?_printed_note (m : Member) :
    readNote? (printed m.note).toList = some (printed (oneLine m.description)) := by
  unfold Member.note
  split
  next blank =>
    rw [oneLine_of_blank blank, printed_empty]
    rfl
  · rw [printed_append_of_plain (by simp)]
    simp [readNote?]

end

/-- The listing of members with proper names reads back when it is printed. Only the descriptions
may lack something, which would control a terminal. -/
theorem readListing?_printed {members : List Member} (named : ∀ m ∈ members, m.Named)
    (form : Form) :
    readListing? (printed (listing (members.map fun m => .ofMember (form.text .java m) m))) =
      some (members.map fun m =>
        { name := m.name, container := m.container,
          description := printed (oneLine m.description), lookup := form.text .java m }) := by
  by_cases none : members = []
  · rw [none, List.map_nil, printed_listing_nil]
    rfl
  · -- control sequences end with their line, so each line is printed on its own
    have lines : (members.flatMap fun m => m.entryLines m.note (form.text .java m)).map printed =
        members.flatMap fun m => m.entryLines (printed m.note) (form.text .java m) := by
      rw [List.map_flatMap]
      exact List.flatMap_congr fun m mem =>
        printed_entryLines (named m mem) (form.plain_text (named m mem))
    rw [listing_ofMembers, if_neg none, printed_unlines, lines]
    refine readListing?_entryLines none (fun m mem => ⟨(named m mem).name, (named m mem).container⟩)
      (fun m _ => readNote?_printed_note m) ?_
    intro m mem line there
    have plain := form.plain_text (named m mem)
    rw [← printed_entryLines (named m mem) plain] at there
    rcases List.mem_map.1 there with ⟨whole, written, rfl⟩
    exact newline_not_mem_printed (m.newline_not_mem_entryLines (named m mem) plain whole written)

/-! ## What a run shows -/

/-- What a run prints, if it comes to an end. -/
def Result.output? : Result → Option String
  | .finished _ out _ => some out
  | _ => none

/-- The lines that a run prints. -/
def linesPrinted? (env : Environment) (args : List String) : Option (List String) :=
  (run env args).output? >>= readLines?

/-- The texts to insert that a run lists. -/
def lookupsListed? (env : Environment) (args : List String) : Option (List String) :=
  (run env args).output? >>= fun out => (readListing? out).map (·.map (·.lookup))

section

variable {env : Environment} {args : List String} {o : ProgramOptions} {settings : Settings}
  {host : Host} {s : Snapshot}

/-- Nothing is kept at first, so a run loads what its file holds now. -/
theorem loads_of_available (available : host.readAfresh settings.schemaFile = .ok (.ok s)) :
    ∃ m, Loads host settings.schemaFile Memory.fresh (.ok (.ok s)) m := by
  rw [← available]
  exact loads_readAfresh rfl

/-- A run that finds a schema finds well-formed definitions in it. -/
theorem exists_document_of_available
    (available : host.readAfresh settings.schemaFile = .ok (.ok s)) :
    ∃ document, s.toCatalog.Holds document ∧ ∀ d ∈ document, d.WellFormed := by
  rcases loads_of_available available with ⟨m, loads⟩
  have start : Loads ((Session.start host).after settings.configuration []).host
      settings.configuration.schemaFile
      ((Session.start host).after settings.configuration []).memory (.ok (.ok s)) m := loads
  exact Session.exists_document_of_loads start

theorem named_of_available (available : host.readAfresh settings.schemaFile = .ok (.ok s))
    (name : String) : ∀ m ∈ s.members name, m.Named := by
  rcases exists_document_of_available available with ⟨document, holds, definitions⟩
  exact holds.named_members definitions name

/-- What a run prints that finds a schema. -/
theorem Asks.output?_of_available {command : Command} (asks : Asks env args o settings host command)
    (available : host.readAfresh settings.schemaFile = .ok (.ok s)) :
    (run env args).output? =
      some (printed
        (command.text .java (command.question.use settings.configuration s).answer)) := by
  rcases loads_of_available available with ⟨m, loads⟩
  rw [asks.run_of_found loads rfl]
  rfl

/-- Where declarations are asked for, the lines that are printed are those of the members of the
type. -/
theorem Asks.linesPrinted?_fields {type : String} {form : Option Form}
    (asks : Asks env args o settings host (.fields type form))
    (available : host.readAfresh settings.schemaFile = .ok (.ok s)) :
    linesPrinted? env args =
      some ((s.members type).map ((form.getD (.standard type)).text .java)) := by
  have named := named_of_available available type
  have single : ∀ line ∈ (s.members type).map ((form.getD (.standard type)).text .java),
      '\n' ∉ line.toList := by
    intro line mem
    rcases List.mem_map.1 mem with ⟨m, member, rfl⟩
    exact (Form.plain_text (named m member) _).not_mem (by decide)
  calc
    linesPrinted? env args
        = readLines? (printed (unlines ((s.fieldsIn type).1.map
            ((form.getD (.standard type)).text .java)))) := by
          rw [linesPrinted?, asks.output?_of_available available]
          rfl
    _ = readLines? (unlines ((s.members type).map ((form.getD (.standard type)).text .java))) := by
          rw [Snapshot.fieldsIn_fst, printed_declarations named]
    _ = some ((s.members type).map ((form.getD (.standard type)).text .java)) :=
          readLines?_unlines single

/-- Where completions are asked for, the texts to insert that are listed are those of the
completions. -/
theorem Asks.lookupsListed?_suggest {type : Option String} {existing : List String}
    (asks : Asks env args o settings host (.suggest type existing))
    (available : host.readAfresh settings.schemaFile = .ok (.ok s)) (form : Form)
    (members : List Member)
    (answered : ((Command.suggest type existing).question.use settings.configuration s).answer =
      .suggestions (members.map fun m => .ofMember (form.text .java m) m))
    (among : ∀ m ∈ members, ∃ name, m ∈ s.members name) :
    lookupsListed? env args = some (members.map (form.text .java)) := by
  have named : ∀ m ∈ members, m.Named := by
    intro m mem
    rcases among m mem with ⟨name, member⟩
    exact named_of_available available name m member
  have listed : (run env args).output? =
      some (printed (listing (members.map fun m => .ofMember (form.text .java m) m))) := by
    rw [asks.output?_of_available available, answered]
    rfl
  rw [lookupsListed?, listed, Option.bind_eq_bind, Option.bind_some, readListing?_printed named]
  simp

end

/-! ## Reading the commands -/

/-- The name of a type is no option. -/
theorem looksLikeOption_of_isName {name : String} (proper : IsName name.toList) :
    looksLikeOption name = false := by
  rcases proper with ⟨c, rest, spelled, start, -⟩
  unfold looksLikeOption
  rw [spelled]
  split
  next same =>
    cases same
    cases start
  · rfl

theorem fields_request {type name : String} {form : Form} (plain : looksLikeOption type = false)
    (called : Form.ofName? name = some form) :
    readCommand fieldsForms fieldsHelp fieldsCommand? [type, "--form", name] =
      .command (.fields type (some form)) := by
  -- two lone dashes would look like an option
  have single : type ≠ "--" := by
    rintro rfl
    cases plain
  have behind : readArguments? fieldsForms true ["--form", name] =
      some { options := [{ option := .form, value := some name }], operands := [] } := rfl
  have read : readArguments? fieldsForms true [type, "--form", name] =
      some { options := [{ option := .form, value := some name }], operands := [type] } := by
    rw [readArguments?, if_neg single, plain, behind]
    rfl
  have last : lastValue? CommandOption.form [{ option := .form, value := some name }] =
      some name := rfl
  simp [readCommand, read, occurs, fieldsCommand?, last, called]

theorem suggest_request (type : String) :
    readCommand suggestForms suggestHelp suggestCommand? ["--type", type] =
      .command (.suggest (some type) []) := rfl

/-! ## Agreement -/

/-- Completions leave out nothing if nothing exists. -/
theorem suggestionsFor_nil (declaration : Member → String) (members : List Member) :
    suggestionsFor declaration [] members =
      members.map fun m => .ofMember (declaration m) m := by
  simp [suggestionsFor]

theorem answer_suggest_type {type : String} (filled : type ≠ "") (c : Configuration) {s : Snapshot}
    (declared : type ∈ s.typeNames) :
    ((Command.suggest (some type) []).question.use c s).answer =
      .suggestions ((s.members type).map fun m => .ofMember (c.dialect.fieldText m) m) := by
  have question : (Command.suggest (some type) []).question = .suggest type [] := by
    simp [Command.question, filled]
  have contained : s.typeNames.contains type = true := List.contains_iff_mem.2 declared
  rw [question, Question.use, contained, if_pos rfl, suggestionsFor_nil]

theorem answer_suggest_operations (c : Configuration) (s : Snapshot) :
    ((Command.suggest none []).question.use c s).answer =
      .suggestions (s.operations.map fun m => .ofMember (c.dialect.methodText m) m) := by
  rw [← suggestionsFor_nil]
  rfl

/-- Behind any options of the program, where the schema is available: the texts to insert that are
listed for a declared type are the lines that are printed for it as fields, and these are the fields
of its members. The texts to insert that are listed for a client API are the lines that are printed
as methods for the queries, then for the mutations; a type that the schema does not know has
none. -/
theorem declarations_agree_with_completions {env : Environment} {front : List String}
    {o : ProgramOptions} {settings : Settings} {host : Host} {s : Snapshot}
    (preamble : readPreamble env front = .options o []) (valid : settingsOf env o = .ok settings)
    (rooted : hostOf env o = .ok host)
    (available : host.readAfresh settings.schemaFile = .ok (.ok s)) :
    (∀ type ∈ s.typeNames,
      linesPrinted? env (front ++ ["fields", type, "--form", "field"]) =
        some ((s.members type).map Dialect.java.fieldText) ∧
      lookupsListed? env (front ++ ["suggest", "--type", type]) =
        linesPrinted? env (front ++ ["fields", type, "--form", "field"])) ∧
    ∃ queries mutations,
      linesPrinted? env (front ++ ["fields", "Query", "--form", "method"]) = some queries ∧
      linesPrinted? env (front ++ ["fields", "Mutation", "--form", "method"]) = some mutations ∧
      lookupsListed? env (front ++ ["suggest"]) = some (queries ++ mutations) ∧
      queries = (s.members "Query").map Dialect.java.methodText ∧
      mutations = (s.members "Mutation").map Dialect.java.methodText ∧
      ∀ type, s.knows type = false → s.members type = [] := by
  -- the same for each type and each form; only a name that looks like an option is read otherwise
  have fields : ∀ {type name : String} {form : Form}, looksLikeOption type = false →
      Form.ofName? name = some form →
      linesPrinted? env (front ++ ["fields", type, "--form", name]) =
        some ((s.members type).map (form.text .java)) := by
    intro type name form plain called
    have asks : Asks env (front ++ ["fields", type, "--form", name]) o settings host
        (.fields type (some form)) :=
      asks_of_preamble preamble valid rooted (by decide) rfl (fields_request plain called)
    exact asks.linesPrinted?_fields available
  refine ⟨?_, _, _, fields (by decide) rfl, fields (by decide) rfl, ?_, rfl, rfl,
    fun type unknown => Catalog.members_of_unknown unknown⟩
  · intro type declared
    have proper : IsName type.toList := by
      rcases exists_document_of_available available with ⟨document, holds, definitions⟩
      exact holds.isName_of_mem_typeNames definitions type declared
    have called : Form.ofName? "field" = some .field := rfl
    have lines : linesPrinted? env (front ++ ["fields", type, "--form", "field"]) =
        some ((s.members type).map Dialect.java.fieldText) :=
      fields (looksLikeOption_of_isName proper) called
    -- an empty name would ask for the operations
    have filled : type ≠ "" := by
      rintro rfl
      rcases proper with ⟨c, rest, spelled, -⟩
      cases spelled
    have asks : Asks env (front ++ ["suggest", "--type", type]) o settings host
        (.suggest (some type) []) :=
      asks_of_preamble preamble valid rooted (by decide) rfl (suggest_request type)
    refine ⟨lines, ?_⟩
    rw [lines]
    apply asks.lookupsListed?_suggest available .field (s.members type)
    · exact answer_suggest_type filled settings.configuration declared
    · intro m member
      exact ⟨type, member⟩
  · have asks : Asks env (front ++ ["suggest"]) o settings host (.suggest none []) :=
      asks_of_preamble preamble valid rooted (by decide) rfl rfl
    have operations : s.operations = s.members "Query" ++ s.members "Mutation" := by
      simp [Catalog.operations, operationTypes]
    have among : ∀ m ∈ s.operations, ∃ name, m ∈ s.members name := by
      intro m mem
      rcases List.mem_flatMap.1 mem with ⟨name, -, member⟩
      exact ⟨name, member⟩
    calc
      lookupsListed? env (front ++ ["suggest"])
          = some (s.operations.map Dialect.java.methodText) :=
            asks.lookupsListed?_suggest available .method s.operations
              (answer_suggest_operations settings.configuration s) among
      _ = some ((s.members "Query").map Dialect.java.methodText ++
            (s.members "Mutation").map Dialect.java.methodText) := by
            rw [operations, List.map_append]

/-- The queries are only added by blocks, to a type that is not declared, and there are no
mutations. -/
theorem declarations_agree_with_completions_of_blocks :
    let bytes := ("extend type Query \x7b a: Int \x7d type Person \x7b name: ID! \x7d " ++
      "extend type Query \x7b b(id: ID): [Person] \x7d").toUTF8.toList
    let env := Environment.withSchema bytes
    ∃ fields queries,
      linesPrinted? env ["-r", "/ws", "fields", "Person", "--form", "field"] = some fields ∧
      lookupsListed? env ["-r", "/ws", "suggest", "--type", "Person"] = some fields ∧
      linesPrinted? env ["-r", "/ws", "fields", "Query", "--form", "method"] = some queries ∧
      lookupsListed? env ["-r", "/ws", "suggest"] = some queries ∧
      fields.length = 1 ∧ queries.length = 2 := by
  intro bytes env
  have facts : (match (Host.withSchema bytes 1).readAfresh Settings.standard.schemaFile with
      | .ok (.ok s) => some (s.typeNames, (s.members "Person").length, (s.members "Query").length,
        s.knows "Mutation")
      | .ok (.error _) => none
      | .error _ => none) = some (["Person"], 1, 2, false) := by
    decide +kernel
  split at facts
  next s available =>
    rw [Option.some.injEq, Prod.mk.injEq, Prod.mk.injEq, Prod.mk.injEq] at facts
    rcases facts with ⟨types, fields, queries, unknown⟩
    rcases declarations_agree_with_completions (readPreamble_withSchema bytes)
        (settingsOf_withSchema bytes) (hostOf_withSchema bytes) available with
      ⟨agree, _, _, printed, -, listed, rfl, rfl, none⟩
    rcases agree "Person" (by simp [types]) with ⟨lines, same⟩
    rw [none "Mutation" unknown, List.map_nil, List.append_nil] at listed
    exact ⟨_, _, lines, same.trans lines, printed, listed, by simp [fields], by simp [queries]⟩
  · cases facts
  · cases facts

end CommandLine

end SchemaCompletion
