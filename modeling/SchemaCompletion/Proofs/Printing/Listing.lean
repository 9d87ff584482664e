import SchemaCompletion.Proofs.Cache.Provenance
import SchemaCompletion.Proofs.Declaring.OneLine
import SchemaCompletion.Proofs.Printing.Answer
import SchemaCompletion.Proofs.Printing.Lines
import SchemaCompletion.Proofs.Printing.Words

/-!
# Reading a listing back

A listing of completions can be read in one way only.

* `Shown` — what a listing shows of a member;
* `Member.entryLines` — the two lines of a member in a listing;
* `readCompletion?`, `readListing?` — the completions that a listing shows;
* `listing_ofMembers` — a listing has the two lines of each member, or says that there is none;
* `readListing?_entryLines` — two lines for each member read back as what they show;
* `Session.listing_reads_back` — so whatever a schema and its descriptions are, the listing of its
  completions reads back.
-/

namespace SchemaCompletion

open SchemaCompletion.Sdl SchemaCompletion.Text
open SchemaCompletion.CommandLine

/-! ## What a listing shows -/

/-- What a listing shows of a member: its name, its container, its description on one line, and the
text to insert. -/
structure Shown where
  name : String
  container : String
  description : String
  lookup : String
  deriving DecidableEq, Repr

def Shown.ofMember (lookup : String) (m : Member) : Shown where
  name := m.name
  container := m.container
  description := oneLine m.description
  lookup

/-- The description of a member as it stands behind the rest of its header, if it is not all white
space. -/
def Member.note (m : Member) : String :=
  if m.description.toList.all isBlank then "" else "  " ++ oneLine m.description

/-- The two lines of a member in a listing, with a note at the end of its header. -/
def Member.entryLines (m : Member) (note lookup : String) : List String :=
  [m.name ++ "  [GraphQL " ++ m.container ++ "]" ++ note, "    " ++ lookup]

theorem oneLine_space (text : String) : oneLine (" " ++ text) = oneLine text := by
  have front : (" " ++ text).toList = ' ' :: text.toList := by simp
  apply oneLine_of_words_eq
  rw [front, words_cons_of_isBlank isBlank_space]

/-- A description that is all white space leaves nothing on one line. -/
theorem oneLine_of_blank {text : String} (blank : text.toList.all isBlank = true) :
    oneLine text = "" :=
  oneLine_eq_empty_iff.2 (List.all_eq_true.1 blank)

theorem Suggestion.entry_ofMember (lookup : String) (m : Member) :
    (Suggestion.ofMember lookup m).entry = unlines (m.entryLines m.note lookup) := by
  have front : (" " ++ m.description).toList = ' ' :: m.description.toList := by simp
  have trimmed : trim (" " ++ m.description).toList = [] ↔
      m.description.toList.all isBlank = true := by
    rw [trim_eq_nil_iff, front, List.forall_mem_cons, List.all_eq_true]
    exact ⟨And.right, fun blank => ⟨isBlank_space, blank⟩⟩
  have origin (text : String) : "  [" ++ ("GraphQL " ++ text) = "  [GraphQL " ++ text := by
    rw [← String.append_assoc]
    rfl
  have lineEnd (text : String) : "\n    " ++ text = "\n" ++ ("    " ++ text) := by
    rw [← String.append_assoc]
    rfl
  have lines : unlines (m.entryLines m.note lookup) =
      (m.name ++ "  [GraphQL " ++ m.container ++ "]" ++ m.note) ++ "\n" ++
        ("    " ++ lookup ++ "\n") := by
    rw [← String.toList_inj, toList_unlines]
    simp only [Member.entryLines, List.map_cons, List.map_nil, List.flatMap_cons, List.flatMap_nil,
      List.append_nil, String.toList_append]
    rfl
  rw [lines]
  simp only [entry, header, ofMember, oneLine_space, trimmed, Member.note,
    String.append_assoc, origin, lineEnd]

/-- A listing of members has two lines for each of them, or says that there is none. -/
theorem listing_ofMembers (lookup : Member → String) (members : List Member) :
    listing (members.map fun m => .ofMember (lookup m) m) =
      if members = [] then "no suggestions\n"
      else unlines (members.flatMap fun m => m.entryLines m.note (lookup m)) := by
  unfold listing
  by_cases none : members = []
  · simp [none]
  · have entries : String.join (members.map fun m => (Suggestion.ofMember (lookup m) m).entry) =
        unlines (members.flatMap fun m => m.entryLines m.note (lookup m)) := by
      simp only [Suggestion.entry_ofMember]
      rw [← String.toList_inj, toList_unlines]
      simp [String.toList_join, toList_unlines, List.map_flatMap, List.flatMap_assoc,
        List.flatMap_map]
    rw [if_neg none, if_neg (by simpa using none), List.map_map]
    exact entries

/-! ## Reading a listing -/

/-- The description at the end of a header, behind two spaces if there is one. -/
def readNote? (text : List Char) : Option String :=
  match text with
  | [] => some ""
  | ' ' :: ' ' :: description => some (String.ofList description)
  | _ => none

/-- What two lines of a listing show. -/
def readCompletion? (header line : String) : Option Shown := do
  let (name, rest) := takeName header.toList
  let (container, rest) := takeName (← rest.dropPrefix? "  [GraphQL ".toList)
  let description ← readNote? (← rest.dropPrefix? "]".toList)
  let lookup ← line.toList.dropPrefix? "    ".toList
  return {
    name := String.ofList name
    container := String.ofList container
    description
    lookup := String.ofList lookup }

/-- What the lines of a listing show, two for each completion. -/
def readCompletions? : List String → Option (List Shown)
  | [] => some []
  | [_] => none
  | header :: line :: rest => do
    let entry ← readCompletion? header line
    return entry :: (← readCompletions? rest)

/-- What a listing shows. -/
def readListing? (text : String) : Option (List Shown) :=
  if text = "no suggestions\n" then some [] else readLines? text >>= readCompletions?

theorem takeName_append {n rest : List Char} (name : IsName n) {c : Char}
    (stop : isNameContinue c = false) : takeName (n ++ c :: rest) = (n, c :: rest) := by
  rw [takeName, List.takeWhile_append_of_pos name.isNameContinue,
    List.dropWhile_append_of_pos name.isNameContinue]
  simp [stop]

theorem dropPrefix?_append (front rest : List Char) :
    (front ++ rest).dropPrefix? front = some rest :=
  List.dropPrefix?_eq_some_iff.2 ⟨front, rfl, beq_self_eq_true front⟩

theorem readNote?_note (m : Member) : readNote? m.note.toList = some (oneLine m.description) := by
  unfold Member.note
  split
  · next blank => rw [oneLine_of_blank blank]; rfl
  · simp [readNote?]

/-- The two lines of a member read back, whatever its note is. -/
theorem readCompletion?_entryLines {m : Member} (name : IsName m.name.toList)
    (container : IsName m.container.toList) {note description : String}
    (noted : readNote? note.toList = some description) (lookup : String) :
    readCompletion? (m.name ++ "  [GraphQL " ++ m.container ++ "]" ++ note) ("    " ++ lookup) =
      some { name := m.name, container := m.container, description, lookup } := by
  have header : (m.name ++ "  [GraphQL " ++ m.container ++ "]" ++ note).toList =
      m.name.toList ++
      ' ' :: (" [GraphQL ".toList ++ (m.container.toList ++ ']' :: note.toList)) := by
    simp
  have origin :
      (' ' :: (" [GraphQL ".toList ++ (m.container.toList ++ ']' :: note.toList))).dropPrefix?
      "  [GraphQL ".toList = some (m.container.toList ++ ']' :: note.toList) :=
    dropPrefix?_append "  [GraphQL ".toList _
  have closed : (']' :: note.toList).dropPrefix? "]".toList = some note.toList :=
    dropPrefix?_append "]".toList _
  have line : ("    " ++ lookup).toList.dropPrefix? "    ".toList = some lookup.toList := by
    rw [String.toList_append]
    exact dropPrefix?_append _ _
  have nameEnds : isNameContinue ' ' = false := by decide
  have containerEnds : isNameContinue ']' = false := by decide
  simp only [readCompletion?, header, takeName_append name nameEnds, origin, Option.bind_eq_bind,
    Option.bind_some, takeName_append container containerEnds, closed, noted, line,
    String.ofList_toList]
  rfl

section

variable {members : List Member} {note description lookup : Member → String}

theorem readCompletions?_entryLines
    (named : ∀ m ∈ members, IsName m.name.toList ∧ IsName m.container.toList)
    (noted : ∀ m ∈ members, readNote? (note m).toList = some (description m)) :
    readCompletions? (members.flatMap fun m => m.entryLines (note m) (lookup m)) =
      some (members.map fun m =>
        { name := m.name, container := m.container, description := description m,
          lookup := lookup m }) := by
  induction members with
  | nil =>
      rfl
  | cons m members ih =>
      rw [List.forall_mem_cons] at named noted
      have first := readCompletion?_entryLines named.1.1 named.1.2 noted.1 (lookup m)
      simp only [List.flatMap_cons, Member.entryLines, List.cons_append, List.nil_append,
        readCompletions?, first]
      have rest := ih named.2 noted.2
      simp only [Member.entryLines] at rest
      simp [rest]

/-- Two lines for each of some members read back as what they show. -/
theorem readListing?_entryLines (filled : members ≠ [])
    (named : ∀ m ∈ members, IsName m.name.toList ∧ IsName m.container.toList)
    (noted : ∀ m ∈ members, readNote? (note m).toList = some (description m))
    (single : ∀ m ∈ members, ∀ line ∈ m.entryLines (note m) (lookup m), '\n' ∉ line.toList) :
    readListing? (unlines (members.flatMap fun m => m.entryLines (note m) (lookup m))) =
      some (members.map fun m =>
        { name := m.name, container := m.container, description := description m,
          lookup := lookup m }) := by
  have single' : ∀ line ∈ members.flatMap fun m => m.entryLines (note m) (lookup m),
      '\n' ∉ line.toList := by
    intro line mem
    rcases List.mem_flatMap.1 mem with ⟨m, there, mem⟩
    exact single m there line mem
  have lines := readLines?_unlines single'
  -- a listing that says that there is none is one line, and a member has two
  have other : unlines (members.flatMap fun m => m.entryLines (note m) (lookup m)) ≠
      "no suggestions\n" := by
    intro none
    have one : readLines? "no suggestions\n" = some ["no suggestions"] := by decide
    rw [none, one] at lines
    cases members with
    | nil =>
        exact filled rfl
    | cons m members =>
        simp [Member.entryLines] at lines
  rw [readListing?, if_neg other, lines]
  exact readCompletions?_entryLines named noted

end

/-! ## Listings of a schema -/

/-- A note is on the line that it ends. -/
theorem Member.newline_not_mem_note (m : Member) : '\n' ∉ m.note.toList := by
  unfold note
  split
  · simp
  · intro mem
    have described : '\n' ∈ (oneLine m.description).toList := by simpa using mem
    have space := eq_space_of_mem_oneLine described (by decide)
    cases space

theorem Member.newline_not_mem_entryLines {m : Member} (named : m.Named) {lookup : String}
    (plain : Plain lookup.toList) : ∀ line ∈ m.entryLines m.note lookup, '\n' ∉ line.toList := by
  have control : '\n'.toNat < 0x20 := by decide
  have name := named.name.plain.not_mem control
  have container := named.container.plain.not_mem control
  have inserted := plain.not_mem control
  simp [entryLines, name, container, inserted, m.newline_not_mem_note]

/-- A listing of members with proper names reads back as what it shows of them. -/
theorem readListing?_listing {members : List Member} (named : ∀ m ∈ members, m.Named)
    (form : Form) :
    readListing? (listing (members.map fun m => .ofMember (form.text .java m) m)) =
      some (members.map fun m => .ofMember (form.text .java m) m) := by
  rw [listing_ofMembers]
  by_cases none : members = []
  · simp [none, readListing?]
  · rw [if_neg none]
    exact readListing?_entryLines none (fun m mem => ⟨(named m mem).name, (named m mem).container⟩)
      (fun m _ => readNote?_note m)
      fun m mem => m.newline_not_mem_entryLines (named m mem) (form.plain_text (named m mem))

/-- Completions are those of members of the schema, declared in one of the two forms. -/
theorem Question.suggestions_eq {c : Configuration} {found : Except Unavailable Snapshot}
    {q : Question} {list : List Suggestion}
    (answered : (q.reply c found).answer = .suggestions list) :
    ∃ (form : Form) (members : List Member),
      list = members.map (fun m => .ofMember (form.text c.dialect m) m) ∧
      ∀ m ∈ members, ∃ s name, found = .ok s ∧ m ∈ s.members name := by
  cases found with
  | error u =>
      -- without a schema there are no completions
      cases q <;> cases answered
      · exact ⟨.method, [], rfl, by simp⟩
      · exact ⟨.field, [], rfl, by simp⟩
  | ok s =>
      cases q with
      | api existing =>
          cases answered
          refine ⟨.method, s.operations.filter fun m => !existing.contains m.name, rfl,
            fun m mem => ?_⟩
          rcases List.mem_flatMap.1 (List.mem_filter.1 mem).1 with ⟨name, -, member⟩
          exact ⟨s, name, rfl, member⟩
      | suggest type existing =>
          cases declared : s.typeNames.contains type with
          | true =>
              simp only [reply, use, declared, if_true, Answer.suggestions.injEq] at answered
              refine ⟨.field, (s.members type).filter fun m => !existing.contains m.name,
                answered.symm, fun m mem => ?_⟩
              exact ⟨s, type, rfl, (List.mem_filter.1 mem).1⟩
          | false =>
              simp only [reply, use, declared, Bool.false_eq_true, if_false,
                Answer.suggestions.injEq] at answered
              exact ⟨.field, [], answered.symm, by simp⟩
      | _ =>
          cases answered

/-- The completions that an outcome gives, if it gives any. -/
def Outcome.suggestions? : Outcome → Option (List Suggestion)
  | .answered (.suggestions list) => some list
  | _ => none

theorem Outcome.suggestions?_eq_some_iff {outcome : Outcome} {list : List Suggestion} :
    outcome.suggestions? = some list ↔ outcome = .answered (.suggestions list) := by
  unfold suggestions?
  split
  · simp
  next other =>
    constructor
    · intro none
      cases none
    · intro same
      exact (other list same).elim

/-- The command with a question prints completions as their listing. -/
theorem CommandLine.Command.text_of_suggestions {c : Configuration}
    {found : Except Unavailable Snapshot} {command : Command} {list : List Suggestion}
    (answered : (command.question.reply c found).answer = .suggestions list) :
    command.text c.dialect (command.question.reply c found).answer = listing list := by
  rw [answered]
  cases command with
  | suggest type existing =>
      rfl
  | _ =>
      -- the answers to the other questions are no completions
      cases found <;> cases answered

namespace Session

variable {c : Configuration} {h : Host} {steps : List Step} {m : Memory}

/-- An answered question has loaded the schema and answers what the load has found. -/
theorem loads_of_answered {s : Session} {q : Question} {a : Answer}
    (answered : (s.perform c q.step).1 = .answered a) :
    ∃ found m, Loads s.host c.schemaFile s.memory (.ok found) m ∧ (q.reply c found).answer = a := by
  rcases exists_loads s.host c.schemaFile s.memory with ⟨e | found, m, loads⟩
  · rw [perform_of_failure loads] at answered
    cases answered
  · rw [perform_of_found loads] at answered
    cases answered
    exact ⟨found, m, loads, rfl⟩

/-- Whatever has happened, the schema that a question finds holds well-formed definitions. -/
theorem exists_document_of_loads {s : Snapshot}
    (loads : Loads ((start h).after c steps).host c.schemaFile ((start h).after c steps).memory
      (.ok (.ok s)) m) :
    ∃ document, s.toCatalog.Holds document ∧ ∀ d ∈ document, d.WellFormed := by
  rcases gives_of_loads c loads with ⟨path, h', -, gives⟩
  rcases gives.content with ⟨bytes, -, parsed⟩
  exact Catalog.exists_document_of_ofBytes (Snapshot.ofBytes_eq_ok_iff.1 parsed).1

/-- After any run, with the dialect of Java, the completions that a question gets are those of some
members, in one of the two forms. The listing of them, which the command with that question prints,
is the one line that says so if there are none, and only then. Else it has exactly two lines for
each member, in order: the name, the container and, if the description is not all white space, the
description on one line; and the text to insert. Whatever the descriptions are, no line feed stands
within a line, and the listing reads back as the names, containers, descriptions and texts that it
shows. -/
theorem listing_reads_back (c : Configuration) (java : c.dialect = .java) (h : Host)
    (steps : List Step) (q : Question) {list : List Suggestion}
    (built : (((start h).after c steps).perform c q.step).1 = .answered (.suggestions list)) :
    ∃ (form : Form) (members : List Member),
      list = members.map (fun m => .ofMember (form.text .java m) m) ∧
      (listing list = "no suggestions\n" ↔ list = []) ∧
      (list ≠ [] → listing list =
        unlines (members.flatMap fun m => m.entryLines m.note (form.text .java m))) ∧
      (∀ m ∈ members, ∀ line ∈ m.entryLines m.note (form.text .java m), '\n' ∉ line.toList) ∧
      readListing? (listing list) = some (members.map fun m => .ofMember (form.text .java m) m) ∧
      ∀ command : Command, command.question = q →
        ((command.output ((start h).after c steps).host c.schemaFile c.dialect).run.run
          ((start h).after c steps).memory).1 = .ok (listing list) := by
  rcases loads_of_answered built with ⟨found, m, loads, answered⟩
  rcases Question.suggestions_eq answered with ⟨form, members, made, among⟩
  rw [java] at made
  subst made
  have named : ∀ m ∈ members, m.Named := by
    intro m mem
    rcases among m mem with ⟨s, name, rfl, member⟩
    rcases exists_document_of_loads loads with ⟨document, holds, definitions⟩
    exact holds.named_members definitions name m member
  have reads := readListing?_listing named form
  refine ⟨form, members, rfl, ⟨?_, ?_⟩, ?_, ?_, reads, ?_⟩
  · -- what says that there is none reads back as none
    intro none
    rw [none] at reads
    have shown : readListing? "no suggestions\n" = some [] := by decide
    simpa using (shown.symm.trans reads).symm
  · intro none
    rw [none]
    rfl
  · intro filled
    rw [listing_ofMembers, if_neg (by simpa using filled)]
  · intro m mem
    exact m.newline_not_mem_entryLines (named m mem) (form.plain_text (named m mem))
  · intro command asked
    subst asked
    rw [command.output_consults, loads.run_eq]
    exact congrArg Except.ok (command.text_of_suggestions answered)

/-- A description that is blank, and one that looks like another header and has line ends in it. -/
theorem listing_of_deceptive_descriptions :
    let c : Configuration := { schemaFile := "schema.graphql", dialect := .java }
    let h := Host.withSchema ("type Query \x7b \" \t\u2003\" blank: Int " ++
      "\"\"\"a\u2028\n\nb  [GraphQL Query]  c\"\"\" headed: [ID] \x7d").toUTF8.toList 1
    ∃ list shown, ((start h).perform c (.api [])).1 = .answered (.suggestions list) ∧
      (((Command.suggest none []).output h c.schemaFile c.dialect).run.run Memory.fresh).1 =
        .ok (listing list) ∧
      listing list = unlines ["blank  [GraphQL Query]", "    @Query Integer blank();",
        "headed  [GraphQL Query]  a b [GraphQL Query] c", "    @Query @Id List<String> headed();"] ∧
      readListing? (listing list) = some shown ∧ shown.map (·.name) = ["blank", "headed"] := by
  intro c h
  have facts : ((start h).perform c (.api [])).1.suggestions?.map
      (fun list => (listing list, list.map (·.presentable))) =
        some (unlines ["blank  [GraphQL Query]", "    @Query Integer blank();",
          "headed  [GraphQL Query]  a b [GraphQL Query] c",
          "    @Query @Id List<String> headed();"],
          ["blank", "headed"]) := by
    decide +kernel
  rcases Option.map_eq_some_iff.1 facts with ⟨list, given, shown⟩
  have answered := Outcome.suggestions?_eq_some_iff.1 given
  rcases listing_reads_back c rfl h [] (.api []) answered with
    ⟨form, members, rfl, -, -, -, reads, same⟩
  rw [Prod.mk.injEq, List.map_map] at shown
  refine ⟨_, _, answered, same (.suggest none []) rfl, shown.1, reads, ?_⟩
  rw [List.map_map]
  exact shown.2

end Session

end SchemaCompletion
