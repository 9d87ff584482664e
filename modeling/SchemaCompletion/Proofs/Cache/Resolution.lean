import SchemaCompletion.Proofs.Cache.Diagnosis
import SchemaCompletion.Proofs.Cache.Repetition

/-!
# Resolving twice

The completions for a class look for the schema twice, first for the names of its types and then for
the members of one. They come to the same as with a single look.

* `Query.typeSuggestionsOnce` — the same completions from a single look at the schema;
* `Query.Consults.run_eq` — questions with the same reply do the same from every memory;
* `Query.loads_of_snapshot`, `Query.snapshot_again` — a snapshot that was found is found again, and
  nothing happens on the way;
* `Query.typeNames_of_snapshot`, `Query.fieldsIn_of_snapshot` — the two looks, in terms of the
  snapshot;
* `Session.completions_resolve_once` — the second look changes neither the result nor what is told,
  read and kept.
-/

namespace SchemaCompletion

namespace Query

variable {h : Host} {schemaFile : String} {m m' : Memory}

/-- The completions for a class, from a single look at the schema. -/
def typeSuggestionsOnce (h : Host) (schemaFile : String) (d : Dialect) (name : String)
    (existing : List String) : Query (List Suggestion) := do
  match ← snapshot h schemaFile with
  | some s =>
    if s.typeNames.contains name then
      return suggestionsFor d.fieldText existing (s.members name)
    else return []
  | none => return []

theorem typeSuggestionsOnce_consults (d : Dialect) (type : String) (existing : List String) :
    Consults h schemaFile (typeSuggestionsOnce h schemaFile d type existing)
      (answering (fun s => (if s.typeNames.contains type then
        suggestionsFor d.fieldText existing (s.members type) else [], [])) []) := by
  refine .of_snapshot (fun s m => ?_) fun m => run_pure _ m
  cases declared : s.typeNames.contains type with
  | true =>
      simp only [declared, if_true, run_pure, Memory.tell_nil]
  | false =>
      simp only [declared, Bool.false_eq_true, if_false, run_pure, Memory.tell_nil]

/-- Questions with the same reply do the same from every memory. -/
theorem Consults.run_eq {α : Type} {q q' : Query α}
    {reply : Except Unavailable Snapshot → α × List Diagnostic}
    (consults : Consults h schemaFile q reply) (other : Consults h schemaFile q' reply)
    (m : Memory) : q.run.run m = q'.run.run m :=
  (consults m).trans (other m).symm

/-- A snapshot that was found was loaded, and nothing was told about it. -/
theorem loads_of_snapshot {s : Snapshot}
    (found : (snapshot h schemaFile).run.run m = (.ok (some s), m')) :
    Loads h schemaFile m (.ok (.ok s)) m' := by
  rw [snapshot_consults m] at found
  rcases run : (load h schemaFile).run.run m with ⟨e | u | s', m''⟩
  · rw [run] at found
    cases found
  · rw [run] at found
    cases found
  · rw [run] at found
    simp only [answering, Memory.tell_nil] at found
    cases found
    exact loads_iff.2 run

/-- A snapshot that was found is found again, and nothing happens on the way. -/
theorem snapshot_again {s : Snapshot}
    (found : (snapshot h schemaFile).run.run m = (.ok (some s), m')) :
    (snapshot h schemaFile).run.run m' = (.ok (some s), m') := by
  have again := (loads_of_snapshot found).again.run_eq
  rw [snapshot_consults m', again]
  simp only [answering, Memory.tell_nil]

/-- The names of the types are those of the snapshot that was found. -/
theorem typeNames_of_snapshot {s : Snapshot}
    (found : (snapshot h schemaFile).run.run m = (.ok (some s), m')) :
    (typeNames h schemaFile).run.run m = (.ok s.typeNames, m') := by
  rw [typeNames_consults m, (loads_of_snapshot found).run_eq]
  simp only [answering, Memory.tell_nil]

/-- The members of a declared type are those in the snapshot that is found, and nothing is told. -/
theorem fieldsIn_of_snapshot {s : Snapshot} {type : String}
    (found : (snapshot h schemaFile).run.run m = (.ok (some s), m'))
    (declared : type ∈ s.typeNames) :
    (fieldsIn h schemaFile type).run.run m = (.ok (s.members type), m') := by
  have known : s.knows type = true := Catalog.knows_eq_true_iff.2 (.inl declared)
  rw [fieldsIn_consults type m, (loads_of_snapshot found).run_eq]
  simp only [answering, Snapshot.fieldsIn, known, if_true, Memory.tell_nil]

end Query

namespace Session

variable {c : Configuration} {s : Session}

/-- The diagnostics about completions for a class are at most one, and none is about the type. -/
theorem told_suggest (c : Configuration) (s : Session) (type : String) (existing : List String) :
    (s.performReporting c (.suggest type existing)).1.told = [] ∨
      ∃ u, (s.performReporting c (.suggest type existing)).1.told = [.unavailable u] := by
  rcases exists_loads s.host c.schemaFile s.memory with ⟨e | u | snapshot, m, loads⟩
  · exact .inl (told_of_failure loads (.suggest type existing))
  · exact .inr ⟨u, told_of_found loads (.suggest type existing)⟩
  · exact .inl (told_of_found loads (.suggest type existing))

/-- Where there is a schema, the answer is about it, and the memory is that after the load. -/
theorem perform_suggest {snapshot : Snapshot} {m : Memory}
    (loads : Loads s.host c.schemaFile s.memory (.ok (.ok snapshot)) m) (type : String)
    (existing : List String) :
    s.perform c (.suggest type existing) =
      (.answered (.suggestions (if snapshot.typeNames.contains type then
        suggestionsFor c.dialect.fieldText existing (snapshot.members type) else [])),
        s.withMemory m) := by
  calc
    s.perform c (.suggest type existing)
        = s.settle m ((Question.suggest type existing).use c snapshot) :=
          perform_of_found loads (.suggest type existing)
    _ = _ := by
          simp only [settle, Question.use, Memory.tell_nil]
          rfl

/-- Both ways of asking give the same reply to what one load finds. -/
theorem perform_suggest_once (c : Configuration) (s : Session) (type : String)
    (existing : List String) :
    s.perform c (.suggest type existing) =
      s.inquire (Query.typeSuggestionsOnce s.host c.schemaFile c.dialect type existing)
        .suggestions := by
  have twice : Query.Consults s.host c.schemaFile _ _ :=
    Query.typeSuggestions_consults c.dialect type existing
  have same := twice.run_eq (Query.typeSuggestionsOnce_consults c.dialect type existing) s.memory
  simp only [perform, inquire, ask, same]

/-- A question reads the file once at most. -/
theorem loads_question_le (c : Configuration) (s : Session) (q : Question) :
    (s.perform c q.step).2.memory.loads ≤ s.memory.loads + 1 := by
  rcases s.loads_question c q with ⟨reloads, current⟩
  by_cases must : s.MustReload c
  · exact Nat.le_of_eq (reloads must)
  · exact Nat.le_succ_of_le (Nat.le_of_eq (current must))

/-- Whether the class is declared decides between the members of the snapshot and nothing. -/
theorem answer_suggest {snapshot : Snapshot} {m : Memory}
    (loads : Loads s.host c.schemaFile s.memory (.ok (.ok snapshot)) m) (type : String)
    (existing : List String) :
    (type ∈ snapshot.typeNames →
      (s.perform c (.suggest type existing)).1 = .answered (.suggestions
        (suggestionsFor c.dialect.fieldText existing (snapshot.members type)))) ∧
    (type ∉ snapshot.typeNames →
      (s.perform c (.suggest type existing)).1 = .answered (.suggestions [])) := by
  have answer := congrArg Prod.fst (perform_suggest loads type existing)
  constructor
  · intro declared
    simpa only [List.contains_iff_mem.2 declared, if_true] using answer
  · intro undeclared
    have absent : snapshot.typeNames.contains type = false := by simpa using undeclared
    simpa only [absent, Bool.false_eq_true, if_false] using answer

/-- Whatever is kept when the completions for a class are asked for, the answer, the diagnostics,
what is read and what is kept afterwards are those of a single look at the schema: the file is read
once at most, and one diagnostic is told at most, never one about the type. Where there is a schema,
the first look finds a snapshot, and a second one finds that very snapshot and leaves the memory as
it is; the members of a declared type are those in that snapshot, and any other name has no
completions and tells nothing. Where there is none, the result is empty and tells the message of the
first stage that fails. -/
theorem completions_resolve_once (c : Configuration) (s : Session) (type : String)
    (existing : List String) :
    let outcome := (s.perform c (.suggest type existing)).1
    let after := (s.perform c (.suggest type existing)).2
    let report := (s.performReporting c (.suggest type existing)).1
    s.perform c (.suggest type existing) =
      s.inquire (Query.typeSuggestionsOnce s.host c.schemaFile c.dialect type existing)
        .suggestions ∧
    after.memory.loads ≤ s.memory.loads + 1 ∧
    report.told.length ≤ 1 ∧
    (∀ name source, .unknownType name source ∉ report.told) ∧
    (∀ snapshot m,
      (Query.snapshot s.host c.schemaFile).run.run s.memory = (.ok (some snapshot), m) →
      (Query.typeNames s.host c.schemaFile).run.run s.memory = (.ok snapshot.typeNames, m) ∧
      (Query.snapshot s.host c.schemaFile).run.run m = (.ok (some snapshot), m) ∧
      after.memory = m ∧ report.told = [] ∧
      (type ∈ snapshot.typeNames →
        (Query.fieldsIn s.host c.schemaFile type).run.run m = (.ok (snapshot.members type), m) ∧
        outcome = .answered (.suggestions
          (suggestionsFor c.dialect.fieldText existing (snapshot.members type)))) ∧
      (type ∉ snapshot.typeNames → outcome = .answered (.suggestions []))) ∧
    ∀ message, s.Obstructed c message →
      outcome = .answered (.suggestions []) ∧ report.messages = [message] := by
  intro outcome after report
  refine ⟨perform_suggest_once c s type existing, loads_question_le c s (.suggest type existing),
    ?_, ?_, ?_, ?_⟩
  · rcases told_suggest c s type existing with none | ⟨u, one⟩
    · exact Nat.le_succ_of_le (Nat.le_of_eq (congrArg List.length none))
    · exact Nat.le_of_eq (congrArg List.length one)
  · intro name source
    rcases told_suggest c s type existing with none | ⟨u, one⟩
    · exact none ▸ List.not_mem_nil
    · exact one ▸ by simp
  · intro snapshot m found
    have loads := Query.loads_of_snapshot found
    have again := Query.snapshot_again found
    have kept := congrArg (fun r => r.2.memory) (perform_suggest loads type existing)
    have silent : report.told = [] := told_of_found loads (.suggest type existing)
    rcases answer_suggest loads type existing with ⟨known, unknown⟩
    exact ⟨Query.typeNames_of_snapshot found, again, kept, silent,
      fun declared => ⟨Query.fieldsIn_of_snapshot again declared, known declared⟩, unknown⟩
  · intro message obstructed
    rcases obstructed_iff.1 obstructed with ⟨u, m, loads, rfl⟩
    exact ⟨congrArg Prod.fst (perform_of_found loads (.suggest type existing)),
      congrArg (List.map _) (told_of_found loads (.suggest type existing))⟩

/-- The kept snapshot is older than the file, so the first look reads it and the second does not.
There is nothing to look at without a workspace. -/
theorem completions_resolve_once_after_write :
    let c : Configuration := { schemaFile := "schema.graphql", dialect := .java }
    let path : Path := { anchor := .root, parts := ["ws", "schema.graphql"] }
    let h := Host.withSchema "type Query \x7b name: String \x7d".toUTF8.toList 1
    let s := (start h).after c [.types, .write path "type Person \x7b id: ID! \x7d".toUTF8.toList 2]
    let homeless := start { h with workspace := none }
    (∃ snapshot m,
      (Query.snapshot s.host c.schemaFile).run.run s.memory = (.ok (some snapshot), m) ∧
      (Query.snapshot s.host c.schemaFile).run.run m = (.ok (some snapshot), m) ∧
      m.loads = s.memory.loads + 1 ∧ (s.perform c (.suggest "Person" [])).2.memory = m ∧
      (s.perform c (.suggest "Person" [])).1 = .answered (.suggestions
        (suggestionsFor c.dialect.fieldText [] (snapshot.members "Person"))) ∧
      (s.perform c (.suggest "Query" [])).1 = .answered (.suggestions [])) ∧
    (homeless.performReporting c (.suggest "Person" [])).1.messages = ["no active workspace"] := by
  intro c path h s homeless
  have facts : ((Query.snapshot s.host c.schemaFile).run.run s.memory).1.toOption.join.map
      (·.typeNames) =
        some ["Person"] ∧
      ((Query.snapshot s.host c.schemaFile).run.run s.memory).2.loads = s.memory.loads + 1 := by
    decide +kernel
  constructor
  · rcases found : (Query.snapshot s.host c.schemaFile).run.run s.memory with ⟨e | _ | snapshot, m⟩
    · rw [found] at facts
      cases facts.1
    · rw [found] at facts
      cases facts.1
    · rw [found] at facts
      have types : snapshot.typeNames = ["Person"] := Option.some.inj facts.1
      rcases (completions_resolve_once c s "Person" []).2.2.2.2.1 snapshot m found with
        ⟨-, again, memory, -, declared, -⟩
      rcases (completions_resolve_once c s "Query" []).2.2.2.2.1 snapshot m found with
        ⟨-, -, -, -, -, undeclared⟩
      exact ⟨snapshot, m, rfl, again, facts.2, memory, (declared (by simp [types])).2,
        undeclared (by simp [types])⟩
  · have obstructed : homeless.Obstructed c "no active workspace" := .noWorkspace rfl
    exact ((completions_resolve_once c homeless "Person" []).2.2.2.2.2 _ obstructed).2

end Session

end SchemaCompletion
