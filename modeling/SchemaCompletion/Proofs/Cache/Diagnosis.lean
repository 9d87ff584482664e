import SchemaCompletion.Proofs.Cache.Failure
import SchemaCompletion.Proofs.Cache.Provenance

/-!
# Diagnosis

What a question tells, by the first stage that fails.

* `Storage.GenuineError` — a failure of the operating system, not of a path it was never given;
* `Loads.genuine_of_failure` — a load raises only such failures, unless the clock raises others;
* `Session.Obstructed` — the first stage at which there is no schema, with its message;
* `Session.obstructed_iff` — those are the stages at which a load ends without a schema;
* `Session.GivesNothing` — a question has the empty result;
* `Session.Report.messages`, `Session.Report.logged` — the diagnostics of a report, as they are
  delivered and as they stand in the log;
* `Session.failures_told_once` — a question without a schema tells the message of the first stage
  that fails and nothing else, and one with a schema only tells of a type that the schema does not
  know.
-/

namespace SchemaCompletion

/-! ## Failures of the operating system -/

/-- The operating system reported the failure. It does not see a path with a NUL character. -/
def OsError.Genuine (e : OsError) : Prop := e.kind ≠ .unusablePath

theorem OsError.Genuine.atPath {kind : OsErrorKind} {number : Nat} {reason : String} {path : Path}
    (usable : kind ≠ .unusablePath) : (OsError.atPath kind number reason path).Genuine :=
  usable

namespace Storage

variable {s : Storage} {path : Path} {e : OsError}

/-- Following a path only fails at a component that is too long. -/
theorem walk_eq_error {place parts : List String} (failed : s.walk path place parts = .error e) :
    e = .nameTooLong path := by
  -- by induction on the components; a walk that stops for another reason does not fail
  induction parts generalizing place with
  | nil =>
      cases failed
  | cons part parts ih =>
      simp only [walk] at failed
      split at failed
      · split at failed
        · exact ih failed
        · split at failed
          · split at failed
            · exact ih failed
            · cases failed
          · exact (Except.error.inj failed).symm
      · cases failed

/-- A path without NUL characters is only refused for its length. -/
theorem find_eq_error (usable : path.hasNul = false) (failed : s.find path = .error e) :
    e = .nameTooLong path := by
  simp only [find, usable, Bool.false_eq_true, if_false] at failed
  split at failed
  · cases walked : s.walk path [] path.parts with
    | error e' =>
        rw [walked] at failed
        exact (Except.error.inj failed).symm.trans (walk_eq_error walked)
    | ok place =>
        rw [walked] at failed
        cases failed
  · exact (Except.error.inj failed).symm

theorem contains_eq_error (failed : s.contains path = .error e) : e = .nameTooLong path := by
  cases usable : path.hasNul with
  | true =>
      simp [contains, usable] at failed
  | false =>
      simp only [contains, usable, Bool.false_eq_true, if_false] at failed
      cases found : s.find path with
      | error e' =>
          rw [found] at failed
          exact (Except.error.inj failed).symm.trans (find_eq_error usable found)
      | ok entry =>
          rw [found] at failed
          cases failed

/-- A path that leads somewhere has no NUL character. -/
theorem usable_of_contains (found : s.contains path = .ok true) : path.hasNul = false := by
  cases usable : path.hasNul with
  | true =>
      simp [contains, usable] at found
  | false =>
      rfl

/-- What goes on from following a path fails because the path cannot be followed, or later. -/
theorem find_bind_eq_error {α : Type} {next : Option Entry → Except OsError α}
    (usable : path.hasNul = false) (failed : (s.find path >>= next) = .error e) :
    e = .nameTooLong path ∨ ∃ entry, next entry = .error e := by
  cases found : s.find path with
  | error e' =>
      rw [found, error_bind] at failed
      exact .inl ((Except.error.inj failed).symm.trans (find_eq_error usable found))
  | ok entry =>
      rw [found, ok_bind] at failed
      exact .inr ⟨entry, failed⟩

theorem modifiedAt_eq_error (usable : path.hasNul = false) (failed : s.modifiedAt path = .error e) :
    e.Genuine := by
  rcases find_bind_eq_error usable failed with rfl | ⟨_ | entry, later⟩
  · exact .atPath (by decide)
  · cases later
    exact .atPath (by decide)
  · cases later

theorem read_eq_error (usable : path.hasNul = false) (failed : s.read path = .error e) :
    e.Genuine := by
  rcases find_bind_eq_error usable failed with rfl | ⟨_ | ⟨bytes, modified⟩ | modified, later⟩
  · exact .atPath (by decide)
  · cases later
    exact .atPath (by decide)
  · cases later
  · cases later
    exact .atPath (by decide)

end Storage

/-- A load raises only failures of the operating system, unless the clock raises others. -/
theorem Loads.genuine_of_failure {h : Host} {schemaFile : String} {m m' : Memory} {e : OsError}
    (loads : Loads h schemaFile m (.error e) m') : e.Genuine ∨ h.clock = .failing e := by
  cases loads with
  | untested resolved found =>
      rw [Storage.contains_eq_error found]
      exact .inl (.atPath (by decide))
  | untimed resolved found timed =>
      unfold Host.modifiedAt at timed
      cases clock : h.clock with
      | fixed time =>
          simp [clock] at timed
      | failing e' =>
          simp only [clock, Except.error.injEq] at timed
          exact .inr (congrArg _ timed)
      | files =>
          simp only [clock] at timed
          exact .inl (Storage.modifiedAt_eq_error (Storage.usable_of_contains found) timed)
  | unreadable located outdated content =>
      have usable := Storage.usable_of_contains located.found
      exact .inl (Storage.read_eq_error usable content)

/-! ## The first stage that fails -/

namespace Session

/-- The first stage at which there is no schema, with its message. At the first three it does not
matter what is kept; at the last one nothing that is kept counts. -/
inductive Obstructed (c : Configuration) (s : Session) : String → Prop where
  | noWorkspace (active : s.host.workspace = none) : Obstructed c s "no active workspace"
  | noBasePath {name : String} (active : s.host.workspace = some { name, root := none }) :
      Obstructed c s ("no base path in workspace " ++ name)
  | missing {path : Path} (resolved : s.host.schemaPath c.schemaFile = .ok path)
      (absent : s.host.storage.contains path = .ok false) :
      Obstructed c s ("no GraphQL schema found at " ++ path.toString)
  | unparsable {path : Path} {modified : Int} {bytes : List UInt8} {cause : ContentError}
      (located : s.host.Located c.schemaFile path modified)
      (outdated : ∀ kept, s.memory.cached = some kept → s.memory.cachedPath = some path →
        kept.modified < modified)
      (content : s.host.storage.read path = .ok bytes)
      (broken : Catalog.ofBytes bytes = .error cause) :
      Obstructed c s ("parsing of schema at " ++ path.toString ++ " failed:\n" ++ cause.message)

variable {c : Configuration} {s : Session} {m : Memory} {u : Unavailable} {q : Question}

/-- A workspace without a path for the schema is missing, or has no root. -/
theorem obstructed_of_unresolved (unresolved : s.host.schemaPath c.schemaFile = .error u) :
    s.Obstructed c u.message := by
  unfold Host.schemaPath at unresolved
  split at unresolved
  · next active =>
      cases unresolved
      exact .noWorkspace active
  · next name active =>
      cases unresolved
      exact .noBasePath active
  · cases unresolved

/-- The stages at which there is no schema are those at which a load ends without one. -/
theorem obstructed_iff {message : String} :
    s.Obstructed c message ↔
      ∃ u m, Loads s.host c.schemaFile s.memory (.ok (.error u)) m ∧ u.message = message := by
  constructor
  · intro obstructed
    cases obstructed with
    | noWorkspace active =>
        have unresolved : s.host.schemaPath c.schemaFile = .error .noWorkspace := by
          simp only [Host.schemaPath, active]
        exact ⟨_, _, .unresolved unresolved, rfl⟩
    | @noBasePath name active =>
        have unresolved : s.host.schemaPath c.schemaFile = .error (.noBasePath name) := by
          simp only [Host.schemaPath, active]
        exact ⟨_, _, .unresolved unresolved, rfl⟩
    | missing resolved absent =>
        exact ⟨_, _, .missing resolved absent, rfl⟩
    | @unparsable path modified bytes cause located outdated content broken =>
        have parsed : Snapshot.ofBytes path.toString modified bytes =
            .error { source := path.toString, cause } :=
          Snapshot.ofBytes_eq_error_iff.2 ⟨broken, rfl⟩
        have none := Memory.current?_eq_none_iff.2 outdated
        exact ⟨_, _, .unparsable located none content parsed, rfl⟩
  · rintro ⟨u, m, loads, rfl⟩
    cases loads with
    | unresolved resolved =>
        exact obstructed_of_unresolved resolved
    | @missing path resolved found =>
        have told : (Unavailable.missing path).message =
            "no GraphQL schema found at " ++ path.toString := rfl
        rw [told]
        exact .missing resolved found
    | @unparsable path modified bytes e located outdated content parsed =>
        rcases Snapshot.ofBytes_eq_error_iff.1 parsed with ⟨broken, source⟩
        have told : (Unavailable.unparsable e).message =
            "parsing of schema at " ++ e.source ++ " failed:\n" ++ e.cause.message := rfl
        rw [told, source]
        exact .unparsable located (Memory.current?_eq_none_iff.1 outdated) content broken

end Session

/-! ## Empty results -/

/-- The type whose members a question asks for. -/
def Question.membersOf? : Question → Option String
  | .fields type => some type
  | .openFields _ type => some type
  | _ => none

/-- Only a question for the members of a type tells something about a schema. -/
theorem Question.told_use (c : Configuration) (q : Question) (s : Snapshot) :
    (q.use c s).told = (q.membersOf?.map fun type => (s.fieldsIn type).2).getD [] := by
  cases q <;> rfl

namespace Session

/-- The question has the empty result: no names, members or suggestions, no snapshot, or an iterator
that has nothing to give. -/
def GivesNothing (c : Configuration) (s : Session) (q : Question) : Prop :=
  (s.perform c q.step).1 = .answered q.blank.answer ∧
    ∀ key type, q = .openFields key type →
      (s.perform c q.step).2.iterators.lookup key = some []

variable {c : Configuration} {s : Session} {m : Memory} {u : Unavailable} {q : Question}

theorem givesNothing_of_unavailable
    (loads : Loads s.host c.schemaFile s.memory (.ok (.error u)) m) (q : Question) :
    s.GivesNothing c q := by
  have performed := perform_of_found loads q
  refine ⟨congrArg Prod.fst performed, ?_⟩
  rintro key type rfl
  rw [performed]
  exact List.lookup_cons_self

theorem givesNothing_of_unknown {snapshot : Snapshot} {type : String}
    (loads : Loads s.host c.schemaFile s.memory (.ok (.ok snapshot)) m)
    (asks : q.membersOf? = some type) (unknown : snapshot.knows type = false) :
    s.GivesNothing c q := by
  have performed := perform_of_found loads q
  have none : snapshot.fieldsIn type = ([], [.unknownType type snapshot.source]) := by
    simp [Snapshot.fieldsIn, unknown]
  cases q with
  | fields asked =>
      cases asks
      refine ⟨?_, by simp⟩
      rw [performed, settle, Question.reply, Question.use, none]
      rfl
  | openFields key asked =>
      cases asks
      rw [GivesNothing, performed, settle, Question.reply, Question.use, none]
      refine ⟨rfl, ?_⟩
      rintro key' type' same
      cases same
      exact List.lookup_cons_self
  | _ =>
      cases asks

/-! ## Messages -/

/-- The messages of a report, in the order in which they were told. -/
def Report.messages (r : Report) : List String := r.told.map (·.message)

/-- What a report has in the log about diagnostics. -/
def Report.logged (r : Report) : List String :=
  (r.events.filter (·.diagnostic?.isSome)).map (·.logLine)

/-- Every diagnostic stands in the log once. -/
theorem Report.logged_eq (r : Report) :
    r.logged = r.messages.map ("DEBUG:gql_assist.core.schema:" ++ ·) := by
  rw [logged, messages, told]
  -- by induction on the events, of which some are diagnostics
  induction r.events with
  | nil =>
      rfl
  | cons event events ih =>
      cases event with
      | diagnosed d =>
          exact congrArg (List.cons _) ih
      | _ =>
          exact ih

/-- A question leaves it open whether diagnostics are delivered. -/
theorem delivers_question (c : Configuration) (s : Session) (q : Question) :
    (s.perform c q.step).2.delivers = s.delivers := by
  rcases exists_loads s.host c.schemaFile s.memory with ⟨e | found, m, loads⟩
  · rw [perform_of_failure loads, fail]
  · rw [perform_of_found loads, settle]
    rcases (q.reply c found).opened with _ | ⟨key, names⟩
    · rfl
    · rfl

/-- What a question tells is delivered if there is someone to deliver it to. -/
theorem delivered_question (c : Configuration) (s : Session) (q : Question) :
    (s.performReporting c q.step).1.delivered.map (·.message) =
      if s.delivers then (s.performReporting c q.step).1.messages else [] := by
  simp only [performReporting, delivers_question, Report.messages, Report.told]
  cases s.delivers with
  | true =>
      rfl
  | false =>
      rfl

/-- What questions use after a run names the path of the schema in the present workspace. -/
theorem source_of_loads {h : Host} {steps : List Step} {snapshot : Snapshot}
    (loads : Loads ((start h).after c steps).host c.schemaFile ((start h).after c steps).memory
      (.ok (.ok snapshot)) m) :
    ∃ path, ((start h).after c steps).host.schemaPath c.schemaFile = .ok path ∧
      snapshot.source = path.toString := by
  rcases gives_of_loads c loads with ⟨path, h', resolved, gives⟩
  exact ⟨path, resolved, gives.source_eq⟩

/-- After any run, there is a first stage at which there is no schema, or there is a schema, or
every question fails with the same error. In the first case, whatever is kept, every question has
the empty result and tells one message, that of the stage. In the second case nothing is told,
except where the members of a type are asked for that is neither declared nor extended: the result
is then empty, and one message names the type and the path of the schema. A question that fails
tells nothing, and what it raises comes from the operating system or from the clock. Whatever is
told stands in the log once, and is delivered once if there is someone to deliver it to. -/
theorem failures_told_once (c : Configuration) (h : Host) (steps : List Step) :
    let s := (start h).after c steps
    let report := fun q : Question => (s.performReporting c q.step).1
    ((∃ message, s.Obstructed c message) ∨ s.HasSchema c ∨
      ∃ e, ∀ q, (report q).outcome = .failed e) ∧
    (∀ message, s.Obstructed c message →
      ∀ q, s.GivesNothing c q ∧ (report q).messages = [message]) ∧
    (s.HasSchema c → ∃ snapshot path, s.host.schemaPath c.schemaFile = .ok path ∧
      (report .snapshot).outcome = .answered (.snapshot (some snapshot)) ∧
      ∀ q,
        (∀ type, q.membersOf? = some type → type ∉ snapshot.typeNames →
          type ∉ snapshot.extensions.map (·.1) →
          s.GivesNothing c q ∧
            (report q).messages = ["no type " ++ type ++ " in schema at " ++ path.toString]) ∧
        ((∀ type, q.membersOf? = some type →
            type ∈ snapshot.typeNames ∨ type ∈ snapshot.extensions.map (·.1)) →
          (report q).outcome = .answered (q.use c snapshot).answer ∧ (report q).messages = [])) ∧
    ∀ q,
      (∀ e, (report q).outcome = .failed e →
        (e.Genuine ∨ s.host.clock = .failing e) ∧ (report q).messages = []) ∧
      (report q).logged = (report q).messages.map ("DEBUG:gql_assist.core.schema:" ++ ·) ∧
      (report q).delivered.map (·.message) = if s.delivers then (report q).messages else [] := by
  intro s report
  refine ⟨?_, ?_, ?_, fun q => ⟨?_, (report q).logged_eq, delivered_question c s q⟩⟩
  · rcases exists_loads s.host c.schemaFile s.memory with ⟨e | u | snapshot, m, loads⟩
    · exact .inr (.inr ⟨e, fun q => congrArg Prod.fst (perform_of_failure loads q)⟩)
    · exact .inl ⟨u.message, obstructed_iff.2 ⟨u, m, loads, rfl⟩⟩
    · exact .inr (.inl (hasSchema_of_found loads))
  · intro message obstructed q
    rcases obstructed_iff.1 obstructed with ⟨u, m, loads, rfl⟩
    refine ⟨givesNothing_of_unavailable loads q, ?_⟩
    exact congrArg (List.map _) (told_of_found loads q)
  · intro schema
    rcases exists_loads s.host c.schemaFile s.memory with ⟨result, m, loads⟩
    rcases schema.found loads with ⟨snapshot, rfl⟩
    rcases source_of_loads loads with ⟨path, resolved, source⟩
    -- the load itself tells nothing, so what is told is what the question says to the schema
    have told : ∀ q, (report q).messages = ((q.use c snapshot).told).map (·.message) :=
      fun q => congrArg (List.map _) (told_of_found loads q)
    refine ⟨snapshot, path, resolved, congrArg Prod.fst (perform_of_found loads .snapshot), ?_⟩
    intro q
    constructor
    · intro type asks undeclared unextended
      have unknown : snapshot.knows type = false := by
        rw [← Bool.not_eq_true, Catalog.knows_eq_true_iff, not_or]
        exact ⟨undeclared, unextended⟩
      refine ⟨givesNothing_of_unknown loads asks unknown, ?_⟩
      rw [told, q.told_use c snapshot, asks, ← source]
      simp [Snapshot.fieldsIn, unknown, Diagnostic.message]
    · intro known
      refine ⟨congrArg Prod.fst (perform_of_found loads q), ?_⟩
      rw [told, q.told_use c snapshot]
      cases asks : q.membersOf? with
      | none =>
          rfl
      | some type =>
          have knows : snapshot.knows type = true := Catalog.knows_eq_true_iff.2 (known type asks)
          simp [Snapshot.fieldsIn, knows]
  · intro e failed
    rcases exists_loads s.host c.schemaFile s.memory with ⟨e' | found, m, loads⟩
    · have raised : Outcome.failed e' = .failed e :=
        (congrArg Prod.fst (perform_of_failure loads q)).symm.trans failed
      cases raised
      exact ⟨loads.genuine_of_failure, congrArg (List.map _) (told_of_failure loads q)⟩
    · have answered := (congrArg Prod.fst (perform_of_found loads q)).symm.trans failed
      cases answered

/-- A good snapshot is kept when the file is cut short: every question has the empty result and
tells where the text ends. -/
theorem cut_file_told_once :
    let c : Configuration := { schemaFile := "schema.graphql", dialect := .java }
    let path : Path := { anchor := .root, parts := ["ws", "schema.graphql"] }
    let h := Host.withSchema "type Query { name: String }".toUTF8.toList 1
    let s := (start h).after c [.types, .write path "type".toUTF8.toList 2]
    (s.memory.cached.map (·.typeNames) = some ["Query"]) ∧ ∀ q : Question,
      s.GivesNothing c q ∧ (s.performReporting c q.step).1.messages =
        ["parsing of schema at /ws/schema.graphql failed:\nSyntax Error: Expected Name, found <EOF>."] := by
  intro c path h s
  have names : s.memory.cached.map (·.typeNames) = some ["Query"] := by decide +kernel
  have time : s.memory.cached.map (·.modified) = some 1 := by decide +kernel
  have located : s.host.Located c.schemaFile path 2 :=
    ⟨by decide +kernel, by decide +kernel, by decide +kernel⟩
  have content : s.host.storage.read path = .ok "type".toUTF8.toList := by decide +kernel
  have outdated : ∀ kept, s.memory.cached = some kept → s.memory.cachedPath = some path →
      kept.modified < 2 := by
    intro kept cached _
    rw [cached, Option.map_some, Option.some.injEq] at time
    rw [time]
    decide
  have cut : (match Catalog.ofBytes "type".toUTF8.toList with
      | .ok _ => none
      | .error cause => some cause.message) =
        some "Syntax Error: Expected Name, found <EOF>." := by
    decide +kernel
  refine ⟨names, fun q => ?_⟩
  cases broken : Catalog.ofBytes "type".toUTF8.toList with
  | ok catalog =>
      rw [broken] at cut
      cases cut
  | error cause =>
      rw [broken] at cut
      have obstructed := Obstructed.unparsable located outdated content broken
      have said : path.toString = "/ws/schema.graphql" := by decide +kernel
      rw [Option.some.inj cut, said] at obstructed
      exact (failures_told_once c h _).2.1 _ obstructed q

end Session

end SchemaCompletion
