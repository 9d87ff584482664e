import SchemaCompletion.Proofs.Cache.Load

/-!
# Replies

Every question is one load of the schema and a reply to what the load has found.

* `Question` — the steps of a session that ask for the schema;
* `Question.reply` — what a question says to a schema, or to the reason why there is none;
* `Catalog.knows_eq_true_iff`, `Catalog.knows_eq_false_iff` — the names that a schema knows;
* `Query.Consults` — a computation that loads once and then replies;
* `Query.Consults.of_snapshot` — what goes on from the snapshot is one;
* `Session.perform_step` — a question performed is a load, settled by the reply.
-/

namespace SchemaCompletion

/-! ## Questions and replies -/

/-- A step that asks for the schema. -/
inductive Question where
  | types
  | fields (type : String)
  | openFields (key type : String)
  | snapshot
  | api (existing : List String)
  | suggest (type : String) (existing : List String)
  deriving Repr

def Question.step : Question → Step
  | .types => .types
  | .fields type => .fields type
  | .openFields key type => .openFields key type
  | .snapshot => .snapshot
  | .api existing => .api existing
  | .suggest type existing => .suggest type existing

/-- The question that a step puts, if it puts one. -/
def Step.question? : Step → Option Question
  | .types => some .types
  | .fields type => some (.fields type)
  | .openFields key type => some (.openFields key type)
  | .snapshot => some .snapshot
  | .api existing => some (.api existing)
  | .suggest type existing => some (.suggest type existing)
  | _ => none

@[simp] theorem Question.question?_step (q : Question) : q.step.question? = some q := by
  cases q <;> rfl

theorem Step.eq_step_of_question? {step : Step} {q : Question} (h : step.question? = some q) :
    step = q.step := by
  cases step <;> simp [question?] at h <;> subst h <;> rfl

/-- What a question says: the answer, the diagnostics, and the iterator that it opens. -/
structure Reply where
  answer : Answer
  told : List Diagnostic := []
  opened : Option (String × List String) := none

/-- The members of a type in a schema, with a diagnostic if the schema does not know the type. -/
def Snapshot.fieldsIn (s : Snapshot) (type : String) : List Member × List Diagnostic :=
  if s.knows type then (s.members type, []) else ([], [.unknownType type s.source])

namespace Question

/-- What a question says to a schema. -/
def use (c : Configuration) (s : Snapshot) : Question → Reply
  | .types => { answer := .names s.typeNames }
  | .fields type => { answer := .members (s.fieldsIn type).1, told := (s.fieldsIn type).2 }
  | .openFields key type =>
    { answer := .done, told := (s.fieldsIn type).2,
      opened := some (key, (s.fieldsIn type).1.map (·.name)) }
  | .snapshot => { answer := .snapshot (some s) }
  | .api existing =>
    { answer := .suggestions (suggestionsFor c.dialect.methodText existing s.operations) }
  | .suggest type existing =>
    { answer := .suggestions (if s.typeNames.contains type then
        suggestionsFor c.dialect.fieldText existing (s.members type) else []) }

/-- What a question says where there is no schema, apart from the diagnostic. -/
def blank : Question → Reply
  | .types => { answer := .names [] }
  | .fields _ => { answer := .members [] }
  | .openFields key _ => { answer := .done, opened := some (key, []) }
  | .snapshot => { answer := .snapshot none }
  | .api _ => { answer := .suggestions [] }
  | .suggest _ _ => { answer := .suggestions [] }

/-- What a question says to what was found. -/
def reply (c : Configuration) (q : Question) : Except Unavailable Snapshot → Reply
  | .ok s => q.use c s
  | .error u => { q.blank with told := [.unavailable u] }

end Question

/-! ## Telling diagnostics -/

/-- The diagnostics among events that are all diagnostics. -/
theorem Event.filterMap_diagnosed (ds : List Diagnostic) :
    (ds.map Event.diagnosed).filterMap Event.diagnostic? = ds := by
  rw [List.filterMap_map]
  exact List.filterMap_some

namespace Memory

/-- The memory after diagnostics were told. -/
def tell (m : Memory) (ds : List Diagnostic) : Memory :=
  { m with events := m.events ++ ds.map .diagnosed }

@[simp] theorem cached_tell (m : Memory) (ds : List Diagnostic) :
    (m.tell ds).cached = m.cached := rfl

@[simp] theorem cachedPath_tell (m : Memory) (ds : List Diagnostic) :
    (m.tell ds).cachedPath = m.cachedPath := rfl

@[simp] theorem diagnostics_tell (m : Memory) (ds : List Diagnostic) :
    (m.tell ds).diagnostics = m.diagnostics ++ ds := by
  rw [diagnostics, tell, List.filterMap_append, Event.filterMap_diagnosed, diagnostics]

@[simp] theorem tell_nil (m : Memory) : m.tell [] = m := by
  simp [tell]

@[simp] theorem tell_singleton (m : Memory) (d : Diagnostic) :
    m.tell [d] = m.record (.diagnosed d) := rfl

end Memory

/-! ## Names that a schema knows -/

/-- The known names are those of the declared types and those that extension blocks extend. -/
theorem Catalog.knows_eq_true_iff {c : Catalog} {name : String} :
    c.knows name = true ↔ name ∈ c.typeNames ∨ name ∈ c.extensions.map (·.1) := by
  have declared : (c.type? name).isSome = true ↔ name ∈ c.typeNames := by
    simp [type?, typeNames, List.find?_isSome]
  have extended : c.isExtended name = true ↔ name ∈ c.extensions.map (·.1) := by
    simp [isExtended]
  rw [knows, Bool.or_eq_true, declared, extended]

theorem Catalog.knows_eq_false_iff {c : Catalog} {name : String} :
    c.knows name = false ↔ name ∉ c.typeNames ∧ name ∉ c.extensions.map (·.1) := by
  rw [← Bool.not_eq_true, knows_eq_true_iff, not_or]

/-! ## Computations that load once -/

namespace Query

variable {h : Host} {schemaFile : String}

/-- What a computation comes to that makes some use of a schema and else comes to nothing. -/
def answering {α : Type} (use : Snapshot → α × List Diagnostic) (blank : α) :
    Except Unavailable Snapshot → α × List Diagnostic
  | .ok s => use s
  | .error u => (blank, [.unavailable u])

/-- The computation loads the schema once and then replies to what the load has found. -/
def Consults {α : Type} (h : Host) (schemaFile : String) (q : Query α)
    (reply : Except Unavailable Snapshot → α × List Diagnostic) : Prop :=
  ∀ m, q.run.run m =
    match (load h schemaFile).run.run m with
    | (.ok found, m') => (.ok (reply found).1, m'.tell (reply found).2)
    | (.error e, m') => (.error e, m')

theorem snapshot_consults : Consults h schemaFile (snapshot h schemaFile)
    (answering (fun s => (some s, [])) none) := by
  intro m
  simp only [snapshot, run_bind]
  rcases (load h schemaFile).run.run m with ⟨e | u | s, m'⟩
  · rfl
  · rfl
  · simp only [answering, run_pure, Memory.tell_nil]

/-- Whatever goes on from the snapshot without another load consults it. -/
theorem Consults.of_snapshot {α : Type} {next : Option Snapshot → Query α}
    {use : Snapshot → α × List Diagnostic} {blank : α}
    (used : ∀ s m, (next (some s)).run.run m = (.ok (use s).1, m.tell (use s).2))
    (unused : ∀ m, (next none).run.run m = (.ok blank, m)) :
    Consults h schemaFile (snapshot h schemaFile >>= next) (answering use blank) := by
  intro m
  simp only [run_bind, snapshot_consults m]
  rcases (load h schemaFile).run.run m with ⟨e | u | s, m'⟩
  · rfl
  · exact unused _
  · simp only [answering, Memory.tell_nil]
    exact used s m'

theorem typeNames_consults : Consults h schemaFile (typeNames h schemaFile)
    (answering (fun s => (s.typeNames, [])) []) := by
  refine .of_snapshot (fun s m => ?_) fun m => run_pure _ m
  simp only [run_pure, Memory.tell_nil]

theorem fieldsIn_consults (type : String) : Consults h schemaFile (fieldsIn h schemaFile type)
    (answering (fun s => s.fieldsIn type) []) := by
  refine .of_snapshot (fun s m => ?_) fun m => run_pure _ m
  cases known : s.knows type with
  | true =>
      simp only [Snapshot.fieldsIn, known, Memory.tell_nil, if_true, run_pure]
  | false =>
      simp only [Snapshot.fieldsIn, known, Bool.false_eq_true, if_false, run_bind, run_diagnose,
        run_pure, Memory.tell_singleton]

theorem apiSuggestions_consults (d : Dialect) (existing : List String) :
    Consults h schemaFile (apiSuggestions h schemaFile d existing)
      (answering (fun s => (suggestionsFor d.methodText existing s.operations, [])) []) := by
  refine .of_snapshot (fun s m => ?_) fun m => run_pure _ m
  simp only [run_pure, Memory.tell_nil]

/-- The schema is looked for twice, but what the first load has found the second finds again. -/
theorem typeSuggestions_consults (d : Dialect) (type : String) (existing : List String) :
    Consults h schemaFile (typeSuggestions h schemaFile d type existing)
      (answering (fun s => (if s.typeNames.contains type then
        suggestionsFor d.fieldText existing (s.members type) else [], [])) []) := by
  intro m
  simp only [typeSuggestions, run_bind, typeNames_consults m]
  rcases run : (load h schemaFile).run.run m with ⟨e | u | s, m'⟩
  · rfl
  · -- no name is declared, so the fields are not asked for
    rfl
  · -- the memory after the first load makes the second one give the same
    have again : (load h schemaFile).run.run m' = (.ok (.ok s), m') :=
      (loads_iff.2 run).again.run_eq
    cases declared : s.typeNames.contains type with
    | true =>
        have known : s.knows type = true :=
          Catalog.knows_eq_true_iff.2 (.inl (List.contains_iff_mem.1 declared))
        simp only [answering, Memory.tell_nil, declared, if_true, run_bind,
          fieldsIn_consults type m', again, Snapshot.fieldsIn, known, run_pure]
    | false =>
        simp only [answering, Memory.tell_nil, declared, Bool.false_eq_true, if_false, run_pure]

end Query

/-! ## Questions in a session -/

namespace Session

def openIterator (s : Session) : Option (String × List String) → Session
  | none => s
  | some (key, names) => s.setIterator key names

/-- The outcome of a question and the session after it, given the memory after the load and the
reply to what the load has found. -/
def settle (s : Session) (m : Memory) (r : Reply) : Outcome × Session :=
  (.answered r.answer, ({ s with memory := m.tell r.told }).openIterator r.opened)

/-- The session after a question whose load failed. -/
def fail (s : Session) (m : Memory) (e : OsError) : Outcome × Session :=
  (.failed e, { s with memory := m })

variable (c : Configuration) (s : Session)

theorem inquire_of_consults {α : Type} {q : Query α}
    {reply : Except Unavailable Snapshot → α × List Diagnostic}
    (consults : Query.Consults s.host c.schemaFile q reply) (answer : α → Answer) :
    s.inquire q answer =
      match (Query.load s.host c.schemaFile).run.run s.memory with
      | (.ok found, m) =>
        s.settle m { answer := answer (reply found).1, told := (reply found).2 }
      | (.error e, m) => s.fail m e := by
  simp only [inquire, ask, consults s.memory]
  rcases (Query.load s.host c.schemaFile).run.run s.memory with ⟨result, m⟩
  cases result with
  | ok found =>
      rfl
  | error e =>
      rfl

/-- A question performed is a load, settled by the reply to what the load has found. -/
theorem perform_step (q : Question) :
    s.perform c q.step =
      match (Query.load s.host c.schemaFile).run.run s.memory with
      | (.ok found, m) => s.settle m (q.reply c found)
      | (.error e, m) => s.fail m e := by
  cases q with
  | types =>
      rw [Question.step, perform, inquire_of_consults c s Query.typeNames_consults]
      rcases (Query.load s.host c.schemaFile).run.run s.memory with ⟨e | u | found, m⟩ <;> rfl
  | fields type =>
      rw [Question.step, perform, inquire_of_consults c s (Query.fieldsIn_consults type)]
      rcases (Query.load s.host c.schemaFile).run.run s.memory with ⟨e | u | found, m⟩ <;> rfl
  | openFields key type =>
      -- no plain inquiry: the names of the members become an iterator
      simp only [Question.step, perform, openFields, ask, Query.fieldsIn_consults type s.memory]
      rcases (Query.load s.host c.schemaFile).run.run s.memory with ⟨e | u | found, m⟩ <;> rfl
  | snapshot =>
      rw [Question.step, perform, inquire_of_consults c s Query.snapshot_consults]
      rcases (Query.load s.host c.schemaFile).run.run s.memory with ⟨e | u | found, m⟩ <;> rfl
  | api existing =>
      rw [Question.step, perform,
        inquire_of_consults c s (Query.apiSuggestions_consults c.dialect existing)]
      rcases (Query.load s.host c.schemaFile).run.run s.memory with ⟨e | u | found, m⟩ <;> rfl
  | suggest type existing =>
      rw [Question.step, perform,
        inquire_of_consults c s (Query.typeSuggestions_consults c.dialect type existing)]
      rcases (Query.load s.host c.schemaFile).run.run s.memory with ⟨e | u | found, m⟩ <;> rfl

variable {c s} {m : Memory}

theorem perform_of_found {found : Except Unavailable Snapshot}
    (loads : Loads s.host c.schemaFile s.memory (.ok found) m) (q : Question) :
    s.perform c q.step = s.settle m (q.reply c found) := by
  rw [perform_step, loads.run_eq]

theorem perform_of_failure {e : OsError}
    (loads : Loads s.host c.schemaFile s.memory (.error e) m) (q : Question) :
    s.perform c q.step = s.fail m e := by
  rw [perform_step, loads.run_eq]

end Session

end SchemaCompletion
