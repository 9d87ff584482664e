import SchemaCompletion.Proofs.Cache.Provenance

/-!
# Rereading

A session that keeps its schema answers like one that reads it afresh at every question, as long as
other content comes with a later time.

* `Host.Faithful` — what is asked of the times that are reported at two questions;
* `Session.performAfresh` — a step in a session that keeps nothing;
* `Observation`, `Session.observeAfresh` — what is compared of a run;
* `Loads.timeless_eq` — one load against reading afresh;
* `Session.AgreesAfresh` — one step in both sessions;
* `Session.run_observations` — the two sessions agree on every run with faithful times.
-/

namespace SchemaCompletion

/-! ## Faithful times -/

/-- Of two questions that find a schema file at the same path, the later one reports a later time if
something else is stored there. -/
def Host.Faithful (schemaFile : String) (earlier later : Host) : Prop :=
  ∀ path time time', earlier.Located schemaFile path time → later.Located schemaFile path time' →
    earlier.storage.read path ≠ later.storage.read path → time < time'

/-! ## What is compared -/

/-- The snapshot without its time. -/
def Snapshot.timeless (s : Snapshot) : Snapshot := { s with modified := 0 }

/-- The outcome without the time of the snapshot that it may show. -/
def Outcome.timeless : Outcome → Outcome
  | .answered (.snapshot (some s)) => .answered (.snapshot (some s.timeless))
  | outcome => outcome

/-- What is seen of a step: its outcome, the diagnostics that are told, and those that are
delivered. -/
structure Observation where
  outcome : Outcome
  told : List Diagnostic
  delivered : List Diagnostic

def Session.Report.observation (r : Report) : Observation where
  outcome := r.outcome.timeless
  told := r.told
  delivered := r.delivered

/-! ## A session that keeps nothing -/

namespace Session

/-- One step in a session that keeps nothing: a question has the schema file found, read and parsed,
and replies to that. -/
def performAfresh (c : Configuration) (s : Session) (step : Step) :
    (Outcome × List Diagnostic) × Session :=
  match step.question? with
  | some q =>
    match s.host.readAfresh c.schemaFile with
    | .error e => ((.failed e, []), s)
    | .ok found =>
      ((.answered (q.reply c found).answer, (q.reply c found).told),
        s.openIterator (q.reply c found).opened)
  | none => (((s.perform c step).1, []), (s.perform c step).2)

/-- What is seen of a run in a session that keeps nothing. -/
def observeAfresh (c : Configuration) (s : Session) : List Step → List Observation
  | [] => []
  | step :: steps =>
    let ((outcome, told), after) := s.performAfresh c step
    { outcome := outcome.timeless, told, delivered := if after.delivers then told else [] } ::
      after.observeAfresh c steps

end Session

/-! ## One load -/

section

variable {schemaFile : String} {past : List Host} {m m' : Memory} {h : Host}

/-- What a load gives is what reading afresh gives, apart from the time of a snapshot. -/
theorem Loads.timeless_eq {result : Except OsError (Except Unavailable Snapshot)}
    (remembers : Remembers schemaFile past m)
    (faithful : ∀ earlier ∈ past, earlier.Faithful schemaFile h)
    (loads : Loads h schemaFile m result m') :
    h.readAfresh schemaFile = result ∨
      ∃ kept read, result = .ok (.ok kept) ∧ h.readAfresh schemaFile = .ok (.ok read) ∧
        read.timeless = kept.timeless := by
  rcases loads.readAfresh_eq with same | ⟨path, time, kept, located, counts, rfl⟩
  · exact .inl same
  · right
    rcases Memory.current?_eq_some_iff.1 counts with ⟨cached, cachedPath, notLater⟩
    rcases remembers.gives cached cachedPath with ⟨earlier, mem, gives⟩
    rcases gives.content with ⟨bytes, content, parsed⟩
    -- a different content now would have come with a later time
    have unchanged : h.storage.read path = .ok bytes := by
      by_contra changed
      have later : kept.modified < time :=
        faithful earlier mem path kept.modified time gives.located located
          (fun same => changed (same.symm.trans content))
      exact absurd notLater (Int.not_le.2 later)
    rcases Snapshot.ofBytes_eq_ok_iff.1 parsed with ⟨catalog, -, source⟩
    have again : Snapshot.ofBytes path.toString time bytes =
        .ok { kept.toCatalog with modified := time, source := path.toString } :=
      Snapshot.ofBytes_eq_ok_iff.2 ⟨catalog, rfl, rfl⟩
    refine ⟨kept, { kept.toCatalog with modified := time, source := path.toString }, rfl, ?_, ?_⟩
    · rw [Host.readAfresh_of_located located, unchanged]
      simp only [Except.map, again, mapError_ok]
    · simp only [Snapshot.timeless, source]

end

/-- A question makes no use of the time of a snapshot but to show it. -/
theorem Question.use_timeless (c : Configuration) (q : Question) (s : Snapshot) :
    (Outcome.answered (q.use c s.timeless).answer).timeless =
        (Outcome.answered (q.use c s).answer).timeless ∧
      (q.use c s.timeless).told = (q.use c s).told ∧
      (q.use c s.timeless).opened = (q.use c s).opened := by
  cases q with
  | _ =>
      exact ⟨rfl, rfl, rfl⟩

/-- So it says the same to snapshots that differ in the time. -/
theorem Question.reply_timeless (c : Configuration) (q : Question)
    {found read : Except Unavailable Snapshot}
    (same : found.map Snapshot.timeless = read.map Snapshot.timeless) :
    (Outcome.answered (q.reply c found).answer).timeless =
        (Outcome.answered (q.reply c read).answer).timeless ∧
      (q.reply c found).told = (q.reply c read).told ∧
      (q.reply c found).opened = (q.reply c read).opened := by
  cases found with
  | error u =>
      cases read with
      | error u' =>
          cases same
          exact ⟨rfl, rfl, rfl⟩
      | ok s' =>
          cases same
  | ok s =>
      cases read with
      | error u' =>
          cases same
      | ok s' =>
          have times : s.timeless = s'.timeless := Except.ok.inj same
          rcases q.use_timeless c s with ⟨answer, told, opened⟩
          rcases q.use_timeless c s' with ⟨answer', told', opened'⟩
          rw [times] at answer told opened
          exact ⟨answer.symm.trans answer', told.symm.trans told', opened.symm.trans opened'⟩

/-! ## One step -/

namespace Session

variable (c : Configuration)

/-- The step shows the same as in the session that keeps nothing, and both go on in the same way. -/
structure AgreesAfresh (s : Session) (step : Step) : Prop where
  outcome : (s.performReporting c step).1.outcome.timeless =
    ((s.withMemory .fresh).performAfresh c step).1.1.timeless
  told : (s.performReporting c step).1.told = ((s.withMemory .fresh).performAfresh c step).1.2
  session : (s.perform c step).2.withMemory .fresh =
    ((s.withMemory .fresh).performAfresh c step).2

/-- What the session that keeps nothing does at a question. -/
theorem performAfresh_question (s : Session) (q : Question) :
    s.performAfresh c q.step =
      match s.host.readAfresh c.schemaFile with
      | .error e => ((.failed e, []), s)
      | .ok found =>
        ((.answered (q.reply c found).answer, (q.reply c found).told),
          s.openIterator (q.reply c found).opened) := by
  simp only [performAfresh, Question.question?_step]

/-- A question whose load has failed agrees. -/
theorem agreesAfresh_of_failure {s : Session} {m : Memory} {e : OsError} (q : Question)
    (loads : Loads s.host c.schemaFile s.memory (.error e) m)
    (reread : s.host.readAfresh c.schemaFile = .error e) : s.AgreesAfresh c q.step := by
  have performed := perform_of_failure loads q
  have afresh : (s.withMemory .fresh).performAfresh c q.step =
      ((.failed e, []), s.withMemory .fresh) := by
    simp only [performAfresh_question, withMemory, reread]
  have outcome : (s.performReporting c q.step).1.outcome = .failed e :=
    congrArg Prod.fst performed
  refine ⟨?_, ?_, ?_⟩
  · rw [afresh, outcome]
  · rw [afresh]
    exact told_of_failure loads q
  · rw [afresh, performed]
    rfl

/-- A question agrees if what its load has found is what reading afresh finds, apart from the
time. -/
theorem agreesAfresh_of_found {s : Session} {m : Memory} {found read : Except Unavailable Snapshot}
    (q : Question) (loads : Loads s.host c.schemaFile s.memory (.ok found) m)
    (reread : s.host.readAfresh c.schemaFile = .ok read)
    (same : found.map Snapshot.timeless = read.map Snapshot.timeless) :
    s.AgreesAfresh c q.step := by
  have performed := perform_of_found loads q
  have afresh : (s.withMemory .fresh).performAfresh c q.step =
      ((.answered (q.reply c read).answer, (q.reply c read).told),
        (s.withMemory .fresh).openIterator (q.reply c read).opened) := by
    simp only [performAfresh_question, withMemory, reread]
  have outcome : (s.performReporting c q.step).1.outcome = .answered (q.reply c found).answer :=
    congrArg Prod.fst performed
  rcases q.reply_timeless c same with ⟨answer, told, opened⟩
  refine ⟨?_, ?_, ?_⟩
  · rw [afresh, outcome]
    exact answer
  · rw [afresh, told_of_found loads]
    exact told
  · rw [afresh, performed, settle, opened]
    rcases (q.reply c read).opened with _ | ⟨key, names⟩ <;> rfl

theorem agreesAfresh_question {s : Session} {past : List Host} (q : Question)
    (remembers : Remembers c.schemaFile past s.memory)
    (faithful : ∀ earlier ∈ past, earlier.Faithful c.schemaFile s.host) :
    s.AgreesAfresh c q.step := by
  rcases exists_loads s.host c.schemaFile s.memory with ⟨e | found, m, loads⟩
  · rcases loads.timeless_eq remembers faithful with reread | ⟨_, _, impossible, -⟩
    · exact agreesAfresh_of_failure c q loads reread
    · cases impossible
  · rcases loads.timeless_eq remembers faithful with reread | ⟨kept, read, hkept, reread, same⟩
    · exact agreesAfresh_of_found c q loads reread rfl
    · cases hkept
      exact agreesAfresh_of_found c q loads reread (congrArg Except.ok same.symm)

/-- Any other step agrees. -/
theorem agreesAfresh_of_silent {s : Session} {step : Step} (silent : step.question? = none) :
    s.AgreesAfresh c step := by
  have afresh : (s.withMemory .fresh).performAfresh c step =
      ((((s.withMemory .fresh).perform c step).1, []),
        ((s.withMemory .fresh).perform c step).2) := by
    simp only [performAfresh, silent]
  by_cases kept : step = .invalidate
  · subst kept
    exact ⟨rfl, told_of_silent c s silent, rfl⟩
  · rw [perform_withMemory c s silent kept] at afresh
    refine ⟨?_, ?_, ?_⟩
    · rw [afresh]
      rfl
    · rw [afresh]
      exact told_of_silent c s silent
    · rw [afresh]

/-- Where a step agrees, the same is seen of it. -/
theorem AgreesAfresh.observation_eq {s : Session} {step : Step} (agrees : s.AgreesAfresh c step) :
    (s.performReporting c step).1.observation =
      let ((outcome, told), after) := (s.withMemory .fresh).performAfresh c step
      { outcome := outcome.timeless, told, delivered := if after.delivers then told else [] } := by
  have delivered : (s.performReporting c step).1.delivered =
      if ((s.withMemory .fresh).performAfresh c step).2.delivers then
        ((s.withMemory .fresh).performAfresh c step).1.2 else [] := by
    rw [← agrees.told, ← agrees.session]
    rfl
  simp only [Report.observation, agrees.outcome, agrees.told, delivered]

/-! ## Runs -/

/-- Whatever a step does, the memory stays true to the questions of the past. -/
theorem remembers_step {s : Session} {past : List Host} (step : Step)
    (remembers : Remembers c.schemaFile past s.memory) :
    Remembers c.schemaFile (past ++ s.host.atQuestions [step]) (s.perform c step).2.memory := by
  by_cases kept : step = .invalidate
  · subst kept
    exact .nothing rfl rfl
  · exact remembers_perform c remembers kept

/-- The two sessions show the same from wherever the memory is true to the past, and the past and
the rest of the run are faithful. -/
theorem observations_eq {s : Session} {past : List Host} (steps : List Step)
    (remembers : Remembers c.schemaFile past s.memory)
    (faithful : (past ++ s.host.atQuestions steps).Pairwise (Host.Faithful c.schemaFile)) :
    (s.run c steps).1.map Report.observation = (s.withMemory .fresh).observeAfresh c steps := by
  -- by induction on the run; the past grows by the questions that are done
  induction steps generalizing s past with
  | nil =>
      rfl
  | cons step steps ih =>
      have head : s.host.atQuestions (step :: steps) =
          s.host.atQuestions [step] ++ (s.perform c step).2.host.atQuestions steps := by
        rw [host_perform]
        exact s.host.atQuestions_append [step] steps
      rw [head, ← List.append_assoc] at faithful
      have rest := ih (remembers_step c step remembers) faithful
      have agrees : s.AgreesAfresh c step := by
        rcases asked : step.question? with _ | q
        · exact agreesAfresh_of_silent c asked
        · rw [Step.eq_step_of_question? asked, Host.atQuestions_question] at faithful
          rw [Step.eq_step_of_question? asked]
          refine agreesAfresh_question c q remembers fun earlier mem => ?_
          have upToNow := (List.pairwise_append.1 faithful).1
          exact (List.pairwise_append.1 upToNow).2.2 earlier mem s.host (List.mem_singleton_self _)
      calc
        (s.run c (step :: steps)).1.map Report.observation
            = (s.performReporting c step).1.observation ::
                ((s.perform c step).2.run c steps).1.map Report.observation := rfl
        _ = (s.withMemory .fresh).observeAfresh c (step :: steps) := by
            rw [agrees.observation_eq, rest, agrees.session]
            rfl

/-- Every run with faithful times shows, question by question and in every other step, what the run
shows in a session that finds, reads and parses the schema file afresh at each question. -/
theorem run_observations (h : Host) (steps : List Step)
    (faithful : (h.atQuestions steps).Pairwise (Host.Faithful c.schemaFile)) :
    ((start h).run c steps).1.map Report.observation = (start h).observeAfresh c steps := by
  have remembers : Remembers c.schemaFile [] (start h).memory := .nothing rfl rfl
  exact observations_eq c steps remembers faithful

/-- The file is written between two questions, and then its time cannot be asked: four questions,
two of which read the file. -/
theorem run_observations_through_changes :
    let before := "type Query { name: String }".toUTF8.toList
    let after := "type Query { names: [String] }".toUTF8.toList
    let c : Configuration := { schemaFile := "schema.graphql", dialect := .java }
    let path : Path := { anchor := .root, parts := ["ws", "schema.graphql"] }
    let h := Host.withSchema before 1
    let steps : List Step := [.types, .snapshot, .write path after 2, .types,
      .setClock (.failing (.notFound path)), .types]
    (h.atQuestions steps).Pairwise (Host.Faithful c.schemaFile) ∧
      ((start h).run c steps).1.map Report.observation = (start h).observeAfresh c steps ∧
      ((start h).after c steps).memory.loads = 2 := by
  intro before after c path h steps
  have faithful : (h.atQuestions steps).Pairwise (Host.Faithful c.schemaFile) := by
    let written := h.after (.write path after 2)
    have located : h.Located c.schemaFile path 1 :=
      ⟨by decide +kernel, by decide +kernel, by decide +kernel⟩
    have located' : written.Located c.schemaFile path 2 :=
      ⟨by decide +kernel, by decide +kernel, by decide +kernel⟩
    have same : h.Faithful c.schemaFile h := fun _ _ _ _ _ changed => absurd rfl changed
    have later : h.Faithful c.schemaFile written := by
      intro path time time' there there' _
      rw [(located.unique there).2, (located'.unique there').2]
      decide
    have untimed : ∀ earlier, Host.Faithful c.schemaFile earlier
        { written with clock := .failing (.notFound path) } := by
      intro earlier path time time' _ there'
      cases there'.timed
    have hosts : h.atQuestions steps =
        [h, h, written, { written with clock := .failing (.notFound path) }] := rfl
    rw [hosts]
    simp [untimed, same, later]
  exact ⟨faithful, run_observations c h steps faithful, by decide +kernel⟩

end Session

end SchemaCompletion
