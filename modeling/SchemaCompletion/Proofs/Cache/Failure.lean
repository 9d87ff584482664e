import SchemaCompletion.Proofs.Cache.Run

/-!
# Failing questions

A question that fails changes nothing that is kept, and what is kept does not hide its failure.

* `Session.Report.Failed` — the report on a question that failed;
* `Session.HasSchema` — when there is a schema to answer with;
* `Session.failed_iff` — a question fails where there is none, whatever is kept;
* `Session.AllFail` — every question of a run fails;
* `Session.cached_after_of_allFail` — such a run keeps what was kept before;
* `Session.failing_questions` — failures are atomic and not masked, and the kept snapshot outlives
  them.
-/

namespace SchemaCompletion

/-- No reply to a schema says that there is none. -/
theorem Question.unavailable_not_mem_use (c : Configuration) (q : Question) (s : Snapshot)
    (u : Unavailable) : .unavailable u ∉ (q.use c s).told := by
  have told : ∀ type, .unavailable u ∉ (s.fieldsIn type).2 := by
    intro type
    unfold Snapshot.fieldsIn
    split <;> simp
  cases q with
  | fields type =>
      exact told type
  | openFields key type =>
      exact told type
  | _ =>
      exact List.not_mem_nil

namespace Session

/-- The report is on a question that failed: it raised an error, or told that there is no schema. -/
def Report.Failed (r : Report) : Prop :=
  (∃ e, r.outcome = .failed e) ∨ ∃ u, .unavailable u ∈ r.told

/-- There is a schema to answer with: a schema file exists and has a time, and the kept snapshot
still counts, or else the file can be read and its bytes are a schema. -/
def HasSchema (c : Configuration) (s : Session) : Prop :=
  ∃ path modified, s.host.Located c.schemaFile path modified ∧
    ((∃ snapshot, s.memory.current? path modified = some snapshot) ∨
      ∃ bytes catalog, s.host.storage.read path = .ok bytes ∧ Catalog.ofBytes bytes = .ok catalog)

variable {c : Configuration} {s : Session} {m : Memory}

/-- A load from where there is a schema finds one. -/
theorem HasSchema.found {result : Except OsError (Except Unavailable Snapshot)}
    (schema : s.HasSchema c) (loads : Loads s.host c.schemaFile s.memory result m) :
    ∃ snapshot, result = .ok (.ok snapshot) := by
  rcases schema with ⟨path, modified, located, available⟩
  cases counts : s.memory.current? path modified with
  | some snapshot =>
      exact ⟨snapshot, (Loads.unique (.current located counts) loads).1⟩
  | none =>
      -- nothing that is kept counts, so it is the file that has a schema
      rcases available with ⟨snapshot, kept⟩ | ⟨bytes, catalog, content, whole⟩
      · cases counts.symm.trans kept
      · have parsed : Snapshot.ofBytes path.toString modified bytes =
            .ok { catalog with modified, source := path.toString } :=
          Snapshot.ofBytes_eq_ok_iff.2 ⟨whole, rfl, rfl⟩
        exact ⟨_, (Loads.unique (.reloaded located counts content parsed) loads).1⟩

/-- A load that finds a schema had one to find. -/
theorem hasSchema_of_found {snapshot : Snapshot}
    (loads : Loads s.host c.schemaFile s.memory (.ok (.ok snapshot)) m) : s.HasSchema c := by
  cases loads with
  | current located counts =>
      exact ⟨_, _, located, .inl ⟨_, counts⟩⟩
  | reloaded located outdated content parsed =>
      exact ⟨_, _, located, .inr ⟨_, _, content, (Snapshot.ofBytes_eq_ok_iff.1 parsed).1⟩⟩

theorem failed_of_failure {e : OsError} (loads : Loads s.host c.schemaFile s.memory (.error e) m)
    (q : Question) : (s.performReporting c q.step).1.Failed := by
  have outcome : (s.performReporting c q.step).1.outcome = .failed e :=
    congrArg Prod.fst (perform_of_failure loads q)
  exact .inl ⟨e, outcome⟩

theorem failed_of_unavailable {u : Unavailable}
    (loads : Loads s.host c.schemaFile s.memory (.ok (.error u)) m) (q : Question) :
    (s.performReporting c q.step).1.Failed := by
  have told : .unavailable u ∈ (s.performReporting c q.step).1.told := by
    rw [told_of_found loads]
    exact List.mem_singleton_self _
  exact .inr ⟨u, told⟩

theorem not_failed_of_found {snapshot : Snapshot}
    (loads : Loads s.host c.schemaFile s.memory (.ok (.ok snapshot)) m) (q : Question) :
    ¬ (s.performReporting c q.step).1.Failed := by
  have outcome : (s.performReporting c q.step).1.outcome =
      .answered (q.reply c (.ok snapshot)).answer :=
    congrArg Prod.fst (perform_of_found loads q)
  rintro (⟨e, failed⟩ | ⟨u, told⟩)
  · cases outcome.symm.trans failed
  · rw [told_of_found loads] at told
    exact q.unavailable_not_mem_use c snapshot u told

/-- A question fails exactly where there is no schema to answer with. -/
theorem failed_iff (q : Question) : (s.performReporting c q.step).1.Failed ↔ ¬ s.HasSchema c := by
  rcases exists_loads s.host c.schemaFile s.memory with ⟨e | u | snapshot, m, loads⟩
  · refine iff_of_true (failed_of_failure loads q) fun schema => ?_
    rcases schema.found loads with ⟨snapshot, impossible⟩
    cases impossible
  · refine iff_of_true (failed_of_unavailable loads q) fun schema => ?_
    rcases schema.found loads with ⟨snapshot, impossible⟩
    cases impossible
  · exact iff_of_false (not_failed_of_found loads q) (not_not_intro (hasSchema_of_found loads))

/-- A question that fails leaves what is kept, and gives an error or the empty answer. -/
theorem perform_of_failed (q : Question) (failed : (s.performReporting c q.step).1.Failed) :
    (s.perform c q.step).2.memory.cached = s.memory.cached ∧
      (s.perform c q.step).2.memory.cachedPath = s.memory.cachedPath ∧
      ((∃ e, (s.perform c q.step).1 = .failed e) ∨
        (s.perform c q.step).1 = .answered q.blank.answer ∧
          (s.perform c q.step).2.iterators = (s.openIterator q.blank.opened).iterators) := by
  rcases exists_loads s.host c.schemaFile s.memory with ⟨e | u | snapshot, m, loads⟩
  · rcases loads.cached_of_not_found (by simp) with ⟨cached, cachedPath⟩
    rw [perform_of_failure loads]
    exact ⟨cached, cachedPath, .inl ⟨e, rfl⟩⟩
  · rcases loads.cached_of_not_found (by simp) with ⟨cached, cachedPath⟩
    rw [perform_of_found loads, settle]
    refine ⟨?_, ?_, .inr ⟨rfl, ?_⟩⟩
    · rw [memory_openIterator]
      exact cached
    · rw [memory_openIterator]
      exact cachedPath
    · cases q <;> rfl
  · exact absurd (hasSchema_of_found loads) ((failed_iff q).1 failed)

/-! ## Runs of failing questions -/

/-- Every question of the run fails. -/
def AllFail (c : Configuration) (s : Session) (steps : List Step) : Prop :=
  ∀ x ∈ steps.zip (s.run c steps).1, x.1.question? ≠ none → x.2.Failed

theorem allFail_cons {step : Step} {steps : List Step} :
    s.AllFail c (step :: steps) ↔
      (step.question? ≠ none → (s.performReporting c step).1.Failed) ∧
        (s.perform c step).2.AllFail c steps := by
  constructor
  · intro all
    exact ⟨all _ List.mem_cons_self, fun x mem => all x (List.mem_cons_of_mem _ mem)⟩
  · rintro ⟨first, rest⟩ x mem
    rcases List.mem_cons.1 mem with rfl | mem
    · exact first
    · exact rest x mem

/-- A run of failing questions, with anything but an invalidation in between, keeps what was
kept. -/
theorem cached_after_of_allFail {steps : List Step} (fail : s.AllFail c steps)
    (uninterrupted : .invalidate ∉ steps) :
    (s.after c steps).memory.cached = s.memory.cached ∧
      (s.after c steps).memory.cachedPath = s.memory.cachedPath := by
  -- by induction on the run: no step of it changes what is kept
  induction steps generalizing s with
  | nil =>
      exact ⟨rfl, rfl⟩
  | cons step steps ih =>
      rcases allFail_cons.1 fail with ⟨first, rest⟩
      rw [List.mem_cons, not_or] at uninterrupted
      rcases ih rest uninterrupted.2 with ⟨cached, cachedPath⟩
      have kept : (s.perform c step).2.memory.cached = s.memory.cached ∧
          (s.perform c step).2.memory.cachedPath = s.memory.cachedPath := by
        rcases asked : step.question? with _ | q
        · rw [memory_perform_of_silent c s asked fun same => uninterrupted.1 same.symm]
          exact ⟨rfl, rfl⟩
        · have failed := first (by simp [asked])
          rw [Step.eq_step_of_question? asked] at failed ⊢
          rcases perform_of_failed q failed with ⟨cached, cachedPath, -⟩
          exact ⟨cached, cachedPath⟩
      exact ⟨cached.trans kept.1, cachedPath.trans kept.2⟩

/-- A question fails exactly where there is no schema to answer with, whatever is kept. It then
leaves the kept snapshot and its path as they were, and raises an error or gives the empty answer.
So after any run of failing questions, as soon as the schema lies at the kept path again, exists,
and has a time that is not later than the kept one, a question uses the kept snapshot and reads
nothing. -/
theorem failing_questions (c : Configuration) (s : Session) :
    (∀ q : Question, (s.performReporting c q.step).1.Failed ↔ ¬ s.HasSchema c) ∧
    (∀ q : Question, (s.performReporting c q.step).1.Failed →
      (s.perform c q.step).2.memory.cached = s.memory.cached ∧
      (s.perform c q.step).2.memory.cachedPath = s.memory.cachedPath ∧
      ((∃ e, (s.perform c q.step).1 = .failed e) ∨
        (s.perform c q.step).1 = .answered q.blank.answer ∧
          (s.perform c q.step).2.iterators = (s.openIterator q.blank.opened).iterators)) ∧
    ∀ steps snapshot path modified, s.AllFail c steps → .invalidate ∉ steps →
      s.memory.cached = some snapshot → s.memory.cachedPath = some path →
      (s.after c steps).host.Located c.schemaFile path modified → modified ≤ snapshot.modified →
      ∀ q : Question,
        let later := s.after c steps
        later.perform c q.step = later.settle later.memory (q.reply c (.ok snapshot)) ∧
        (later.perform c q.step).2.memory.loads = later.memory.loads ∧
        (later.perform c q.step).2.memory.cached = some snapshot := by
  refine ⟨fun q => failed_iff q, fun q failed => perform_of_failed q failed, ?_⟩
  intro steps snapshot path modified fail uninterrupted cached cachedPath located notLater q later
  rcases cached_after_of_allFail fail uninterrupted with ⟨same, samePath⟩
  -- what was kept before the run still counts after it
  have counts : later.memory.current? path modified = some snapshot :=
    Memory.current?_eq_some_iff.2 ⟨same.trans cached, samePath.trans cachedPath, notLater⟩
  have performed := perform_of_found (.current located counts) q
  rw [performed, settle, memory_openIterator]
  exact ⟨rfl, rfl, same.trans cached⟩

/-- The workspace is lost, then it is there again but has no times, and then an earlier time is
told: the kept snapshot is still the answer. -/
theorem snapshot_outlives_outage :
    let c : Configuration := { schemaFile := "schema.graphql", dialect := .java }
    let path : Path := { anchor := .root, parts := ["ws", "schema.graphql"] }
    let s := (start (Host.withSchema "type Query { name: String }".toUTF8.toList 2)).after c
      [.types]
    let steps : List Step := [.setWorkspace none, .types, .setWorkspace s.host.workspace,
      .setClock (.failing (.notFound path)), .snapshot, .setClock (.fixed 1)]
    s.AllFail c steps ∧ ∃ kept, s.memory.cached = some kept ∧ kept.typeNames = ["Query"] ∧
      ((s.after c steps).perform c .snapshot).1 = .answered (.snapshot (some kept)) := by
  intro c path s steps
  have fail : s.AllFail c steps := by
    simp only [steps, allFail_cons]
    refine ⟨by simp [Step.question?], fun _ => failed_of_unavailable (.unresolved rfl) .types,
      by simp [Step.question?], by simp [Step.question?], fun _ => ?_, by simp [Step.question?], ?_⟩
    · exact failed_of_failure (@Loads.untimed _ _ _ path (.notFound path)
        (by decide +kernel) (by decide +kernel) (by decide +kernel)) .snapshot
    intro x mem
    cases mem
  have modified : s.memory.cached.map (·.modified) = some 2 := by decide +kernel
  have names : s.memory.cached.map (·.typeNames) = some ["Query"] := by decide +kernel
  rcases Option.map_eq_some_iff.1 modified with ⟨kept, cached, time⟩
  rw [cached] at names
  have located : (s.after c steps).host.Located c.schemaFile path 1 :=
    ⟨by decide +kernel, by decide +kernel, by decide +kernel⟩
  have notLater : 1 ≤ kept.modified := by
    rw [time]
    decide
  have later := (failing_questions c s).2.2 steps kept path 1 fail (by simp [steps]) cached
    (by decide +kernel) located notLater .snapshot
  exact ⟨fail, kept, cached, Option.some.inj names, congrArg Prod.fst later.1⟩

end Session

end SchemaCompletion
