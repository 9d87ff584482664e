import SchemaCompletion.Proofs.Cache.Failure

/-!
# Repetition

Questions that are put again while nothing changes.

* `Session.MustReload` — a question has to read the file;
* `Session.loads_question` — a question reads the file once if it has to, and else never;
* `Session.Alike` — two sessions that do not differ in anything that a question looks at;
* `Session.Settled` — a question comes to a certain result, and leaves what is kept;
* `Session.settled_question` — so it is after any question;
* `Step.isQuiet` — a step that changes nothing around;
* `Session.Settled.after` — quiet steps leave a settled session alike;
* `Session.question_again` — after quiet steps a question comes to the same as before, and reads the
  file again only if it could not be read as a schema.
-/

namespace SchemaCompletion

namespace Session

/-! ## Reading the file -/

/-- A question has to read the file: it exists and has a time, and nothing is kept, or something
from another path, or something older. -/
def MustReload (c : Configuration) (s : Session) : Prop :=
  ∃ path modified, s.host.Located c.schemaFile path modified ∧
    (s.memory.cached = none ∨ s.memory.cachedPath ≠ some path ∨
      ∃ kept, s.memory.cached = some kept ∧ kept.modified < modified)

variable {c : Configuration} {s t : Session} {m : Memory}
  {result : Except OsError (Except Unavailable Snapshot)}

/-- A question has to read a file where nothing counts that is kept. -/
theorem mustReload_iff : s.MustReload c ↔
    ∃ path modified, s.host.Located c.schemaFile path modified ∧
      s.memory.current? path modified = none := by
  refine exists_congr fun path => exists_congr fun modified => and_congr_right fun _ => ?_
  rw [Memory.current?_eq_none_iff]
  cases s.memory.cached with
  | none =>
      simp
  | some kept =>
      simp only [reduceCtorEq, false_or, Option.some.injEq, forall_eq', exists_eq_left', ne_eq]
      exact imp_iff_not_or.symm

/-- A load reads the file once if it has to, and else never. -/
theorem loads_of_loads (loads : Loads s.host c.schemaFile s.memory result m) :
    (s.MustReload c → m.loads = s.memory.loads + 1) ∧
      (¬ s.MustReload c → m.loads = s.memory.loads) := by
  -- a file that is read is counted when its reading begins, whatever comes of it
  have begun : ∀ path bytes, ((s.memory.beginLoad path).beginParse path bytes).loads =
      s.memory.loads + 1 := by
    intro path bytes
    unfold Memory.beginParse
    split
    · rfl
    · rfl
  constructor
  · intro reloads
    rcases mustReload_iff.1 reloads with ⟨path, modified, located, outdated⟩
    cases content : s.host.storage.read path with
    | error e =>
        rw [(Loads.unique (.unreadable located outdated content) loads).2]
        rfl
    | ok bytes =>
        cases parsed : Snapshot.ofBytes path.toString modified bytes with
        | error e =>
            rw [(Loads.unique (.unparsable located outdated content parsed) loads).2]
            exact begun path bytes
        | ok snapshot =>
            rw [(Loads.unique (.reloaded located outdated content parsed) loads).2]
            exact begun path bytes
  · intro current
    cases loads with
    | unreadable located outdated content =>
        exact absurd (mustReload_iff.2 ⟨_, _, located, outdated⟩) current
    | unparsable located outdated content parsed =>
        exact absurd (mustReload_iff.2 ⟨_, _, located, outdated⟩) current
    | reloaded located outdated content parsed =>
        exact absurd (mustReload_iff.2 ⟨_, _, located, outdated⟩) current
    | _ =>
        rfl

/-- A question reads the file once if it has to, and else never. -/
theorem loads_question (c : Configuration) (s : Session) (q : Question) :
    (s.MustReload c → (s.perform c q.step).2.memory.loads = s.memory.loads + 1) ∧
      (¬ s.MustReload c → (s.perform c q.step).2.memory.loads = s.memory.loads) := by
  rcases exists_loads s.host c.schemaFile s.memory with ⟨result, m, loads⟩
  rcases memory_question c s loads q with ⟨ds, memory⟩
  have told : (m.tell ds).loads = m.loads := rfl
  rw [memory, told]
  exact loads_of_loads loads

/-! ## Sessions that are alike -/

/-- The sessions have the same surroundings, and keep the same. -/
structure Alike (s t : Session) : Prop where
  host : t.host = s.host
  cached : t.memory.cached = s.memory.cached
  cachedPath : t.memory.cachedPath = s.memory.cachedPath

theorem Alike.refl (s : Session) : s.Alike s := ⟨rfl, rfl, rfl⟩

theorem Alike.trans {u : Session} (first : s.Alike t) (second : t.Alike u) : s.Alike u where
  host := second.host.trans first.host
  cached := second.cached.trans first.cached
  cachedPath := second.cachedPath.trans first.cachedPath

theorem Alike.mustReload_iff (alike : s.Alike t) : t.MustReload c ↔ s.MustReload c := by
  rw [MustReload, MustReload, alike.host, alike.cached, alike.cachedPath]

/-- A question comes to a result, and what was kept before it is kept after it. -/
def Settled (c : Configuration) (s : Session)
    (result : Except OsError (Except Unavailable Snapshot)) : Prop :=
  ∃ m, Loads s.host c.schemaFile s.memory result m ∧ m.cached = s.memory.cached ∧
    m.cachedPath = s.memory.cachedPath

/-- After a question, the next one comes to the same result. -/
theorem settled_question (loads : Loads s.host c.schemaFile s.memory result m) (q : Question) :
    (s.perform c q.step).2.Settled c result := by
  have host : (s.perform c q.step).2.host = s.host := by
    rw [host_perform, Host.after_step]
  rcases memory_question c s loads q with ⟨ds, memory⟩
  rw [Settled, host, memory]
  by_cases found : ∃ snapshot, result = .ok (.ok snapshot)
  · -- what was found is kept, and counts
    rcases found with ⟨snapshot, rfl⟩
    exact loads.again.transfer rfl rfl
  · -- nothing was found, and what was kept before is still kept
    rcases loads.cached_of_not_found (fun snapshot same => found ⟨snapshot, same⟩) with
      ⟨cached, cachedPath⟩
    exact loads.transfer cached cachedPath

theorem Settled.of_alike (settled : s.Settled c result) (alike : s.Alike t) :
    t.Settled c result := by
  rcases settled with ⟨m, loads, cached, cachedPath⟩
  rw [Settled, alike.host]
  rcases loads.transfer alike.cached alike.cachedPath with ⟨m', loads', cached', cachedPath'⟩
  exact ⟨m', loads', cached'.trans (cached.trans alike.cached.symm),
    cachedPath'.trans (cachedPath.trans alike.cachedPath.symm)⟩

theorem Settled.question (settled : s.Settled c result) (q : Question) :
    s.Alike (s.perform c q.step).2 := by
  rcases settled with ⟨m, loads, cached, cachedPath⟩
  rcases memory_question c s loads q with ⟨ds, memory⟩
  refine ⟨?_, ?_, ?_⟩
  · rw [host_perform, Host.after_step]
  · rw [memory]
    exact cached
  · rw [memory]
    exact cachedPath

end Session

/-! ## Quiet steps -/

/-- The step is a question, or else does not change anything that a question looks at. -/
def Step.isQuiet : Step → Bool
  | .next _ | .path | .setSink _ => true
  | step => step.question?.isSome

theorem Host.after_of_isQuiet (h : Host) {step : Step} (quiet : step.isQuiet = true) :
    h.after step = h := by
  cases step with
  | write | remove | makeDirectory | setClock | setWorkspace | invalidate =>
      cases quiet
  | _ =>
      rfl

namespace Session

variable {c : Configuration} {s t : Session} {m : Memory}
  {result : Except OsError (Except Unavailable Snapshot)}

theorem alike_of_silent {step : Step} (quiet : step.isQuiet = true)
    (silent : step.question? = none) : s.Alike (s.perform c step).2 := by
  have kept : step ≠ .invalidate := by
    rintro rfl
    cases quiet
  have memory := memory_perform_of_silent c s silent kept
  exact ⟨(host_perform c s step).trans (s.host.after_of_isQuiet quiet),
    congrArg Memory.cached memory, congrArg Memory.cachedPath memory⟩

theorem Settled.perform (settled : s.Settled c result) {step : Step} (quiet : step.isQuiet = true) :
    s.Alike (s.perform c step).2 := by
  rcases asked : step.question? with _ | q
  · exact alike_of_silent quiet asked
  · rw [Step.eq_step_of_question? asked]
    exact settled.question q

/-- Quiet steps leave a settled session alike. -/
theorem Settled.after (settled : s.Settled c result) {steps : List Step}
    (quiet : ∀ step ∈ steps, step.isQuiet = true) : s.Alike (s.after c steps) := by
  induction steps generalizing s with
  | nil =>
      exact .refl s
  | cons step steps ih =>
      rw [List.forall_mem_cons] at quiet
      have first := settled.perform quiet.1
      exact first.trans (ih (settled.of_alike first) quiet.2)

/-- Each question of a quiet run reads the file as the first would, or none does. -/
theorem Settled.loads_after (settled : s.Settled c result) {steps : List Step}
    (quiet : ∀ step ∈ steps, step.isQuiet = true) :
    (s.MustReload c → (s.after c steps).memory.loads =
        s.memory.loads + steps.countP (·.question?.isSome)) ∧
      (¬ s.MustReload c → (s.after c steps).memory.loads = s.memory.loads) := by
  -- by induction on the run; every step leaves the session alike, so the next one is like the first
  induction steps generalizing s with
  | nil =>
      exact ⟨fun _ => rfl, fun _ => rfl⟩
  | cons step steps ih =>
      rw [List.forall_mem_cons] at quiet
      have first := settled.perform quiet.1
      have rest := ih (settled.of_alike first) quiet.2
      rw [first.mustReload_iff] at rest
      rw [after_cons, List.countP_cons]
      rcases asked : step.question? with _ | q
      · have kept : step ≠ .invalidate := by
          rintro rfl
          cases quiet.1
        rw [memory_perform_of_silent c s asked kept] at rest
        simpa using rest
      · rw [Step.eq_step_of_question? asked] at rest ⊢
        have read := s.loads_question c q
        refine ⟨fun reloads => ?_, fun current => ?_⟩
        · rw [rest.1 reloads, read.1 reloads]
          simp only [Option.isSome_some, if_true]
          omega
        · rw [rest.2 current, read.2 current]

/-! ## Asking again -/

/-- What a question shows depends only on what the load comes to. -/
theorem report_of_same_result {m' : Memory}
    (loads : Loads s.host c.schemaFile s.memory result m)
    (other : Loads t.host c.schemaFile t.memory result m') (q : Question) :
    (t.performReporting c q.step).1.outcome = (s.performReporting c q.step).1.outcome ∧
      (t.performReporting c q.step).1.told = (s.performReporting c q.step).1.told := by
  cases result with
  | error e =>
      have outcome : (t.perform c q.step).1 = (s.perform c q.step).1 := by
        rw [perform_of_failure loads, perform_of_failure other, fail, fail]
      exact ⟨outcome, (told_of_failure other q).trans (told_of_failure loads q).symm⟩
  | ok found =>
      have outcome : (t.perform c q.step).1 = (s.perform c q.step).1 := by
        rw [perform_of_found loads, perform_of_found other, settle, settle]
      exact ⟨outcome, (told_of_found other q).trans (told_of_found loads q).symm⟩

/-- After a question and quiet steps, every question shows what it would have shown at first. If
there is a schema, none of them reads the file again; if the file had to be read and there is no
schema in it, each of them reads it once more. -/
theorem question_again (c : Configuration) (s : Session) (q : Question) {steps : List Step}
    (quiet : ∀ step ∈ steps, step.isQuiet = true) :
    let t := (s.perform c q.step).2
    (∀ q' : Question,
      ((t.after c steps).performReporting c q'.step).1.outcome =
          (s.performReporting c q'.step).1.outcome ∧
        ((t.after c steps).performReporting c q'.step).1.told =
          (s.performReporting c q'.step).1.told) ∧
    (s.HasSchema c → (t.after c steps).memory.loads = t.memory.loads) ∧
    (s.MustReload c → ¬ s.HasSchema c → (t.after c steps).memory.loads =
      t.memory.loads + steps.countP (·.question?.isSome)) := by
  intro t
  rcases exists_loads s.host c.schemaFile s.memory with ⟨result, m, loads⟩
  have settled : t.Settled c result := settled_question loads q
  have later := settled.after quiet
  refine ⟨fun q' => ?_, fun schema => ?_, fun reloads none => ?_⟩
  · rcases settled.of_alike later with ⟨m', other, -, -⟩
    exact report_of_same_result loads other q'
  · -- what was found counts, so nothing has to be read
    refine (settled.loads_after quiet).2 ?_
    rcases schema.found loads with ⟨snapshot, rfl⟩
    rcases loads.counts_of_found with ⟨path, modified, located, counts⟩
    rcases memory_question c s loads q with ⟨ds, memory⟩
    intro reloads
    rcases mustReload_iff.1 reloads with ⟨path', modified', located', outdated⟩
    rw [host_perform, Host.after_step] at located'
    rcases located.unique located' with ⟨rfl, rfl⟩
    rw [memory] at outdated
    cases outdated.symm.trans counts
  · -- a question that fails leaves what is kept, so the file has to be read again
    refine (settled.loads_after quiet).1 ?_
    have failed := (failed_iff q).2 none
    rcases perform_of_failed q failed with ⟨cached, cachedPath, -⟩
    have alike : s.Alike t := ⟨by rw [host_perform, Host.after_step], cached, cachedPath⟩
    exact alike.mustReload_iff.2 reloads

end Session

end SchemaCompletion
