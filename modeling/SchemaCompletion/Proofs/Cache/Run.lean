import Mathlib.Data.List.Induction
import SchemaCompletion.Proofs.Cache.Reply

/-!
# Runs

What a sequence of steps does to the surroundings, to the memory and to the reports.

* `Host.after`, `Host.atQuestions` — the surroundings after a step, and at each question of a run;
* `Session.after` — the session after a run;
* `Session.perform_of_silent` — which steps do not look at the memory;
* `Session.memory_perform` — what a step does to the memory;
* `Session.host_after` — the surroundings develop whatever the memory holds;
* `Session.told_of_found`, `Session.told_of_failure` — the diagnostics that a question tells.
-/

namespace SchemaCompletion

/-! ## Surroundings -/

namespace Host

/-- The surroundings with the files that a change came to; a failed change leaves them. -/
def withFiles (h : Host) : Except OsError Storage → Host
  | .ok storage => { h with storage }
  | .error _ => h

/-- The surroundings after a step. -/
def after (h : Host) : Step → Host
  | .write path bytes modified => h.withFiles (h.storage.write path bytes modified)
  | .remove path => h.withFiles (h.storage.remove path)
  | .makeDirectory path modified => h.withFiles (h.storage.makeDirectory path modified)
  | .setClock clock => { h with clock }
  | .setWorkspace workspace => { h with workspace }
  | _ => h

/-- The surroundings after a sequence of steps. -/
def afterAll (h : Host) (steps : List Step) : Host := steps.foldl after h

/-- The surroundings at the questions of a sequence of steps, in order. -/
def atQuestions (h : Host) : List Step → List Host
  | [] => []
  | step :: steps => (step.question?.map fun _ => h).toList ++ (h.after step).atQuestions steps

theorem after_step (h : Host) (q : Question) : h.after q.step = h := by
  cases q <;> rfl

theorem atQuestions_append (h : Host) (xs ys : List Step) :
    h.atQuestions (xs ++ ys) = h.atQuestions xs ++ (h.afterAll xs).atQuestions ys := by
  induction xs generalizing h with
  | nil =>
      rfl
  | cons step xs ih =>
      simp only [List.cons_append, atQuestions, ih, List.append_assoc, afterAll, List.foldl_cons]

theorem atQuestions_question (h : Host) (q : Question) : h.atQuestions [q.step] = [h] := by
  simp [atQuestions]

theorem atQuestions_of_no_question (h : Host) {step : Step} (silent : step.question? = none) :
    h.atQuestions [step] = [] := by
  simp [atQuestions, silent]

/-- The surroundings at the questions of a run, each with the steps before and after it. -/
theorem mem_atQuestions_iff {h h' : Host} {steps : List Step} :
    h' ∈ h.atQuestions steps ↔
      ∃ before q later, steps = before ++ Question.step q :: later ∧ h' = h.afterAll before := by
  induction steps generalizing h with
  | nil =>
      simp [atQuestions]
  | cons step steps ih =>
      simp only [atQuestions, List.mem_append, Option.mem_toList, Option.map_eq_some_iff, ih]
      constructor
      · -- the question is the first step, or it is one of the rest
        rintro (⟨q, asked, rfl⟩ | ⟨before, q, later, rfl, rfl⟩)
        · exact ⟨[], q, steps, by rw [Step.eq_step_of_question? asked]; rfl, rfl⟩
        · exact ⟨step :: before, q, later, rfl, rfl⟩
      · rintro ⟨before, q, later, split, rfl⟩
        cases before with
        | nil =>
            simp only [List.nil_append, List.cons.injEq] at split
            rcases split with ⟨rfl, rfl⟩
            exact .inl ⟨q, q.question?_step, rfl⟩
        | cons first before =>
            simp only [List.cons_append, List.cons.injEq] at split
            rcases split with ⟨rfl, rfl⟩
            exact .inr ⟨before, q, later, rfl, rfl⟩

end Host

/-! ## Sessions -/

namespace Session

variable (c : Configuration) (s : Session)

/-- The session after a sequence of steps. -/
def after (steps : List Step) : Session := (s.run c steps).2

@[simp] theorem host_openIterator (o : Option (String × List String)) :
    (s.openIterator o).host = s.host := by
  rcases o with _ | ⟨key, names⟩ <;> rfl

@[simp] theorem memory_openIterator (o : Option (String × List String)) :
    (s.openIterator o).memory = s.memory := by
  rcases o with _ | ⟨key, names⟩ <;> rfl

/-- The session with another memory. -/
def withMemory (m : Memory) : Session := { s with memory := m }

/-- A step that is neither a question nor an invalidation does not look at the memory, and passes it
on. -/
theorem perform_of_silent {step : Step} (silent : step.question? = none)
    (kept : step ≠ .invalidate) :
    ∃ outcome iterators delivers, ∀ m, (s.withMemory m).perform c step =
      (outcome, { host := s.host.after step, memory := m, iterators, delivers }) := by
  -- a change of the files ends in one of two ways
  have change : ∀ result : Except OsError Storage, ∃ outcome, ∀ m,
      (s.withMemory m).changeFiles result =
        (outcome, { s with host := s.host.withFiles result, memory := m }) := by
    intro result
    cases result with
    | ok storage =>
        exact ⟨.answered .done, fun _ => rfl⟩
    | error e =>
        exact ⟨.failed e, fun _ => rfl⟩
  cases step with
  | write path bytes modified =>
      rcases change (s.host.storage.write path bytes modified) with ⟨outcome, changed⟩
      exact ⟨outcome, s.iterators, s.delivers, changed⟩
  | remove path =>
      rcases change (s.host.storage.remove path) with ⟨outcome, changed⟩
      exact ⟨outcome, s.iterators, s.delivers, changed⟩
  | makeDirectory path modified =>
      rcases change (s.host.storage.makeDirectory path modified) with ⟨outcome, changed⟩
      exact ⟨outcome, s.iterators, s.delivers, changed⟩
  | next key =>
      rcases names : s.iterators.lookup key with _ | _ | ⟨name, names⟩
      · exact ⟨_, _, _, fun m => by simp only [perform, next, withMemory, names]; rfl⟩
      · exact ⟨_, _, _, fun m => by simp only [perform, next, withMemory, names]; rfl⟩
      · exact ⟨_, _, _, fun m => by simp only [perform, next, withMemory, names, setIterator]; rfl⟩
  | path =>
      rcases resolved : s.host.schemaPath c.schemaFile with u | path
      · exact ⟨_, _, _, fun m => by simp only [perform, withMemory, resolved]; rfl⟩
      · exact ⟨_, _, _, fun m => by simp only [perform, withMemory, resolved]; rfl⟩
  | setClock clock =>
      exact ⟨_, _, _, fun _ => rfl⟩
  | setWorkspace workspace =>
      exact ⟨_, _, _, fun _ => rfl⟩
  | setSink installed =>
      exact ⟨_, _, _, fun _ => rfl⟩
  | invalidate =>
      exact absurd rfl kept
  | _ =>
      simp [Step.question?] at silent

theorem perform_withMemory {step : Step} (silent : step.question? = none)
    (kept : step ≠ .invalidate) (m : Memory) :
    (s.withMemory m).perform c step =
      ((s.perform c step).1, (s.perform c step).2.withMemory m) := by
  rcases perform_of_silent c s silent kept with ⟨outcome, iterators, delivers, performed⟩
  rw [performed m, show s.perform c step = _ from performed s.memory]
  rfl

/-- Only questions and invalidations touch the memory. -/
theorem memory_perform_of_silent {step : Step} (silent : step.question? = none)
    (kept : step ≠ .invalidate) : (s.perform c step).2.memory = s.memory := by
  rcases perform_of_silent c s silent kept with ⟨outcome, iterators, delivers, performed⟩
  exact congrArg (fun r => r.2.memory) (performed s.memory)

/-- The surroundings develop whatever the memory holds. -/
theorem host_perform (step : Step) : (s.perform c step).2.host = s.host.after step := by
  rcases asked : step.question? with _ | q
  · by_cases kept : step = .invalidate
    · subst kept
      rfl
    · rcases perform_of_silent c s asked kept with ⟨outcome, iterators, delivers, performed⟩
      exact congrArg (fun r => r.2.host) (performed s.memory)
  · rw [Step.eq_step_of_question? asked, Host.after_step]
    rcases exists_loads s.host c.schemaFile s.memory with ⟨e | found, m, loads⟩
    · rw [perform_of_failure loads, fail]
    · rw [perform_of_found loads, settle, host_openIterator]

/-- After a question the memory is that after a load, with what was told. -/
theorem memory_question {result : Except OsError (Except Unavailable Snapshot)} {m : Memory}
    (loads : Loads s.host c.schemaFile s.memory result m) (q : Question) :
    ∃ ds, (s.perform c q.step).2.memory = m.tell ds := by
  cases result with
  | error e =>
      refine ⟨[], ?_⟩
      rw [perform_of_failure loads, fail, Memory.tell_nil]
  | ok found =>
      refine ⟨(q.reply c found).told, ?_⟩
      rw [perform_of_found loads, settle, memory_openIterator]

/-- What a step does to the memory: nothing, or it clears it, or it loads the schema once and tells
what comes of it. -/
theorem memory_perform (step : Step) :
    (step.question? = none ∧ step ≠ .invalidate ∧ (s.perform c step).2.memory = s.memory) ∨
    (step = .invalidate ∧ (s.perform c step).2.memory = s.memory.invalidate) ∨
    ∃ q result m ds, step = Question.step q ∧ Loads s.host c.schemaFile s.memory result m ∧
      (s.perform c step).2.memory = m.tell ds := by
  rcases asked : step.question? with _ | q
  · by_cases clears : step = .invalidate
    · subst clears
      exact .inr (.inl ⟨rfl, rfl⟩)
    · exact .inl ⟨rfl, clears, memory_perform_of_silent c s asked clears⟩
  · rcases Step.eq_step_of_question? asked with rfl
    rcases exists_loads s.host c.schemaFile s.memory with ⟨result, m, loads⟩
    rcases memory_question c s loads q with ⟨ds, memory⟩
    exact .inr (.inr ⟨q, result, m, ds, rfl, loads, memory⟩)

/-! ## Sequences of steps -/

@[simp] theorem after_nil : s.after c [] = s := rfl

@[simp] theorem after_cons (step : Step) (steps : List Step) :
    s.after c (step :: steps) = (s.perform c step).2.after c steps := rfl

theorem after_append (xs ys : List Step) : s.after c (xs ++ ys) = (s.after c xs).after c ys := by
  induction xs generalizing s with
  | nil =>
      rfl
  | cons step xs ih =>
      exact ih _

/-- A run with one more step. -/
theorem after_concat (steps : List Step) (step : Step) :
    s.after c (steps ++ [step]) = ((s.after c steps).perform c step).2 :=
  after_append c s steps [step]

theorem host_after (steps : List Step) : (s.after c steps).host = s.host.afterAll steps := by
  induction steps generalizing s with
  | nil =>
      rfl
  | cons step steps ih =>
      rw [after_cons, ih, host_perform]
      rfl

/-! ## Reports -/

/-- The diagnostics that a report tells, delivered or not. -/
def Report.told (r : Report) : List Diagnostic := r.events.filterMap Event.diagnostic?

/-- The report on a step whose memory goes on from that before it. -/
theorem told_of_events {step : Step} {es : List Event}
    (events : (s.perform c step).2.memory.events = s.memory.events ++ es) :
    (s.performReporting c step).1.told = es.filterMap Event.diagnostic? := by
  simp only [Report.told, performReporting, events, List.drop_left]

/-- Steps that are no questions tell nothing. -/
theorem told_of_silent {step : Step} (silent : step.question? = none) :
    (s.performReporting c step).1.told = [] := by
  have unchanged : (s.perform c step).2.memory.events = s.memory.events ++ [] := by
    by_cases kept : step = .invalidate
    · subst kept
      exact (List.append_nil _).symm
    · rw [memory_perform_of_silent c s silent kept, List.append_nil]
  exact told_of_events c s unchanged

variable {c s} {m : Memory}

/-- A question that finds something out tells what its reply says. -/
theorem told_of_found {found : Except Unavailable Snapshot}
    (loads : Loads s.host c.schemaFile s.memory (.ok found) m) (q : Question) :
    (s.performReporting c q.step).1.told = (q.reply c found).told := by
  rcases loads.events_eq with ⟨es, events, none⟩
  have after : (s.perform c q.step).2.memory.events =
      s.memory.events ++ (es ++ (q.reply c found).told.map .diagnosed) := by
    rw [perform_of_found loads, settle, memory_openIterator, ← List.append_assoc, ← events]
    rfl
  -- the load has told nothing, so what is told is the reply's
  rw [told_of_events c s after, List.filterMap_append, none, Event.filterMap_diagnosed,
    List.nil_append]

/-- A question that ends in a failure tells nothing. -/
theorem told_of_failure {e : OsError}
    (loads : Loads s.host c.schemaFile s.memory (.error e) m) (q : Question) :
    (s.performReporting c q.step).1.told = [] := by
  rcases loads.events_eq with ⟨es, events, none⟩
  have after : (s.perform c q.step).2.memory.events = s.memory.events ++ es := by
    rw [perform_of_failure loads, fail, events]
  rw [told_of_events c s after, none]

end Session

end SchemaCompletion
