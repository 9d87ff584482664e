import SchemaCompletion.Proofs.Cache.Repetition

/-!
# Reloading

How often a run reads the file, and what becomes of the time of the kept snapshot.

* `Event.isReload`, `Session.events_after` — the readings that stand in the log of a run;
* `Session.Steady` — a stretch whose questions have the same schema path, without an invalidation;
* `Session.reloadTimes` — the times of the snapshots that a stretch has read;
* `Session.reload_step` — a step of a stretch keeps what was kept, or else something later;
* `Session.reloadTimes_increasing` — so the times increase along a stretch;
* `Session.reload_policy` — when questions read the file, in any run;
* `Session.kept_time_falls_after_switch` — what is kept from another path has no say.
-/

namespace SchemaCompletion

/-! ## Readings in the log -/

/-- The event is the beginning of a reading. -/
def Event.isReload : Event → Bool
  | .reloading _ => true
  | _ => false

/-- The readings of the memory stand in its log. -/
def Memory.Counted (m : Memory) : Prop := m.events.countP Event.isReload = m.loads

namespace Memory

variable {m : Memory}

theorem Counted.beginLoad (counted : m.Counted) (path : Path) : (m.beginLoad path).Counted := by
  have one : (m.events ++ [Event.reloading path]).countP Event.isReload = m.loads + 1 := by
    rw [List.countP_append, counted]
    rfl
  exact one

theorem Counted.append (counted : m.Counted) {es : List Event}
    (silent : es.countP Event.isReload = 0) :
    Memory.Counted { m with events := m.events ++ es } := by
  have same : (m.events ++ es).countP Event.isReload = m.loads := by
    rw [List.countP_append, silent, counted, Nat.add_zero]
  exact same

theorem Counted.beginParse (counted : m.Counted) (path : Path) (bytes : List UInt8) :
    (m.beginParse path bytes).Counted := by
  unfold Memory.beginParse
  split
  · exact counted.append rfl
  · exact counted

theorem Counted.tell (counted : m.Counted) (ds : List Diagnostic) : (m.tell ds).Counted := by
  refine counted.append ?_
  rw [List.countP_map, List.countP_eq_zero]
  exact fun _ _ => Bool.false_ne_true

end Memory

/-- A load notes in the log that it reads the file. -/
theorem Loads.counted {h : Host} {schemaFile : String} {m m' : Memory}
    {result : Except OsError (Except Unavailable Snapshot)}
    (loads : Loads h schemaFile m result m') (counted : m.Counted) : m'.Counted := by
  cases loads with
  | unreadable located outdated content =>
      exact counted.beginLoad _
  | unparsable located outdated content parsed =>
      exact (counted.beginLoad _).beginParse _ _
  | reloaded located outdated content parsed =>
      exact (counted.beginLoad _).beginParse _ _
  | _ =>
      exact counted

namespace Session

variable {c : Configuration} {s : Session} {m : Memory}
  {result : Except OsError (Except Unavailable Snapshot)}

theorem counted_perform (counted : s.memory.Counted) (step : Step) :
    (s.perform c step).2.memory.Counted := by
  rcases memory_perform c s step with
    ⟨-, -, memory⟩ | ⟨-, memory⟩ | ⟨q, result, m, ds, -, loads, memory⟩
  · rw [memory]
    exact counted
  · rw [memory]
    exact counted
  · rw [memory]
    exact (loads.counted counted).tell ds

theorem counted_after (counted : s.memory.Counted) (steps : List Step) :
    (s.after c steps).memory.Counted := by
  induction steps generalizing s with
  | nil =>
      exact counted
  | cons step steps ih =>
      exact ih (counted_perform counted step)

/-- The log only grows. -/
theorem events_perform (c : Configuration) (s : Session) (step : Step) :
    (s.perform c step).2.memory.events =
      s.memory.events ++ (s.performReporting c step).1.events := by
  have grows : ∃ es, (s.perform c step).2.memory.events = s.memory.events ++ es := by
    rcases memory_perform c s step with
      ⟨-, -, memory⟩ | ⟨-, memory⟩ | ⟨q, result, m, ds, -, loads, memory⟩
    · rw [memory]
      exact ⟨[], (List.append_nil _).symm⟩
    · rw [memory]
      exact ⟨[], (List.append_nil _).symm⟩
    · rcases loads.events_eq with ⟨es, events, -⟩
      refine ⟨es ++ ds.map .diagnosed, ?_⟩
      rw [memory, ← List.append_assoc, ← events]
      rfl
  rcases grows with ⟨es, events⟩
  simp only [performReporting, events, List.drop_left]

/-- The log of a run is put together from its reports. -/
theorem events_after (c : Configuration) (s : Session) (steps : List Step) :
    (s.after c steps).memory.events = s.memory.events ++ (s.run c steps).1.flatMap (·.events) := by
  induction steps generalizing s with
  | nil =>
      exact (List.append_nil _).symm
  | cons step steps ih =>
      have rest := ih (s.perform c step).2
      rw [events_perform, List.append_assoc] at rest
      exact rest

/-! ## Stretches -/

/-- No step is an invalidation, and wherever a question has a schema path, it is the same. -/
structure Steady (c : Configuration) (s : Session) (path : Path) (steps : List Step) : Prop where
  uninterrupted : .invalidate ∉ steps
  resolved : ∀ h ∈ s.host.atQuestions steps, ∀ path', h.schemaPath c.schemaFile = .ok path' →
    path' = path

variable {path : Path} {step : Step} {steps : List Step}

theorem Steady.tail (steady : s.Steady c path (step :: steps)) :
    (s.perform c step).2.Steady c path steps where
  uninterrupted := fun mem => steady.uninterrupted (List.mem_cons_of_mem _ mem)
  resolved := by
    intro h mem
    rw [host_perform] at mem
    exact steady.resolved h (List.mem_append_right _ mem)

theorem Steady.head (steady : s.Steady c path (step :: steps)) (asks : step.question? ≠ none)
    {path' : Path} (resolved : s.host.schemaPath c.schemaFile = .ok path') : path' = path := by
  rcases Option.ne_none_iff_exists'.1 asks with ⟨q, asked⟩
  have mem : s.host ∈ s.host.atQuestions (step :: steps) :=
    List.mem_append_left _ (by simp [asked])
  exact steady.resolved s.host mem path' resolved

/-- The time of the snapshot that a step reads from the file, if it reads the file and finds a
schema there. -/
def reloadTime? (c : Configuration) (s : Session) (step : Step) : Option Int :=
  match step.question?, (Query.load s.host c.schemaFile).run.run s.memory with
  | some _, (.ok (.ok snapshot), m) =>
    if s.memory.loads < m.loads then some snapshot.modified else none
  | _, _ => none

/-- The times of the snapshots that a run reads, in order. -/
def reloadTimes (c : Configuration) (s : Session) : List Step → List Int
  | [] => []
  | step :: steps => (s.reloadTime? c step).toList ++ reloadTimes c (s.perform c step).2 steps

theorem reloadTime?_question (loads : Loads s.host c.schemaFile s.memory result m) (q : Question) :
    s.reloadTime? c q.step =
      match result with
      | .ok (.ok snapshot) => if s.memory.loads < m.loads then some snapshot.modified else none
      | _ => none := by
  simp only [reloadTime?, Question.question?_step, loads.run_eq]
  rcases result with e | u | snapshot
  · rfl
  · rfl
  · rfl

/-- A question reads a snapshot from the file if it has to read the file and there is a schema. -/
theorem reloadTime?_isSome_iff (q : Question) :
    (s.reloadTime? c q.step).isSome = true ↔ s.MustReload c ∧ s.HasSchema c := by
  rcases exists_loads s.host c.schemaFile s.memory with ⟨result, m, loads⟩
  rcases loads_of_loads loads with ⟨read, unread⟩
  rw [reloadTime?_question loads q]
  by_cases schema : s.HasSchema c
  · rcases schema.found loads with ⟨snapshot, rfl⟩
    by_cases reloads : s.MustReload c
    · simp [read reloads, schema, reloads]
    · simp [unread reloads, reloads]
  · rcases result with e | u | snapshot
    · simp [schema]
    · simp [schema]
    · exact absurd (hasSchema_of_found loads) schema

/-- A step of a stretch keeps what was kept, or else a snapshot that it has read from the path of
the stretch. What was kept from that path is then older. -/
theorem reload_step (steady : s.Steady c path (step :: steps)) :
    (s.reloadTime? c step = none ∧ (s.perform c step).2.memory.cached = s.memory.cached ∧
      (s.perform c step).2.memory.cachedPath = s.memory.cachedPath) ∨
    ∃ snapshot, s.reloadTime? c step = some snapshot.modified ∧
      (s.perform c step).2.memory.cached = some snapshot ∧
      (s.perform c step).2.memory.cachedPath = some path ∧
      ∀ kept, s.memory.cached = some kept → s.memory.cachedPath = some path →
        kept.modified < snapshot.modified := by
  rcases memory_perform c s step with
    ⟨silent, -, memory⟩ | ⟨rfl, -⟩ | ⟨q, result, m, ds, rfl, loads, memory⟩
  · have none : s.reloadTime? c step = none := by simp only [reloadTime?, silent]
    exact .inl ⟨none, congrArg Memory.cached memory, congrArg Memory.cachedPath memory⟩
  · exact absurd List.mem_cons_self steady.uninterrupted
  · have onPath : ∀ {path'}, s.host.schemaPath c.schemaFile = .ok path' → path' = path :=
      fun resolved => steady.head (by simp) resolved
    have time := reloadTime?_question loads q
    rw [time, memory, Memory.cached_tell, Memory.cachedPath_tell]
    cases loads with
    | current located counts =>
        exact .inl ⟨if_neg (Nat.lt_irrefl _), rfl, rfl⟩
    | @reloaded path' modified bytes snapshot located outdated content parsed =>
        cases onPath located.resolved
        -- the new snapshot has the time at which the kept one was found to be older
        rcases Snapshot.ofBytes_eq_ok_iff.1 parsed with ⟨-, rfl, -⟩
        have more := (loads_of_loads (.reloaded located outdated content parsed)).1
          (mustReload_iff.2 ⟨_, _, located, outdated⟩)
        exact .inr ⟨snapshot, if_pos (by omega), rfl, rfl,
          Memory.current?_eq_none_iff.1 outdated⟩
    | _ =>
        exact .inl ⟨rfl, by simp, by simp⟩

/-- Along a stretch every snapshot that is read is later than those before, and than what was kept
from the same path. -/
theorem reloadTimes_increasing (steady : s.Steady c path steps) :
    (s.reloadTimes c steps).Pairwise (· < ·) ∧
      ∀ kept, s.memory.cached = some kept → s.memory.cachedPath = some path →
        ∀ time ∈ s.reloadTimes c steps, kept.modified < time := by
  -- by induction on the stretch: what its first step keeps is older than all that is read later
  induction steps generalizing s with
  | nil =>
      exact ⟨.nil, by simp [reloadTimes]⟩
  | cons step steps ih =>
      rcases ih steady.tail with ⟨increasing, later⟩
      rw [reloadTimes]
      rcases reload_step steady with ⟨none, cached, cachedPath⟩ |
        ⟨snapshot, some, cached, cachedPath, older⟩
      · rw [none]
        rw [cached, cachedPath] at later
        exact ⟨increasing, later⟩
      · have all := later snapshot cached cachedPath
        rw [some, Option.toList_some, List.singleton_append]
        refine ⟨List.pairwise_cons.2 ⟨all, increasing⟩, fun kept cached cachedPath => ?_⟩
        rw [List.forall_mem_cons]
        have first := older kept cached cachedPath
        exact ⟨first, fun time mem => Int.lt_trans first (all time mem)⟩

/-- After a stretch that has read no snapshot the same is kept as before, and else what was read
last. -/
theorem cached_after_stretch (steady : s.Steady c path steps) :
    (s.reloadTimes c steps = [] → (s.after c steps).memory.cached = s.memory.cached ∧
      (s.after c steps).memory.cachedPath = s.memory.cachedPath) ∧
    ∀ time, (s.reloadTimes c steps).getLast? = some time →
      ∃ kept, (s.after c steps).memory.cached = some kept ∧
        (s.after c steps).memory.cachedPath = some path ∧ kept.modified = time := by
  induction steps generalizing s with
  | nil =>
      exact ⟨fun _ => ⟨rfl, rfl⟩, by simp [reloadTimes]⟩
  | cons step steps ih =>
      rcases ih steady.tail with ⟨unread, read⟩
      rw [reloadTimes]
      rcases reload_step steady with ⟨none, cached, cachedPath⟩ |
        ⟨snapshot, some, cached, cachedPath, -⟩
      · rw [none]
        rw [cached, cachedPath] at unread
        exact ⟨unread, read⟩
      · rw [some, Option.toList_some, List.singleton_append]
        refine ⟨by simp, fun time last => ?_⟩
        -- this is the last one if nothing is read after it
        cases times : reloadTimes c (s.perform c step).2 steps with
        | nil =>
            rcases unread times with ⟨same, samePath⟩
            rw [times] at last
            cases last
            exact ⟨snapshot, same.trans cached, samePath.trans cachedPath, rfl⟩
        | cons next times' =>
            rw [times, List.getLast?_cons_cons] at last
            exact read time (by rw [times]; exact last)

/-- What is kept from the path of a stretch only gives way to something later. -/
theorem kept_time_increasing (steady : s.Steady c path steps) {kept : Snapshot}
    (cached : s.memory.cached = some kept) (cachedPath : s.memory.cachedPath = some path) :
    ∃ later, (s.after c steps).memory.cached = some later ∧
      (s.after c steps).memory.cachedPath = some path ∧ kept.modified ≤ later.modified := by
  rcases cached_after_stretch steady with ⟨unread, read⟩
  cases last : (s.reloadTimes c steps).getLast? with
  | none =>
      rcases unread (List.getLast?_eq_none_iff.1 last) with ⟨same, samePath⟩
      exact ⟨kept, same.trans cached, samePath.trans cachedPath, Int.le_refl _⟩
  | some time =>
      rcases read time last with ⟨later, now, nowPath, rfl⟩
      have mem := List.mem_of_getLast? last
      have earlier := (reloadTimes_increasing steady).2 kept cached cachedPath _ mem
      exact ⟨later, now, nowPath, Int.le_of_lt earlier⟩

/-! ## After an invalidation -/

/-- Where nothing is kept, only a question that gets as far as the time of the file can keep
something. -/
theorem cached_none_perform (nothing : s.memory.cached = none)
    (lost : step.question? ≠ none → ∀ path modified, ¬ s.host.Located c.schemaFile path modified) :
    (s.perform c step).2.memory.cached = none := by
  rcases memory_perform c s step with
    ⟨-, -, memory⟩ | ⟨-, memory⟩ | ⟨q, result, m, ds, rfl, loads, memory⟩
  · rw [memory]
    exact nothing
  · rw [memory]
    rfl
  · have notFound : ∀ snapshot, result ≠ .ok (.ok snapshot) := by
      rintro snapshot rfl
      rcases loads.counts_of_found with ⟨path, modified, located, -⟩
      exact lost (by simp) path modified located
    rw [memory, Memory.cached_tell, (loads.cached_of_not_found notFound).1]
    exact nothing

theorem cached_none_after (nothing : s.memory.cached = none)
    (lost : ∀ h ∈ s.host.atQuestions steps, ∀ path modified,
      ¬ h.Located c.schemaFile path modified) :
    (s.after c steps).memory.cached = none := by
  induction steps generalizing s with
  | nil =>
      exact nothing
  | cons step steps ih =>
      have first : (s.perform c step).2.memory.cached = none := by
        refine cached_none_perform nothing fun asks => lost s.host ?_
        rcases Option.ne_none_iff_exists'.1 asks with ⟨q, asked⟩
        exact List.mem_append_left _ (by simp [asked])
      have rest : ∀ h ∈ (s.perform c step).2.host.atQuestions steps, ∀ path modified,
          ¬ h.Located c.schemaFile path modified := by
        rw [host_perform]
        exact fun h mem => lost h (List.mem_append_right _ mem)
      exact ih first rest

/-! ## The policy -/

/-- A question reads the file once if it exists and has a time, and nothing is kept, or something
from another path, or something older; else it does not read it. In any run the file has been read
as often as the log says. Along a stretch without an invalidation whose questions have the same
schema path, each snapshot that is read is later than the one read before, and later than what was
kept from that path when the stretch began; from then on, or else from the first snapshot that is
read, what is kept only gives way to something later, and until then the same is kept as before the
stretch. Questions that are put again while nothing changes show the same; if there is a schema they
do not read the file, and if the file had to be read and has no schema, each of them reads it once.
After an invalidation, the first question that gets as far as the time of the file reads it. -/
theorem reload_policy (c : Configuration) (h : Host) (before : List Step) :
    let s := (start h).after c before
    (∀ q : Question,
      (s.MustReload c → (s.perform c q.step).2.memory.loads = s.memory.loads + 1) ∧
      (¬ s.MustReload c → (s.perform c q.step).2.memory.loads = s.memory.loads)) ∧
    (((start h).run c before).1.flatMap (·.events)).countP Event.isReload = s.memory.loads ∧
    (∀ q : Question, (s.reloadTime? c q.step).isSome = true ↔ s.MustReload c ∧ s.HasSchema c) ∧
    (∀ path steps, s.Steady c path steps →
      (s.reloadTimes c steps).Pairwise (· < ·) ∧
      (∀ kept, s.memory.cached = some kept → s.memory.cachedPath = some path →
        (∀ time ∈ s.reloadTimes c steps, kept.modified < time) ∧
        ∃ later, (s.after c steps).memory.cached = some later ∧
          (s.after c steps).memory.cachedPath = some path ∧ kept.modified ≤ later.modified) ∧
      (s.reloadTimes c steps = [] → (s.after c steps).memory.cached = s.memory.cached ∧
        (s.after c steps).memory.cachedPath = s.memory.cachedPath) ∧
      ∀ time, (s.reloadTimes c steps).getLast? = some time →
        ∃ kept, (s.after c steps).memory.cached = some kept ∧
          (s.after c steps).memory.cachedPath = some path ∧ kept.modified = time) ∧
    (∀ (q : Question) (steps : List Step), (∀ step ∈ steps, step.isQuiet = true) →
      let t := (s.perform c q.step).2
      (∀ q' : Question,
        ((t.after c steps).performReporting c q'.step).1.outcome =
            (s.performReporting c q'.step).1.outcome ∧
          ((t.after c steps).performReporting c q'.step).1.told =
            (s.performReporting c q'.step).1.told) ∧
      (s.HasSchema c → (t.after c steps).memory.loads = t.memory.loads) ∧
      (s.MustReload c → ¬ s.HasSchema c → (t.after c steps).memory.loads =
        t.memory.loads + steps.countP (·.question?.isSome))) ∧
    ∀ steps : List Step,
      (∀ h' ∈ s.host.atQuestions steps, ∀ path modified, ¬ h'.Located c.schemaFile path modified) →
      let later := (s.perform c .invalidate).2.after c steps
      ∀ path modified, later.host.Located c.schemaFile path modified → later.MustReload c := by
  intro s
  refine ⟨loads_question c s, ?_, reloadTime?_isSome_iff, ?_, ?_, ?_⟩
  · have fresh : (start h).memory.Counted := rfl
    have counted : s.memory.Counted := counted_after fresh before
    have events : s.memory.events = ((start h).run c before).1.flatMap (·.events) :=
      events_after c (start h) before
    rw [← events]
    exact counted
  · intro path steps steady
    refine ⟨(reloadTimes_increasing steady).1, fun kept cached cachedPath => ⟨?_, ?_⟩,
      cached_after_stretch steady⟩
    · exact (reloadTimes_increasing steady).2 kept cached cachedPath
    · exact kept_time_increasing steady cached cachedPath
  · intro q steps quiet
    exact question_again c s q quiet
  · intro steps lost later path modified located
    have nothing : later.memory.cached = none := by
      refine cached_none_after rfl ?_
      rw [host_perform]
      exact lost
    exact ⟨path, modified, located, .inl nothing⟩

/-- After a first question the file is written three times, once with a text that is cut short: it
is read once each time, and the schemas that are read have times in order. -/
theorem reload_policy_over_writes :
    let c : Configuration := { schemaFile := "schema.graphql", dialect := .java }
    let path : Path := { anchor := .root, parts := ["ws", "schema.graphql"] }
    let h := Host.withSchema "type A { a: Int }".toUTF8.toList 1
    let s := (start h).after c [.types]
    let steps : List Step := [.write path "type".toUTF8.toList 2, .types,
      .write path "type B { b: Int }".toUTF8.toList 3, .types, .snapshot,
      .write path "type C { c: Int }".toUTF8.toList 4, .snapshot]
    s.Steady c path steps ∧ s.reloadTimes c steps = [3, 4] ∧
      (s.reloadTimes c steps).Pairwise (· < ·) ∧ (s.after c steps).memory.loads = 4 ∧
      ∃ kept, (s.after c steps).memory.cached = some kept ∧ kept.modified = 4 := by
  intro c path h s steps
  have onPath : ∀ h' ∈ s.host.atQuestions steps, h'.schemaPath c.schemaFile = .ok path := by
    decide +kernel
  have steady : s.Steady c path steps := by
    refine ⟨by simp [steps], fun h' mem path' resolved => ?_⟩
    exact Except.ok.inj (resolved.symm.trans (onPath h' mem))
  have times : s.reloadTimes c steps = [3, 4] := by decide +kernel
  have loads : (s.after c steps).memory.loads = 4 := by decide +kernel
  have policy := (reload_policy c h [.types]).2.2.2.1 path steps steady
  rw [show (start h).after c [.types] = s from rfl] at policy
  rcases policy with ⟨increasing, -, -, last⟩
  have fourth : (s.reloadTimes c steps).getLast? = some 4 := congrArg List.getLast? times
  rcases last 4 fourth with ⟨kept, cached, -, time⟩
  exact ⟨steady, times, increasing, loads, kept, cached, time⟩

/-- A stretch begins with what was kept from another workspace at a later time. Its first question
fails, so that is still kept; its second question finds a schema with an earlier time. -/
theorem kept_time_falls_after_switch :
    let c : Configuration := { schemaFile := "schema.graphql", dialect := .java }
    let path : Path := { anchor := .root, parts := ["two", "schema.graphql"] }
    let one : Workspace := { name := "one", root := some { anchor := .root, parts := ["one"] } }
    let two : Workspace := { name := "two", root := some { anchor := .root, parts := ["two"] } }
    let h : Host :=
      { storage :=
          { entries := [(["one"], .directory 0),
              (["one", "schema.graphql"], .file "type A { a: Int }".toUTF8.toList 0),
              (["two"], .directory 0), (["two", "schema.graphql"], .file "type".toUTF8.toList 0)] }
        clock := .fixed 10
        workspace := some one }
    let s := (start h).after c [.snapshot, .setWorkspace (some two), .setClock (.fixed 5)]
    let first : List Step := [.snapshot]
    let second : List Step := [.write path "type B { b: Int }".toUTF8.toList 0, .snapshot]
    .invalidate ∉ first ++ second ∧
      (∀ h' ∈ s.host.atQuestions (first ++ second), h'.schemaPath c.schemaFile = .ok path) ∧
      ¬ ∀ kept later, (s.after c first).memory.cached = some kept →
        (s.after c (first ++ second)).memory.cached = some later →
          kept.modified ≤ later.modified := by
  intro c path one two h s first second
  have early : (s.after c first).memory.cached.map (·.modified) = some 10 := by decide +kernel
  have late : (s.after c (first ++ second)).memory.cached.map (·.modified) = some 5 := by
    decide +kernel
  rcases Option.map_eq_some_iff.1 early with ⟨kept, before, ten⟩
  rcases Option.map_eq_some_iff.1 late with ⟨later, after, five⟩
  refine ⟨by simp [first, second], by decide +kernel, fun increasing => ?_⟩
  have notLater := increasing kept later before after
  rw [ten, five] at notLater
  exact absurd notLater (by decide)

end Session

end SchemaCompletion
