import SchemaCompletion.Proofs.Cache.Run

/-!
# Provenance

Where the kept snapshot comes from, after any run.

* `Host.Gives` — at some surroundings the schema file gives a snapshot;
* `Remembers` — a memory that keeps nothing, or a snapshot that some surroundings of the past gave;
* `Loads.remembers` — a load adds the present surroundings to that past, however it goes;
* `Session.remembers_after` — every memory that a run reaches remembers the questions since the last
  invalidation;
* `Host.Obtained` — a snapshot that a run has read since the last invalidation;
* `Session.gives_of_loads` — what a question uses was given at the path of the present schema;
* `Session.cache_provenance` — the kept snapshot and the snapshots that questions use are obtained
  so.
-/

namespace SchemaCompletion

/-- At the surroundings, the schema file of the active workspace lies at a path, has the time of a
snapshot, and its bytes are parsed into just that snapshot. -/
structure Host.Gives (h : Host) (schemaFile : String) (path : Path) (s : Snapshot) : Prop where
  located : h.Located schemaFile path s.modified
  content : ∃ bytes, h.storage.read path = .ok bytes ∧
    Snapshot.ofBytes path.toString s.modified bytes = .ok s

/-- The memory keeps nothing, or what some surroundings of the past gave, with the path. -/
inductive Remembers (schemaFile : String) (past : List Host) (m : Memory) : Prop where
  | nothing (noSnapshot : m.cached = none) (noPath : m.cachedPath = none)
  | snapshot {h : Host} {path : Path} {s : Snapshot} (cached : m.cached = some s)
      (cachedPath : m.cachedPath = some path) (mem : h ∈ past) (gives : h.Gives schemaFile path s)

section

variable {schemaFile : String} {past : List Host} {m m' : Memory} {h : Host}

theorem Host.Gives.source_eq {path : Path} {s : Snapshot} (gives : h.Gives schemaFile path s) :
    s.source = path.toString := by
  rcases gives.content with ⟨bytes, -, parsed⟩
  exact (Snapshot.ofBytes_eq_ok_iff.1 parsed).2.2

/-- Only what is kept counts. -/
theorem Remembers.congr (remembers : Remembers schemaFile past m)
    (cached : m'.cached = m.cached) (cachedPath : m'.cachedPath = m.cachedPath) :
    Remembers schemaFile past m' := by
  cases remembers with
  | nothing noSnapshot noPath =>
      exact .nothing (cached.trans noSnapshot) (cachedPath.trans noPath)
  | snapshot hs hp mem gives =>
      exact .snapshot (cached.trans hs) (cachedPath.trans hp) mem gives

theorem Remembers.mono {past' : List Host} (remembers : Remembers schemaFile past m)
    (sub : ∀ h ∈ past, h ∈ past') : Remembers schemaFile past' m := by
  cases remembers with
  | nothing noSnapshot noPath =>
      exact .nothing noSnapshot noPath
  | snapshot hs hp mem gives =>
      exact .snapshot hs hp (sub _ mem) gives

/-- The snapshot and the path are kept together. -/
theorem Remembers.cached_eq_none_iff (remembers : Remembers schemaFile past m) :
    m.cached = none ↔ m.cachedPath = none := by
  cases remembers with
  | nothing noSnapshot noPath =>
      simp [noSnapshot, noPath]
  | snapshot hs hp mem gives =>
      simp [hs, hp]

theorem Remembers.gives {path : Path} {s : Snapshot} (remembers : Remembers schemaFile past m)
    (cached : m.cached = some s) (cachedPath : m.cachedPath = some path) :
    ∃ h ∈ past, h.Gives schemaFile path s := by
  cases remembers with
  | nothing noSnapshot noPath =>
      simp [noSnapshot] at cached
  | snapshot hs hp mem gives =>
      cases hs.symm.trans cached
      cases hp.symm.trans cachedPath
      exact ⟨_, mem, gives⟩

/-- A load adds the present surroundings to the past, however it goes. -/
theorem Loads.remembers {result : Except OsError (Except Unavailable Snapshot)}
    (remembers : Remembers schemaFile past m) (loads : Loads h schemaFile m result m') :
    Remembers schemaFile (past ++ [h]) m' := by
  have before : Remembers schemaFile (past ++ [h]) m :=
    remembers.mono fun _ mem => List.mem_append_left _ mem
  cases loads with
  | @reloaded path modified bytes s located outdated content parsed =>
      -- the one case in which something else is kept
      have time : s.modified = modified := (Snapshot.ofBytes_eq_ok_iff.1 parsed).2.1
      subst time
      exact .snapshot rfl rfl (by simp) ⟨located, bytes, content, parsed⟩
  | _ =>
      exact before.congr (by simp) (by simp)

end

namespace Session

variable (c : Configuration)

/-- One step that is no invalidation keeps the memory true to the past questions. -/
theorem remembers_perform {s : Session} {past : List Host} {step : Step}
    (remembers : Remembers c.schemaFile past s.memory) (kept : step ≠ .invalidate) :
    Remembers c.schemaFile (past ++ s.host.atQuestions [step]) (s.perform c step).2.memory := by
  rcases memory_perform c s step with
    ⟨silent, -, memory⟩ | ⟨clears, -⟩ | ⟨q, result, m, ds, rfl, loads, memory⟩
  · rw [memory, Host.atQuestions_of_no_question _ silent, List.append_nil]
    exact remembers
  · exact absurd clears kept
  · rw [memory, Host.atQuestions_question]
    exact (loads.remembers remembers).congr rfl rfl

/-- Every memory that a run reaches remembers the questions since the last invalidation. -/
theorem remembers_after (h : Host) (steps : List Step) :
    ∃ before later, steps = before ++ later ∧ .invalidate ∉ later ∧
      Remembers c.schemaFile ((h.afterAll before).atQuestions later)
        ((start h).after c steps).memory := by
  -- from the end of the run: an invalidation starts the past anew, any other step prolongs it
  induction steps using List.reverseRecOn with
  | nil =>
      exact ⟨[], [], rfl, List.not_mem_nil, .nothing rfl rfl⟩
  | append_singleton steps step ih =>
      rcases ih with ⟨before, later, rfl, uninterrupted, remembers⟩
      rw [after_concat]
      by_cases kept : step = .invalidate
      · subst kept
        exact ⟨before ++ later ++ [.invalidate], [], by simp, List.not_mem_nil, .nothing rfl rfl⟩
      · refine ⟨before, later ++ [step], by simp, ?_, ?_⟩
        · simp only [List.mem_append, List.mem_singleton, not_or]
          exact ⟨uninterrupted, fun same => kept same.symm⟩
        · have present : ((start h).after c (before ++ later)).host =
              (h.afterAll before).afterAll later := by
            rw [host_after, Host.afterAll, List.foldl_append]
            rfl
          rw [Host.atQuestions_append, ← present]
          exact remembers_perform c remembers kept

end Session

/-! ## Origins in a run -/

/-- In a run of steps from some surroundings, the schema file gave a snapshot at a path, at a
question that no invalidation has followed. -/
def Host.Obtained (h : Host) (schemaFile : String) (steps : List Step) (path : Path)
    (s : Snapshot) :
    Prop :=
  ∃ before q later, steps = before ++ Question.step q :: later ∧ .invalidate ∉ later ∧
    (h.afterAll before).Gives schemaFile path s

namespace Session

variable (c : Configuration)

/-- What a run keeps, it has obtained. -/
theorem obtained_of_cached {h : Host} {steps : List Step} {path : Path} {s : Snapshot}
    (cached : ((start h).after c steps).memory.cached = some s)
    (cachedPath : ((start h).after c steps).memory.cachedPath = some path) :
    h.Obtained c.schemaFile steps path s := by
  rcases remembers_after c h steps with ⟨before, later, rfl, uninterrupted, remembers⟩
  rcases remembers.gives cached cachedPath with ⟨h', mem, gives⟩
  -- those surroundings are the ones at a question, which splits the run
  rcases Host.mem_atQuestions_iff.1 mem with ⟨between, q, rest, rfl, rfl⟩
  refine ⟨before ++ between, q, rest, by simp, ?_, ?_⟩
  · intro mem
    exact uninterrupted (by simp [mem])
  · rw [Host.afterAll, List.foldl_append]
    exact gives

theorem cached_eq_none_iff (h : Host) (steps : List Step) :
    ((start h).after c steps).memory.cached = none ↔
      ((start h).after c steps).memory.cachedPath = none := by
  rcases remembers_after c h steps with ⟨before, later, -, -, remembers⟩
  exact remembers.cached_eq_none_iff

/-- What a question uses after a run, some surroundings gave at the path of the schema in the
present workspace. -/
theorem gives_of_loads {h : Host} {steps : List Step} {m : Memory} {snapshot : Snapshot}
    (loads : Loads ((start h).after c steps).host c.schemaFile ((start h).after c steps).memory
      (.ok (.ok snapshot)) m) :
    ∃ path, ∃ h' : Host, ((start h).after c steps).host.schemaPath c.schemaFile = .ok path ∧
      h'.Gives c.schemaFile path snapshot := by
  rcases remembers_after c h steps with ⟨before, later, -, -, remembers⟩
  rcases loads.counts_of_found with ⟨path, modified, located, counts⟩
  rcases Memory.current?_eq_some_iff.1 counts with ⟨cached, cachedPath, -⟩
  rcases (loads.remembers remembers).gives cached cachedPath with ⟨h', -, gives⟩
  exact ⟨path, h', located.resolved, gives⟩

/-- After any run the snapshot and its path are kept together, and come from a question since the
last invalidation, at which the schema file lay at that path, had the time of the snapshot, and was
parsed into it. Any further question fails, says why there is no schema, or uses a snapshot that was
obtained from the very path of the schema in the present workspace. -/
theorem cache_provenance (h : Host) (steps : List Step) :
    let s := (start h).after c steps
    (s.memory.cached = none ↔ s.memory.cachedPath = none) ∧
    (∀ snapshot path, s.memory.cached = some snapshot → s.memory.cachedPath = some path →
      snapshot.source = path.toString ∧ h.Obtained c.schemaFile steps path snapshot) ∧
    ∀ q : Question,
      (∃ e m, s.perform c q.step = s.fail m e) ∨
      (∃ u m, s.perform c q.step = s.settle m (q.reply c (.error u))) ∨
      ∃ snapshot path m, s.perform c q.step = s.settle m (q.reply c (.ok snapshot)) ∧
        s.host.schemaPath c.schemaFile = .ok path ∧ snapshot.source = path.toString ∧
        h.Obtained c.schemaFile (steps ++ [q.step]) path snapshot := by
  intro s
  refine ⟨cached_eq_none_iff c h steps, ?_, ?_⟩
  · intro snapshot path cached cachedPath
    have obtained := obtained_of_cached c cached cachedPath
    rcases obtained with ⟨before, q, later, split, uninterrupted, gives⟩
    exact ⟨gives.source_eq, before, q, later, split, uninterrupted, gives⟩
  · intro q
    rcases exists_loads s.host c.schemaFile s.memory with ⟨e | u | snapshot, m, loads⟩
    · exact .inl ⟨e, m, perform_of_failure loads q⟩
    · exact .inr (.inl ⟨u, m, perform_of_found loads q⟩)
    · rcases loads.counts_of_found with ⟨path, modified, located, counts⟩
      rcases Memory.current?_eq_some_iff.1 counts with ⟨cached, cachedPath, -⟩
      -- after the question, what it has used is what is kept
      have next : ((start h).after c (steps ++ [q.step])).memory =
          m.tell (q.reply c (.ok snapshot)).told := by
        rw [after_concat, perform_of_found loads, settle, memory_openIterator]
      have obtained : h.Obtained c.schemaFile (steps ++ [q.step]) path snapshot :=
        obtained_of_cached c (by rw [next]; exact cached) (by rw [next]; exact cachedPath)
      rcases obtained with ⟨before, q', later, split, uninterrupted, gives⟩
      exact .inr (.inr ⟨snapshot, path, m, perform_of_found loads q, located.resolved,
        gives.source_eq, before, q', later, split, uninterrupted, gives⟩)

end Session

end SchemaCompletion
