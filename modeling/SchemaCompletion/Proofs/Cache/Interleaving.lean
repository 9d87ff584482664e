import SchemaCompletion.Proofs.Cache.Reply
import SchemaCompletion.Proofs.Overwriting

/-!
# Interleaving

Loads in three stages, and a program that writes to the schema file in between.

* `Stage` — what a load in progress knows of the file;
* `Shared` — the surroundings, the memory, the load in progress and the answers so far;
* `Move`, `Shared.move` — what can happen next: a stage of a load, an invalidation, or a write that
  gives the file a later time;
* `Shared.run_undisturbed` — three stages with nothing in between are the load of a question;
* `Host.Serves` — the schema file has certain bytes and a certain time;
* `Shared.Consistent` — what is known of the file is not newer than it, and is right if it is as
  new;
* `Shared.no_lost_update` — so it stays, and loads without a write in between give the content of
  the file.
-/

namespace SchemaCompletion

/-! ## Loads in stages -/

/-- How far a load has come: it has asked the time of the file, and then fetched the bytes. One load
at a time has the lock. -/
inductive Stage where
  | idle
  | asked (path : Path) (modified : Int)
  | fetched (path : Path) (modified : Int) (bytes : List UInt8)
  deriving DecidableEq, Repr

/-- What a load comes to. -/
abbrev Loaded := Except OsError (Except Unavailable Snapshot)

/-- What the loads and the writing program share. -/
structure Shared where
  host : Host
  memory : Memory
  stage : Stage
  answers : List Loaded

/-- One thing that can happen. -/
inductive Move where
  | write (bytes : List UInt8) (modified : Int)
  | ask
  | read
  | store
  | invalidate
  deriving DecidableEq, Repr

/-- The move changes the file. -/
def Move.isWrite : Move → Bool
  | .write .. => true
  | _ => false

namespace Shared

/-- Before the first move. -/
def start (host : Host) : Shared :=
  { host, memory := .fresh, stage := .idle, answers := [] }

/-- The load in progress ends with an answer. -/
def finish (x : Shared) (m : Memory) (answer : Loaded) : Shared :=
  { x with memory := m, stage := .idle, answers := x.answers ++ [answer] }

/-- A load begins: the file is looked for and its time is asked, and the kept snapshot is the answer
if it counts. -/
def ask (schemaFile : String) (x : Shared) : Shared :=
  match x.host.locate schemaFile with
  | .error e => x.finish x.memory (.error e)
  | .ok (.error u) => x.finish x.memory (.ok (.error u))
  | .ok (.ok (path, modified)) =>
    match x.memory.current? path modified with
    | some s => x.finish x.memory (.ok (.ok s))
    | none => { x with memory := x.memory.beginLoad path, stage := .asked path modified }

def read (x : Shared) (path : Path) (modified : Int) : Shared :=
  match x.host.storage.read path with
  | .error e => x.finish x.memory (.error e)
  | .ok bytes => { x with stage := .fetched path modified bytes }

/-- The bytes are parsed, and the snapshot that they are is kept. -/
def store (x : Shared) (path : Path) (modified : Int) (bytes : List UInt8) : Shared :=
  let (result, m) := (Query.digest path modified bytes).run.run x.memory
  x.finish m (result.map (·.mapError Unavailable.unparsable))

/-- The file at a path is written if it gets a later time. -/
def write (path : Path) (x : Shared) (bytes : List UInt8) (modified : Int) : Shared :=
  match x.host.storage.modifiedAt path, x.host.storage.write path bytes modified with
  | .ok before, .ok storage =>
    if before < modified then { x with host := { x.host with storage } } else x
  | _, _ => x

/-- One move; a move that is not due changes nothing. -/
def move (schemaFile : String) (path : Path) (x : Shared) (move : Move) : Shared :=
  match move, x.stage with
  | .write bytes modified, _ => x.write path bytes modified
  | .ask, .idle => x.ask schemaFile
  | .read, .asked path modified => x.read path modified
  | .store, .fetched path modified bytes => x.store path modified bytes
  | .invalidate, .idle => { x with memory := x.memory.invalidate }
  | _, _ => x

/-- A sequence of moves. -/
def run (schemaFile : String) (path : Path) (x : Shared) (moves : List Move) : Shared :=
  moves.foldl (move schemaFile path) x

/-! ## A load with nothing in between -/

section

variable {schemaFile : String} {x : Shared} {path : Path} {modified : Int}

theorem ask_of_located (located : x.host.Located schemaFile path modified) :
    x.ask schemaFile =
      match x.memory.current? path modified with
      | some s => x.finish x.memory (.ok (.ok s))
      | none => { x with memory := x.memory.beginLoad path, stage := .asked path modified } := by
  simp only [ask, located.locate_eq]

theorem store_eq (bytes : List UInt8) :
    x.store path modified bytes =
      match Snapshot.ofBytes path.toString modified bytes with
      | .ok s => x.finish ((x.memory.beginParse path bytes).keep path s) (.ok (.ok s))
      | .error e => x.finish (x.memory.beginParse path bytes) (.ok (.error (.unparsable e))) := by
  simp only [store, Query.run_digest]
  cases Snapshot.ofBytes path.toString modified bytes with
  | error e =>
      rfl
  | ok s =>
      rfl

/-- The three stages of a load with nothing in between are the load of a question. -/
theorem run_undisturbed (path : Path) {result : Loaded} {m : Memory} (idle : x.stage = .idle)
    (loads : Loads x.host schemaFile x.memory result m) :
    x.run schemaFile path [.ask, .read, .store] = x.finish m result := by
  -- moves that are not due any more change nothing, so a load may end before its last stage
  rcases x with ⟨host, memory, stage, answers⟩
  cases idle
  simp only [run, List.foldl_cons, List.foldl_nil, move]
  cases loads with
  | unresolved resolved =>
      simp only [ask, Host.locate_of_unresolved resolved, finish]
  | untested resolved found =>
      simp only [ask, Host.locate_of_resolved resolved, found, finish]
  | missing resolved found =>
      simp only [ask, Host.locate_of_resolved resolved, found, finish]
  | untimed resolved found timed =>
      simp only [ask, Host.locate_of_resolved resolved, found, timed, Except.map, finish]
  | current located counts =>
      simp only [ask_of_located located, counts, finish]
  | unreadable located outdated content =>
      simp only [ask_of_located located, outdated, read, content, finish]
  | unparsable located outdated content parsed =>
      simp only [ask_of_located located, outdated, read, content, store_eq, parsed, finish]
  | reloaded located outdated content parsed =>
      simp only [ask_of_located located, outdated, read, content, store_eq, parsed, finish]

end

end Shared

/-! ## The file and what is known of it -/

/-- The schema lies at a path, where there is a file with certain bytes and a certain time, and
times are those of the files. -/
structure Host.Serves (h : Host) (schemaFile : String) (path : Path) (modified : Int)
    (bytes : List UInt8) : Prop where
  fromFiles : h.clock = .files
  resolved : h.schemaPath schemaFile = .ok path
  stored : h.storage.find path = .ok (some (.file bytes modified))

/-- What the bytes of a file are as a schema, or why they are none. -/
def schemaIn (path : Path) (modified : Int) (bytes : List UInt8) : Except Unavailable Snapshot :=
  (Snapshot.ofBytes path.toString modified bytes).mapError .unparsable

/-- A snapshot is not newer than a file, and if it is as new, it is what the bytes are. -/
def Snapshot.TrueTo (path : Path) (modified : Int) (bytes : List UInt8) (s : Snapshot) : Prop :=
  s.modified ≤ modified ∧
    (s.modified = modified → Snapshot.ofBytes path.toString modified bytes = .ok s)

/-- The time that a load has asked is not later than that of the file, and if it is the same, the
bytes that were fetched are the file's. -/
def Stage.TrueTo (path : Path) (modified : Int) (bytes : List UInt8) : Stage → Prop
  | .idle => True
  | .asked there time => there = path ∧ time ≤ modified
  | .fetched there time read => there = path ∧ time ≤ modified ∧ (time = modified → read = bytes)

/-- What a load in progress knows is the file as it is. -/
def Stage.Current (path : Path) (modified : Int) (bytes : List UInt8) : Stage → Prop
  | .idle => True
  | .asked there time => there = path ∧ time = modified
  | .fetched there time read => there = path ∧ time = modified ∧ read = bytes

/-- There is a schema file, and what is kept and what a load knows is true to it. -/
structure Shared.Consistent (schemaFile : String) (path : Path) (modified : Int)
    (bytes : List UInt8) (x : Shared) : Prop where
  serves : x.host.Serves schemaFile path modified bytes
  cached : ∀ s, x.memory.cached = some s → s.TrueTo path modified bytes
  stage : x.stage.TrueTo path modified bytes

section

variable {schemaFile : String} {path : Path} {modified : Int} {bytes : List UInt8}

theorem Host.Serves.located {h : Host} (serves : h.Serves schemaFile path modified bytes) :
    h.Located schemaFile path modified where
  resolved := serves.resolved
  found := Storage.contains_of_find serves.stored
  timed := by
    simp only [Host.modifiedAt, serves.fromFiles, Storage.modifiedAt_of_find serves.stored,
      Entry.modified]

/-- A file has one time and one content. -/
theorem Host.Serves.unique {h : Host} {modified' : Int} {bytes' : List UInt8}
    (serves : h.Serves schemaFile path modified bytes)
    (serves' : h.Serves schemaFile path modified' bytes') :
    modified' = modified ∧ bytes' = bytes := by
  have same := serves'.stored.symm.trans serves.stored
  simp only [Except.ok.injEq, Option.some.injEq, Entry.file.injEq] at same
  exact ⟨same.2, same.1⟩

/-- A kept snapshot that counts at the time of the file is what the file holds. -/
theorem Snapshot.TrueTo.schemaIn_eq {s : Snapshot} (known : s.TrueTo path modified bytes)
    (notLater : modified ≤ s.modified) : schemaIn path modified bytes = .ok s := by
  have same : s.modified = modified := Int.le_antisymm known.1 notLater
  simp only [schemaIn, known.2 same, mapError_ok]

/-- Nothing is known any more of a file that has got a later time. -/
theorem Snapshot.TrueTo.outdated {s : Snapshot} {time : Int} (known : s.TrueTo path modified bytes)
    (later : modified < time) (written : List UInt8) : s.TrueTo path time written := by
  have older : s.modified < time := Int.lt_of_le_of_lt known.1 later
  exact ⟨Int.le_of_lt older, fun same => absurd same (Int.ne_of_lt older)⟩

theorem Stage.TrueTo.outdated {stage : Stage} {time : Int}
    (known : stage.TrueTo path modified bytes) (later : modified < time) (written : List UInt8) :
    stage.TrueTo path time written := by
  cases stage with
  | idle =>
      trivial
  | asked there asked =>
      exact ⟨known.1, Int.le_of_lt (Int.lt_of_le_of_lt known.2 later)⟩
  | fetched there asked fetched =>
      have older : asked < time := Int.lt_of_le_of_lt known.2.1 later
      exact ⟨known.1, Int.le_of_lt older, fun same => absurd same (Int.ne_of_lt older)⟩

end

namespace Shared

section

variable {schemaFile : String} {path : Path} {modified : Int} {bytes : List UInt8} {x : Shared}

/-! ## One move -/

/-- At the start nothing is known of the file. -/
theorem consistent_start {h : Host} (serves : h.Serves schemaFile path modified bytes) :
    (start h).Consistent schemaFile path modified bytes where
  serves := serves
  cached := by
    intro s cached
    cases cached
  stage := True.intro

/-- If the kept snapshot counts now, it is what the file holds. -/
theorem Consistent.schemaIn_of_counts {s : Snapshot}
    (consistent : x.Consistent schemaFile path modified bytes)
    (counts : x.memory.current? path modified = some s) : schemaIn path modified bytes = .ok s := by
  rcases Memory.current?_eq_some_iff.1 counts with ⟨cached, -, notLater⟩
  exact (consistent.cached s cached).schemaIn_eq notLater

/-- A write leaves everything that is known true to the file, as it all becomes outdated. -/
theorem Consistent.write (consistent : x.Consistent schemaFile path modified bytes)
    (written : List UInt8) (time : Int) :
    ∃ modified bytes, (x.write path written time).Consistent schemaFile path modified bytes := by
  have stored := consistent.serves.stored
  rcases Storage.find_write stored written time with ⟨storage, succeeds, found⟩
  have asked : x.host.storage.modifiedAt path = .ok modified := Storage.modifiedAt_of_find stored
  simp only [Shared.write, asked, succeeds]
  -- with an earlier time or the same there is no write
  by_cases later : modified < time
  · rw [if_pos later]
    refine ⟨time, written, ⟨consistent.serves.fromFiles, consistent.serves.resolved, found⟩, ?_, ?_⟩
    · intro s cached
      exact (consistent.cached s cached).outdated later written
    · exact consistent.stage.outdated later written
  · rw [if_neg later]
    exact ⟨modified, bytes, consistent⟩

/-- A load that ends without keeping anything new changes nothing that is known. -/
theorem Consistent.finish (consistent : x.Consistent schemaFile path modified bytes) {m : Memory}
    (kept : m.cached = x.memory.cached) (answer : Loaded) :
    (x.finish m answer).Consistent schemaFile path modified bytes where
  serves := consistent.serves
  cached := by
    intro s cached
    exact consistent.cached s (kept.symm.trans cached)
  stage := True.intro

theorem Consistent.ask (consistent : x.Consistent schemaFile path modified bytes) :
    (x.ask schemaFile).Consistent schemaFile path modified bytes := by
  rw [ask_of_located consistent.serves.located]
  cases x.memory.current? path modified with
  | some s =>
      exact consistent.finish rfl _
  | none =>
      exact ⟨consistent.serves, consistent.cached, rfl, Int.le_refl _⟩

/-- The file is read after its time was asked: the bytes are at least as new as the time. -/
theorem Consistent.read {there : Path} {time : Int}
    (consistent : x.Consistent schemaFile path modified bytes)
    (asked : x.stage = .asked there time) :
    (x.read there time).Consistent schemaFile path modified bytes := by
  have known := consistent.stage
  rw [asked] at known
  rcases known with ⟨rfl, notLater⟩
  simp only [Shared.read, Storage.read_of_find consistent.serves.stored]
  exact ⟨consistent.serves, consistent.cached, rfl, notLater, fun _ => rfl⟩

/-- The snapshot gets the time that was asked before the reading. -/
theorem Consistent.store {there : Path} {time : Int} {fetched : List UInt8}
    (consistent : x.Consistent schemaFile path modified bytes)
    (progress : x.stage = .fetched there time fetched) :
    (x.store there time fetched).Consistent schemaFile path modified bytes := by
  have known := consistent.stage
  rw [progress] at known
  rcases known with ⟨rfl, notLater, content⟩
  rw [store_eq]
  cases parsed : Snapshot.ofBytes there.toString time fetched with
  | error e =>
      exact consistent.finish (Memory.cached_beginParse _ _ _) _
  | ok s =>
      refine ⟨consistent.serves, ?_, trivial⟩
      intro kept cached
      cases cached
      -- the time goes back to before the reading, so equal times mean
      -- that nothing was written since
      have dated : s.modified = time := (Snapshot.ofBytes_eq_ok_iff.1 parsed).2.1
      refine ⟨dated ▸ notLater, fun same => ?_⟩
      have current : time = modified := dated.symm.trans same
      rw [← content current, ← current]
      exact parsed

/-- Every move but a write leaves the file, and what is known stays true to it. -/
theorem Consistent.move_of_not_write (consistent : x.Consistent schemaFile path modified bytes)
    {move : Move} (quiet : move.isWrite = false) :
    (x.move schemaFile path move).Consistent schemaFile path modified bytes := by
  unfold Shared.move
  split
  · cases quiet
  · exact consistent.ask
  · next progress =>
      exact consistent.read progress
  · next progress =>
      exact consistent.store progress
  · refine ⟨consistent.serves, ?_, consistent.stage⟩
    intro s cached
    cases cached
  · exact consistent

/-- Every move leaves what is known true to the file. -/
theorem Consistent.move (consistent : x.Consistent schemaFile path modified bytes) (move : Move) :
    ∃ modified bytes, (x.move schemaFile path move).Consistent schemaFile path modified bytes := by
  cases move with
  | write written time =>
      exact consistent.write written time
  | _ =>
      exact ⟨modified, bytes, consistent.move_of_not_write rfl⟩

theorem Consistent.run (consistent : x.Consistent schemaFile path modified bytes)
    (moves : List Move) :
    ∃ modified bytes, (x.run schemaFile path moves).Consistent schemaFile path modified bytes := by
  -- by induction on the moves; the time and the bytes of the file go along
  induction moves generalizing x modified bytes with
  | nil =>
      exact ⟨modified, bytes, consistent⟩
  | cons move moves ih =>
      rcases consistent.move move with ⟨modified, bytes, next⟩
      exact ih next

/-! ## Answers -/

/-- A load with nothing in between gives what the file holds. -/
theorem Consistent.loads_eq {result : Loaded} {m : Memory}
    (consistent : x.Consistent schemaFile path modified bytes)
    (loads : Loads x.host schemaFile x.memory result m) :
    result = .ok (schemaIn path modified bytes) := by
  rcases loads.readAfresh_eq with same | ⟨there, time, s, located, counts, rfl⟩
  · rw [← same, Host.readAfresh_of_located consistent.serves.located,
      Storage.read_of_find consistent.serves.stored]
    rfl
  · rcases consistent.serves.located.unique located with ⟨rfl, rfl⟩
    rw [consistent.schemaIn_of_counts counts]

/-- Without a write, a load that knows the file as it is goes on to know it, and every answer is
what the file holds. -/
theorem Consistent.answers_move (consistent : x.Consistent schemaFile path modified bytes)
    (current : x.stage.Current path modified bytes) {move : Move} (quiet : move.isWrite = false) :
    (x.move schemaFile path move).stage.Current path modified bytes ∧
      ∃ more, (x.move schemaFile path move).answers = x.answers ++ more ∧
        ∀ answer ∈ more, answer = .ok (schemaIn path modified bytes) := by
  unfold Shared.move
  split
  · cases quiet
  · rw [ask_of_located consistent.serves.located]
    cases counts : x.memory.current? path modified with
    | some s =>
        have held := consistent.schemaIn_of_counts counts
        exact ⟨True.intro, [_], rfl, by simp [held]⟩
    | none =>
        exact ⟨⟨rfl, rfl⟩, [], by simp⟩
  · next progress =>
      rw [progress] at current
      rcases current with ⟨rfl, rfl⟩
      simp only [Shared.read, Storage.read_of_find consistent.serves.stored]
      exact ⟨⟨rfl, rfl, rfl⟩, [], by simp⟩
  · next progress =>
      rw [progress] at current
      rcases current with ⟨rfl, rfl, rfl⟩
      rw [store_eq]
      cases parsed : Snapshot.ofBytes _ _ _ with
      | error e =>
          exact ⟨trivial, [_], rfl, by simp [schemaIn, parsed]⟩
      | ok s =>
          exact ⟨trivial, [_], rfl, by simp [schemaIn, parsed]⟩
  · exact ⟨current, [], by simp⟩
  · exact ⟨current, [], by simp⟩

/-- Without a write, every answer is what the file holds. -/
theorem Consistent.answers_run (consistent : x.Consistent schemaFile path modified bytes)
    (current : x.stage.Current path modified bytes) {moves : List Move}
    (quiet : ∀ move ∈ moves, move.isWrite = false) :
    ∃ more, (x.run schemaFile path moves).answers = x.answers ++ more ∧
      ∀ answer ∈ more, answer = .ok (schemaIn path modified bytes) := by
  induction moves generalizing x with
  | nil =>
      exact ⟨[], by simp [Shared.run]⟩
  | cons move moves ih =>
      rw [List.forall_mem_cons] at quiet
      rcases consistent.answers_move current quiet.1 with ⟨next, first, answers, right⟩
      rcases ih (consistent.move_of_not_write quiet.1) next quiet.2 with ⟨more, answers', right'⟩
      refine ⟨first ++ more, ?_, ?_⟩
      · rw [← List.append_assoc, ← answers]
        exact answers'
      · intro answer mem
        rcases List.mem_append.1 mem with mem | mem
        · exact right answer mem
        · exact right' answer mem

end

/-- Whatever moves are made, the kept snapshot is not newer than the schema file, and if it is as
new, it is what the file holds. So from wherever no load is in progress, every load answers with
what the file holds as long as there is no write, and every question replies to it. -/
theorem no_lost_update (c : Configuration) {h : Host} {path : Path} {modified : Int}
    {bytes : List UInt8} (serves : h.Serves c.schemaFile path modified bytes) (moves : List Move) :
    let x := (start h).run c.schemaFile path moves
    ∃ modified bytes, x.host.Serves c.schemaFile path modified bytes ∧
      (∀ s, x.memory.cached = some s → s.modified ≤ modified ∧
        (s.modified = modified → Snapshot.ofBytes path.toString modified bytes = .ok s)) ∧
      (x.stage = .idle →
        (∀ quiet, (∀ move ∈ quiet, move.isWrite = false) →
          ∃ more, (x.run c.schemaFile path quiet).answers = x.answers ++ more ∧
            ∀ answer ∈ more, answer = .ok (schemaIn path modified bytes)) ∧
        (x.run c.schemaFile path [.ask, .read, .store]).answers =
          x.answers ++ [.ok (schemaIn path modified bytes)] ∧
        ∀ (s : Session) (q : Question), s.host = x.host → s.memory = x.memory →
          ∃ m, s.perform c q.step = s.settle m (q.reply c (schemaIn path modified bytes))) := by
  intro x
  rcases (consistent_start serves).run moves with ⟨modified, bytes, consistent⟩
  refine ⟨modified, bytes, consistent.serves, consistent.cached, fun idle => ⟨?_, ?_, ?_⟩⟩
  · intro quiet silent
    refine consistent.answers_run ?_ silent
    rw [idle]
    exact True.intro
  · rcases exists_loads x.host c.schemaFile x.memory with ⟨result, m, loads⟩
    rw [run_undisturbed path idle loads, consistent.loads_eq loads]
    rfl
  · intro s q sameHost sameMemory
    rcases exists_loads x.host c.schemaFile x.memory with ⟨result, m, loads⟩
    rw [consistent.loads_eq loads, ← sameHost, ← sameMemory] at loads
    exact ⟨m, Session.perform_of_found loads q⟩

/-- A write after the time was asked and before the file is read: the new content is kept with the
old time, and the next load reads it again. -/
theorem next_load_after_race :
    let before := "type Query { name: String }".toUTF8.toList
    let after := "type Query { names: [String] }".toUTF8.toList
    let c : Configuration := { schemaFile := "schema.graphql", dialect := .java }
    let host := Host.withSchema before 1
    let path : Path := { anchor := .root, parts := ["ws", "schema.graphql"] }
    let race := (start host).run c.schemaFile path [.ask, .write after 2, .read, .store]
    host.Serves c.schemaFile path 1 before ∧ race.memory.cached.map (·.modified) = some 1 ∧
      (race.run c.schemaFile path [.ask, .read, .store]).answers =
        race.answers ++ [.ok (schemaIn path 2 after)] := by
  intro before after c host path race
  have serves : host.Serves c.schemaFile path 1 before :=
    ⟨rfl, by decide +kernel, by decide +kernel⟩
  rcases no_lost_update c serves [.ask, .write after 2, .read, .store] with
    ⟨modified, bytes, serves', -, idle⟩
  have written : race.host.Serves c.schemaFile path 2 after :=
    ⟨by decide +kernel, by decide +kernel, by decide +kernel⟩
  rcases written.unique serves' with ⟨rfl, rfl⟩
  exact ⟨serves, by decide +kernel, (idle (by decide +kernel)).2.1⟩

end Shared

end SchemaCompletion
