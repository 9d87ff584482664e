import SchemaCompletion.Attempt
import SchemaCompletion.Session

/-!
# Loads

What one load of the schema does to the memory, and when it succeeds.

* `Query.run_bind` — running two questions in a row;
* `Host.Located` — a schema file that exists, with its path and time;
* `Loads` — the ways a load can go, each with its result and the memory after it;
* `loads_iff` — a load goes one of these ways, and only that;
* `Loads.cached_of_not_found` — a load that finds no schema leaves the kept snapshot alone;
* `Loads.again` — a load after one that found a schema finds the same, without a reading;
* `Loads.readAfresh_eq` — what a load gives, against reading the file afresh.
-/

namespace SchemaCompletion

/-! ## Running questions -/

namespace Query

theorem run_look {α : Type} (x : Except OsError α) (m : Memory) :
    (look x).run.run m = (x, m) := rfl

theorem run_diagnose (d : Diagnostic) (m : Memory) :
    (diagnose d).run.run m = (.ok (), m.record (.diagnosed d)) := rfl

theorem run_pure {α : Type} (a : α) (m : Memory) :
    (pure a : Query α).run.run m = (.ok a, m) := rfl

theorem run_modify (f : Memory → Memory) (m : Memory) :
    (modify f : Query Unit).run.run m = (.ok (), f m) := rfl

theorem run_get (m : Memory) : (get : Query Memory).run.run m = (.ok m, m) := rfl

/-- The second question meets the memory that the first has left; a failure ends both. -/
theorem run_bind {α β : Type} (q : Query α) (f : α → Query β) (m : Memory) :
    (q >>= f).run.run m =
      match q.run.run m with
      | (.ok a, m') => (f a).run.run m'
      | (.error e, m') => (.error e, m') := by
  rcases hq : q.run.run m with ⟨result, m'⟩
  -- the failures are an `Except` inside the state, so a bind first splits the result
  change ExceptT.bindCont f (q.run.run m).1 (q.run.run m).2 = _
  rw [hq]
  cases result with
  | ok a =>
      rfl
  | error e =>
      rfl

end Query

/-! ## Finding the file -/

/-- The schema file of the active workspace exists at a path and has a time. -/
structure Host.Located (h : Host) (schemaFile : String) (path : Path) (modified : Int) : Prop where
  resolved : h.schemaPath schemaFile = .ok path
  found : h.storage.contains path = .ok true
  timed : h.modifiedAt path = .ok modified

namespace Host

variable {h : Host} {schemaFile : String} {path : Path}

theorem locate_of_unresolved {u : Unavailable} (resolved : h.schemaPath schemaFile = .error u) :
    h.locate schemaFile = .ok (.error u) := by
  simp [locate, resolved]

/-- Where the path is known, the file is looked for and only then its time is asked. -/
theorem locate_of_resolved (resolved : h.schemaPath schemaFile = .ok path) :
    h.locate schemaFile =
      match h.storage.contains path with
      | .error e => .error e
      | .ok false => .ok (.error (.missing path))
      | .ok true => (h.modifiedAt path).map fun modified => .ok (path, modified) := by
  simp only [locate, resolved]
  cases h.storage.contains path with
  | error e =>
      rfl
  | ok found =>
      cases found with
      | false =>
          rfl
      | true =>
          cases h.modifiedAt path with
          | error e =>
              rfl
          | ok modified =>
              rfl

theorem Located.locate_eq {modified : Int} (located : h.Located schemaFile path modified) :
    h.locate schemaFile = .ok (.ok (path, modified)) := by
  rw [locate_of_resolved located.resolved, located.found]
  simp only [located.timed, Except.map]

/-- There is one schema file, with one time. -/
theorem Located.unique {path' : Path} {modified modified' : Int}
    (located : h.Located schemaFile path modified)
    (located' : h.Located schemaFile path' modified') : path' = path ∧ modified' = modified := by
  have same := located'.locate_eq.symm.trans located.locate_eq
  simpa using same

/-- A host with a schema file in its workspace. -/
def withSchema (bytes : List UInt8) (modified : Int) : Host where
  storage :=
    { entries := [(["ws"], .directory 0), (["ws", "schema.graphql"], .file bytes modified)] }
  clock := .files
  workspace := some { name := "ws", root := some { anchor := .root, parts := ["ws"] } }

end Host

/-! ## Ways a load can go -/

/-- Nothing counts at a path and a time if what is kept is from elsewhere or older. -/
theorem Memory.current?_eq_none_iff {m : Memory} {path : Path} {modified : Int} :
    m.current? path modified = none ↔
      ∀ kept, m.cached = some kept → m.cachedPath = some path → kept.modified < modified := by
  simp only [Option.eq_none_iff_forall_ne_some, ne_eq, current?_eq_some_iff, not_and, Int.not_le]

/-- One load of the schema from a memory, with its result and the memory after it. The stages come
in this order, and a load ends at the first that fails. -/
inductive Loads (h : Host) (schemaFile : String) (m : Memory) :
    Except OsError (Except Unavailable Snapshot) → Memory → Prop where
  | unresolved {u : Unavailable} (resolved : h.schemaPath schemaFile = .error u) :
      Loads h schemaFile m (.ok (.error u)) m
  | untested {path : Path} {e : OsError} (resolved : h.schemaPath schemaFile = .ok path)
      (found : h.storage.contains path = .error e) :
      Loads h schemaFile m (.error e) m
  | missing {path : Path} (resolved : h.schemaPath schemaFile = .ok path)
      (found : h.storage.contains path = .ok false) :
      Loads h schemaFile m (.ok (.error (.missing path))) m
  | untimed {path : Path} {e : OsError} (resolved : h.schemaPath schemaFile = .ok path)
      (found : h.storage.contains path = .ok true) (timed : h.modifiedAt path = .error e) :
      Loads h schemaFile m (.error e) m
  | current {path : Path} {modified : Int} {s : Snapshot}
      (located : h.Located schemaFile path modified) (counts : m.current? path modified = some s) :
      Loads h schemaFile m (.ok (.ok s)) m
  | unreadable {path : Path} {modified : Int} {e : OsError}
      (located : h.Located schemaFile path modified) (outdated : m.current? path modified = none)
      (content : h.storage.read path = .error e) :
      Loads h schemaFile m (.error e) (m.beginLoad path)
  | unparsable {path : Path} {modified : Int} {bytes : List UInt8} {e : ParseError}
      (located : h.Located schemaFile path modified) (outdated : m.current? path modified = none)
      (content : h.storage.read path = .ok bytes)
      (parsed : Snapshot.ofBytes path.toString modified bytes = .error e) :
      Loads h schemaFile m (.ok (.error (.unparsable e)))
        ((m.beginLoad path).beginParse path bytes)
  | reloaded {path : Path} {modified : Int} {bytes : List UInt8} {s : Snapshot}
      (located : h.Located schemaFile path modified) (outdated : m.current? path modified = none)
      (content : h.storage.read path = .ok bytes)
      (parsed : Snapshot.ofBytes path.toString modified bytes = .ok s) :
      Loads h schemaFile m (.ok (.ok s)) (((m.beginLoad path).beginParse path bytes).keep path s)

section

variable {h : Host} {schemaFile : String} {m m' : Memory}
  {result : Except OsError (Except Unavailable Snapshot)}

/-- Parsing keeps the schema that the bytes are, and nothing else. -/
theorem Query.run_digest (path : Path) (modified : Int) (bytes : List UInt8) (m : Memory) :
    (digest path modified bytes).run.run m =
      (.ok (Snapshot.ofBytes path.toString modified bytes),
        match Snapshot.ofBytes path.toString modified bytes with
        | .ok s => (m.beginParse path bytes).keep path s
        | .error _ => m.beginParse path bytes) := by
  simp only [digest, run_bind, run_modify]
  cases Snapshot.ofBytes path.toString modified bytes with
  | error e =>
      rfl
  | ok s =>
      rfl

/-- Where the schema file has been found, a load is one at its path and time. -/
theorem Query.run_load_of_located {path : Path} {modified : Int}
    (located : h.Located schemaFile path modified) :
    (load h schemaFile).run.run m =
      match (loadAt h path modified).run.run m with
      | (.ok r, m') => (.ok (r.mapError Unavailable.unparsable), m')
      | (.error e, m') => (.error e, m') := by
  simp only [load, run_bind, run_look, located.locate_eq, run_pure]
  rcases (loadAt h path modified).run.run m with ⟨result, m'⟩
  cases result with
  | error e =>
      rfl
  | ok r =>
      rfl

/-- A load gives what the way that it goes says. -/
theorem Loads.run_eq (loads : Loads h schemaFile m result m') :
    (Query.load h schemaFile).run.run m = (result, m') := by
  cases loads with
  | unresolved resolved =>
      simp only [Query.load, Query.run_bind, Query.run_look, Host.locate_of_unresolved resolved,
        Query.run_pure]
  | untested resolved found =>
      simp only [Query.load, Query.run_bind, Query.run_look,
        Host.locate_of_resolved resolved, found]
  | missing resolved found =>
      simp only [Query.load, Query.run_bind, Query.run_look,
        Host.locate_of_resolved resolved, found, Query.run_pure]
  | untimed resolved found timed =>
      simp only [Query.load, Query.run_bind, Query.run_look,
        Host.locate_of_resolved resolved, found, timed, Except.map]
  | current located counts =>
      rw [Query.run_load_of_located located]
      simp only [Query.loadAt, Query.run_bind, Query.run_get, counts, Query.run_pure, mapError_ok]
  | unreadable located outdated content =>
      rw [Query.run_load_of_located located]
      simp only [Query.loadAt, Query.run_bind, Query.run_get, outdated, Query.reload,
        Query.run_modify, Query.run_look, content]
  | unparsable located outdated content parsed =>
      rw [Query.run_load_of_located located]
      simp only [Query.loadAt, Query.run_bind, Query.run_get, outdated, Query.reload,
        Query.run_modify, Query.run_look, content, Query.run_digest, parsed, mapError_error]
  | reloaded located outdated content parsed =>
      rw [Query.run_load_of_located located]
      simp only [Query.loadAt, Query.run_bind, Query.run_get, outdated, Query.reload,
        Query.run_modify, Query.run_look, content, Query.run_digest, parsed, mapError_ok]

/-- There is a way for every load to go. -/
theorem exists_loads (h : Host) (schemaFile : String) (m : Memory) :
    ∃ result m', Loads h schemaFile m result m' := by
  -- one split for each stage, in the order in which a load comes to them
  cases resolved : h.schemaPath schemaFile with
  | error u =>
      exact ⟨_, _, .unresolved resolved⟩
  | ok path =>
      cases found : h.storage.contains path with
      | error e =>
          exact ⟨_, _, .untested resolved found⟩
      | ok exists? =>
          cases exists? with
          | false =>
              exact ⟨_, _, .missing resolved found⟩
          | true =>
              cases timed : h.modifiedAt path with
              | error e =>
                  exact ⟨_, _, .untimed resolved found timed⟩
              | ok modified =>
                  have located : h.Located schemaFile path modified := ⟨resolved, found, timed⟩
                  cases outdated : m.current? path modified with
                  | some s =>
                      exact ⟨_, _, .current located outdated⟩
                  | none =>
                      cases content : h.storage.read path with
                      | error e =>
                          exact ⟨_, _, .unreadable located outdated content⟩
                      | ok bytes =>
                          cases parsed : Snapshot.ofBytes path.toString modified bytes with
                          | error e =>
                              exact ⟨_, _, .unparsable located outdated content parsed⟩
                          | ok s =>
                              exact ⟨_, _, .reloaded located outdated content parsed⟩

/-- The ways a load can go are exactly what it does. -/
theorem loads_iff : Loads h schemaFile m result m' ↔
    (Query.load h schemaFile).run.run m = (result, m') := by
  constructor
  · exact Loads.run_eq
  · intro run
    -- some way there is, and what a load comes to is unique
    rcases exists_loads h schemaFile m with ⟨result', m'', loads⟩
    have same := loads.run_eq.symm.trans run
    cases same
    exact loads

/-- A load from the same memory goes one way only. -/
theorem Loads.unique {result' : Except OsError (Except Unavailable Snapshot)} {m'' : Memory}
    (loads : Loads h schemaFile m result m') (other : Loads h schemaFile m result' m'') :
    result' = result ∧ m'' = m' := by
  have same := other.run_eq.symm.trans loads.run_eq
  exact ⟨congrArg Prod.fst same, congrArg Prod.snd same⟩

/-! ## What a load leaves behind -/

/-- A load that finds no schema leaves the kept snapshot alone. -/
theorem Loads.cached_of_not_found (loads : Loads h schemaFile m result m')
    (lost : ∀ s, result ≠ .ok (.ok s)) : m'.cached = m.cached ∧ m'.cachedPath = m.cachedPath := by
  cases loads with
  | current located counts =>
      exact absurd rfl (lost _)
  | reloaded located outdated content parsed =>
      exact absurd rfl (lost _)
  | _ =>
      simp

/-- A load tells no diagnostic. -/
theorem Loads.events_eq (loads : Loads h schemaFile m result m') :
    ∃ es, m'.events = m.events ++ es ∧ es.filterMap Event.diagnostic? = [] := by
  -- a reading is an event, and so is a parsing that begins, but neither is a diagnostic
  have read : ∀ path, (m.beginLoad path).events = m.events ++ [.reloading path] := fun _ => rfl
  have parsed : ∀ path bytes, ∃ es, ((m.beginLoad path).beginParse path bytes).events =
      m.events ++ es ∧ es.filterMap Event.diagnostic? = [] := by
    intro path bytes
    unfold Memory.beginParse
    split
    · exact ⟨[.reloading path, .parsing path.toString], by simp [Memory.record, read], rfl⟩
    · exact ⟨[.reloading path], read path, rfl⟩
  cases loads with
  | unreadable located outdated content =>
      exact ⟨_, read _, rfl⟩
  | unparsable located outdated content unparsed =>
      exact parsed _ _
  | reloaded located outdated content whole =>
      exact parsed _ _
  | _ =>
      exact ⟨[], by simp, rfl⟩

theorem Loads.diagnostics_eq (loads : Loads h schemaFile m result m') :
    m'.diagnostics = m.diagnostics := by
  rcases loads.events_eq with ⟨es, events, none⟩
  rw [Memory.diagnostics, Memory.diagnostics, events, List.filterMap_append, none, List.append_nil]

/-- What a load finds counts from then on. -/
theorem Loads.counts_of_found {s : Snapshot} (loads : Loads h schemaFile m (.ok (.ok s)) m') :
    ∃ path modified, h.Located schemaFile path modified ∧ m'.current? path modified = some s := by
  cases loads with
  | current located counts =>
      exact ⟨_, _, located, counts⟩
  | reloaded located outdated content parsed =>
      -- what was just kept has the time that was asked
      have hs := Snapshot.ofBytes_eq_ok_iff.1 parsed
      exact ⟨_, _, located, Memory.current?_keep (Int.le_of_eq hs.2.1.symm)⟩

/-- A load after one that found a schema finds the same, without a reading. -/
theorem Loads.again {s : Snapshot} (loads : Loads h schemaFile m (.ok (.ok s)) m') :
    Loads h schemaFile m' (.ok (.ok s)) m' := by
  rcases loads.counts_of_found with ⟨path, modified, located, counts⟩
  exact .current located counts

/-- Only what is kept decides how a load goes, and what is kept after it. -/
theorem Loads.transfer {other : Memory} (loads : Loads h schemaFile m result m')
    (cached : other.cached = m.cached) (cachedPath : other.cachedPath = m.cachedPath) :
    ∃ other', Loads h schemaFile other result other' ∧ other'.cached = m'.cached ∧
      other'.cachedPath = m'.cachedPath := by
  have counts : ∀ path modified, other.current? path modified = m.current? path modified := by
    intro path modified
    rw [Memory.current?, Memory.current?, cached, cachedPath]
  cases loads with
  | unresolved resolved =>
      exact ⟨_, .unresolved resolved, cached, cachedPath⟩
  | untested resolved found =>
      exact ⟨_, .untested resolved found, cached, cachedPath⟩
  | missing resolved found =>
      exact ⟨_, .missing resolved found, cached, cachedPath⟩
  | untimed resolved found timed =>
      exact ⟨_, .untimed resolved found timed, cached, cachedPath⟩
  | current located current =>
      exact ⟨_, .current located ((counts _ _).trans current), cached, cachedPath⟩
  | unreadable located outdated content =>
      have none := (counts _ _).trans outdated
      exact ⟨_, .unreadable located none content, by simp [cached], by simp [cachedPath]⟩
  | unparsable located outdated content parsed =>
      have none := (counts _ _).trans outdated
      exact ⟨_, .unparsable located none content parsed, by simp [cached], by simp [cachedPath]⟩
  | reloaded located outdated content parsed =>
      have none := (counts _ _).trans outdated
      exact ⟨_, .reloaded located none content parsed, rfl, rfl⟩

/-! ## Reading afresh -/

theorem Host.readAfresh_of_located {path : Path} {modified : Int}
    (located : h.Located schemaFile path modified) :
    h.readAfresh schemaFile =
      (h.storage.read path).map fun bytes =>
        (Snapshot.ofBytes path.toString modified bytes).mapError Unavailable.unparsable := by
  simp only [readAfresh, located.locate_eq, read, ok_bind]
  cases h.storage.read path with
  | error e =>
      rfl
  | ok bytes =>
      rfl

/-- A load gives what reading afresh gives, or else the kept snapshot, which still counts. -/
theorem Loads.readAfresh_eq (loads : Loads h schemaFile m result m') :
    h.readAfresh schemaFile = result ∨
      ∃ path modified s, h.Located schemaFile path modified ∧
        m.current? path modified = some s ∧ result = .ok (.ok s) := by
  cases loads with
  | unresolved resolved =>
      simp [Host.readAfresh, Host.locate_of_unresolved resolved]
  | untested resolved found =>
      simp [Host.readAfresh, Host.locate_of_resolved resolved, found]
  | missing resolved found =>
      simp [Host.readAfresh, Host.locate_of_resolved resolved, found]
  | untimed resolved found timed =>
      simp [Host.readAfresh, Host.locate_of_resolved resolved, found, timed, Except.map]
  | current located counts =>
      -- the one way in which the file is not read
      exact .inr ⟨_, _, _, located, counts, rfl⟩
  | unreadable located outdated content =>
      simp [Host.readAfresh_of_located located, content, Except.map]
  | unparsable located outdated content parsed =>
      simp [Host.readAfresh_of_located located, content, parsed, Except.map]
  | reloaded located outdated content parsed =>
      simp [Host.readAfresh_of_located located, content, parsed, Except.map]

/-- Where nothing is kept, a load gives what reading afresh gives. -/
theorem loads_readAfresh (nothing : m.cached = none) :
    ∃ m', Loads h schemaFile m (h.readAfresh schemaFile) m' := by
  rcases exists_loads h schemaFile m with ⟨result, m', loads⟩
  rcases loads.readAfresh_eq with same | ⟨path, modified, s, -, counts, -⟩
  · exact ⟨m', same ▸ loads⟩
  · have kept := (Memory.current?_eq_some_iff.1 counts).1
    rw [nothing] at kept
    cases kept

end

end SchemaCompletion
