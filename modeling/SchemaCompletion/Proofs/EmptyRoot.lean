import SchemaCompletion.Proofs.Cache.Diagnosis
import SchemaCompletion.Proofs.Choosing
import SchemaCompletion.Proofs.Overwriting

/-!
# Empty workspaces

Where a schema file leads that is accepted, and what questions come to in a workspace with nothing
in it.

* `NamesSomething` — a text with something between its slashes that is not empty and no lone point;
* `Settings.schemaPath_of_build`, `Settings.eq_root_iff` — an accepted text leads below the root if
  it names something, else to the root itself;
* `Storage.EmptyDirectory` — a directory with nothing in it;
* `Storage.walk_append` — the components of a path are followed one after the other;
* `Storage.contains_below` — nothing is below an empty directory, but not everything can be looked
  for there;
* `Session.TellsOnly`, `Session.FailsWith` — what every question comes to, one message or one
  failure;
* `Settings.questions_in_empty_root` — in an empty workspace the schema is missing, if its file can
  be looked for.
-/

namespace SchemaCompletion

/-! ## Texts that name something -/

/-- The text has a component: something between its slashes that is not empty and no lone point. -/
def NamesSomething (text : String) : Prop := ∃ part ∈ slashParts text, part ≠ "" ∧ part ≠ "."

instance (text : String) : Decidable (NamesSomething text) :=
  inferInstanceAs (Decidable (∃ part ∈ slashParts text, part ≠ "" ∧ part ≠ "."))

theorem slashParts_ofList (cs : List Char) :
    slashParts (String.ofList cs) = (cs.splitOn '/').map String.ofList := by
  rw [slashParts, String.toList_ofList]

theorem components_ne_nil_iff {text : String} : components text ≠ [] ↔ NamesSomething text := by
  rw [ne_eq, components, List.filter_eq_nil_iff]
  simp [NamesSomething]

/-- What leads nowhere above its start has no component that leads up. -/
theorem StaysBelow.parent_not_mem {text : String} (below : StaysBelow text) :
    Path.parent ∉ components text :=
  fun mem => below.noParent (List.mem_filter.1 mem).1

namespace Settings

variable {choice : Choice} {settings : Settings} {h : Host} {name : String} {root path : Path}

/-- A schema file that was accepted leads nowhere above its start. -/
theorem staysBelow_of_build (built : build choice = .ok settings) :
    StaysBelow settings.schemaFile := by
  rcases build_eq_ok_iff_forall.1 built .schemaFile with ⟨text, -, below, kept⟩
  have same : settings.schemaFile = text := kept
  rw [same]
  exact below

/-- It leads below the root by its own components. -/
theorem schemaPath_of_build (built : build choice = .ok settings)
    (active : h.workspace = some { name, root := some root }) :
    h.schemaPath settings.schemaFile =
      .ok { root with parts := root.parts ++ components settings.schemaFile } := by
  have relative := (Path.anchor_parse_eq_relative_iff _).2 (staysBelow_of_build built).relative
  simp [Host.schemaPath, active, Path.join, Path.isAbsolute, relative, Path.parts_parse]

/-- It leads to the root itself if it names nothing. -/
theorem eq_root_iff (built : build choice = .ok settings)
    (active : h.workspace = some { name, root := some root })
    (resolved : h.schemaPath settings.schemaFile = .ok path) :
    path = root ↔ ¬ NamesSomething settings.schemaFile := by
  obtain rfl := Except.ok.inj ((schemaPath_of_build built active).symm.trans resolved)
  rw [← components_ne_nil_iff, not_not]
  constructor
  · intro same
    exact List.append_right_eq_self.1 (congrArg Path.parts same)
  · intro none
    rw [none, List.append_nil]

end Settings

/-! ## Below an empty directory -/

namespace Storage

variable {s : Storage} {root path : Path} {place goal : List String} {first : String}
  {rest : List String}

/-- There is a directory at the path, and nothing in it. -/
structure EmptyDirectory (s : Storage) (root : Path) : Prop where
  there : ∃ modified, s.find root = .ok (some (.directory modified))
  nothing : ∀ name, s.entryAt (root.parts.foldl Path.follow [] ++ [name]) = none

/-- Where some components of a path lead, the others go on. -/
theorem walk_append {parts : List String} (front : s.walk root place parts = .ok (some goal))
    (more : List String) : s.walk path place (parts ++ more) = s.walk path goal more := by
  -- by induction on the components in front, each of which was followed to somewhere
  induction parts generalizing place with
  | nil =>
      cases front
      rfl
  | cons part parts ih =>
      rw [List.cons_append]
      simp only [walk] at front ⊢
      by_cases directory : ((s.entryAt place).map Entry.isDirectory).getD false = true
      · rw [if_pos directory] at front ⊢
        by_cases up : part = Path.parent
        · rw [if_pos up] at front ⊢
          exact ih front
        · rw [if_neg up] at front ⊢
          by_cases fits : part.utf8ByteSize ≤ componentLimit
          · rw [if_pos fits] at front ⊢
            cases there : s.entryAt (place ++ [part]) with
            | none =>
                simp [there] at front
            | some entry =>
                rw [there] at front
                exact ih front
          · simp [fits] at front
      · simp [directory] at front

/-- A path that cannot be looked for below a directory, because it is too long itself or because its
first component there is. A NUL character is seen before that. -/
def Overlong (path : Path) (first : String) : Prop :=
  path.hasNul = false ∧
  (pathLimit < path.toString.utf8ByteSize ∨ componentLimit < first.utf8ByteSize)

instance (path : Path) (first : String) : Decidable (Overlong path first) :=
  inferInstanceAs (Decidable (_ ∧ _))

/-- Nothing is found below an empty directory. -/
theorem contains_below (empty : s.EmptyDirectory root)
    (parts : path.parts = root.parts ++ first :: rest) (down : first ≠ Path.parent) :
    s.contains path = if Overlong path first then .error (.nameTooLong path) else .ok false := by
  rcases empty.there with ⟨modified, found⟩
  rcases find_eq_some_iff.1 found with ⟨-, -, goal, walked, directory⟩
  have missing : s.entryAt (goal ++ [first]) = none := by
    rw [(walk_spec standing_nil walked).1]
    exact empty.nothing first
  -- the way to the directory is the same for everything below it
  have onward : s.walk path [] path.parts =
      if first.utf8ByteSize ≤ componentLimit then .ok none else .error (.nameTooLong path) := by
    rw [parts, walk_append walked]
    simp [walk, directory, Entry.isDirectory, down, missing]
  cases usable : path.hasNul with
  | true =>
      simp [contains, Overlong, usable]
  | false =>
      by_cases whole : path.toString.utf8ByteSize ≤ pathLimit
      · by_cases fits : first.utf8ByteSize ≤ componentLimit
        · simp [contains, find, Overlong, usable, whole, onward, fits, Except.map]
        · simp [contains, find, Overlong, usable, whole, onward, fits, Except.map]
      · simp [contains, find, Overlong, usable, whole, Except.map, Nat.lt_of_not_le whole]

theorem read_of_directory {modified : Int}
    (found : s.find path = .ok (some (.directory modified))) :
    s.read path = .error (.isDirectory path) := by
  simp only [read, found, ok_bind]
  rfl

end Storage

/-! ## Questions -/

/-- What fails first where a directory stands in place of the schema file: the time of a file is
asked before the file is read. -/
def Host.directoryFailure (h : Host) (path : Path) : OsError :=
  match h.clock with
  | .failing e => e
  | _ => .isDirectory path

/-- A load from a directory fails, unless a snapshot of a file is kept that was there before. -/
theorem loads_of_directory {h : Host} {schemaFile : String} {m : Memory} {path : Path}
    {modified : Int} (resolved : h.schemaPath schemaFile = .ok path)
    (found : h.storage.find path = .ok (some (.directory modified)))
    (unkept : m.cachedPath ≠ some path) :
    ∃ m', Loads h schemaFile m (.error (h.directoryFailure path)) m' := by
  -- a directory exists, and unless the clock fails it has a time, so it is read like a file
  have there := Storage.contains_of_find found
  have unreadable {time : Int} (timed : h.modifiedAt path = .ok time) :
      Loads h schemaFile m (.error (.isDirectory path)) (m.beginLoad path) :=
    .unreadable ⟨resolved, there, timed⟩
      (Memory.current?_eq_none_iff.2 fun _ _ kept => absurd kept unkept)
      (Storage.read_of_directory found)
  unfold Host.directoryFailure
  cases clock : h.clock with
  | failing e =>
      have untimed : h.modifiedAt path = .error e := by
        rw [Host.modifiedAt, clock]
      exact ⟨m, .untimed resolved there untimed⟩
  | fixed time =>
      have timed : h.modifiedAt path = .ok time := by
        rw [Host.modifiedAt, clock]
      exact ⟨_, unreadable timed⟩
  | files =>
      have timed : h.modifiedAt path = .ok modified := by
        simp only [Host.modifiedAt, clock, Storage.modifiedAt_of_find found]
        rfl
      exact ⟨_, unreadable timed⟩

namespace Session

variable {c : Configuration} {s : Session} {m : Memory}

/-- Every question has the empty result and tells one message. -/
def TellsOnly (c : Configuration) (s : Session) (message : String) : Prop :=
  ∀ q : Question, s.GivesNothing c q ∧ (s.performReporting c q.step).1.messages = [message]

/-- Every question ends in the failure and tells nothing. -/
def FailsWith (c : Configuration) (s : Session) (e : OsError) : Prop :=
  ∀ q : Question, (s.performReporting c q.step).1.outcome = .failed e ∧
    (s.performReporting c q.step).1.messages = []

theorem tellsOnly_of_unavailable {u : Unavailable}
    (loads : Loads s.host c.schemaFile s.memory (.ok (.error u)) m) : s.TellsOnly c u.message := by
  intro q
  exact ⟨givesNothing_of_unavailable loads q, congrArg (List.map _) (told_of_found loads q)⟩

theorem failsWith_of_failure {e : OsError}
    (loads : Loads s.host c.schemaFile s.memory (.error e) m) :
    s.FailsWith c e := by
  intro q
  exact ⟨congrArg Prod.fst (perform_of_failure loads q),
    congrArg (List.map _) (told_of_failure loads q)⟩

end Session

/-- A host whose workspace has an empty root. -/
def Host.withEmptyRoot : Host where
  storage := { entries := [(["ws"], .directory 0)] }
  clock := .files
  workspace := some { name := "ws", root := some { anchor := .root, parts := ["ws"] } }

theorem Host.emptyDirectory_withEmptyRoot :
    withEmptyRoot.storage.EmptyDirectory { anchor := .root, parts := ["ws"] } where
  there := ⟨0, by decide +kernel⟩
  nothing _ := rfl

theorem Host.directoryFailure_withEmptyRoot :
    withEmptyRoot.directoryFailure { anchor := .root, parts := ["ws"] } =
      { kind := .isDirectory, message := "[Errno 21] Is a directory: '/ws'" } := by
  decide +kernel

namespace Settings

variable {choice : Choice} {settings : Settings}

/-- A file that is named below an empty root is missing, unless it cannot be looked for. -/
theorem contains_of_build {h : Host} {name first : String} {rest : List String} {root path : Path}
    (built : build choice = .ok settings) (active : h.workspace = some { name, root := some root })
    (empty : h.storage.EmptyDirectory root) (resolved : h.schemaPath settings.schemaFile = .ok path)
    (named : components settings.schemaFile = first :: rest) :
    h.storage.contains path =
      if Storage.Overlong path first then .error (.nameTooLong path) else .ok false := by
  have parts : path.parts = root.parts ++ first :: rest := by
    rw [← named, ← Except.ok.inj ((schemaPath_of_build built active).symm.trans resolved)]
  have noParent := (staysBelow_of_build built).parent_not_mem
  rw [named, List.mem_cons, not_or] at noParent
  exact Storage.contains_below empty parts (Ne.symm noParent.1)

/-- A schema file that was accepted leads to the root with its components added, so it lies below
the root exactly if it names something, and otherwise is the root itself. In a workspace whose root
is an empty directory, every question has the empty result and tells that the schema is missing, if
the file is named and can be looked for. If it is named but too long, every question fails with
that; if it is not named, every question fails because the root is no file, unless the clock fails
first or a snapshot of a file is kept that was there before. -/
theorem questions_in_empty_root (built : build choice = .ok settings) :
    (∀ (h : Host) (name : String) (root : Path), h.workspace = some { name, root := some root } →
      ∃ path, h.schemaPath settings.schemaFile = .ok path ∧
        path.anchor = root.anchor ∧ path.parts = root.parts ++ components settings.schemaFile ∧
        (NamesSomething settings.schemaFile ↔ root.parts.length < path.parts.length) ∧
        (NamesSomething settings.schemaFile ↔ path ≠ root)) ∧
    ∀ (c : Configuration) (s : Session) (name : String) (root path : Path),
      c.schemaFile = settings.schemaFile → s.host.workspace = some { name, root := some root } →
      s.host.storage.EmptyDirectory root → s.host.schemaPath c.schemaFile = .ok path →
      (∀ first rest, components settings.schemaFile = first :: rest →
        ¬ Storage.Overlong path first →
        s.TellsOnly c ("no GraphQL schema found at " ++ path.toString)) ∧
      (∀ first rest, components settings.schemaFile = first :: rest → Storage.Overlong path first →
        s.FailsWith c (.nameTooLong path)) ∧
      (¬ NamesSomething settings.schemaFile → s.memory.cachedPath ≠ some root →
        s.FailsWith c (s.host.directoryFailure root)) := by
  constructor
  · intro h name root active
    have leads := schemaPath_of_build built active
    refine ⟨_, leads, rfl, rfl, ?_, ?_⟩
    · rw [← components_ne_nil_iff, ← List.length_pos_iff, List.length_append]
      omega
    · rw [ne_eq, eq_root_iff built active leads, not_not]
  · intro c s name root path file active empty resolved
    have leads : s.host.schemaPath settings.schemaFile = .ok path := by
      rw [← file, resolved]
    refine ⟨fun first rest named fits => ?_, fun first rest named overlong => ?_,
      fun unnamed unkept => ?_⟩
    · have absent := contains_of_build built active empty leads named
      rw [if_neg fits] at absent
      exact Session.tellsOnly_of_unavailable (.missing resolved absent)
    · have refused := contains_of_build built active empty leads named
      rw [if_pos overlong] at refused
      exact Session.failsWith_of_failure (.untested resolved refused)
    · obtain rfl := (eq_root_iff built active leads).2 unnamed
      rcases empty.there with ⟨modified, found⟩
      rcases loads_of_directory resolved found unkept with ⟨m, loads⟩
      exact Session.failsWith_of_failure loads

/-- A text with two names, one that is too long, and one with lone points and slashes alone. -/
theorem questions_in_empty_root_near_points :
    let h := Host.withEmptyRoot
    let configuration : String → Configuration := fun schemaFile => { schemaFile, dialect := .java }
    let long := String.ofList (List.replicate 256 'a')
    let tooLong : Path := { anchor := .root, parts := ["ws", long] }
    (Session.start h).TellsOnly (configuration "...//./x") "no GraphQL schema found at /ws/.../x" ∧
      (Session.start h).FailsWith (configuration long) (.nameTooLong tooLong) ∧
      (Session.start h).FailsWith (configuration "././/")
        { kind := .isDirectory, message := "[Errno 21] Is a directory: '/ws'" } := by
  intro h configuration long tooLong
  have empty := Host.emptyDirectory_withEmptyRoot
  have built (text : String) (below : StaysBelow text) :
      build (Choice.ofValues [("schema_file", some (.text text))]) =
        .ok { standard with schemaFile := text } :=
    build_eq_ok_iff.2 ⟨checkSchemaFile_eq_ok_iff.2 ⟨below, rfl⟩, rfl, rfl⟩
  refine ⟨?_, ?_, ?_⟩
  · have questions := (questions_in_empty_root
        (built "...//./x" ⟨by decide, by decide, by decide⟩)).2
      (configuration "...//./x") (Session.start h) "ws" _
      { anchor := .root, parts := ["ws", "...", "x"] } rfl rfl empty (by decide +kernel)
    exact questions.1 "..." ["x"] (by decide +kernel) (by decide +kernel)
  · have parts : slashParts long = [long] := (slashParts_ofList _).trans (by decide +kernel)
    have named : components long = [long] :=
      (congrArg (List.filter _) parts).trans (by decide +kernel)
    have characters : long.toList = List.replicate 256 'a' := String.toList_ofList
    have below : StaysBelow long :=
      ⟨by decide +kernel, by rw [characters]; decide, by rw [parts]; decide +kernel⟩
    have leads : h.schemaPath long = .ok tooLong := by
      rw [schemaPath_of_build (built long below) rfl, named]
      rfl
    have questions := (questions_in_empty_root (built long below)).2 (configuration long)
      (Session.start h) "ws" _ tooLong rfl rfl empty leads
    have usable : tooLong.hasNul = false := by
      simp only [tooLong, Path.hasNul, List.any_cons, characters]
      decide +kernel
    exact questions.2.1 long [] named ⟨usable, .inr (by decide +kernel)⟩
  · have questions := (questions_in_empty_root (built "././/" ⟨by decide, by decide, by decide⟩)).2
      (configuration "././/") (Session.start h) "ws" _ { anchor := .root, parts := ["ws"] }
      rfl rfl empty (by decide +kernel)
    rw [← Host.directoryFailure_withEmptyRoot]
    exact questions.2.2 (by decide) (by decide)

/-- A lone point is accepted, but it is the root. -/
theorem lone_point_is_no_file :
    let settings : Settings := { standard with schemaFile := "." }
    let c : Configuration := { schemaFile := settings.schemaFile, dialect := .java }
    let h := Host.withEmptyRoot
    let root : Path := { anchor := .root, parts := ["ws"] }
    build (Choice.ofValues [("schema_file", some (.text "."))]) = .ok settings ∧
      h.workspace = some { name := "ws", root := some root } ∧ h.storage.EmptyDirectory root ∧
      h.schemaPath settings.schemaFile = .ok root ∧
      ∀ q : Question, ((Session.start h).performReporting c q.step).1.outcome =
        .failed { kind := .isDirectory, message := "[Errno 21] Is a directory: '/ws'" } := by
  intro settings c h root
  have resolved : h.schemaPath settings.schemaFile = .ok root := by decide +kernel
  have empty := Host.emptyDirectory_withEmptyRoot
  rcases empty.there with ⟨modified, found⟩
  rcases loads_of_directory resolved found (m := .fresh) (by decide) with ⟨m, loads⟩
  refine ⟨by decide +kernel, rfl, empty, resolved, fun q => ?_⟩
  rw [← Host.directoryFailure_withEmptyRoot]
  exact (Session.failsWith_of_failure (c := c) (s := Session.start h) loads q).1

end Settings

end SchemaCompletion
