import SchemaCompletion.Host
import SchemaCompletion.Settings

/-!
# Schema files below the root

Which texts are accepted as the place of the schema file, and where they lead from the root of a
workspace.

* `slashParts`, `components` — what stands between the slashes of a text, and what of it means
  something;
* `StaysBelow` — a text that leads no further up than where it starts;
* `Settings.isInsideRoot_iff` — these are the texts that are accepted;
* `Path.normalize` — a path without the components that lead up again;
* `Path.ExtendsBy` — a path that begins with another, and leads no further up on any part of its
  way;
* `Path.join_extendsBy` — what an accepted text adds to a root;
* `Settings.schema_stays_below_root` — a schema file that is accepted lies below the root.
-/

namespace SchemaCompletion

/-! ## Components -/

/-- What stands between the slashes of a text. -/
def slashParts (text : String) : List String := (text.toList.splitOn '/').map String.ofList

/-- The components of a path in text: empty texts and lone points between its slashes mean
nothing. -/
def components (text : String) : List String :=
  (slashParts text).filter fun part => part != "" && part != "."

/-- The text leads nowhere above the place where it starts: it is not empty, does not begin at the
root, and has no component that leads up. -/
structure StaysBelow (text : String) : Prop where
  notEmpty : text ≠ ""
  relative : text.toList.head? ≠ some '/'
  noParent : ".." ∉ slashParts text

namespace Path

theorem splitSlashes_eq (cs : List Char) : splitSlashes cs = cs.splitOn '/' := by
  rw [List.splitOn_eq_splitOnP]
  induction cs with
  | nil =>
      rfl
  | cons c cs ih =>
      rw [List.splitOnP_cons_eq_if_modifyHead, splitSlashes, ih]
      by_cases slash : c = '/'
      · simp [slash]
      · cases split : cs.splitOnP (· == '/') with
        | nil =>
            exact absurd split (List.splitOnP_ne_nil _ cs)
        | cons part parts =>
            simp [slash]

/-- The components of a path that was read from text are those of the text. -/
theorem parts_parse (text : String) : (parse text).parts = components text := by
  -- the same components are left out, once as characters and once as texts
  have same (part : List Char) : isProper part =
      (String.ofList part != "" && String.ofList part != ".") := by
    have empty : String.ofList part = "" ↔ part = [] := by
      rw [← String.toList_inj, String.toList_ofList]
      rfl
    have point : String.ofList part = "." ↔ part = ['.'] := by
      rw [← String.toList_inj, String.toList_ofList]
      rfl
    rw [Bool.eq_iff_iff]
    simp [isProper, empty, point]
  rw [parse, components, slashParts, List.filter_map, splitSlashes_eq]
  exact congrArg _ (List.filter_congr fun part _ => same part)

/-- Nothing stands between slashes that has a slash in it. -/
theorem slash_not_mem_of_mem_splitSlashes {cs part : List Char} (mem : part ∈ splitSlashes cs) :
    '/' ∉ part := by
  induction cs generalizing part with
  | nil =>
      rw [splitSlashes, List.mem_singleton] at mem
      rw [mem]
      exact List.not_mem_nil
  | cons c cs ih =>
      rw [splitSlashes] at mem
      split at mem
      · rcases List.mem_cons.1 mem with rfl | mem
        · exact List.not_mem_nil
        · exact ih mem
      next other =>
        split at mem
        next none =>
          rw [List.mem_singleton] at mem
          simp [mem, Ne.symm other]
        next first later split =>
          rw [split] at ih
          rcases List.mem_cons.1 mem with rfl | mem
          · rw [List.mem_cons, not_or]
            exact ⟨Ne.symm other, ih List.mem_cons_self⟩
          · exact ih (List.mem_cons_of_mem first mem)

theorem slash_not_mem_of_mem_components {text part : String} (mem : part ∈ components text) :
    '/' ∉ part.toList := by
  rcases List.mem_map.1 (List.mem_filter.1 mem).1 with ⟨cs, there, rfl⟩
  rw [← splitSlashes_eq] at there
  rw [String.toList_ofList]
  exact slash_not_mem_of_mem_splitSlashes there

/-- A path begins nowhere in particular if its text does not begin with a slash. -/
theorem anchor_parse_eq_relative_iff (text : String) :
    (parse text).anchor = .relative ↔ text.toList.head? ≠ some '/' := by
  rw [parse]
  dsimp only
  generalize text.toList = cs
  unfold anchorOf
  split
  · simp
  · simp
  · simp
  next noSlash =>
    simp only [true_iff]
    intro first
    cases cs with
    | nil =>
        cases first
    | cons c cs =>
        cases first
        exact noSlash cs rfl

end Path

namespace Settings

/-- A text is accepted as a path inside the root exactly if it leads nowhere above it. -/
theorem isInsideRoot_iff (text : String) : isInsideRoot text = true ↔ StaysBelow text := by
  have relative : (!(Path.parse text).isAbsolute) = true ↔ text.toList.head? ≠ some '/' := by
    rw [← Path.anchor_parse_eq_relative_iff]
    simp [Path.isAbsolute]
  have noParent : (!(Path.parse text).parts.contains Path.parent) = true ↔
      ".." ∉ slashParts text := by
    -- the component that leads up is never left out, so it can be looked for before others are
    have kept : ".." ∈ components text ↔ ".." ∈ slashParts text := by
      rw [components, List.mem_filter]
      exact and_iff_left (by decide)
    rw [Path.parts_parse, Bool.not_eq_true', ← Bool.not_eq_true, List.contains_iff_mem]
    exact not_congr kept
  rw [isInsideRoot, Bool.and_eq_true, Bool.and_eq_true, relative, noParent, bne_iff_ne]
  constructor
  · rintro ⟨⟨notEmpty, relative⟩, noParent⟩
    exact ⟨notEmpty, relative, noParent⟩
  · intro below
    exact ⟨⟨below.notEmpty, below.relative⟩, below.noParent⟩

end Settings

/-! ## Normal paths -/

namespace Path

/-- One more component behind others. The one that leads up takes the last of them away; if there is
none, or only such that lead up, it is kept in a relative path, and leads nowhere from the root. -/
def stepInto (anchor : Anchor) (parts : List String) (part : String) : List String :=
  if part = parent then
    match parts.getLast? with
    | none => if anchor = .relative then [parent] else []
    | some last => if last = parent then parts ++ [parent] else parts.dropLast
  else parts ++ [part]

/-- The path without the components that lead up again, as its text tells it: links do not count. -/
def normalize (p : Path) : Path := { p with parts := p.parts.foldl (stepInto p.anchor) [] }

/-- The first components of a path. -/
def take (p : Path) (n : Nat) : Path := { p with parts := p.parts.take n }

/-- A path that begins with a root and goes on with some components, none of which leads up or
begins anywhere else. Behind the root, no part of its way leads out of it. -/
structure ExtendsBy (p root : Path) (added : List String) : Prop where
  anchor : p.anchor = root.anchor
  parts : p.parts = root.parts ++ added
  plain : ∀ part ∈ added, part ≠ parent ∧ '/' ∉ part.toList
  normal : p.normalize.parts = root.normalize.parts ++ added
  onTheWay : ∀ n, root.parts.length ≤ n → root.normalize.parts <+: (p.take n).normalize.parts

variable {root q : Path} {parts : List String}

/-- Components that do not lead up are added as they are. -/
theorem foldl_stepInto (plain : ∀ part ∈ parts, part ≠ parent) (anchor : Anchor)
    (before : List String) : parts.foldl (stepInto anchor) before = before ++ parts := by
  induction parts generalizing before with
  | nil =>
      simp
  | cons part parts ih =>
      rw [List.forall_mem_cons] at plain
      rw [List.foldl_cons, ih plain.2, stepInto, if_neg plain.1, List.append_assoc,
        List.singleton_append]

theorem parts_normalize_append (plain : ∀ part ∈ parts, part ≠ parent) (root : Path) :
    (normalize { root with parts := root.parts ++ parts }).parts =
      root.normalize.parts ++ parts := by
  simp only [normalize, List.foldl_append, foldl_stepInto plain]

/-- A path that does not begin at the root, joined to a root. -/
theorem join_extendsBy (relative : q.anchor = .relative)
    (plain : ∀ part ∈ q.parts, part ≠ parent ∧ '/' ∉ part.toList) (root : Path) :
    (root.join q).ExtendsBy root q.parts := by
  have joined : root.join q = { root with parts := root.parts ++ q.parts } := by
    simp [join, isAbsolute, relative]
  have noParent : ∀ part ∈ q.parts, part ≠ parent := fun part mem => (plain part mem).1
  refine ⟨by rw [joined], parts_join_of_relative relative, plain, ?_, fun n behind => ?_⟩
  · rw [joined, parts_normalize_append noParent]
  · -- the first components are those of the root and some of the others
    have front : (root.join q).take n =
        { root with parts := root.parts ++ q.parts.take (n - root.parts.length) } := by
      rw [joined, take, List.take_append, List.take_of_length_le behind]
    have noParent' : ∀ part ∈ q.parts.take (n - root.parts.length), part ≠ parent :=
      fun part mem => noParent part (List.mem_of_mem_take mem)
    rw [front, parts_normalize_append noParent']
    exact List.prefix_append _ _

end Path

/-- What leads nowhere above its start leads below every root. -/
theorem StaysBelow.join_extendsBy {text : String} (below : StaysBelow text) (root : Path) :
    (root.join (Path.parse text)).ExtendsBy root (components text) := by
  rw [← Path.parts_parse]
  refine Path.join_extendsBy ((Path.anchor_parse_eq_relative_iff text).2 below.relative) ?_ root
  rw [Path.parts_parse]
  intro part mem
  refine ⟨?_, Path.slash_not_mem_of_mem_components mem⟩
  rintro rfl
  exact below.noParent (List.mem_filter.1 mem).1

/-! ## Settings -/

namespace Settings

variable {choice : Choice} {text : String}

/-- The check of a schema file that was given lets it pass unchanged, if it stays below the root. -/
theorem checkSchemaFile_eq_ok_iff {value : String} :
    checkSchemaFile text = .ok value ↔ StaysBelow text ∧ value = text := by
  rw [← isInsideRoot_iff, checkSchemaFile]
  cases isInsideRoot text with
  | true =>
      simp [eq_comm]
  | false =>
      simp

/-- A problem is told about the schema file exactly if it does not pass its check. -/
theorem exists_schemaFile_problem_iff :
    (∃ problems, build choice = .error problems ∧
      ∃ p ∈ problems, p.place = Setting.schemaFile.name) ↔
      ∀ value, checkGiven checkSchemaFile standard.schemaFile (choice .schemaFile) ≠ .ok value := by
  constructor
  · rintro ⟨problems, failed, p, mem, place⟩ value passed
    -- a problem with another setting has another place
    rw [(build_eq_error_iff.1 failed).2, passed] at mem
    rcases List.mem_append.1 mem with mem | mem
    · rcases List.mem_append.1 mem with mem | mem
      · cases mem
      · exact absurd ((place_of_mem_problemOf mem).symm.trans place) (by decide)
    · exact absurd ((place_of_mem_problemOf mem).symm.trans place) (by decide)
  · intro refused
    cases built : build choice with
    | ok s =>
        exact absurd (build_eq_ok_iff.1 built).1 (refused s.schemaFile)
    | error problems =>
        have all := (build_eq_error_iff.1 built).2
        cases checked : checkGiven checkSchemaFile standard.schemaFile (choice .schemaFile) with
        | ok value =>
            exact absurd checked (refused value)
        | error cause =>
            refine ⟨problems, rfl, { place := Setting.schemaFile.name, cause }, ?_, rfl⟩
            rw [all, checked]
            simp [problemOf]

/-- A schema file that is given as text is accepted, and kept as it is, exactly if it is not empty,
does not begin with a slash and has no component between its slashes that leads up; whether the
other settings are accepted is another matter. In every workspace with a root it leads to the path
of the root with its own components added, none of which leads up or begins anywhere else, and no
part of this way leads out of the root. -/
theorem schema_stays_below_root (text : String) :
    (∀ choice : Choice, choice .schemaFile = some (.text text) →
      ((∃ problems, build choice = .error problems ∧
          ∃ p ∈ problems, p.place = Setting.schemaFile.name) ↔ ¬ StaysBelow text) ∧
      ((∃ s, build choice = .ok s) ↔
        StaysBelow text ∧
          (∃ target, checkGiven checkTarget standard.target (choice .target) = .ok target) ∧
          ∃ level, checkGiven checkLogLevel standard.logLevel (choice .logLevel) = .ok level) ∧
      ∀ s, build choice = .ok s → s.schemaFile = text) ∧
    (StaysBelow text →
      (∀ (h : Host) (name : String) (root : Path), h.workspace = some { name, root := some root } →
        ∃ p, h.schemaPath text = .ok p ∧ p.ExtendsBy root (components text)) ∧
      ∀ (h : Host) (name root : String), h.workspace = some (Workspace.static name (some root)) →
        ∃ p, h.schemaPath text = .ok p ∧ p.parts = components root ++ components text ∧
          (p.anchor = .relative ↔ root.toList.head? ≠ some '/')) := by
  constructor
  · intro choice given
    have checked : checkGiven checkSchemaFile standard.schemaFile (choice .schemaFile) =
        checkSchemaFile text := by
      rw [given]
      rfl
    refine ⟨?_, ?_, fun s built => ?_⟩
    · rw [exists_schemaFile_problem_iff, checked]
      constructor
      · intro refused below
        exact refused text (checkSchemaFile_eq_ok_iff.2 ⟨below, rfl⟩)
      · intro above value passed
        exact above (checkSchemaFile_eq_ok_iff.1 passed).1
    · constructor
      · rintro ⟨s, built⟩
        rcases build_eq_ok_iff.1 built with ⟨file, target, level⟩
        rw [checked] at file
        exact ⟨(checkSchemaFile_eq_ok_iff.1 file).1, ⟨_, target⟩, _, level⟩
      · rintro ⟨below, ⟨target, targetPassed⟩, level, levelPassed⟩
        have file : checkSchemaFile text = .ok text := checkSchemaFile_eq_ok_iff.2 ⟨below, rfl⟩
        refine ⟨{ schemaFile := text, target, logLevel := level }, build_eq_ok_iff.2 ?_⟩
        exact ⟨checked.trans file, targetPassed, levelPassed⟩
    · have file := (build_eq_ok_iff.1 built).1
      rw [checked] at file
      exact (checkSchemaFile_eq_ok_iff.1 file).2
  · intro below
    have leads (h : Host) (name : String) (root : Path)
        (active : h.workspace = some { name, root := some root }) :
        h.schemaPath text = .ok (root.join (Path.parse text)) := by
      simp [Host.schemaPath, active]
    refine ⟨fun h name root active => ?_, fun h name root active => ?_⟩
    · exact ⟨_, leads h name root active, below.join_extendsBy root⟩
    · have extended := below.join_extendsBy (Path.parse root)
      refine ⟨_, leads h name (Path.parse root) active, ?_, ?_⟩
      · rw [extended.parts, Path.parts_parse]
      · rw [extended.anchor, Path.anchor_parse_eq_relative_iff]

/-- Points within a component and lone ones are accepted, also below a root that leads up itself; a
component that leads up is refused, even if it only leads back to the root. -/
theorem schema_stays_below_root_near_misses :
    build (Choice.ofValues [("schema_file", some (.text "..a/./b//...//"))]) =
      .ok { standard with schemaFile := "..a/./b//...//" } ∧
    (∃ p, Host.schemaPath ⟨.empty, .files, some (Workspace.static "w" (some "/x/../../srv//./ws/"))⟩
        "..a/./b//...//" = .ok p ∧
      p.parts = ["x", "..", "..", "srv", "ws", "..a", "b", "..."] ∧
      p.normalize.parts = ["srv", "ws", "..a", "b", "..."]) ∧
    ∃ problems, build (Choice.ofValues [("schema_file", some (.text "a//.."))]) = .error problems ∧
      ∃ p ∈ problems, p.place = "schema_file" := by
  have accepted : StaysBelow "..a/./b//...//" := ⟨by decide, by decide, by decide⟩
  refine ⟨?_, ?_, ?_⟩
  · have settings := (schema_stays_below_root "..a/./b//...//").1
      (Choice.ofValues [("schema_file", some (.text "..a/./b//...//"))]) (by rfl)
    rcases settings.2.1.2 ⟨accepted, ⟨_, rfl⟩, _, rfl⟩ with ⟨s, built⟩
    rw [built]
    rcases build_eq_ok_iff.1 built with ⟨-, target, level⟩
    cases s
    cases target
    cases level
    cases settings.2.2 _ built
    rfl
  · rcases ((schema_stays_below_root "..a/./b//...//").2 accepted).1
      ⟨.empty, .files, some (Workspace.static "w" (some "/x/../../srv//./ws/"))⟩ _ _ rfl
      with ⟨p, leads, below⟩
    exact ⟨p, leads, below.parts.trans (by decide), below.normal.trans (by decide)⟩
  · have settings := (schema_stays_below_root "a//..").1
      (Choice.ofValues [("schema_file", some (.text "a//.."))]) (by rfl)
    exact settings.1.2 fun below => below.noParent (by decide)

end Settings

end SchemaCompletion
