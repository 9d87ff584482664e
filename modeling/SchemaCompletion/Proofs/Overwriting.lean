import Mathlib.Data.List.Basic
import SchemaCompletion.Attempt
import SchemaCompletion.Storage

/-!
# Overwriting

What a path leads to after a write to the file that it led to before.

* `lookup_set` — what keys lead to after the entry of one of them was set;
* `Storage.entryAt_setEntry` — the entries after one of them was set;
* `Storage.Standing` — a place with nothing missing on the way to it;
* `Storage.walk_spec` — where following a path ends, if it does;
* `Storage.walk_congr` — only directories decide where a path leads;
* `Storage.find_write` — after the write the path leads to what was written.
-/

namespace SchemaCompletion

/-! ## Keys -/

theorem lookup_filter_ne {α β : Type} [DecidableEq α] [BEq α] [LawfulBEq α]
    (entries : List (α × β)) (key other : α) :
    (entries.filter (·.1 != key)).lookup other =
      if other = key then none else entries.lookup other := by
  induction entries with
  | nil =>
      simp
  | cons first entries ih =>
      rcases first with ⟨there, entry⟩
      by_cases removed : there = key
      · subst removed
        rw [List.filter_cons_of_neg (by simp), ih]
        by_cases same : other = there
        · rw [if_pos same, if_pos same]
        · rw [if_neg same, if_neg same, List.lookup_cons, beq_false_of_ne same]
      · rw [List.filter_cons_of_pos (by simpa using removed), List.lookup_cons,
          List.lookup_cons, ih]
        by_cases same : other = there
        · subst same
          simp [removed]
        · rw [beq_false_of_ne same]

/-- Setting the entry of a key leaves the entries of other keys alone. -/
theorem lookup_set {α β : Type} [DecidableEq α] [BEq α] [LawfulBEq α]
    (entries : List (α × β)) (key other : α) (value : β) :
    ((key, value) :: entries.filter (·.1 != key)).lookup other =
      if other = key then some value else entries.lookup other := by
  by_cases same : other = key
  · simp [same]
  · rw [List.lookup_cons, beq_false_of_ne same, lookup_filter_ne, if_neg same]
    simp [same]

namespace Storage

variable {s s' : Storage} {path : Path} {place : List String}

/-! ## Entries -/

/-- Setting an entry changes what is at its place, and nothing else. -/
theorem entryAt_setEntry (below : place ≠ []) (entry : Option Entry) (other : List String) :
    (s.setEntry place entry).entryAt other = if other = place then entry else s.entryAt other := by
  by_cases root : other = []
  · subst root
    simp [entryAt, below.symm]
  · by_cases same : other = place
    · subst same
      cases entry with
      | none =>
          simp [entryAt, setEntry, root, lookup_filter_ne]
      | some entry =>
          simp [entryAt, setEntry, root]
    · cases entry with
      | none =>
          simp [entryAt, setEntry, root, same, lookup_filter_ne]
      | some entry =>
          simp [entryAt, setEntry, root, same, lookup_filter_ne, List.lookup_cons,
            beq_false_of_ne same]

/-! ## Places that can be reached -/

/-- Something is at the place and at every place on the way to it. -/
def Standing (s : Storage) (place : List String) : Prop :=
  ∀ front, front <+: place → (s.entryAt front).isSome = true

theorem standing_nil : s.Standing [] := by
  intro front before
  rw [List.prefix_nil.1 before]
  rfl

theorem Standing.dropLast (standing : s.Standing place) : s.Standing place.dropLast := by
  intro front before
  exact standing front (before.trans (List.dropLast_prefix place))

theorem Standing.concat {part : String} (standing : s.Standing place)
    (there : (s.entryAt (place ++ [part])).isSome = true) : s.Standing (place ++ [part]) := by
  intro front before
  rcases List.prefix_concat_iff.1 before with rfl | before
  · exact there
  · exact standing front before

/-- Where nothing is missing, no directories have to be made. -/
theorem Standing.makeParents_eq (standing : s.Standing place) (modified : Int) :
    s.makeParents modified place = s := by
  refine List.foldl_fixed' (fun n => ?_) _
  exact if_pos (standing _ (List.take_prefix n place))

/-! ## Following a path -/

/-- Following a path from a place ends where its components lead by name, with nothing missing on
the way, and none of them is too long. -/
theorem walk_spec {parts goal : List String} (standing : s.Standing place)
    (walk : s.walk path place parts = .ok (some goal)) :
    goal = parts.foldl Path.follow place ∧ s.Standing goal ∧
      ∀ part ∈ parts, part.utf8ByteSize ≤ componentLimit := by
  induction parts generalizing place with
  | nil =>
      cases walk
      exact ⟨rfl, standing, by simp⟩
  | cons part parts ih =>
      simp only [Storage.walk] at walk
      rw [List.foldl_cons, List.forall_mem_cons, Path.follow]
      -- the walk goes on in one of two ways, up or down, and else has no goal
      by_cases directory : ((s.entryAt place).map Entry.isDirectory).getD false = true
      · rw [if_pos directory] at walk
        by_cases up : part = Path.parent
        · rw [if_pos up] at walk
          rcases ih standing.dropLast walk with ⟨ends, reached, short⟩
          rw [if_pos up]
          exact ⟨ends, reached, by rw [up]; decide, short⟩
        · rw [if_neg up] at walk
          by_cases fits : part.utf8ByteSize ≤ componentLimit
          · rw [if_pos fits] at walk
            cases there : s.entryAt (place ++ [part]) with
            | none =>
                simp [there] at walk
            | some entry =>
                rw [there] at walk
                rcases ih (standing.concat (by rw [there]; rfl)) walk with ⟨ends, reached, short⟩
                rw [if_neg up]
                exact ⟨ends, reached, fits, short⟩
          · simp [fits] at walk
      · simp [directory] at walk

/-- Only what is a directory, and what is there at all, decides where a path leads. -/
theorem walk_congr (same : ∀ other, (s'.entryAt other).map Entry.isDirectory =
      (s.entryAt other).map Entry.isDirectory) (parts : List String) :
    s'.walk path place parts = s.walk path place parts := by
  induction parts generalizing place with
  | nil =>
      rfl
  | cons part parts ih =>
      have there : (s'.entryAt (place ++ [part])).isSome =
          (s.entryAt (place ++ [part])).isSome := by
        rw [← Option.isSome_map, same, Option.isSome_map]
      simp only [walk, same, ih]
      -- the entries may differ, but both are there or neither is
      cases now : s'.entryAt (place ++ [part]) with
      | none =>
          rw [now] at there
          have missing : s.entryAt (place ++ [part]) = none := by
            simpa using there.symm
          rw [missing]
      | some entry =>
          rw [now] at there
          rcases Option.isSome_iff_exists.1 there.symm with ⟨before, stood⟩
          rw [stood]

theorem find_eq_some_iff {entry : Entry} :
    s.find path = .ok (some entry) ↔
      path.hasNul = false ∧ path.toString.utf8ByteSize ≤ pathLimit ∧
        ∃ place, s.walk path [] path.parts = .ok (some place) ∧ s.entryAt place = some entry := by
  unfold find
  cases nul : path.hasNul with
  | true =>
      simp
  | false =>
      by_cases fits : path.toString.utf8ByteSize ≤ pathLimit
      · rcases walk : s.walk path [] path.parts with e | _ | place
        · simp [fits, Except.map]
        · simp [fits, Except.map]
        · simp [fits, Except.map]
      · simp [fits]

/-! ## Writing over a file -/

theorem nameable_eq (usable : path.hasNul = false)
    (short : ∀ part ∈ path.parts, part.utf8ByteSize ≤ componentLimit) :
    nameable path = .ok (path.parts.foldl Path.follow []) := by
  have all : path.parts.all (·.utf8ByteSize ≤ componentLimit) = true := by
    simpa using short
  simp [nameable, usable, all]

theorem nameable_directory_eq (usable : path.hasNul = false)
    (short : ∀ part ∈ path.parts, part.utf8ByteSize ≤ componentLimit) :
    nameable path.directory = .ok (path.directory.parts.foldl Path.follow []) := by
  refine nameable_eq ?_ fun part mem => short part (List.dropLast_subset _ mem)
  simp only [Path.hasNul, List.any_eq_false] at usable ⊢
  exact fun part mem => usable part (List.dropLast_subset _ mem)

/-- A write to a file that is there succeeds, and then the path leads to what was written. -/
theorem find_write {before : List UInt8} {time : Int}
    (stored : s.find path = .ok (some (.file before time))) (bytes : List UInt8) (modified : Int) :
    ∃ s', s.write path bytes modified = .ok s' ∧
      s'.find path = .ok (some (.file bytes modified)) := by
  rcases find_eq_some_iff.1 stored with ⟨usable, fits, place, walk, there⟩
  rcases walk_spec standing_nil walk with ⟨rfl, standing, short⟩
  have below : path.parts.foldl Path.follow [] ≠ [] := by
    -- the root is a directory
    intro root
    rw [root] at there
    cases there
  refine ⟨s.setEntry (path.parts.foldl Path.follow []) (some (.file bytes modified)), ?_, ?_⟩
  · simp only [write, nameable_directory_eq usable short, nameable_eq usable short, ok_bind, there,
      standing.makeParents_eq, pure_eq_ok]
  · -- a file takes the place of a file, so paths lead where they led before
    have same : ∀ other, ((s.setEntry (path.parts.foldl Path.follow [])
        (some (.file bytes modified))).entryAt other).map Entry.isDirectory =
          (s.entryAt other).map Entry.isDirectory := by
      intro other
      rw [entryAt_setEntry below]
      split
      · next same =>
          rw [same, there]
          rfl
      · rfl
    refine find_eq_some_iff.2 ⟨usable, fits, _, (walk_congr same _).trans walk, ?_⟩
    rw [entryAt_setEntry below, if_pos rfl]

/-! ## What is seen of a file -/

section

variable {bytes : List UInt8} {modified : Int}

theorem contains_of_find {entry : Entry} (stored : s.find path = .ok (some entry)) :
    s.contains path = .ok true := by
  have usable := (find_eq_some_iff.1 stored).1
  simp [contains, usable, stored, Except.map]

theorem read_of_find (stored : s.find path = .ok (some (.file bytes modified))) :
    s.read path = .ok bytes := by
  simp [read, stored]

theorem modifiedAt_of_find {entry : Entry} (stored : s.find path = .ok (some entry)) :
    s.modifiedAt path = .ok entry.modified := by
  simp [modifiedAt, stored]

end

end Storage

end SchemaCompletion
