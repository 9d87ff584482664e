import SchemaCompletion.Proofs.Cache.Cursor

/-!
# Iteration

Iterators on the members of a type, advanced while the schema is asked and changes.

* `Session.advancesOf` — what the advances of an iterator give in a run;
* `Session.advancesOf_eq` — they give the names that the iterator has, and then the end;
* `Session.report_next` — an advance does nothing else;
* `Session.pinned_iterators` — an iterator gives the members of the schema that it was opened on,
  whatever happens in between.
-/

namespace SchemaCompletion

/-! ## What advances give -/

/-- The step advances an iterator. -/
def Step.advances (key : String) : Step → Bool
  | .next other => other == key
  | _ => false

namespace Session

variable {c : Configuration} {s : Session}

/-- What the advances of an iterator give in a run, in order. -/
def advancesOf (c : Configuration) (s : Session) (key : String) (steps : List Step) :
    List Outcome :=
  ((steps.zip (s.run c steps).1).filter (·.1.advances key)).map (·.2.outcome)

/-- What a sequence of advances gives that has some names to give: the names, and then the end, for
ever. -/
def pinned (names : List String) (count : Nat) : List Outcome :=
  (List.range count).map fun n => .answered (.member names[n]?)

theorem pinned_succ (names : List String) (count : Nat) :
    pinned names (count + 1) = .answered (.member names.head?) :: pinned names.tail count := by
  simp [pinned, List.range_succ_eq_map, List.head?_eq_getElem?, List.getElem?_tail,
    Function.comp_def]

/-- A step that neither opens nor advances an iterator leaves all of them as they are. -/
theorem iterators_perform {step : Step} (opens : ∀ key type, step ≠ .openFields key type)
    (advances : ∀ key, step ≠ .next key) : (s.perform c step).2.iterators = s.iterators := by
  have passed := s.perform_withIterators c opens advances s.iterators
  exact congrArg (fun r => r.2.iterators) passed

/-- A step other than its own leaves an iterator as it is. -/
theorem lookup_iterators_perform {key : String} {step : Step}
    (opens : ∀ type, step ≠ .openFields key type) (advances : step.advances key = false) :
    (s.perform c step).2.iterators.lookup key = s.iterators.lookup key := by
  cases step with
  | openFields other type =>
      have differs : key ≠ other := by
        rintro rfl
        exact opens type rfl
      simp only [perform, openFields, ask]
      rcases (Query.fieldsIn s.host c.schemaFile type).run.run s.memory with ⟨e | members, m⟩
      · rfl
      · rw [lookup_setIterator, if_neg differs]
  | next other =>
      have differs : key ≠ other := by
        rintro rfl
        simp [Step.advances] at advances
      simp only [perform, next]
      rcases s.iterators.lookup other with _ | _ | ⟨name, names⟩
      · rfl
      · rfl
      · rw [lookup_setIterator, if_neg differs]
  | _ =>
      rw [iterators_perform (by simp) (by simp)]

/-- An advance gives the first of the names that an iterator has, and leaves the others. -/
theorem perform_next {key : String} {names : List String}
    (listed : s.iterators.lookup key = some names) :
    (s.perform c (.next key)).1 = .answered (.member names.head?) ∧
      (s.perform c (.next key)).2.iterators.lookup key = some names.tail := by
  cases names with
  | nil =>
      simp only [perform, next, listed]
      exact ⟨rfl, rfl⟩
  | cons name names =>
      simp only [perform, next, listed]
      exact ⟨rfl, by rw [lookup_setIterator, if_pos rfl, List.tail_cons]⟩

/-- Whatever else happens, the advances of an iterator give the names that it has, and then the
end. -/
theorem advancesOf_eq {key : String} {names : List String} {steps : List Step}
    (listed : s.iterators.lookup key = some names)
    (held : ∀ type, .openFields key type ∉ steps) :
    s.advancesOf c key steps = pinned names (steps.countP (·.advances key)) := by
  -- by induction on the run; the iterator loses a name at each of its own advances only
  induction steps generalizing s names with
  | nil =>
      rfl
  | cons step steps ih =>
      have later : ∀ type, .openFields key type ∉ steps :=
        fun type mem => held type (List.mem_cons_of_mem _ mem)
      have split : s.advancesOf c key (step :: steps) =
          (if step.advances key then [(s.perform c step).1] else []) ++
            (s.perform c step).2.advancesOf c key steps := by
        cases own : step.advances key with
        | true =>
            simp only [advancesOf, run, List.zip_cons_cons, List.filter_cons, own, if_true,
              List.map_cons]
            rfl
        | false =>
            simp only [advancesOf, run, List.zip_cons_cons, List.filter_cons, own,
              Bool.false_eq_true, if_false, List.nil_append]
            rfl
      cases own : step.advances key with
      | true =>
          have step_eq : step = .next key := by
            cases step with
            | next other =>
                rw [eq_of_beq own]
            | _ =>
                cases own
          subst step_eq
          rcases perform_next (c := c) listed with ⟨given, left⟩
          rw [split, own, if_pos rfl, given, ih left later, List.countP_cons_of_pos own,
            pinned_succ]
          rfl
      | false =>
          have opens : ∀ type, step ≠ .openFields key type := by
            rintro type rfl
            exact held type List.mem_cons_self
          have still := (lookup_iterators_perform (c := c) opens own).trans listed
          rw [split, own, ih still later, List.countP_cons_of_neg (by simp [own])]
          rfl

/-- A step that only advances an iterator says a name or the end, and does nothing else. -/
theorem report_next (s : Session) (key : String) :
    (∃ name, (s.performReporting c (.next key)).1.outcome = .answered (.member name)) ∧
      (s.performReporting c (.next key)).1.events = [] ∧
      (s.performReporting c (.next key)).1.delivered = [] ∧
      (s.performReporting c (.next key)).2.memory = s.memory := by
  have memory : (s.perform c (.next key)).2.memory = s.memory :=
    memory_perform_of_silent c s rfl (by simp)
  have events : (s.performReporting c (.next key)).1.events = [] := by
    simp only [performReporting, memory, List.drop_length]
  have said : ∃ name, (s.perform c (.next key)).1 = .answered (.member name) := by
    simp only [perform, next]
    rcases s.iterators.lookup key with _ | _ | ⟨name, names⟩
    · exact ⟨none, rfl⟩
    · exact ⟨none, rfl⟩
    · exact ⟨some name, rfl⟩
  refine ⟨said, events, ?_, memory⟩
  simp only [performReporting, memory, List.drop_length, List.filterMap_nil, ite_self]

/-- What an iterator has to give once it has been opened on what a load has found. -/
theorem advancesOf_opened {found : Except Unavailable Snapshot} {m : Memory} {key type : String}
    {names : List String} {later : List Step}
    (loads : Loads s.host c.schemaFile s.memory (.ok found) m)
    (opens : ((Question.openFields key type).reply c found).opened = some (key, names))
    (held : ∀ type', .openFields key type' ∉ later) :
    (s.perform c (.openFields key type)).2.advancesOf c key later =
      pinned names (later.countP (·.advances key)) := by
  have performed := perform_of_found loads (.openFields key type)
  refine advancesOf_eq ?_ held
  rw [show s.perform c (.openFields key type) = _ from performed, settle, opens]
  exact (lookup_setIterator _ key key names).trans (if_pos rfl)

end Session

/-- A name that a schema does not know has no members. -/
theorem Catalog.members_of_unknown {c : Catalog} {name : String} (unknown : c.knows name = false) :
    c.members name = [] := by
  rw [knows, Bool.or_eq_false_iff] at unknown
  have undeclared : c.type? name = none := by
    simpa using unknown.1
  have unextended : c.extensions.lookup name = none := by
    refine List.lookup_eq_none_iff.2 fun entry mem => ?_
    have differs := List.any_eq_false.1 unknown.2 entry mem
    exact bne_iff_ne.2 fun same => differs (beq_iff_eq.2 same.symm)
  simp [members, extensionsOf, undeclared, unextended]

/-- So the fields of a type are its members, whether the schema knows it or not. -/
theorem Snapshot.fieldsIn_fst (s : Snapshot) (type : String) :
    (s.fieldsIn type).1 = s.members type := by
  cases known : s.knows type with
  | true =>
      simp only [fieldsIn, known, if_true]
  | false =>
      simp only [fieldsIn, known, Bool.false_eq_true, if_false, Catalog.members_of_unknown known]

namespace Session

/-- An iterator is opened on the members that a type has in the schema that is found at the call.
From then on, whatever steps come in between, its advances give the names of these members in order
and then the end, for ever; where no schema is found, or none that knows the type, they only give
the end. It makes no difference if the members are looked up one by one when they are asked for. All
diagnostics are told at the call, as if all members were asked for at once; an advance raises
nothing, tells nothing, reads nothing and leaves the memory as it is. -/
theorem pinned_iterators (c : Configuration) (h : Host) (before later : List Step)
    (key type : String) (held : ∀ type', .openFields key type' ∉ later) :
    let s := (start h).after c before
    let opening := s.performReporting c (.openFields key type)
    let steps := before ++ .openFields key type :: later
    let found := (Query.load s.host c.schemaFile).run.run s.memory
    (∀ snapshot m, found = (.ok (.ok snapshot), m) →
      opening.2.advancesOf c key later =
          pinned ((snapshot.members type).map (·.name)) (later.countP (·.advances key)) ∧
        (snapshot.knows type = false → snapshot.members type = [])) ∧
    (∀ u m, found = (.ok (.error u), m) →
      opening.2.advancesOf c key later = pinned [] (later.countP (·.advances key))) ∧
    ((CursorSession.start h).run c steps).1 = ((start h).run c steps).1 ∧
    opening.1.told = (s.performReporting c (.fields type)).1.told ∧
    ∀ (t : Session) (other : String),
      (∃ name, (t.performReporting c (.next other)).1.outcome = .answered (.member name)) ∧
      (t.performReporting c (.next other)).1.events = [] ∧
      (t.performReporting c (.next other)).1.delivered = [] ∧
      (t.performReporting c (.next other)).2.memory = t.memory := by
  intro s opening steps found
  refine ⟨?_, ?_, (CursorSession.follows_start h).run_reports steps, ?_,
    fun t other => t.report_next other⟩
  · intro snapshot m run
    have opens : ((Question.openFields key type).reply c (.ok snapshot)).opened =
        some (key, (snapshot.members type).map (·.name)) := by
      rw [← snapshot.fieldsIn_fst type]
      rfl
    exact ⟨advancesOf_opened (loads_iff.2 run) opens held, Catalog.members_of_unknown⟩
  · intro u m run
    exact advancesOf_opened (loads_iff.2 run) rfl held
  · -- both steps load once and tell the same of what they find
    rcases exists_loads s.host c.schemaFile s.memory with ⟨e | u | snapshot, m, loads⟩
    · exact (told_of_failure loads (.openFields key type)).trans
        (told_of_failure loads (.fields type)).symm
    · exact (told_of_found loads (.openFields key type)).trans
        (told_of_found loads (.fields type)).symm
    · exact (told_of_found loads (.openFields key type)).trans
        (told_of_found loads (.fields type)).symm

/-- Two iterators are open when the file is written, the memory is cleared and the file is
removed. -/
theorem pinned_iterators_through_changes :
    let old := "type Query { a: Int b: Int }".toUTF8.toList
    let new := "type Query { x: Int }".toUTF8.toList
    let c : Configuration := { schemaFile := "schema.graphql", dialect := .java }
    let path : Path := { anchor := .root, parts := ["ws", "schema.graphql"] }
    let s := start (Host.withSchema old 1)
    let later : List Step := [.next "i", .write path new 2, .openFields "j" "Query", .next "j",
      .invalidate, .next "i", .remove path, .types, .next "i", .next "j", .next "i"]
    (∀ type, .openFields "i" type ∉ later) ∧
      (s.perform c (.openFields "i" "Query")).2.advancesOf c "i" later =
        pinned ["a", "b"] 4 := by
  intro old new c path s later
  have held : ∀ type, .openFields "i" type ∉ later := by
    simp only [later, List.mem_cons, List.not_mem_nil, Step.openFields.injEq, String.reduceEq,
      reduceCtorEq, false_and, or_self, not_false_eq_true, implies_true]
  have names : (((Query.load s.host c.schemaFile).run.run s.memory).1.toOption.bind
      Except.toOption).map (fun snapshot => (snapshot.members "Query").map (·.name)) =
      some ["a", "b"] := by
    decide +kernel
  refine ⟨held, ?_⟩
  rcases run : (Query.load s.host c.schemaFile).run.run s.memory with ⟨e | u | snapshot, m⟩
  · simp [run, Except.toOption] at names
  · simp [run, Except.toOption] at names
  · have given := ((pinned_iterators c (Host.withSchema old 1) [] later "i" "Query" held).1
      snapshot m run).1
    simp only [run, Except.toOption, Option.bind_some, Option.map_some, Option.some.injEq] at names
    rw [names] at given
    exact given

end Session

end SchemaCompletion
