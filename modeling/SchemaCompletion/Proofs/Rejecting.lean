import SchemaCompletion.Proofs.Reordering
import SchemaCompletion.Snapshot

/-!
# Rejecting documents

Which documents are no schema, and which of their definitions is to blame.

* `Definition.Offends` — a definition that cannot stand behind others, and what is wrong with it;
* `Document.FirstOffence` — the first place of a document at which something is wrong;
* `Catalog.collect_eq_error_iff` — a document fails with what is wrong at its first such place;
* `Catalog.collect_declaring_eq_error_iff` — extensions and schema definitions change nothing about
  that;
* `Snapshot.ofDocument_rejects` — so a document is a schema exactly if it is collectable, else the
  first definition that is executable or declares a name again is to blame.
-/

namespace SchemaCompletion

open SchemaCompletion.Sdl

/-! ## Offences -/

namespace Sdl

/-- A definition cannot stand behind others if it is executable, or if it declares a name that one
of them has declared in the same space of names. -/
inductive Definition.Offends (before : Document) : Definition → DocumentError → Prop where
  | executable {d : ExecutableDefinition} : Offends before (.executable d) (.executable d.kind)
  | type {d : TypeDefinition} (again : d.name ∈ before.filterMap Definition.declaredName?) :
      Offends before (.type d) (.duplicateType d.name)
  | directive {d : DirectiveDefinition} (again : d.name ∈ before.filterMap Definition.directive?) :
      Offends before (.directive d) (.duplicateDirective d.name)

/-- The definition at a place of a document cannot stand behind those before it. -/
def Document.OffendsAt (document : Document) (place : Nat) (e : DocumentError) : Prop :=
  ∃ d, document[place]? = some d ∧ d.Offends (document.take place) e

/-- The first place of a document with a definition that cannot stand there. -/
structure Document.FirstOffence (document : Document) (place : Nat) (e : DocumentError) : Prop where
  offends : document.OffendsAt place e
  first : ∀ earlier < place, ∀ e', ¬ document.OffendsAt earlier e'

/-- A definition that can be wrong at all: schema definitions and extensions of any kind cannot. -/
def Definition.isDeclaring : Definition → Bool
  | .executable _ => true
  | .type _ => true
  | .directive _ => true
  | _ => false

def Definition.isDirective : Definition → Bool
  | .directive _ => true
  | _ => false

variable {before document rest : Document} {d : Definition} {e e' : DocumentError}
  {place place' : Nat}

/-- Only one thing can be wrong with a definition. -/
theorem Definition.Offends.unique (offends : d.Offends before e) (offends' : d.Offends before e') :
    e = e' := by
  cases offends with
  | executable =>
      cases offends'
      rfl
  | type =>
      cases offends'
      rfl
  | directive =>
      cases offends'
      rfl

theorem Document.OffendsAt.lt_length (offends : document.OffendsAt place e) :
    place < document.length := by
  rcases offends with ⟨d, there, -⟩
  exact (List.getElem?_eq_some_iff.1 there).1

/-- What follows a definition does not matter for it. -/
theorem offendsAt_append (inside : place < document.length) :
    Document.OffendsAt (document ++ rest) place e ↔ document.OffendsAt place e := by
  have kept : (document ++ rest).take place = document.take place := by
    rw [List.take_append_of_le_length (Nat.le_of_lt inside)]
  simp only [Document.OffendsAt, List.getElem?_append_left inside, kept]

/-- The last definition has all others before it. -/
theorem offendsAt_concat :
    Document.OffendsAt (document ++ [d]) document.length e ↔ d.Offends document e := by
  simp [Document.OffendsAt]

/-- The first offence of a document remains the first whatever follows. -/
theorem Document.FirstOffence.append (first : document.FirstOffence place e) (rest : Document) :
    Document.FirstOffence (document ++ rest) place e := by
  have inside := first.offends.lt_length
  refine ⟨(offendsAt_append inside).2 first.offends, fun earlier before e' offends => ?_⟩
  have inside' : earlier < document.length := Nat.lt_trans before inside
  exact first.first earlier before e' ((offendsAt_append inside').1 offends)

theorem Document.FirstOffence.unique (first : document.FirstOffence place e)
    (first' : document.FirstOffence place' e') : place = place' ∧ e = e' := by
  have same : place = place' := by
    rcases Nat.lt_trichotomy place place' with before | same | behind
    · exact absurd first.offends (first'.first place before e)
    · exact same
    · exact absurd first'.offends (first.first place' behind e')
  subst same
  rcases first.offends with ⟨d, there, offends⟩
  rcases first'.offends with ⟨d', there', offends'⟩
  cases there.symm.trans there'
  exact ⟨rfl, offends.unique offends'⟩

end Sdl

/-! ## The first offence decides -/

namespace Catalog

variable {c c' : Catalog} {before document : Document} {d : Definition} {e : DocumentError}
  {place : Nat}

/-- The names that a catalog knows are those that the document declares. -/
theorem Holds.declares_iff (holds : c.Holds document) (name : String) :
    c.declares name = true ↔ name ∈ document.filterMap Definition.declaredName? := by
  rw [← holds.names_perm.mem_iff, List.mem_append, declares, Bool.or_eq_true,
    List.contains_iff_mem, List.contains_iff_mem, or_comm]

/-- A definition cannot be added to what a document declares if it cannot stand behind the
document. -/
theorem Holds.add_eq_error_iff (holds : c.Holds before) :
    c.add d = .error e ↔ d.Offends before e := by
  cases d with
  | executable d =>
      constructor
      · intro failed
        cases failed
        exact .executable
      · rintro ⟨⟩
        rfl
  | type d =>
      cases known : c.declares d.name with
      | true =>
          have failed : c.add (.type d) = .error (.duplicateType d.name) := by
            rw [add, if_pos known]
          rw [failed]
          constructor
          · intro same
            cases same
            exact .type ((holds.declares_iff d.name).1 known)
          · rintro ⟨⟩
            rfl
      | false =>
          have added : ∃ c', c.add (.type d) = .ok c' := by
            rw [add, known]
            cases d.body with
            | _ =>
                exact ⟨_, rfl⟩
          rcases added with ⟨c', added⟩
          constructor
          · intro failed
            cases added.symm.trans failed
          · rintro ⟨⟩
            next again =>
              cases known.symm.trans ((holds.declares_iff d.name).2 again)
  | directive d =>
      by_cases known : d.name ∈ c.directives
      · have failed : c.add (.directive d) = .error (.duplicateDirective d.name) := by
          rw [add, if_pos (List.contains_iff_mem.2 known)]
        rw [failed]
        constructor
        · intro same
          cases same
          exact .directive (holds.directives ▸ known)
        · rintro ⟨⟩
          rfl
      · have added : c.add (.directive d) =
            .ok { c with directives := c.directives ++ [d.name] } := by
          rw [add, if_neg (mt List.contains_iff_mem.1 known)]
        rw [added]
        constructor
        · intro failed
          cases failed
        · rintro ⟨⟩
          next again =>
            exact absurd (holds.directives ▸ again) known
  | _ =>
      -- schema definitions and extensions are always added
      constructor
      · intro failed
        cases failed
      · rintro ⟨⟩

/-- In a document that gives a catalog nothing is wrong. -/
theorem not_offendsAt_of_collect (collected : collect document = .ok c) (place : Nat)
    (e : DocumentError) : ¬ document.OffendsAt place e := by
  induction document using List.reverseRecOn generalizing c with
  | nil =>
      rintro ⟨d, there, -⟩
      cases there
  | append_singleton document d ih =>
      intro offends
      rw [collect_concat] at collected
      rcases bind_eq_ok collected with ⟨reached, earlier, added⟩
      have inside : place < document.length + 1 := by
        simpa using offends.lt_length
      rcases Nat.lt_succ_iff_lt_or_eq.1 inside with before | rfl
      · exact ih earlier ((offendsAt_append before).1 offends)
      · have failed : reached.add d = .error e :=
          (holds_of_collect earlier).add_eq_error_iff.2 (offendsAt_concat.1 offends)
        cases added.symm.trans failed

/-- Where collecting stops, there is the first offence. -/
theorem exists_firstOffence_of_collect (failed : collect document = .error e) :
    ∃ place, document.FirstOffence place e := by
  -- by induction on the document, from its end: either it has failed before the last definition, or
  -- that definition is the first that cannot be added
  induction document using List.reverseRecOn with
  | nil =>
      cases failed
  | append_singleton document d ih =>
      rw [collect_concat] at failed
      cases earlier : collect document with
      | error e' =>
          rw [earlier] at failed
          cases failed
          rcases ih earlier with ⟨place, first⟩
          exact ⟨place, first.append [d]⟩
      | ok reached =>
          rw [earlier, ok_bind] at failed
          have offends := (holds_of_collect earlier).add_eq_error_iff.1 failed
          refine ⟨document.length, offendsAt_concat.2 offends, fun place before e' offends' => ?_⟩
          exact not_offendsAt_of_collect earlier place e' ((offendsAt_append before).1 offends')

/-- A document fails with what is wrong at its first offence. -/
theorem collect_eq_error_iff :
    collect document = .error e ↔ ∃ place, document.FirstOffence place e := by
  constructor
  · exact exists_firstOffence_of_collect
  · rintro ⟨place, first⟩
    cases outcome : collect document with
    | error e' =>
        rcases exists_firstOffence_of_collect outcome with ⟨place', first'⟩
        rw [(first.unique first').2]
    | ok c =>
        exact absurd first.offends (not_offendsAt_of_collect outcome place e)

/-! ## What cannot be wrong -/

/-- Which blocks a catalog has does not matter when a definition is added. -/
theorem add_withExtensions (c : Catalog) (extensions : List (String × List TypeDefinition))
    (d : Definition) :
    (∃ e, c.add d = .error e ∧ { c with extensions }.add d = .error e) ∨
      ∃ c' extensions', c.add d = .ok c' ∧
        { c with extensions }.add d = .ok { c' with extensions := extensions' } := by
  have declares (name : String) : { c with extensions }.declares name = c.declares name := rfl
  cases d with
  | executable d =>
      exact .inl ⟨_, rfl, rfl⟩
  | type d =>
      simp only [add, declares]
      cases c.declares d.name with
      | true =>
          exact .inl ⟨_, rfl, rfl⟩
      | false =>
          cases d.body with
          | _ =>
              exact .inr ⟨_, extensions, rfl, rfl⟩
  | directive d =>
      simp only [add]
      cases c.directives.contains d.name with
      | true =>
          exact .inl ⟨_, rfl, rfl⟩
      | false =>
          exact .inr ⟨_, extensions, rfl, rfl⟩
  | typeExtension d =>
      exact .inr ⟨_, addExtension d extensions, rfl, rfl⟩
  | _ =>
      exact .inr ⟨_, extensions, rfl, rfl⟩

/-- Only the blocks of a catalog change with a definition that declares nothing. -/
theorem add_of_not_isDeclaring (idle : d.isDeclaring = false) (c : Catalog) :
    ∃ extensions, c.add d = .ok { c with extensions } := by
  cases d with
  | typeExtension d =>
      exact ⟨_, rfl⟩
  | schema d =>
      exact ⟨c.extensions, rfl⟩
  | schemaExtension d =>
      exact ⟨c.extensions, rfl⟩
  | directiveExtension name directives =>
      exact ⟨c.extensions, rfl⟩
  | _ =>
      cases idle

theorem foldlM_declaring_eq_error_iff (document : Document) (c : Catalog)
    (extensions : List (String × List TypeDefinition)) (e : DocumentError) :
    (document.filter Definition.isDeclaring).foldlM add c = .error e ↔
      document.foldlM add { c with extensions } = .error e := by
  -- by induction on the document, for two catalogs that differ in their blocks only
  induction document generalizing c extensions with
  | nil =>
      constructor
      · intro failed
        cases failed
      · intro failed
        cases failed
  | cons d document ih =>
      cases declaring : d.isDeclaring with
      | true =>
          rw [List.filter_cons_of_pos declaring, List.foldlM_cons, List.foldlM_cons]
          rcases add_withExtensions c extensions d with
            ⟨e', failed, failed'⟩ | ⟨c', extensions', added, added'⟩
          · rw [failed, failed', error_bind, error_bind]
          · rw [added, added', ok_bind, ok_bind]
            exact ih c' extensions'
      | false =>
          rcases add_of_not_isDeclaring declaring { c with extensions } with ⟨extensions', added⟩
          rw [List.filter_cons_of_neg (by simp [declaring]), List.foldlM_cons, added, ok_bind]
          exact ih c extensions'

/-- Without its schema definitions and extensions a document fails with the same error, or not at
all if it does not fail with them. -/
theorem collect_declaring_eq_error_iff (document : Document) (e : DocumentError) :
    collect (document.filter Definition.isDeclaring) = .error e ↔ collect document = .error e :=
  foldlM_declaring_eq_error_iff document empty [] e

end Catalog

namespace Sdl

/-- A list of definitions and what some of them give: only those count. -/
theorem filterMap_filter_eq {α : Type} {part : Definition → Option α} {kept : Definition → Bool}
    (document : Document) (covered : ∀ d, kept d = false → part d = none) :
    (document.filter kept).filterMap part = document.filterMap part := by
  rw [List.filterMap_filter]
  refine List.filterMap_congr fun d _ => ?_
  cases keeps : kept d with
  | true =>
      rfl
  | false =>
      simp [covered d keeps]

/-- Directives do not meet the other definitions: each kind has to be collectable by itself. -/
theorem collectable_iff_directives (document : Document) :
    document.Collectable ↔
      Document.Collectable (document.filter Definition.isDirective) ∧
        Document.Collectable (document.filter fun d => !d.isDirective) := by
  have directives : (document.filter Definition.isDirective).filterMap Definition.directive? =
      document.filterMap Definition.directive? := by
    refine filterMap_filter_eq document fun d other => ?_
    cases d with
    | directive d =>
        cases other
    | _ =>
        rfl
  have names : (document.filter fun d => !d.isDirective).filterMap Definition.declaredName? =
      document.filterMap Definition.declaredName? := by
    refine filterMap_filter_eq document fun d other => ?_
    cases d with
    | directive d =>
        rfl
    | _ =>
        cases other
  constructor
  · intro collectable
    exact ⟨collectable.sublist List.filter_sublist, collectable.sublist List.filter_sublist⟩
  · rintro ⟨directive, other⟩
    refine ⟨fun e mem => ?_, names ▸ other.distinctNames, directives ▸ directive.distinctDirectives⟩
    exact other.declarative e (List.mem_filter.2 ⟨mem, rfl⟩)

end Sdl

/-! ## Documents and schemas -/

namespace Snapshot

/-- The snapshot of a document that was read from a source. -/
def ofDocument (source : String) (modified : Int) (document : Document) :
    Except ParseError Snapshot :=
  ofContent source modified ((Catalog.collect document).mapError ContentError.document)

variable {source : String} {modified : Int} {document : Document}

theorem exists_ofDocument_iff :
    (∃ s, ofDocument source modified document = .ok s) ↔
      ∃ c, Catalog.collect document = .ok c := by
  unfold ofDocument
  cases Catalog.collect document with
  | error e =>
      constructor
      · rintro ⟨s, read⟩
        cases read
      · rintro ⟨c, collected⟩
        cases collected
  | ok c =>
      exact ⟨fun _ => ⟨c, rfl⟩, fun _ => ⟨_, rfl⟩⟩

theorem ofDocument_eq_error_iff {p : ParseError} :
    ofDocument source modified document = .error p ↔
      ∃ e, Catalog.collect document = .error e ∧ p = { source, cause := .document e } := by
  unfold ofDocument
  cases Catalog.collect document with
  | error e =>
      constructor
      · intro failed
        cases failed
        exact ⟨e, rfl, rfl⟩
      · rintro ⟨e', same, rfl⟩
        cases same
        rfl
  | ok c =>
      constructor
      · intro failed
        cases failed
      · rintro ⟨e, failed, -⟩
        cases failed

/-- A document is a schema exactly if nothing in it is executable, no name is declared by two types
or scalars, and no directive is declared twice. Directives are apart from the rest, and schema
definitions and extensions make no difference. If it is none, the error is that of the first
definition that is executable or declares a name again, and says which kind or name it is. -/
theorem ofDocument_rejects (source : String) (modified : Int) (document : Document) :
    ((∃ s, ofDocument source modified document = .ok s) ↔ document.Collectable) ∧
    (document.Collectable ↔
      Document.Collectable (document.filter Definition.isDirective) ∧
        Document.Collectable (document.filter fun d => !d.isDirective)) ∧
    (∀ p, ofDocument source modified (document.filter Definition.isDeclaring) = .error p ↔
      ofDocument source modified document = .error p) ∧
    ∀ p, ofDocument source modified document = .error p ↔
      ∃ place e, document.FirstOffence place e ∧ p = { source, cause := .document e } ∧
        p.message = "parsing of schema at " ++ source ++ " failed:\n" ++ e.message := by
  refine ⟨exists_ofDocument_iff.trans Catalog.exists_collect_iff,
    collectable_iff_directives document, fun p => ?_, fun p => ?_⟩
  · rw [ofDocument_eq_error_iff, ofDocument_eq_error_iff]
    simp only [Catalog.collect_declaring_eq_error_iff]
  · rw [ofDocument_eq_error_iff]
    constructor
    · rintro ⟨e, failed, rfl⟩
      rcases Catalog.collect_eq_error_iff.1 failed with ⟨place, first⟩
      exact ⟨place, e, first, rfl, rfl⟩
    · rintro ⟨place, e, first, rfl, -⟩
      exact ⟨e, Catalog.collect_eq_error_iff.2 ⟨place, first⟩, rfl⟩

/-- A directive that is called like a scalar and a type that is, too, before an operation: the type
is to blame, the blocks for it before it are not. -/
theorem ofDocument_rejects_type_after_scalar :
    let type (body : TypeBody) : TypeDefinition :=
      { description := none, name := "Date", directives := [], body }
    let directive : DirectiveDefinition :=
      { description := none, name := "Date", arguments := [], directives := [], repeatable := false,
        locations := ["FIELD"] }
    let operation : ExecutableDefinition :=
      { kind := .operation, description := none, name := none, directives := [] }
    let declared : Document :=
      [.typeExtension (type (.union ["A"])), .type (type .scalar), .directive directive,
        .typeExtension (type (.union ["B"]))]
    (∃ s, ofDocument "schema.graphql" 0 declared = .ok s) ∧
      ∃ p, ofDocument "schema.graphql" 0 (declared ++ [.type (type (.enum [])),
          .executable operation, .directive directive]) = .error p ∧
        p.message =
          "parsing of schema at schema.graphql failed:\ntype 'Date' is defined more than once" := by
  intro type directive operation declared
  have collectable : declared.Collectable := by
    refine ⟨fun e mem => ?_, by decide, by decide⟩
    simp [declared] at mem
  refine ⟨(ofDocument_rejects "schema.graphql" 0 declared).1.2 collectable,
    ⟨"schema.graphql", .document (.duplicateType "Date")⟩, ?_, by decide⟩
  have offends : Document.OffendsAt (declared ++ [.type (type (.enum [])), .executable operation,
      .directive directive]) 4 (.duplicateType "Date") :=
    ⟨.type (type (.enum [])), rfl, .type (by decide)⟩
  refine ((ofDocument_rejects "schema.graphql" 0 _).2.2.2 _).2
    ⟨4, .duplicateType "Date", ⟨offends, fun earlier before e' offends' => ?_⟩, rfl, rfl⟩
  -- what stands before the type is collectable
  rcases Catalog.exists_collect_iff.2 collectable with ⟨c, collected⟩
  exact Catalog.not_offendsAt_of_collect collected earlier e' ((offendsAt_append before).1 offends')

end Snapshot

end SchemaCompletion
