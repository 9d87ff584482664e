import SchemaCompletion.Proofs.Collecting

/-!
# Reordering

The catalog of a document, against that of the same definitions in another order.

* `Document.Collectable` — what the definitions of a document have to satisfy, whatever their order;
* `Catalog.exists_collect_iff` — the documents that give a catalog are the collectable ones;
* `Document.blocksOf` — the blocks of a document that extend a name;
* `Catalog.collect_reordered` — two orders of the same definitions give catalogs with the same
  content, if the blocks of each name keep theirs.
-/

namespace SchemaCompletion

open SchemaCompletion.Sdl

/-! ## Documents that give a catalog -/

namespace Sdl

/-- The name that a definition declares in the space that types and scalars share. -/
def Definition.declaredName? : Definition → Option String
  | .type d => some d.name
  | _ => none

/-- No definition is executable, no name is declared twice, and no directive is. -/
structure Document.Collectable (document : Document) : Prop where
  declarative : ∀ e, Definition.executable e ∉ document
  distinctNames : (document.filterMap Definition.declaredName?).Nodup
  distinctDirectives : (document.filterMap Definition.directive?).Nodup

/-- The blocks of a document that extend a name, in order. -/
def Document.blocksOf (document : Document) (name : String) : List TypeDefinition :=
  (document.filterMap Definition.block?).filter (·.name == name)

variable {document document' : Document} {d : Definition}

theorem Document.Collectable.sublist (sub : document.Sublist document')
    (collectable : document'.Collectable) : document.Collectable where
  declarative e mem := collectable.declarative e (sub.subset mem)
  distinctNames := collectable.distinctNames.sublist (sub.filterMap _)
  distinctDirectives := collectable.distinctDirectives.sublist (sub.filterMap _)

theorem Document.Collectable.perm (reordered : document.Perm document')
    (collectable : document.Collectable) : document'.Collectable where
  declarative e mem := collectable.declarative e (reordered.mem_iff.2 mem)
  distinctNames := (reordered.filterMap _).nodup_iff.1 collectable.distinctNames
  distinctDirectives := (reordered.filterMap _).nodup_iff.1 collectable.distinctDirectives

/-- The declared names are those of types and those of scalars. -/
theorem declaredNames_perm (document : Document) :
    (document.filterMap Definition.declaredName?).Perm
      ((document.filterMap Definition.declaredType?).map (·.name) ++
        document.filterMap Definition.scalar?) := by
  induction document with
  | nil =>
      exact .nil
  | cons d document ih =>
      cases d with
      | type d =>
          have named : (Definition.type d).declaredName? = some d.name := rfl
          by_cases scalar : d.body = .scalar
          · -- the name of a scalar comes after the names of all types
            simp only [List.filterMap_cons, named, Definition.declaredType?_scalar scalar,
              Definition.scalar?_scalar scalar]
            exact (ih.cons _).trans List.perm_middle.symm
          · simp only [List.filterMap_cons, named, Definition.declaredType?_type scalar,
              Definition.scalar?_type scalar, List.map_cons, List.cons_append]
            exact ih.cons _
      | _ =>
          exact ih

end Sdl

namespace Catalog

variable {c c' : Catalog} {document document' : Document} {d : Definition}

/-- The names that a catalog holds are the declared ones. -/
theorem Holds.names_perm (holds : c.Holds document) :
    (c.typeNames ++ c.scalars).Perm (document.filterMap Definition.declaredName?) := by
  rw [typeNames, holds.types, holds.scalars]
  exact (declaredNames_perm document).symm

/-- Only an executable definition, or one that declares again what a catalog holds, cannot be
added. -/
theorem exists_add (declarative : ∀ e, d ≠ .executable e)
    (fresh : ∀ name, d.declaredName? = some name → name ∉ c.typeNames ++ c.scalars)
    (freshDirective : ∀ name, d.directive? = some name → name ∉ c.directives) :
    ∃ c', c.add d = .ok c' := by
  cases d with
  | executable e =>
      exact absurd rfl (declarative e)
  | type d =>
      have absent := fresh d.name rfl
      rw [List.mem_append, not_or] at absent
      have free : c.declares d.name = false := by simp [declares, absent]
      rw [add, free]
      split
      · contradiction
      · split
        · exact ⟨_, rfl⟩
        · exact ⟨_, rfl⟩
  | directive d =>
      have free : c.directives.contains d.name = false := by
        simpa using freshDirective d.name rfl
      exact ⟨_, by rw [add, free]; rfl⟩
  | _ =>
      exact ⟨_, rfl⟩

theorem collectable_of_collect (collected : collect document = .ok c) : document.Collectable := by
  have holds := holds_of_collect collected
  refine ⟨fun e mem => ?_, holds.names_perm.nodup_iff.1 holds.distinctNames, ?_⟩
  · -- where the executable definition stands, nothing is added
    rcases List.append_of_mem mem with ⟨before, later, rfl⟩
    rw [collect, List.foldlM_append] at collected
    rcases bind_eq_ok collected with ⟨reached, -, rest⟩
    rw [List.foldlM_cons] at rest
    rcases bind_eq_ok rest with ⟨_, added, -⟩
    cases added
  · rw [← holds.directives]
    exact holds.distinctDirectives

/-- The order of the definitions does not decide whether a document gives a catalog. -/
theorem exists_collect_iff : (∃ c, collect document = .ok c) ↔ document.Collectable := by
  constructor
  · rintro ⟨c, collected⟩
    exact collectable_of_collect collected
  · intro collectable
    -- by induction on the document, from its end: the last name is none of those before it
    induction document using List.reverseRecOn with
    | nil =>
        exact ⟨empty, rfl⟩
    | append_singleton document d ih =>
        rcases ih (collectable.sublist (List.sublist_append_left document [d])) with ⟨c, collected⟩
        have holds := holds_of_collect collected
        have declarative : ∀ e, d ≠ .executable e := by
          rintro e rfl
          exact collectable.declarative e (by simp)
        have fresh : ∀ name, d.declaredName? = some name → name ∉ c.typeNames ++ c.scalars := by
          intro name declares mem
          have distinct := collectable.distinctNames
          rw [List.filterMap_append, List.nodup_append] at distinct
          refine distinct.2.2 name (holds.names_perm.mem_iff.1 mem) name ?_ rfl
          simp [declares]
        have freshDirective : ∀ name, d.directive? = some name → name ∉ c.directives := by
          intro name declares mem
          have distinct := collectable.distinctDirectives
          rw [List.filterMap_append, List.nodup_append] at distinct
          rw [holds.directives] at mem
          refine distinct.2.2 name mem name ?_ rfl
          simp [declares]
        rcases exists_add declarative fresh freshDirective with ⟨c', added⟩
        exact ⟨c', by rw [collect_concat, collected, ok_bind, added]⟩

/-! ## Two orders -/

namespace Holds

variable (reordered : document.Perm document') (holds : c.Holds document)
  (holds' : c'.Holds document')

include reordered holds holds'

theorem typeNames_perm : c.typeNames.Perm c'.typeNames := by
  rw [typeNames, typeNames, holds.types, holds'.types]
  exact (reordered.filterMap _).map _

theorem scalars_perm : c.scalars.Perm c'.scalars := by
  rw [holds.scalars, holds'.scalars]
  exact reordered.filterMap _

theorem directives_perm : c.directives.Perm c'.directives := by
  rw [holds.directives, holds'.directives]
  exact reordered.filterMap _

/-- A name that is declared once leads to the same definition wherever that stands. -/
theorem type?_eq (name : String) : c.type? name = c'.type? name := by
  refine Option.ext fun d => ?_
  rw [holds.type?_eq_some_iff, holds'.type?_eq_some_iff, (reordered.filterMap _).mem_iff]

theorem members_eq_of_blocksOf (name : String)
    (blocks : document.blocksOf name = document'.blocksOf name) :
    c.members name = c'.members name := by
  have extended : c.extensionsOf name = c'.extensionsOf name := by
    rw [holds.extensionsOf_eq, holds'.extensionsOf_eq]
    exact blocks
  rw [members, members, type?_eq reordered holds holds', extended]

end Holds

/-- Two orders of the same definitions both give a catalog, or neither does. If the blocks that
extend a name come in the same order in both, for each name, the catalogs have the same types,
scalars and directives, every name leads to the same definition, and it has the same members in the
same order. -/
theorem collect_reordered (reordered : document.Perm document') :
    ((∃ c, collect document = .ok c) ↔ ∃ c', collect document' = .ok c') ∧
    ((∀ name, document.blocksOf name = document'.blocksOf name) →
      ∀ c c', collect document = .ok c → collect document' = .ok c' →
        c.typeNames.Perm c'.typeNames ∧ c.scalars.Perm c'.scalars ∧
        c.directives.Perm c'.directives ∧ (∀ name, c.type? name = c'.type? name) ∧
        ∀ name, c.members name = c'.members name) := by
  constructor
  · rw [exists_collect_iff, exists_collect_iff]
    exact ⟨.perm reordered, .perm reordered.symm⟩
  · intro blocks c c' collected collected'
    have holds := holds_of_collect collected
    have holds' := holds_of_collect collected'
    exact ⟨holds.typeNames_perm reordered holds', holds.scalars_perm reordered holds',
      holds.directives_perm reordered holds', holds.type?_eq reordered holds',
      fun name => holds.members_eq_of_blocksOf reordered holds' name (blocks name)⟩

/-- A type that stands before the blocks that extend it, and one that stands behind them. -/
theorem collect_reordered_type_last :
    let field (name : String) : Field :=
      { description := none, name, arguments := [], type := .name "Int", directives := [] }
    let type (name : String) (body : TypeBody) : TypeDefinition :=
      { description := none, name, directives := [], body }
    let declaration : Document := [.type (type "Person" (.object [] [field "id"]))]
    let others : Document :=
      [.typeExtension (type "Person" (.object [] [field "age"])), .type (type "Date" .scalar),
        .typeExtension (type "Ghost" (.interface [] [field "seen"])),
        .typeExtension (type "Person" (.object [] [field "name"]))]
    ∃ c c', collect (declaration ++ others) = .ok c ∧ collect (others ++ declaration) = .ok c' ∧
      c.typeNames.Perm c'.typeNames ∧ (∀ name, c.members name = c'.members name) ∧
      (c'.members "Person").map (·.name) = ["id", "age", "name"] := by
  intro field type declaration others
  have moved : (declaration ++ others).Perm (others ++ declaration) := List.perm_append_comm
  have facts : (collect (declaration ++ others)).toOption.map (fun c =>
      (c.members "Person").map (·.name)) = some ["id", "age", "name"] := by
    decide
  rcases collect_reordered moved with ⟨accepted, same⟩
  cases collected : collect (declaration ++ others) with
  | error e =>
      simp [collected, Except.toOption] at facts
  | ok c =>
      rcases accepted.1 ⟨c, collected⟩ with ⟨c', collected'⟩
      rcases same (fun _ => rfl) c c' collected collected' with ⟨types, -, -, -, members⟩
      have names : (c.members "Person").map (·.name) = ["id", "age", "name"] := by
        simpa [collected, Except.toOption] using facts
      exact ⟨c, c', rfl, collected', types, members, members "Person" ▸ names⟩

end Catalog

end SchemaCompletion
