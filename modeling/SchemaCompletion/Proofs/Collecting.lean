import Mathlib.Data.List.Forall2
import Mathlib.Data.List.Induction
import SchemaCompletion.Attempt
import SchemaCompletion.Catalog
import SchemaCompletion.MemberNode

/-!
# Collecting

What the catalog of a document holds, against the document itself.

* `Definition.declaredType?`, `Definition.scalar?`, `Definition.directive?`, `Definition.block?` —
  what a definition adds to a catalog;
* `groupByName` — extension blocks under the names that they extend;
* `Catalog.Holds` — a catalog that holds what a document defines, in order;
* `Catalog.holds_of_collect` — the catalog of a document is such a one;
* `Parameter.Describes`, `Member.Describes` — a descriptor says what a node says;
* `Catalog.members_perm` — every member of the document is a member of one name, once;
* `Catalog.collect_exact` — nothing is lost, doubled or moved.
-/

namespace SchemaCompletion

open SchemaCompletion.Sdl

/-! ## What a definition adds -/

namespace Sdl

/-- The type that a definition declares; a scalar is none. -/
def Definition.declaredType? : Definition → Option TypeDefinition
  | .type d =>
    match d.body with
    | .scalar => none
    | _ => some d
  | _ => none

/-- The name of the scalar that a definition declares. -/
def Definition.scalar? : Definition → Option String
  | .type d =>
    match d.body with
    | .scalar => some d.name
    | _ => none
  | _ => none

/-- The name of the directive that a definition declares. -/
def Definition.directive? : Definition → Option String
  | .directive d => some d.name
  | _ => none

/-- The block by which a definition extends a type. -/
def Definition.block? : Definition → Option TypeDefinition
  | .typeExtension d => some d
  | _ => none

/-- The nodes at the fields of a named type or of a block that extends one. -/
def TypeDefinition.memberNodes (d : TypeDefinition) : List Node :=
  match d.part? .fields with
  | some (.several nodes) => nodes
  | _ => []

end Sdl

/-! ## Grouping -/

/-- Adding a name to a list of names changes their order of first appearance at the end, if at
all. -/
theorem eraseDups_concat (names : List String) (name : String) :
    (names ++ [name]).eraseDups =
      if name ∈ names then names.eraseDups else names.eraseDups ++ [name] := by
  rw [List.eraseDups_append]
  by_cases mem : name ∈ names
  · simp [List.removeAll, mem]
  · simp [List.removeAll, mem, List.eraseDups_cons]

theorem nodup_eraseDups (names : List String) : names.eraseDups.Nodup := by
  induction names using List.reverseRecOn with
  | nil =>
      simp
  | append_singleton names name ih =>
      rw [eraseDups_concat]
      by_cases mem : name ∈ names
      · rw [if_pos mem]
        exact ih
      · rw [if_neg mem]
        have fresh : ∀ earlier ∈ names.eraseDups, earlier ≠ name := by
          rintro earlier there rfl
          exact mem (List.mem_eraseDups.1 there)
        exact List.nodup_append.2 ⟨ih, by simp, by simpa using fresh⟩

/-- Blocks under the names that they extend: names in order of first appearance, the blocks of a
name in the order in which they come. -/
def groupByName (blocks : List TypeDefinition) : List (String × List TypeDefinition) :=
  (blocks.map (·.name)).eraseDups.map fun name => (name, blocks.filter (·.name == name))

/-- One block more changes the blocks of its own name only. -/
theorem filter_concat_of_ne (blocks : List TypeDefinition) {d : TypeDefinition} {name : String}
    (other : name ≠ d.name) :
    (blocks ++ [d]).filter (·.name == name) = blocks.filter (·.name == name) := by
  have kept : (d.name == name) = false := beq_false_of_ne other.symm
  simp [List.filter_append, kept]

/-- Under names that differ, a block goes to its name, or to the end if its name is not there. -/
theorem addExtension_map {names : List String} {blocks : List TypeDefinition} {d : TypeDefinition}
    (distinct : names.Nodup)
    (covered : d.name ∉ names → blocks.filter (·.name == d.name) = []) :
    Catalog.addExtension d (names.map fun name => (name, blocks.filter (·.name == name))) =
      (if d.name ∈ names then names else names ++ [d.name]).map fun name =>
        (name, (blocks ++ [d]).filter (·.name == name)) := by
  induction names with
  | nil =>
      have none : blocks.filter (·.name == d.name) = [] := covered List.not_mem_nil
      simp [Catalog.addExtension, none]
  | cons name names ih =>
      rcases List.nodup_cons.1 distinct with ⟨absent, distinct⟩
      rw [List.map_cons, Catalog.addExtension]
      by_cases same : name = d.name
      · -- the name is found, and no name after it is the same
        subst same
        have rest : (names.map fun name => (name, blocks.filter (·.name == name))) =
            names.map fun name => (name, (blocks ++ [d]).filter (·.name == name)) := by
          refine List.map_congr_left fun name mem => ?_
          have other : name ≠ d.name := fun same => absent (same ▸ mem)
          rw [filter_concat_of_ne blocks other]
        simp [rest]
      · have passed : d.name ∈ name :: names ↔ d.name ∈ names := by
          simp [Ne.symm same]
        have covered' : d.name ∉ names → blocks.filter (·.name == d.name) = [] :=
          fun absent => covered (mt passed.1 absent)
        rw [if_neg same, ih distinct covered', if_congr passed rfl rfl,
          ← filter_concat_of_ne blocks same]
        by_cases mem : d.name ∈ names
        · simp [mem]
        · simp [mem]

/-- Adding an extension block to grouped blocks groups one block more. -/
theorem addExtension_groupByName (blocks : List TypeDefinition) (d : TypeDefinition) :
    Catalog.addExtension d (groupByName blocks) = groupByName (blocks ++ [d]) := by
  have covered : d.name ∉ (blocks.map (·.name)).eraseDups →
      blocks.filter (·.name == d.name) = [] := by
    intro absent
    rw [List.mem_eraseDups] at absent
    refine List.filter_eq_nil_iff.2 fun block mem same => ?_
    exact absent (List.mem_map.2 ⟨block, mem, eq_of_beq same⟩)
  have names : ((blocks ++ [d]).map (·.name)).eraseDups =
      if d.name ∈ (blocks.map (·.name)).eraseDups then (blocks.map (·.name)).eraseDups
      else (blocks.map (·.name)).eraseDups ++ [d.name] := by
    rw [List.map_append, List.map_singleton, eraseDups_concat]
    simp only [List.mem_eraseDups]
  unfold groupByName
  rw [addExtension_map (nodup_eraseDups _) covered, names]

/-- Looking a name up gives its blocks. -/
theorem lookup_groupByName (blocks : List TypeDefinition) (name : String) :
    ((groupByName blocks).lookup name).getD [] = blocks.filter (·.name == name) := by
  unfold groupByName
  by_cases mem : name ∈ (blocks.map (·.name)).eraseDups
  · rw [List.lookup_graph _ mem, Option.getD_some]
  · -- a name that is not there extends nothing
    have absent : ((blocks.map (·.name)).eraseDups.map fun name =>
        (name, blocks.filter (·.name == name))).lookup name = none := by
      refine List.lookup_eq_none_iff.2 fun entry found => ?_
      rcases List.mem_map.1 found with ⟨there, mem', rfl⟩
      exact bne_iff_ne.2 fun same => mem (same ▸ mem')
    have none : blocks.filter (·.name == name) = [] := by
      rw [List.mem_eraseDups] at mem
      refine List.filter_eq_nil_iff.2 fun block found same => mem ?_
      exact List.mem_map.2 ⟨block, found, eq_of_beq same⟩
    rw [absent, none, Option.getD_none]

/-! ## One definition -/

namespace Sdl

variable {d : TypeDefinition}

theorem Definition.declaredType?_type (notScalar : d.body ≠ .scalar) :
    (Definition.type d).declaredType? = some d := by
  rcases d with ⟨description, name, directives, body⟩
  cases body with
  | scalar =>
      exact absurd rfl notScalar
  | _ =>
      rfl

theorem Definition.scalar?_type (notScalar : d.body ≠ .scalar) :
    (Definition.type d).scalar? = none := by
  rcases d with ⟨description, name, directives, body⟩
  cases body with
  | scalar =>
      exact absurd rfl notScalar
  | _ =>
      rfl

theorem Definition.declaredType?_scalar (scalar : d.body = .scalar) :
    (Definition.type d).declaredType? = none := by
  simp only [declaredType?, scalar]

theorem Definition.scalar?_scalar (scalar : d.body = .scalar) :
    (Definition.type d).scalar? = some d.name := by
  simp only [scalar?, scalar]

end Sdl

namespace Catalog

/-- What adding a definition to a catalog can come to. -/
inductive Adds (c : Catalog) : Definition → Catalog → Prop where
  | type {d : TypeDefinition} (notScalar : d.body ≠ .scalar) (unscaled : d.name ∉ c.scalars)
      (untyped : d.name ∉ c.typeNames) :
      Adds c (.type d) { c with types := c.types ++ [d] }
  | scalar {d : TypeDefinition} (scalar : d.body = .scalar) (unscaled : d.name ∉ c.scalars)
      (untyped : d.name ∉ c.typeNames) :
      Adds c (.type d) { c with scalars := c.scalars ++ [d.name] }
  | block {d : TypeDefinition} :
      Adds c (.typeExtension d) { c with extensions := addExtension d c.extensions }
  | directive {d : DirectiveDefinition} (fresh : d.name ∉ c.directives) :
      Adds c (.directive d) { c with directives := c.directives ++ [d.name] }
  | nothing {d : Definition} (noType : d.declaredType? = none) (noScalar : d.scalar? = none)
      (noDirective : d.directive? = none) (noBlock : d.block? = none) : Adds c d c

variable {c c' : Catalog} {document : Document} {d : Definition}

theorem adds_of_add (added : c.add d = .ok c') : c.Adds d c' := by
  cases d with
  | executable d =>
      cases added
  | type d =>
      cases known : c.declares d.name with
      | true =>
          simp [add, known] at added
      | false =>
          have fresh : d.name ∉ c.scalars ∧ d.name ∉ c.typeNames := by
            simpa [declares] using known
          by_cases scalar : d.body = .scalar
          · have result : c' = { c with scalars := c.scalars ++ [d.name] } := by
              simpa [add, known, scalar] using added.symm
            exact result ▸ .scalar scalar fresh.1 fresh.2
          · have result : c' = { c with types := c.types ++ [d] } := by
              rcases d with ⟨description, name, directives, body⟩
              cases body with
              | scalar =>
                  exact absurd rfl scalar
              | _ =>
                  simpa [add, known] using added.symm
            exact result ▸ .type scalar fresh.1 fresh.2
  | typeExtension d =>
      cases added
      exact .block
  | directive d =>
      by_cases known : d.name ∈ c.directives
      · simp [add, known] at added
      · have result : c' = { c with directives := c.directives ++ [d.name] } := by
          simpa [add, known] using added.symm
        exact result ▸ .directive known
  | _ =>
      cases added
      exact .nothing rfl rfl rfl rfl

/-! ## What a catalog holds -/

/-- The catalog holds what a document defines, in the order of the document, and no name twice.
Types and scalars share their names, directives have their own. -/
structure Holds (c : Catalog) (document : Document) : Prop where
  types : c.types = document.filterMap Definition.declaredType?
  scalars : c.scalars = document.filterMap Definition.scalar?
  directives : c.directives = document.filterMap Definition.directive?
  extensions : c.extensions = groupByName (document.filterMap Definition.block?)
  distinctNames : (c.typeNames ++ c.scalars).Nodup
  distinctDirectives : c.directives.Nodup

theorem holds_empty : empty.Holds [] where
  types := rfl
  scalars := rfl
  directives := rfl
  extensions := rfl
  distinctNames := List.nodup_nil
  distinctDirectives := List.nodup_nil

/-- A name that is new can stand anywhere among names that differ. -/
theorem nodup_append_cons {before after : List String} {name : String}
    (distinct : (before ++ after).Nodup) (fresh : name ∉ before ++ after) :
    (before ++ name :: after).Nodup :=
  List.perm_middle.nodup_iff.2 (List.nodup_cons.2 ⟨fresh, distinct⟩)

/-- Adding a definition adds what it defines. -/
theorem Adds.holds (adds : c.Adds d c') (holds : c.Holds document) :
    c'.Holds (document ++ [d]) := by
  rcases holds with ⟨types, scalars, directives, extensions, names, directiveNames⟩
  cases adds with
  | @type d notScalar unscaled untyped =>
      have declared := Definition.declaredType?_type notScalar
      have noScalar := Definition.scalar?_type notScalar
      have fresh : d.name ∉ c.typeNames ++ c.scalars := by simp [unscaled, untyped]
      have names' : ((c.types ++ [d]).map (·.name) ++ c.scalars).Nodup := by
        simpa [typeNames] using nodup_append_cons names fresh
      exact ⟨by simp [types, declared], by simp [scalars, noScalar],
        by simp [directives, Definition.directive?],
        by simp [extensions, List.filterMap_cons, Definition.block?],
        names', directiveNames⟩
  | @scalar d scalar unscaled untyped =>
      have noType := Definition.declaredType?_scalar scalar
      have declared := Definition.scalar?_scalar scalar
      have fresh : d.name ∉ (c.typeNames ++ c.scalars) ++ [] := by simp [unscaled, untyped]
      have names' : (c.typeNames ++ (c.scalars ++ [d.name])).Nodup := by
        have distinct : ((c.typeNames ++ c.scalars) ++ []).Nodup := by simpa using names
        simpa using nodup_append_cons distinct fresh
      exact ⟨by simp [types, noType], by simp [scalars, declared],
        by simp [directives, Definition.directive?],
        by simp [extensions, List.filterMap_cons, Definition.block?],
        names', directiveNames⟩
  | block =>
      exact ⟨by simp [types, Definition.declaredType?], by simp [scalars, Definition.scalar?],
        by simp [directives, Definition.directive?],
        by simp [extensions, addExtension_groupByName, Definition.block?], names, directiveNames⟩
  | @directive d fresh =>
      have directiveNames' : (c.directives ++ [d.name]).Nodup := by
        have distinct : (c.directives ++ []).Nodup := by simpa using directiveNames
        exact nodup_append_cons distinct (by simpa using fresh)
      exact ⟨by simp [types, Definition.declaredType?], by simp [scalars, Definition.scalar?],
        by simp [directives, Definition.directive?],
        by simp [extensions, List.filterMap_cons, Definition.block?],
        names, directiveNames'⟩
  | nothing noType noScalar noDirective noBlock =>
      exact ⟨by simp [types, noType], by simp [scalars, noScalar],
        by simp [directives, noDirective], by simp [extensions, noBlock], names, directiveNames⟩

theorem collect_concat (document : Document) (d : Definition) :
    collect (document ++ [d]) = collect document >>= fun c => c.add d := by
  rw [collect, List.foldlM_append]
  refine congrArg (collect document >>= ·) (funext fun c => ?_)
  rw [List.foldlM_cons]
  cases c.add d with
  | error e =>
      rfl
  | ok c =>
      rfl

/-- The catalog of a document holds what the document defines. -/
theorem holds_of_collect (collected : collect document = .ok c) : c.Holds document := by
  -- by induction on the document, from its end: the last definition is the one that is added last
  induction document using List.reverseRecOn generalizing c with
  | nil =>
      cases collected
      exact holds_empty
  | append_singleton document d ih =>
      rw [collect_concat] at collected
      rcases bind_eq_ok collected with ⟨before, earlier, added⟩
      exact (adds_of_add added).holds (ih earlier)

/-! ## Looking up -/

/-- Among types with names that differ, a search by name finds the one that there is. -/
theorem toList_find? {types : List TypeDefinition} (distinct : (types.map (·.name)).Nodup)
    (name : String) :
    (types.find? (·.name == name)).toList = types.filter (·.name == name) := by
  induction types with
  | nil =>
      rfl
  | cons d types ih =>
      rcases List.nodup_cons.1 distinct with ⟨absent, distinct⟩
      by_cases same : d.name = name
      · -- no type after it has the name
        have others : types.filter (·.name == name) = [] := by
          refine List.filter_eq_nil_iff.2 fun other mem again => absent ?_
          exact List.mem_map.2 ⟨other, mem, (eq_of_beq again).trans same.symm⟩
        simp [same, others]
      · simpa [same] using ih distinct

namespace Holds

variable (holds : c.Holds document)

include holds

theorem nodup_typeNames : c.typeNames.Nodup :=
  (List.nodup_append.1 holds.distinctNames).1

theorem toList_type? (name : String) :
    (c.type? name).toList =
      (document.filterMap Definition.declaredType?).filter (·.name == name) := by
  rw [type?, toList_find? holds.nodup_typeNames, holds.types]

theorem extensionsOf_eq (name : String) :
    c.extensionsOf name = (document.filterMap Definition.block?).filter (·.name == name) := by
  rw [extensionsOf, holds.extensions, lookup_groupByName]

/-- A name leads to the definition that declares it. -/
theorem type?_eq_some_iff {name : String} {d : TypeDefinition} :
    c.type? name = some d ↔ d ∈ document.filterMap Definition.declaredType? ∧ d.name = name := by
  have found : c.type? name = some d ↔ d ∈ (c.type? name).toList := by simp
  rw [found, holds.toList_type?, List.mem_filter, beq_iff_eq]

/-- The members of a name are those of its definition and of the blocks that extend it. -/
theorem members_eq (name : String) :
    c.members name =
      (((document.filterMap Definition.declaredType? ++
        document.filterMap Definition.block?).filter (·.name == name)).flatMap membersOf) := by
  rw [members, holds.toList_type?, holds.extensionsOf_eq, List.filter_append]

end Holds

end Catalog

/-! ## Descriptors -/

/-- A parameter says what an argument of a field says; its default is the printed one. -/
structure Parameter.Describes (p : Parameter) (v : InputValue) : Prop where
  name : p.name = v.name
  type : p.type = v.type
  description : p.description = v.description.getD ""
  default : p.default = v.default.map Value.print

/-- A member of a type says what a node says. It is a field, with the arguments as parameters in
their order, or it is an input value, with no parameters. -/
inductive Member.Describes (owner : String) (m : Member) : Node → Prop where
  | field {f : Field} (container : m.container = owner) (name : m.name = f.name)
      (type : m.type = f.type) (description : m.description = f.description.getD "")
      (isField : m.isField = true)
      (parameters : List.Forall₂ Parameter.Describes m.parameters f.arguments) :
      Describes owner m (.field f)
  | inputValue {v : InputValue} (container : m.container = owner) (name : m.name = v.name)
      (type : m.type = v.type) (description : m.description = v.description.getD "")
      (isField : m.isField = false) (parameters : m.parameters = []) :
      Describes owner m (.inputValue v)

theorem Parameter.describes_ofInput (v : InputValue) : (Parameter.ofInput v).Describes v :=
  ⟨rfl, rfl, rfl, rfl⟩

theorem Member.describes_ofField (owner : String) (f : Field) :
    (Member.ofField owner f).Describes owner (.field f) := by
  have parameters : List.Forall₂ Parameter.Describes (f.arguments.map Parameter.ofInput)
      f.arguments :=
    List.forall₂_map_left_iff.2 (List.forall₂_same.2 fun v _ => Parameter.describes_ofInput v)
  exact .field rfl rfl rfl rfl rfl parameters

theorem Member.describes_ofInput (owner : String) (v : InputValue) :
    (Member.ofInput owner v).Describes owner (.inputValue v) :=
  .inputValue rfl rfl rfl rfl rfl rfl

/-- Members that are made of nodes one by one describe them. -/
theorem forall₂_describes_map {α : Type} {owner : String} {member : α → Member}
    {node : α → Node} (describes : ∀ a, (member a).Describes owner (node a)) (items : List α) :
    List.Forall₂ (Member.Describes owner) (items.map member) (items.map node) :=
  List.forall₂_map_left_iff.2 (List.forall₂_map_right_iff.2
    (List.forall₂_same.2 fun a _ => describes a))

/-- The members of a type or of a block describe the nodes at its fields. -/
theorem membersOf_describes (d : TypeDefinition) :
    List.Forall₂ (Member.Describes d.name) (membersOf d) d.memberNodes := by
  rcases d with ⟨description, name, directives, body⟩
  cases body with
  | object interfaces fields =>
      exact forall₂_describes_map (Member.describes_ofField name) fields
  | interface interfaces fields =>
      exact forall₂_describes_map (Member.describes_ofField name) fields
  | input fields =>
      exact forall₂_describes_map (Member.describes_ofInput name) fields
  | _ =>
      exact .nil

/-- The members of several blocks of one name, one block after the other. -/
theorem flatMap_membersOf_describes {name : String} {blocks : List TypeDefinition}
    (named : ∀ block ∈ blocks, block.name = name) :
    List.Forall₂ (Member.Describes name) (blocks.flatMap membersOf)
      (blocks.flatMap TypeDefinition.memberNodes) := by
  induction blocks with
  | nil =>
      exact .nil
  | cons block blocks ih =>
      rw [List.forall_mem_cons] at named
      have first : List.Forall₂ (Member.Describes name) (membersOf block) block.memberNodes :=
        named.1 ▸ membersOf_describes block
      exact List.rel_append first (ih named.2)

/-! ## All members -/

/-- Blocks sorted by names are the blocks, if every name is there and no name twice. -/
theorem flatMap_filter_perm {names : List String} {blocks : List TypeDefinition}
    (distinct : names.Nodup) (covered : ∀ block ∈ blocks, block.name ∈ names) :
    (names.flatMap fun name => blocks.filter (·.name == name)).Perm blocks := by
  -- by induction on the names: the blocks of the first name go first, those of other names remain
  induction names generalizing blocks with
  | nil =>
      cases blocks with
      | nil =>
          exact .nil
      | cons block blocks =>
          exact absurd (covered block List.mem_cons_self) List.not_mem_nil
  | cons name names ih =>
      rcases List.nodup_cons.1 distinct with ⟨absent, distinct⟩
      have rest : ∀ other ∈ names, blocks.filter (·.name == other) =
          (blocks.filter fun block => !(block.name == name)).filter (·.name == other) := by
        intro other mem
        rw [List.filter_filter]
        refine List.filter_congr fun block _ => ?_
        by_cases same : block.name = other
        · have differs : block.name ≠ name := by
            rintro rfl
            exact absent (same ▸ mem)
          simp [differs]
        · simp [same]
      have remaining : ∀ block ∈ blocks.filter fun block => !(block.name == name),
          block.name ∈ names := by
        intro block mem
        rcases List.mem_filter.1 mem with ⟨there, differs⟩
        rcases List.mem_cons.1 (covered block there) with same | later
        · simp [same] at differs
        · exact later
      calc
        ((name :: names).flatMap fun name => blocks.filter (·.name == name)).Perm
            (blocks.filter (·.name == name) ++
              names.flatMap fun other => blocks.filter (·.name == other)) := .refl _
        List.Perm _ (blocks.filter (·.name == name) ++
              blocks.filter fun block => !(block.name == name)) := by
            rw [List.flatMap_congr rest]
            exact (ih distinct remaining).append_left _
        List.Perm _ blocks := List.filter_append_perm _ _

/-- The members of a document are those of its types and of its blocks. -/
theorem flatMap_members_perm (document : Document) :
    (document.flatMap fun d => (Node.definition d).members).Perm
      ((document.filterMap Definition.declaredType? ++
        document.filterMap Definition.block?).flatMap membersOf) := by
  induction document with
  | nil =>
      exact .nil
  | cons d document ih =>
      cases d with
      | type d =>
          by_cases scalar : d.body = .scalar
          · have none : membersOf d = [] := by simp only [membersOf, scalar]
            simpa [List.filterMap_cons, Definition.declaredType?_scalar scalar, Definition.block?,
              Node.members, none] using ih
          · simpa [List.filterMap_cons, Definition.declaredType?_type scalar, Definition.block?,
              Node.members] using ih.append_left (membersOf d)
      | typeExtension d =>
          -- the block comes after all types, wherever the document has it
          have moved : (d :: (document.filterMap Definition.declaredType? ++
              document.filterMap Definition.block?)).Perm
              (document.filterMap Definition.declaredType? ++
                d :: document.filterMap Definition.block?) := List.perm_middle.symm
          have front := ih.append_left (membersOf d)
          simpa [List.filterMap_cons, Definition.declaredType?, Definition.block?, Node.members]
            using front.trans (moved.flatMap_right membersOf)
      | _ =>
          simpa [List.filterMap_cons, Definition.declaredType?, Definition.block?, Node.members]
            using ih

namespace Catalog

/-- The names that may have members: those of types, and those that are extended. -/
def names (c : Catalog) : List String := (c.typeNames ++ c.extensions.map (·.1)).eraseDups

/-- Every member of the document is a member of one name, once. -/
theorem Holds.members_perm {c : Catalog} {document : Document} (holds : c.Holds document) :
    (c.names.flatMap c.members).Perm (document.flatMap fun d => (Node.definition d).members) := by
  let blocks := document.filterMap Definition.declaredType? ++ document.filterMap Definition.block?
  have covered : ∀ block ∈ blocks, block.name ∈ c.names := by
    intro block mem
    rw [names, List.mem_eraseDups, typeNames, holds.types, holds.extensions, List.mem_append]
    rcases List.mem_append.1 mem with declared | extending
    · exact .inl (List.mem_map_of_mem declared)
    · refine .inr ?_
      simpa [groupByName] using List.mem_map_of_mem (f := (·.name)) extending
  have sorted : (c.names.flatMap fun name => blocks.filter (·.name == name)).Perm blocks :=
    flatMap_filter_perm (nodup_eraseDups _) covered
  calc
    (c.names.flatMap c.members).Perm
        ((c.names.flatMap fun name => blocks.filter (·.name == name)).flatMap membersOf) := by
          rw [List.flatMap_assoc, List.flatMap_congr fun name _ => holds.members_eq name]
    List.Perm _ (blocks.flatMap membersOf) := sorted.flatMap_right membersOf
    List.Perm _ (document.flatMap fun d => (Node.definition d).members) :=
      (flatMap_members_perm document).symm

/-- The catalog of a document has the declared types in the order of the document, each under its
name, the declared scalars and directives, and no name twice. Extension blocks stand under the names
that they extend, in the order of the document. The members of a name describe the nodes of its
definition and then those of its blocks, wherever the blocks stand, and all names together have each
member of the document once. -/
theorem collect_exact {document : Document} {c : Catalog} (collected : collect document = .ok c) :
    let declared := document.filterMap Definition.declaredType?
    let blocks := document.filterMap Definition.block?
    (c.types = declared ∧ c.typeNames.Nodup ∧
      ∀ name d, c.type? name = some d ↔ d ∈ declared ∧ d.name = name) ∧
    (c.scalars = document.filterMap Definition.scalar? ∧ c.scalars.Nodup ∧
      ∀ name ∈ c.typeNames, name ∉ c.scalars) ∧
    (c.directives = document.filterMap Definition.directive? ∧ c.directives.Nodup) ∧
    (c.extensions.map (·.1) = (blocks.map (·.name)).eraseDups ∧
      (∀ entry ∈ c.extensions, entry.2 = blocks.filter (·.name == entry.1)) ∧
      ∀ name, c.extensionsOf name = blocks.filter (·.name == name)) ∧
    (∀ name, List.Forall₂ (Member.Describes name) (c.members name)
      ((declared.filter (·.name == name) ++ blocks.filter (·.name == name)).flatMap
        TypeDefinition.memberNodes)) ∧
    (c.names.flatMap c.members).Perm (document.flatMap fun d => (Node.definition d).members) := by
  intro declared blocks
  have holds := holds_of_collect collected
  rcases List.nodup_append.1 holds.distinctNames with ⟨-, distinctScalars, disjoint⟩
  refine ⟨⟨holds.types, holds.nodup_typeNames, fun name d => holds.type?_eq_some_iff⟩,
    ⟨holds.scalars, distinctScalars, ?_⟩, ⟨holds.directives, holds.distinctDirectives⟩,
    ⟨?_, ?_, fun name => holds.extensionsOf_eq name⟩, ?_, holds.members_perm⟩
  · intro name type scalar
    exact disjoint name type name scalar rfl
  · simp [holds.extensions, groupByName, blocks, Function.comp_def]
  · intro entry mem
    rw [holds.extensions] at mem
    rcases List.mem_map.1 mem with ⟨name, -, rfl⟩
    rfl
  · intro name
    rw [holds.members_eq, ← List.filter_append]
    refine flatMap_membersOf_describes fun block mem => ?_
    exact eq_of_beq (List.mem_filter.1 mem).2

/-- A document with blocks before and after the type that they extend, a block for a scalar, and one
for a name that nothing declares. -/
theorem collect_exact_scattered :
    let field (name : String) : Field :=
      { description := none, name, arguments := [], type := .name "Int", directives := [] }
    let type (name : String) (body : TypeBody) : TypeDefinition :=
      { description := none, name, directives := [], body }
    let document : Document :=
      [.typeExtension (type "Person" (.object [] [field "age"])), .type (type "Date" .scalar),
        .type (type "Person" (.object [] [field "id", field "mail"])),
        .typeExtension (type "Date" .scalar),
        .typeExtension (type "Person" (.object [] [field "name"])),
        .typeExtension (type "Ghost" (.interface [] [field "seen"]))]
    ∃ c, collect document = .ok c ∧ c.typeNames = ["Person"] ∧ c.scalars = ["Date"] ∧
      c.extensions.map (·.1) = ["Person", "Date", "Ghost"] ∧
      (c.members "Person").map (·.name) = ["id", "mail", "age", "name"] ∧
      (c.members "Ghost").map (·.name) = ["seen"] ∧
      (c.names.flatMap c.members).Perm
        (document.flatMap fun d => (Node.definition d).members) := by
  intro field type document
  have facts : ((collect document).toOption.map fun c =>
      (c.typeNames, c.scalars, (c.members "Person").map (·.name),
        (c.members "Ghost").map (·.name))) =
      some (["Person"], ["Date"], ["id", "mail", "age", "name"], ["seen"]) := by
    decide
  cases collected : collect document with
  | error e =>
      simp [collected, Except.toOption] at facts
  | ok c =>
      simp only [collected, Except.toOption, Option.map_some, Option.some.injEq,
        Prod.mk.injEq] at facts
      rcases facts with ⟨types, scalars, members, ghosts⟩
      rcases collect_exact collected with ⟨-, -, -, ⟨extended, -⟩, -, all⟩
      have order : c.extensions.map (·.1) = ["Person", "Date", "Ghost"] := by
        rw [extended]
        decide
      exact ⟨c, rfl, types, scalars, order, members, ghosts, all⟩

end Catalog

end SchemaCompletion
