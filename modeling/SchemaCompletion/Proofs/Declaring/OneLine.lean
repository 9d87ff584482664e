import SchemaCompletion.Proofs.Collecting
import SchemaCompletion.Proofs.Declaring.Unambiguous
import SchemaCompletion.Proofs.Reading.Blank
import SchemaCompletion.Proofs.Reading.Grammar
import SchemaCompletion.Proofs.Reading.Tokens

/-!
# Declarations on one line

Whatever a schema has in it, each of its members can be read and declared, and the declaration is
one line.

* `Node.readMember`, `TypeDefinition.readMembers` — reading the members of a block node by node,
  where a node of another kind is an error;
* `Dialect.checkedTypeText`, `Dialect.checkedMethodText` — declaring, where a value that is no type
  is an error;
* `Member.WellFormed`, `Catalog.wellFormed_members_of_ofText` — all names are proper, and types are
  as the grammar has them;
* `Text.Plain`, `Member.Named.plain_methodText` — proper names make declarations of printable ASCII
  characters, which are all on one line;
* `Snapshot.declares_members` — so every member of a schema is declared on one line.
-/

namespace SchemaCompletion

open SchemaCompletion.Sdl SchemaCompletion.Text

/-! ## Reading node by node -/

namespace Sdl

namespace Node

/-- The type expression at the type of a node. -/
def typeAt (n : Node) : Except NodeError TypeExpr :=
  match n.part? .type with
  | some (.one t) => t.typeExpr
  | _ => .error (.notType n.label)

/-- The nodes at the arguments of a node; a node without arguments has none. -/
def argumentsAt (n : Node) : List Node :=
  match n.part? .arguments with
  | some (.several nodes) => nodes
  | _ => []

/-- The parameter at a node, with the type at the type of the node. -/
def readParameter (n : Node) : Except NodeError Parameter := do
  let p ← n.parameter
  let type ← n.typeAt
  return { p with type }

/-- The member at a node, with the type at the type of the node and the parameters at its
arguments. -/
def readMember (container : String) (n : Node) : Except NodeError Member := do
  let m ← n.member container
  let type ← n.typeAt
  let parameters ← n.argumentsAt.mapM readParameter
  return { m with type, kind := if m.isField then .field parameters else .inputValue }

end Node

/-- The members of a named type or of a block that extends one, node by node. -/
def TypeDefinition.readMembers (d : TypeDefinition) : Except NodeError (List Member) :=
  d.memberNodes.mapM (Node.readMember d.name)

end Sdl

namespace Sdl

/-- Reading the nodes of some items never fails, if it does not fail at any of them. -/
theorem mapM_nodes {α β : Type} {node : α → Node} {read : Node → Except NodeError β} {value : α → β}
    (reads : ∀ a, read (node a) = .ok (value a)) (items : List α) :
    (items.map node).mapM read = .ok (items.map value) := by
  rw [List.mapM_map]
  exact mapM_eq_ok reads items

theorem Node.readParameter_inputValue (v : InputValue) :
    (Node.inputValue v).readParameter = .ok (.ofInput v) := rfl

theorem Node.readMember_field (container : String) (f : Field) :
    (Node.field f).readMember container = .ok (.ofField container f) := by
  have parameters : (Node.field f).argumentsAt.mapM Node.readParameter =
      .ok (f.arguments.map Parameter.ofInput) :=
    mapM_nodes Node.readParameter_inputValue f.arguments
  simp only [Node.readMember, parameters]
  rfl

theorem Node.readMember_inputValue (container : String) (v : InputValue) :
    (Node.inputValue v).readMember container = .ok (.ofInput container v) := rfl

/-- No node is of another kind than the one that is needed. -/
theorem TypeDefinition.readMembers_eq (d : TypeDefinition) : d.readMembers = .ok (membersOf d) := by
  rcases d with ⟨description, name, directives, body⟩
  cases body with
  | object interfaces fields =>
      exact mapM_nodes (Node.readMember_field name) fields
  | interface interfaces fields =>
      exact mapM_nodes (Node.readMember_field name) fields
  | input fields =>
      exact mapM_nodes (Node.readMember_inputValue name) fields
  | _ =>
      rfl

end Sdl

/-- Reading the definition of a name and the blocks that extend it, node by node, gives its
members. -/
theorem Catalog.readMembers_eq (c : Catalog) (name : String) :
    (((c.type? name).toList ++ c.extensionsOf name).mapM TypeDefinition.readMembers).map
      List.flatten = .ok (c.members name) := by
  rw [mapM_eq_ok TypeDefinition.readMembers_eq, members, List.flatMap_def]
  rfl

/-! ## Declaring with errors -/

namespace Sdl.TypeExpr

/-- An expression as a value that claims to be one. -/
def shape : TypeExpr → Shape
  | name text => .name text
  | list item => .list item.shape
  | nonNull inner => .nonNull inner.shape

/-- The name under all wrappers of a value, if it is a type expression. -/
def Shape.named : Shape → Except ForeignError String
  | .name text => .ok text
  | .list item => item.named
  | .nonNull inner => inner.named
  | .foreign kind => .error ⟨kind⟩

theorem named_shape (e : TypeExpr) : e.shape.named = .ok e.named := by
  induction e with
  | name text =>
      rfl
  | list item ih =>
      exact ih
  | nonNull inner ih =>
      exact ih

end Sdl.TypeExpr

namespace Dialect

/-- A value as a type without its marker, if it is a type expression. -/
def checkedBareText (d : Dialect) : TypeExpr.Shape → Except TypeExpr.ForeignError String
  | .name text => .ok (d.mappings.resolve text).target
  | .list item => (d.checkedBareText item).map fun text => "List<" ++ text ++ ">"
  | .nonNull inner => (d.checkedBareText inner).map fun text => nonNullMark ++ text
  | .foreign kind => .error ⟨kind⟩

/-- A value as a type, if it is a type expression. -/
def checkedTypeText (d : Dialect) (value : TypeExpr.Shape) :
    Except TypeExpr.ForeignError String := do
  let name ← value.named
  let bare ← d.checkedBareText value
  let marker := (d.mappings.resolve name).marker
  return if marker = "" then bare else marker ++ " " ++ bare

theorem checkedBareText_shape (d : Dialect) (e : TypeExpr) :
    d.checkedBareText e.shape = .ok (d.bareTypeText e) := by
  induction e with
  | name text =>
      rfl
  | list item ih =>
      simp only [TypeExpr.shape, checkedBareText, ih]
      rfl
  | nonNull inner ih =>
      simp only [TypeExpr.shape, checkedBareText, ih]
      rfl

/-- A type expression is always one. -/
theorem checkedTypeText_shape (d : Dialect) (e : TypeExpr) :
    d.checkedTypeText e.shape = .ok (d.typeText e) := by
  simp only [checkedTypeText, e.named_shape, d.checkedBareText_shape, ok_bind]
  rfl

/-- A parameter, if its type is a type expression. -/
def checkedParameterText (d : Dialect) (p : Parameter) : Except TypeExpr.ForeignError String := do
  let type ← d.checkedTypeText p.type.shape
  return if d.reserved.contains p.name then
    "@Name(\"" ++ p.name ++ "\") " ++ type ++ " " ++ p.name ++ "_"
  else type ++ " " ++ p.name

/-- A member as a method, if all its types are type expressions. -/
def checkedMethodText (d : Dialect) (m : Member) : Except TypeExpr.ForeignError String := do
  let result ← d.checkedTypeText m.type.shape
  let parameters ← m.parameters.mapM d.checkedParameterText
  return "@" ++ m.container ++ " " ++ result ++ " " ++ m.name ++
    "(" ++ ", ".intercalate parameters ++ ");"

/-- A member as a field, if its type is a type expression. -/
def checkedFieldText (d : Dialect) (m : Member) : Except TypeExpr.ForeignError String := do
  let type ← d.checkedTypeText m.type.shape
  return type ++ " " ++ m.name ++ ";"

theorem checkedParameterText_eq (d : Dialect) (p : Parameter) :
    d.checkedParameterText p = .ok (d.parameterText p) := by
  simp only [checkedParameterText, d.checkedTypeText_shape, ok_bind]
  rfl

/-- No member fails to become a method. -/
theorem checkedMethodText_eq (d : Dialect) (m : Member) :
    d.checkedMethodText m = .ok (d.methodText m) := by
  simp only [checkedMethodText, d.checkedTypeText_shape,
    mapM_eq_ok d.checkedParameterText_eq, ok_bind]
  rfl

/-- No member fails to become a field. -/
theorem checkedFieldText_eq (d : Dialect) (m : Member) :
    d.checkedFieldText m = .ok (d.fieldText m) := by
  simp only [checkedFieldText, d.checkedTypeText_shape, ok_bind]
  rfl

end Dialect

/-! ## Well-formed members -/

/-- The type of a member and those of its parameters. -/
def Member.types (m : Member) : List TypeExpr := m.type :: m.parameters.map (·.type)

/-- All names that the member shows are proper, and in no type of it stands a non-null wrapper
directly inside another. -/
structure Member.WellFormed (m : Member) : Prop where
  named : m.Named
  normal : ∀ e ∈ m.types, e.Normal

namespace Sdl

theorem Field.WellFormed.ofField {f : Field} (wellFormed : f.WellFormed) {container : String}
    (proper : IsName container.toList) : (Member.ofField container f).WellFormed := by
  constructor
  · refine ⟨proper, wellFormed.name, wellFormed.type.named, fun p mem => ?_⟩
    rcases List.mem_map.1 mem with ⟨v, argument, rfl⟩
    exact ⟨(wellFormed.arguments v argument).name, (wellFormed.arguments v argument).type.named⟩
  · intro e mem
    rcases List.mem_cons.1 mem with rfl | mem
    · exact wellFormed.type.normal
    · rcases List.mem_map.1 mem with ⟨p, parameter, rfl⟩
      rcases List.mem_map.1 parameter with ⟨v, argument, rfl⟩
      exact (wellFormed.arguments v argument).type.normal

theorem InputValue.WellFormed.ofInput {v : InputValue} (wellFormed : v.WellFormed)
    {container : String} (proper : IsName container.toList) :
    (Member.ofInput container v).WellFormed := by
  constructor
  · exact ⟨proper, wellFormed.name, wellFormed.type.named, fun p mem => by cases mem⟩
  · intro e mem
    rcases List.mem_cons.1 mem with rfl | mem
    · exact wellFormed.type.normal
    · cases mem

theorem TypeDefinition.WellFormed.membersOf {d : TypeDefinition} (wellFormed : d.WellFormed) :
    ∀ m ∈ membersOf d, m.WellFormed := by
  rcases d with ⟨description, name, directives, body⟩
  rcases wellFormed with ⟨proper, fields⟩
  intro m mem
  cases body with
  | object interfaces items =>
      rcases List.mem_map.1 mem with ⟨f, there, rfl⟩
      exact (fields f there).ofField proper
  | interface interfaces items =>
      rcases List.mem_map.1 mem with ⟨f, there, rfl⟩
      exact (fields f there).ofField proper
  | input items =>
      rcases List.mem_map.1 mem with ⟨v, there, rfl⟩
      exact (fields v there).ofInput proper
  | _ =>
      cases mem

theorem Definition.WellFormed.declaredType {d : Definition} (wellFormed : d.WellFormed)
    {type : TypeDefinition} (declares : d.declaredType? = some type) : type.WellFormed := by
  unfold Definition.declaredType? at declares
  split at declares
  · split at declares
    · cases declares
    · cases declares
      exact wellFormed
  · cases declares

theorem Definition.WellFormed.block {d : Definition} (wellFormed : d.WellFormed)
    {block : TypeDefinition} (extending : d.block? = some block) : block.WellFormed := by
  unfold Definition.block? at extending
  split at extending
  · cases extending
    exact wellFormed
  · cases extending

/-- The definitions of a document are well formed. -/
theorem Document.wellFormed_of_parse {text : List Char} {document : Document}
    (parsed : Document.parse text = .ok document) : ∀ d ∈ document, d.WellFormed := by
  rcases Document.parse_of_alike (ofText_alike text).right with
    ⟨other, same, -, wellFormed⟩ | ⟨e, e', failed, -⟩
  · cases parsed.symm.trans same
    exact wellFormed
  · cases parsed.symm.trans failed

end Sdl

namespace Catalog

/-- Every member in the catalog of well-formed definitions is well formed. -/
theorem Holds.wellFormed_members {c : Catalog} {document : Document} (holds : c.Holds document)
    (definitions : ∀ d ∈ document, d.WellFormed) (name : String) :
    ∀ m ∈ c.members name, m.WellFormed := by
  intro m mem
  rw [holds.members_eq] at mem
  rcases List.mem_flatMap.1 mem with ⟨block, there, member⟩
  -- the member is from a definition of the name or from a block that extends it
  have wellFormed : block.WellFormed := by
    rcases List.mem_append.1 (List.mem_filter.1 there).1 with declared | extending
    · rcases List.mem_filterMap.1 declared with ⟨d, defined, declares⟩
      exact (definitions d defined).declaredType declares
    · rcases List.mem_filterMap.1 extending with ⟨d, defined, extending⟩
      exact (definitions d defined).block extending
  exact wellFormed.membersOf m member

theorem Holds.named_members {c : Catalog} {document : Document} (holds : c.Holds document)
    (definitions : ∀ d ∈ document, d.WellFormed) (name : String) : ∀ m ∈ c.members name, m.Named :=
  fun m mem => (holds.wellFormed_members definitions name m mem).named

/-- The declared types of well-formed definitions have proper names. -/
theorem Holds.isName_of_mem_typeNames {c : Catalog} {document : Document} (holds : c.Holds document)
    (definitions : ∀ d ∈ document, d.WellFormed) : ∀ name ∈ c.typeNames, IsName name.toList := by
  intro name mem
  rw [typeNames, holds.types] at mem
  rcases List.mem_map.1 mem with ⟨type, there, rfl⟩
  rcases List.mem_filterMap.1 there with ⟨d, defined, declares⟩
  exact ((definitions d defined).declaredType declares).name

/-- A schema that was read from text holds the definitions of some document, and they are well
formed. -/
theorem exists_document_of_ofText {text : List Char} {c : Catalog}
    (read : Catalog.ofText text = .ok c) :
    ∃ document, c.Holds document ∧ ∀ d ∈ document, d.WellFormed := by
  unfold Catalog.ofText at read
  split at read
  · -- a blank text is an empty catalog
    cases read
    exact ⟨[], holds_empty, List.forall_mem_nil _⟩
  · split at read
    · cases read
    next document parsed =>
        split at read
        · cases read
        next collected =>
            cases read
            exact ⟨document, holds_of_collect collected, Document.wellFormed_of_parse parsed⟩

/-- Every member of a schema that was read from text is well formed. -/
theorem wellFormed_members_of_ofText {text : List Char} {c : Catalog}
    (read : Catalog.ofText text = .ok c) (name : String) : ∀ m ∈ c.members name, m.WellFormed := by
  rcases exists_document_of_ofText read with ⟨document, holds, definitions⟩
  exact holds.wellFormed_members definitions name

/-- A schema that was read from a file holds such definitions, too. -/
theorem exists_document_of_ofBytes {bytes : List UInt8} {c : Catalog}
    (read : Catalog.ofBytes bytes = .ok c) :
    ∃ document, c.Holds document ∧ ∀ d ∈ document, d.WellFormed := by
  unfold Catalog.ofBytes at read
  split at read
  · cases read
  · exact exists_document_of_ofText read

end Catalog

/-! ## Lines -/

/-- The text has no line break of any kind. -/
def Text.OneLine (cs : List Char) : Prop := ∀ c ∈ cs, isLineBreak c = false

instance (cs : List Char) : Decidable (OneLine cs) :=
  decidable_of_iff (cs.all fun c => !isLineBreak c) (by simp [OneLine])

/-- The text has printable ASCII characters only. -/
def Text.Plain (cs : List Char) : Prop := ∀ c ∈ cs, 0x20 ≤ c.toNat ∧ c.toNat ≤ 0x7E

namespace Text

variable {cs ds : List Char} {c : Char}

@[simp] theorem plain_nil : Plain [] := List.forall_mem_nil _

@[simp] theorem plain_cons : Plain (c :: cs) ↔ (0x20 ≤ c.toNat ∧ c.toNat ≤ 0x7E) ∧ Plain cs :=
  List.forall_mem_cons

@[simp] theorem plain_append : Plain (cs ++ ds) ↔ Plain cs ∧ Plain ds := List.forall_mem_append

/-- A line break is a control character, or no ASCII character. -/
theorem Plain.oneLine (plain : Plain cs) : OneLine cs := by
  intro c mem
  have range := plain c mem
  simp only [isLineBreak, Bool.or_eq_false_iff, Bool.and_eq_false_iff, decide_eq_false_iff_not,
    beq_eq_false_iff_ne]
  omega

/-- A plain text has no control character. -/
theorem Plain.not_mem (plain : Plain cs) (control : c.toNat < 0x20) : c ∉ cs := by
  intro mem
  have range := plain c mem
  omega

end Text

theorem Sdl.IsName.plain {n : List Char} (name : IsName n) : Plain n := by
  intro c mem
  -- letters in upper case, letters in lower case, digits and the underscore
  have continues : ((decide (c.val ≥ 'A'.val ∧ c.val ≤ 'Z'.val) ||
      (decide (c.val ≥ 'a'.val) && decide (c.val ≤ 'z'.val)) ||
      (decide (c.val ≥ '0'.val) && decide (c.val ≤ '9'.val))) || c == '_') = true :=
    name.isNameContinue c mem
  simp only [Bool.or_eq_true, Bool.and_eq_true, decide_eq_true_eq, beq_iff_eq, ge_iff_le,
    UInt32.le_iff_toNat_le] at continues
  rcases continues with ((upper | lower) | digit) | rfl
  · exact ⟨Nat.le_trans (by decide) upper.1, Nat.le_trans upper.2 (by decide)⟩
  · exact ⟨Nat.le_trans (by decide) lower.1, Nat.le_trans lower.2 (by decide)⟩
  · exact ⟨Nat.le_trans (by decide) digit.1, Nat.le_trans digit.2 (by decide)⟩
  · decide

theorem TypeSignature.plain_wrap {target : List Char} (name : IsName target) (ws : List Wrapper) :
    Plain (wrap target ws) := by
  induction ws with
  | nil =>
      exact name.plain
  | cons w ws ih =>
      cases w with
      | list =>
          simp [wrap, ih]
      | nonNull =>
          simp [wrap, ih, Dialect.nonNullMark]

theorem TypeSignature.Readable.plain_text {s : TypeSignature} (readable : s.Readable) :
    Plain s.text := by
  have wrapped : Plain (wrap s.mapping.target.toList s.wrappers) :=
    plain_wrap readable.target s.wrappers
  rcases readable.marker with unmarked | marked
  · simp [text, unmarked, wrapped]
  · simp [text, marked, wrapped]

theorem Dialect.plain_typeText {e : TypeExpr} (name : IsName e.named.toList) :
    Plain (java.typeText e).toList := by
  rw [toList_typeText]
  exact (readable_java name).plain_text

theorem Parameter.Named.plain_parameterText {p : Parameter} (named : p.Named) :
    Plain (Dialect.java.parameterText p).toList := by
  have type := Dialect.plain_typeText named.type
  have name := named.name.plain
  cases reserved : Dialect.java.reserved.contains p.name with
  | true =>
      rw [Dialect.toList_parameterText_renamed reserved]
      simp [type, name]
  | false =>
      rw [Dialect.toList_parameterText_plain reserved]
      simp [type, name]

theorem Dialect.plain_closedParameters {ps : List Parameter} (named : ∀ p ∈ ps, p.Named)
    {rest : List Char} (ends : Plain rest) : Plain (closedParameters java ps rest) := by
  induction ps with
  | nil =>
      simp [closedParameters, ends]
  | cons p ps ih =>
      rw [List.forall_mem_cons] at named
      rcases closedParameters_cons java p ps rest with ⟨c, tail, begins, -, next⟩
      rw [begins]
      rcases next with ⟨-, rfl, rfl⟩ | ⟨-, rfl, rfl⟩
      · simp [named.1.plain_parameterText, ends]
      · simp [named.1.plain_parameterText, ih named.2]

namespace Member.Named

variable {m : Member}

/-- A method with proper names has printable ASCII characters only. -/
theorem plain_methodText (named : m.Named) : Plain (Dialect.java.methodText m).toList := by
  have parameters : Plain (Dialect.closedParameters .java m.parameters [';']) :=
    Dialect.plain_closedParameters named.parameters (by simp)
  rw [Dialect.toList_methodText]
  simp [named.container.plain, Dialect.plain_typeText named.type, named.name.plain, parameters]

/-- A field with proper names has printable ASCII characters only. -/
theorem plain_fieldText (named : m.Named) : Plain (Dialect.java.fieldText m).toList := by
  rw [Dialect.toList_fieldText]
  simp [Dialect.plain_typeText named.type, named.name.plain]

theorem oneLine_methodText (named : m.Named) : OneLine (Dialect.java.methodText m).toList :=
  named.plain_methodText.oneLine

theorem oneLine_fieldText (named : m.Named) : OneLine (Dialect.java.fieldText m).toList :=
  named.plain_fieldText.oneLine

end Member.Named

/-! ## Schemas -/

theorem Snapshot.toCatalog_of_ofText {source text : String} {modified : Int} {s : Snapshot}
    (read : Snapshot.ofText source modified text = .ok s) :
    Catalog.ofText text.toList = .ok s.toCatalog := by
  unfold Snapshot.ofText Snapshot.ofContent at read
  split at read
  · cases read
  next catalog =>
      cases read
      assumption

/-- The members of any name in a schema, declared or not, are read node by node without an error,
and each of them becomes a method and a field without an error. All names in them are proper, no
type of theirs has a non-null wrapper directly inside another, and both declarations are on one
line. -/
theorem Snapshot.declares_members {source text : String} {modified : Int} {s : Snapshot}
    (read : Snapshot.ofText source modified text = .ok s) (name : String) :
    (((s.type? name).toList ++ s.extensionsOf name).mapM TypeDefinition.readMembers).map
        List.flatten = .ok (s.members name) ∧
      ∀ m ∈ s.members name,
        m.Named ∧ (∀ e ∈ m.types, e.Normal) ∧
        (Dialect.java.checkedMethodText m = .ok (Dialect.java.methodText m) ∧
          OneLine (Dialect.java.methodText m).toList) ∧
        Dialect.java.checkedFieldText m = .ok (Dialect.java.fieldText m) ∧
          OneLine (Dialect.java.fieldText m).toList := by
  refine ⟨s.toCatalog.readMembers_eq name, fun m mem => ?_⟩
  have wellFormed : m.WellFormed :=
    Catalog.wellFormed_members_of_ofText (Snapshot.toCatalog_of_ofText read) name m mem
  have named := wellFormed.named
  exact ⟨named, wellFormed.normal,
    ⟨Dialect.java.checkedMethodText_eq m, named.oneLine_methodText⟩,
    Dialect.java.checkedFieldText_eq m, named.oneLine_fieldText⟩

/-- A type with line breaks in its descriptions, in a default value and in a comment, and a block
that extends it. -/
theorem Snapshot.declares_members_described :
    let text :=
      "\"\"\"a\nb\"\"\" type A \x7b \"c\\nd\" f(class: [Int!], s: String = \"\"\"e\r\nf\"\"\"): " ++
      "[ID!]! # g\x0bh\n\x7d extend type A \x7b k: Int \x7d"
    ∃ s, Snapshot.ofText "schema.graphql" 0 text = .ok s ∧
      (s.members "A").map Dialect.java.methodText =
        ["@A @Id @NonNull List<@NonNull String> f(@Name(\"class\") List<@NonNull Integer> class_, " ++
          "String s);", "@A Integer k();"] ∧
      (∀ m ∈ s.members "A", OneLine (Dialect.java.methodText m).toList) ∧
      s.members "B" = [] := by
  intro text
  have facts : ((Snapshot.ofText "schema.graphql" 0 text).toOption.map fun s =>
      ((s.members "A").map Dialect.java.methodText, s.members "B")) =
      some (["@A @Id @NonNull List<@NonNull String> f(@Name(\"class\") List<@NonNull Integer> class_, " ++
          "String s);", "@A Integer k();"], []) := by
    decide +kernel
  cases read : Snapshot.ofText "schema.graphql" 0 text with
  | error e =>
      rw [read] at facts
      cases facts
  | ok s =>
      rw [read] at facts
      simp only [Except.toOption, Option.map_some, Option.some.injEq, Prod.mk.injEq] at facts
      refine ⟨s, rfl, facts.1, fun m mem => ?_, facts.2⟩
      exact ((Snapshot.declares_members read "A").2 m mem).2.2.1.2

end SchemaCompletion
