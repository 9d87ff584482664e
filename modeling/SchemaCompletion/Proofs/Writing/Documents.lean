import SchemaCompletion.Member
import SchemaCompletion.Proofs.Declaring.OneLine
import SchemaCompletion.Proofs.Writing.Definitions

/-!
# Written documents

A document of the type system is read as it is written, so that members and parameters have the
types that were declared, and a type that is shown can be written again.

* `Document.WrittenIn` — the text is a document, with what is ignored between its tokens;
* `Document.parse_writtenIn` — the document that such a text is read as;
* `Document.declared`, `Document.shown` — the types that are declared, and those of members and
  parameters;
* `Document.parse_singleField` — a field that is written with a type has that type;
* `Document.types_survive` — members have the declared types, and each type is read from its
  notation;
* `Document.parse_of_deep` — a document with lists that are nested too deeply is refused.
-/

namespace SchemaCompletion.Sdl

/-! ## Reading documents -/

/-- The tokens of the text are those of the definitions, one after the other. -/
def Document.WrittenIn (document : Document) (text : List Char) : Prop :=
  document ≠ [] ∧ ∃ pieces, List.Forall₂ Definition.Written document pieces ∧
    TokenStream.ofText text = TokenStream.ended.after pieces.flatten

/-- All that is declared to be of a type in a document, in order. -/
def Document.declared (document : Document) : List (String × TypeExpr) :=
  document.flatMap Definition.declared

theorem TypeBody.Written.keyword_ne {body : TypeBody} {keyword : String} {front back : List Token}
    (written : body.Written keyword front back) : keyword ≠ "implements" := by
  cases written <;> decide

/-- A definition begins with a string or a word, which adds nothing to a definition before it. -/
theorem Definition.Written.begins {d : Definition} {ts : List Token} (written : d.Written ts) :
    ∃ t us, ts = t :: us ∧ Rule.Ending (some t) := by
  have ending {t : Token} (text : ∀ p, t ≠ .punctuator p) (other : t ≠ .name "implements") :
      Rule.Ending (some t) :=
    ⟨Rule.boundary_text text, fun same => other (Option.some.inj same)⟩
  have described {description : Option String} {describing ts : List Token} {keyword : String}
      (written : Described description describing) (other : keyword ≠ "implements") :
      ∃ t us, describing ++ .name keyword :: ts = t :: us ∧ Rule.Ending (some t) := by
    cases written with
    | none =>
        exact ⟨_, _, rfl, ending (by simp) (by simpa using other)⟩
    | string | block =>
        exact ⟨_, _, rfl, ending (by simp) (by simp)⟩
  cases written with
  | type description written =>
      cases written with
      | intro body _ =>
          exact described description body.keyword_ne
  | schema description =>
      exact described description (by decide)
  | directive description =>
      exact described description (by decide)
  | typeExtension | schemaExtension | directiveExtension =>
      exact ⟨_, _, rfl, ending (by simp) (by simp)⟩

namespace Rule

theorem document_takes {document : Document} {pieces : List (List Token)} (filled : document ≠ [])
    (written : List.Forall₂ Definition.Written document pieces)
    (types : TypesFit document.declared) :
    Rule.document.Takes pieces.flatten (· = none) document := by
  have items : List.Forall₂ (TakesItem definition (fun t => Ending (some t)) Ending)
      document pieces :=
    ((List.forall₂_and_left document pieces).2 ⟨fun _ mem => mem, written⟩).imp fun d ts here =>
      ⟨here.2.begins,
        definition_takes here.2 fun x mem => types x (List.mem_flatMap_of_mem here.1 mem)⟩
  have stops : atEnd.Takes [] (· = none) true := by
    refine Takes.looking fun t ended => ?_
    obtain rfl := ended
    exact .pure true
  have taken := someUntil_takes (fun _ _ _ => rfl) stops items filled (fun _ ending => ending)
    fun t ended => by
    obtain rfl := ended
    exact ⟨Rule.boundary_none, fun same => by cases same⟩
  rwa [List.append_nil] at taken

end Rule

/-- A text is read as the document that is written in it. -/
theorem Document.parse_writtenIn {document : Document} {text : List Char}
    (written : document.WrittenIn text) (types : TypesFit document.declared) :
    Document.parse text = .ok document := by
  rcases written with ⟨filled, pieces, each, tokens⟩
  rw [Document.parse, tokens,
    Rule.document_takes filled each types _ TokenStream.unbroken_ended rfl]
  rfl

/-! ## A single field -/

/-- A field without description, arguments and directives. -/
def Field.plain (name : String) (type : TypeExpr) : Field where
  description := none
  name
  arguments := []
  type
  directives := []

/-- An object type with a single field. -/
def TypeDefinition.singleField (container name : String) (type : TypeExpr) : TypeDefinition where
  description := none
  name := container
  directives := []
  body := .object [] [.plain name type]

/-- The text of an object type with a single field, whose type is in the notation of the
language. -/
def singleFieldText (container name : String) (e : TypeExpr) : String :=
  "type " ++ container ++ " \x7b " ++ name ++ ": " ++ e.toSdl ++ " \x7d"

theorem ofText_singleField {container name : String} {e : TypeExpr}
    (proper : IsName container.toList) (proper' : IsName name.toList)
    (named : IsName e.named.toList) :
    TokenStream.ofText (singleFieldText container name e).toList = TokenStream.ended.after
      (.name "type" :: .name container :: .punctuator .braceOpen :: .name name ::
        .punctuator .colon ::
        (e.tokens ++ [.punctuator .braceClose])) := by
  have keyword : IsName "type".toList := by decide
  have closed : Spells [' ', '\x7d'] [.punctuator .braceClose] :=
    (spells_nil.mark (p := .braceClose) rfl).ignored ignored_space
  have type := ((e.toSdl_spells named).append closed (clear_cons (by decide))).ignored ignored_space
  have field := (proper'.spells.append (type.mark (c := ':') rfl)
    (clear_cons (by decide))).ignored ignored_space
  have braces := (field.mark (c := '\x7b') rfl).ignored ignored_space
  have whole := keyword.spells.append
    ((proper.spells.append braces (clear_cons (by decide))).ignored ignored_space)
    (clear_cons (by decide))
  have read := whole.ofText
  simpa [singleFieldText] using read

theorem Document.singleField_writtenIn {container name : String} {e : TypeExpr}
    (proper : IsName container.toList) (proper' : IsName name.toList)
    (named : IsName e.named.toList) :
    Document.WrittenIn [.type (.singleField container name e)]
      (singleFieldText container name e).toList := by
  have field : (Field.plain name e).Written _ := .intro .none .nil (List.forall_mem_nil _)
  have type : (TypeDefinition.singleField container name e).Written "type" _ :=
    .intro (.object .none (.cons field .nil)) (List.forall_mem_nil _)
  refine ⟨List.cons_ne_nil _ _, _, .cons (.type .none type) .nil, ?_⟩
  rw [ofText_singleField proper proper' named]
  simp [enclosed, appliedTokens, TypeDefinition.singleField, Field.plain]

/-- A field that is written with a type is read with that type. -/
theorem Document.parse_singleField {container name : String} {e : TypeExpr}
    (proper : IsName container.toList) (proper' : IsName name.toList)
    (fits : e.WellFormed Rule.levelLimit) :
    Document.parse (singleFieldText container name e).toList =
      .ok [.type (.singleField container name e)] :=
  Document.parse_writtenIn (Document.singleField_writtenIn proper proper' fits.named)
    (List.forall_mem_singleton.2 fits)

/-! ## The types of members -/

/-- The name and the type of a parameter. -/
def shownParameter (p : Parameter) : String × TypeExpr := (p.name, p.type)

/-- The name and the type of a member, and those of its parameters. -/
def shownMember (m : Member) : List (String × TypeExpr) :=
  (m.name, m.type) :: m.parameters.map shownParameter

/-- The types that the members of a definition show, and the parameters of a directive. -/
def Definition.shown : Definition → List (String × TypeExpr)
  | .type d => (membersOf d).flatMap shownMember
  | .typeExtension d => (membersOf d).flatMap shownMember
  | .directive d => (d.arguments.map Parameter.ofInput).map shownParameter
  | _ => []

def Document.shown (document : Document) : List (String × TypeExpr) :=
  document.flatMap Definition.shown

theorem TypeDefinition.shown_eq (d : TypeDefinition) :
    (membersOf d).flatMap shownMember = d.body.declared := by
  have parameters (vs : List InputValue) :
      (vs.map Parameter.ofInput).map shownParameter = vs.map InputValue.declared :=
    List.map_map ..
  unfold membersOf TypeBody.declared
  cases d.body with
  | object interfaces fields | interface interfaces fields =>
      simp only [List.flatMap_map, shownMember, Member.ofField, Member.parameters, parameters]
      rfl
  | input fields =>
      simp only [List.flatMap_map, shownMember, Member.ofInput, Member.parameters, List.map_nil,
        ← List.map_eq_flatMap]
      rfl
  | _ =>
      rfl

/-- The members and parameters of a definition have the types that are declared in it. -/
theorem Definition.shown_eq (d : Definition) : d.shown = d.declared := by
  cases d with
  | type d | typeExtension d =>
      exact d.shown_eq
  | directive d =>
      exact List.map_map ..
  | _ =>
      rfl

theorem Document.shown_eq (document : Document) : document.shown = document.declared :=
  List.flatMap_congr fun d _ => d.shown_eq

/-- The name under the wrappers of an expression is the only name that is written in it. -/
theorem TypeExpr.name_mem_tokens_iff {e : TypeExpr} {name : String} :
    .name name ∈ e.tokens ↔ name = e.named := by
  induction e with
  | name text =>
      simp [tokens, named]
  | list item ih =>
      simp [tokens, named, ih]
  | nonNull inner ih =>
      simp [tokens, named, ih]

/-! ## Declared types fit -/

theorem InputValue.WellFormed.declared {v : InputValue} (wellFormed : v.WellFormed) :
    v.declared.2.WellFormed Rule.levelLimit :=
  wellFormed.type

theorem Field.WellFormed.declared {f : Field} (wellFormed : f.WellFormed) :
    TypesFit f.declared := by
  refine List.forall_mem_cons.2 ⟨wellFormed.type, List.forall_mem_map.2 fun v mem => ?_⟩
  exact (wellFormed.arguments v mem).declared

theorem TypeBody.WellFormed.declared {body : TypeBody} (wellFormed : body.WellFormed) :
    TypesFit body.declared := by
  cases body with
  | object interfaces fields | interface interfaces fields =>
      intro x mem
      rcases List.mem_flatMap.1 mem with ⟨f, there, declared⟩
      exact (wellFormed f there).declared x declared
  | input fields =>
      exact List.forall_mem_map.2 fun v mem => (wellFormed v mem).declared
  | _ =>
      exact List.forall_mem_nil _

theorem Definition.WellFormed.declared {d : Definition} (wellFormed : d.WellFormed) :
    TypesFit d.declared := by
  cases d with
  | type d | typeExtension d =>
      exact wellFormed.body.declared
  | directive d =>
      exact List.forall_mem_map.2 fun v mem => (wellFormed v mem).declared
  | _ =>
      exact List.forall_mem_nil _

/-- All types that are declared in a document that was read are ones that the grammar has. -/
theorem Document.typesFit_of_parse {text : List Char} {document : Document}
    (parsed : Document.parse text = .ok document) : TypesFit document.declared := by
  intro x mem
  rcases List.mem_flatMap.1 mem with ⟨d, there, declared⟩
  exact (Document.wellFormed_of_parse parsed d there).declared x declared

/-! ## The trip through text -/

/-- A document is read as it is written if every type that is declared in it is a proper name under
at most two hundred lists, with no mark behind another. Its members and parameters have the declared
types, each with the name that is written in it; and each type that a member or parameter of a
document has is read from its notation, by itself and as the type of a field. -/
theorem Document.types_survive :
    (∀ (document : Document) (text : List Char), document.WrittenIn text →
      (∀ x ∈ document.declared, IsName x.2.named.toList ∧ x.2.Normal ∧ x.2.levels ≤ 200) →
      Document.parse text = .ok document ∧ document.shown = document.declared ∧
        ∀ x ∈ document.declared, ∀ name, .name name ∈ x.2.tokens ↔ name = x.2.named) ∧
    ∀ (document : Document) (text : List Char), Document.parse text = .ok document →
      ∀ x ∈ document.shown, TypeExpr.parse x.2.toSdl.toList = .ok x.2 ∧
        ∀ container name : String, IsName container.toList → IsName name.toList →
          Document.parse (singleFieldText container name x.2).toList =
            .ok [.type (.singleField container name x.2)] := by
  constructor
  · intro document text written types
    have fit : TypesFit document.declared := fun x mem =>
      ⟨(types x mem).1, (types x mem).2.1, (types x mem).2.2⟩
    exact ⟨Document.parse_writtenIn written fit, document.shown_eq,
      fun x _ name => TypeExpr.name_mem_tokens_iff⟩
  · intro document text parsed x mem
    rw [document.shown_eq] at mem
    have fits := Document.typesFit_of_parse parsed x mem
    refine ⟨?_, fun container name proper proper' => Document.parse_singleField proper proper' fits⟩
    rw [TypeExpr.parse_toSdl fits.named fits.normal, if_pos fits.fits]

deriving instance DecidableEq for TokenStream

/-- Types of fields, of arguments and of an input value, with a description, an interface, a
default, a directive and a block that extends a type. -/
theorem Document.types_survive_nested :
    let text :=
      "\"d\"type Query implements&N\x7bf(a:[Int!]!=[],b:ID@x):[[ID]!]\x7d # g\nextend input I\x7bv:A!\x7d"
    ∃ document : Document, document.WrittenIn text.toList ∧
      (∀ x ∈ document.declared, IsName x.2.named.toList ∧ x.2.Normal ∧ x.2.levels ≤ 200) ∧
      Document.parse text.toList = .ok document ∧
      document.shown = [("f", .list (.nonNull (.list (.name "ID")))),
        ("a", .nonNull (.list (.nonNull (.name "Int")))), ("b", .name "ID"),
        ("v", .nonNull (.name "A"))] ∧
      (∀ x ∈ document.shown, ∀ name, .name name ∈ x.2.tokens ↔ name = x.2.named) ∧
      ∀ x ∈ document.shown, TypeExpr.parse x.2.toSdl.toList = .ok x.2 ∧
        Document.parse (singleFieldText "T" "g" x.2).toList =
          .ok [.type (.singleField "T" "g" x.2)] := by
  intro text
  let a : InputValue :=
    { description := none, name := "a", type := .nonNull (.list (.nonNull (.name "Int"))),
      default := some (.list []), directives := [] }
  let b : InputValue :=
    { description := none, name := "b", type := .name "ID", default := none,
      directives := [{ name := "x", arguments := [] }] }
  let f : Field :=
    { description := none, name := "f", arguments := [a, b],
      type := .list (.nonNull (.list (.name "ID"))), directives := [] }
  let v : InputValue :=
    { description := none, name := "v", type := .nonNull (.name "A"),
      default := none, directives := [] }
  let q : TypeDefinition :=
    { description := some "d", name := "Query", directives := [], body := .object ["N"] [f] }
  let i : TypeDefinition :=
    { description := none, name := "I", directives := [], body := .input [v] }
  let document : Document := [.type q, .typeExtension i]
  have empty : Value.WellFormed Rule.levelLimit (.list []) :=
    @Value.WellFormed.list 199 [] (List.forall_mem_nil _)
  have arguments : List.Forall₂ InputValue.Written [a, b] _ :=
    .cons (.intro .none (by simpa [a] using empty) (by simp [a]))
      (.cons (.intro .none (by simp [b]) (by simp [b, Directive.WellFormed])) .nil)
  have fields : List.Forall₂ Field.Written [f] _ :=
    .cons (.intro .none arguments (by simp [f])) .nil
  have values : List.Forall₂ InputValue.Written [v] _ :=
    .cons (.intro .none (by simp [v]) (by simp [v])) .nil
  have query : TypeDefinition.Written q "type" _ :=
    .intro (.object (.some (by simp) (.inr rfl)) fields) (by simp [q])
  have input : TypeDefinition.Written i "input" _ := .intro (.input values) (by simp [i])
  have written : document.WrittenIn text.toList := by
    refine ⟨by simp [document], _,
      .cons (.type (.string "d") query) (.cons (.typeExtension rfl rfl input) .nil), ?_⟩
    decide +kernel
  have types : ∀ x ∈ document.declared, IsName x.2.named.toList ∧ x.2.Normal ∧
      x.2.levels ≤ 200 := by
    refine List.forall_mem_cons.2 ⟨⟨by decide, by simp [f, TypeExpr.Normal], by decide⟩, ?_⟩
    refine List.forall_mem_cons.2
      ⟨⟨by decide, by simp [a, InputValue.declared, TypeExpr.Normal], by decide⟩, ?_⟩
    refine List.forall_mem_cons.2
      ⟨⟨by decide, by simp [b, InputValue.declared, TypeExpr.Normal], by decide⟩, ?_⟩
    exact List.forall_mem_singleton.2
      ⟨by decide, by simp [v, InputValue.declared, TypeExpr.Normal], by decide⟩
  have read := Document.types_survive.1 document text.toList written types
  refine ⟨document, written, types, read.1, rfl, ?_, fun x mem => ?_⟩
  · rw [read.2.1]
    exact read.2.2
  · have again := Document.types_survive.2 document text.toList read.1 x mem
    exact ⟨again.1, again.2 "T" "g" (by decide) (by decide)⟩

/-! ## Lists that are nested too deeply -/

/-- So many lists around a name. -/
def TypeExpr.lists (text : String) : Nat → TypeExpr
  | 0 => .name text
  | n + 1 => .list (lists text n)

theorem TypeExpr.lists_spec (text : String) (n : Nat) :
    (lists text n).named = text ∧ (lists text n).Normal ∧ (lists text n).levels = n := by
  induction n with
  | zero =>
      exact ⟨rfl, trivial, rfl⟩
  | succ n ih =>
      exact ⟨ih.1, ih.2.1, congrArg (· + 1) ih.2.2⟩

namespace Rule

theorem field_refuses (name : String) {e : TypeExpr} (deep : levelLimit < e.levels)
    (ts : List Token) :
    field.Refuses (.name name :: .punctuator .colon :: (e.tokens ++ ts)) .tooDeep := by
  have type := ((typeExpr_refuses deep).append ts).bind fun type => (do
    let directives ← constantDirectives
    return { description := none, name, arguments := [], type, directives } : Rule Field)
  have colon : (expectMark .colon).Takes [.punctuator .colon] Always () := expectMark_takes .colon
  have arguments : argumentDefinitions.Takes [] (NoMark .parenOpen) [] :=
    argumentDefinitions_takes .nil (List.forall_mem_nil _)
  have word : expectName.Takes [.name name] Always name := expectName_takes name
  refine description?_takes_none.refuses ?_ fun _ => ⟨name, rfl⟩
  refine word.refuses (arguments.refuses (colon.refuses type fun _ => trivial) ?_) fun _ => trivial
  exact fun _ same => by cases same

/-- The rule for fields fails where the rule for the first of them does. -/
theorem fields_refuses {ts : List Token} {e : SyntaxError} (refuses : field.Refuses ts e) :
    fields.Refuses (.punctuator .braceOpen :: ts) e := by
  have opened : (skipMark .braceOpen).Takes [.punctuator .braceOpen] Always true := skipMark_takes _
  exact opened.refuses (refuses.bind _) fun _ => trivial

theorem objectType_refuses (container : String) {ts : List Token} {e : SyntaxError}
    (refuses : field.Refuses ts e) :
    (objectType none).Refuses
      (.name "type" :: .name container :: .punctuator .braceOpen :: ts) e := by
  have keyword : (expectWord "type").Takes [.name "type"] Always () := expectWord_takes _
  have word : expectName.Takes [.name container] Always container := expectName_takes container
  have directives : constantDirectives.Takes []
      (fun t => NoMark .atSign t ∧ NoMark .parenOpen t) [] :=
    constantDirectives_takes (List.forall_mem_nil _)
  have inside := (fields_refuses refuses).bind fun fields => (do
    return { description := none, name := container, directives := [], body := .object [] fields } :
      Rule TypeDefinition)
  refine keyword.refuses (word.refuses ?_ fun _ => trivial) fun _ => trivial
  refine (interfaces_takes .none).refuses (directives.refuses inside ?_) ?_
  · exact fun _ => ⟨by simp [NoMark], by simp [NoMark]⟩
  · exact fun _ => ⟨by simp [NoWord], by simp [NoMark]⟩

/-- A document fails where the rule for its first type does. -/
theorem document_refuses {ts : List Token} {e : SyntaxError}
    (refuses : (objectType none).Refuses (.name "type" :: ts) e) :
    Rule.document.Refuses (.name "type" :: ts) e := by
  have plain : plainDefinition.Refuses (.name "type" :: ts) e :=
    Refuses.looking fun _ => refuses.map Definition.type
  have first : definition.Refuses (.name "type" :: ts) e := by
    rw [definition, peekDescription, bind_assoc]
    exact Refuses.looking fun _ => plain
  exact first.bind _

end Rule

/-- A document with a field whose type has too many lists around its name is refused. -/
theorem Document.parse_of_deep {container name : String} {e : TypeExpr}
    (proper : IsName container.toList) (proper' : IsName name.toList)
    (named : IsName e.named.toList)
    (deep : Rule.levelLimit < e.levels) :
    Document.parse (singleFieldText container name e).toList = .error .tooDeep := by
  have refuses := Rule.document_refuses (Rule.objectType_refuses container
    (Rule.field_refuses name deep [.punctuator .braceClose]))
  rw [Document.parse, ofText_singleField proper proper' named, refuses _ TokenStream.unbroken_ended]
  rfl

/-- Two hundred and one lists around a name are written as any type is, and are refused. -/
theorem Document.lists_refused :
    let e := TypeExpr.lists "Int" 201
    let document : Document := [.type (.singleField "Query" "f" e)]
    let text := singleFieldText "Query" "f" e
    IsName e.named.toList ∧ e.Normal ∧ document.declared = [("f", e)] ∧
    document.WrittenIn text.toList ∧
      Document.parse text.toList = .error .tooDeep := by
  intro e document text
  rcases TypeExpr.lists_spec "Int" 201 with ⟨named, normal, levels⟩
  have proper : IsName "Query".toList := by decide
  have proper' : IsName "f".toList := by decide
  have int : IsName e.named.toList := by
    rw [named]
    decide
  have deep : Rule.levelLimit < e.levels := by
    rw [levels]
    decide
  exact ⟨int, normal, rfl, Document.singleField_writtenIn proper proper' int,
    Document.parse_of_deep proper proper' int deep⟩

end SchemaCompletion.Sdl
