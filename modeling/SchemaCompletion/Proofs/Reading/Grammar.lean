import SchemaCompletion.Proofs.Reading.Yields
import SchemaCompletion.Sdl.Rule.Document

/-!
# What the grammar yields

Every rule of the grammar, with what holds of the tree that it gives: names are proper names, no
non-null wrapper stands directly inside another, and defaults are literals without variables.

* `TypeExpr.WellFormed`, `Value.WellFormed`, `InputValue.WellFormed`, `Field.WellFormed`,
  `TypeDefinition.WellFormed`, `Definition.WellFormed` — trees with such names, types and defaults;
* `Rule.typeExpr_yields`, `Rule.value_yields`, `Rule.inputValue_yields`, `Rule.field_yields`,
  `Rule.definition_yields` — the rules that give them;
* `Rule.document_yields` — a document has well-formed definitions only, and is settled by the tokens
  of its text.
-/

namespace SchemaCompletion.Sdl

/-! ## Well-formed trees -/

/-- How many list wrappers an expression has. -/
def TypeExpr.levels : TypeExpr → Nat
  | .name _ => 0
  | .list item => item.levels + 1
  | .nonNull inner => inner.levels

/-- The name under the wrappers is a proper one, no non-null wrapper stands directly inside another,
and there are no more than so many list wrappers. -/
structure TypeExpr.WellFormed (levels : Nat) (e : TypeExpr) : Prop where
  named : IsName e.named.toList
  normal : e.Normal
  fits : e.levels ≤ levels

/-- A literal as the grammar has them, with lists and objects to so many levels, and without
variables. -/
inductive Value.WellFormed : Nat → Value → Prop where
  | int {levels : Nat} {spelling : String} (number : (Token.int spelling).WellFormed) :
      WellFormed levels (.int spelling)
  | float {levels : Nat} {spelling : String} (number : (Token.float spelling).WellFormed) :
      WellFormed levels (.float spelling)
  | string {levels : Nat} (text : String) : WellFormed levels (.string text)
  | block {levels : Nat} {text : String} (token : (Token.blockString text).WellFormed) :
      WellFormed levels (.block text)
  | boolean {levels : Nat} (b : Bool) : WellFormed levels (.boolean b)
  | null {levels : Nat} : WellFormed levels .null
  | enum {levels : Nat} {text : String} (name : IsName text.toList)
      (unreserved : Rule.namedValue text = .enum text) : WellFormed levels (.enum text)
  | list {levels : Nat} {items : List Value} (each : ∀ v ∈ items, WellFormed levels v) :
      WellFormed (levels + 1) (.list items)
  | object {levels : Nat} {fields : List (String × Value)} (names : ∀ f ∈ fields, IsName f.1.toList)
      (each : ∀ f ∈ fields, WellFormed levels f.2) : WellFormed (levels + 1) (.object fields)

structure InputValue.WellFormed (v : InputValue) : Prop where
  name : IsName v.name.toList
  type : v.type.WellFormed Rule.levelLimit
  default : ∀ value ∈ v.default, value.WellFormed Rule.levelLimit

structure Field.WellFormed (f : Field) : Prop where
  name : IsName f.name.toList
  type : f.type.WellFormed Rule.levelLimit
  arguments : ∀ v ∈ f.arguments, v.WellFormed

/-- The fields in the body are well formed. Other bodies give no members. -/
def TypeBody.WellFormed : TypeBody → Prop
  | .object _ fields => ∀ f ∈ fields, f.WellFormed
  | .interface _ fields => ∀ f ∈ fields, f.WellFormed
  | .input fields => ∀ v ∈ fields, v.WellFormed
  | _ => True

structure TypeDefinition.WellFormed (d : TypeDefinition) : Prop where
  name : IsName d.name.toList
  body : d.body.WellFormed

/-- A named type, or a block that adds to one, is well formed, and so are the arguments of a
directive. -/
def Definition.WellFormed : Definition → Prop
  | .type d => d.WellFormed
  | .typeExtension d => d.WellFormed
  | .directive d => ∀ v ∈ d.arguments, v.WellFormed
  | _ => True

namespace Rule

/-! ## Type expressions -/

theorem namedType_yields : namedType.Yields fun name => IsName name.toList := expectName_yields

/-- A mark behind an expression that is not a non-null one makes it one. -/
theorem markedType_yields {levels : Nat} {base : TypeExpr}
    (holds : base.WellFormed levels ∧ ∀ e, base ≠ TypeExpr.nonNull e) :
    (do if ← skipMark .bang then return .nonNull base else return base : Rule TypeExpr).Yields
      (TypeExpr.WellFormed levels) := by
  refine (skipMark_yields .bang).bind fun marked _ => .ite (fun _ => ?_) fun _ => .pure holds.1
  exact .pure ⟨holds.1.named, ⟨holds.1.normal, holds.2⟩, holds.1.fits⟩

/-- A type expression whose lists have an expression of one level less in them. -/
theorem typeExprOver_yields {inner : Option (Rule TypeExpr)} {levels : Nat}
    (yields : ∀ item ∈ inner, ∃ below, levels = below + 1 ∧
      item.Yields (TypeExpr.WellFormed below)) :
    (typeExprOver inner).Yields (TypeExpr.WellFormed levels) := by
  refine (skipMark_yields .bracketOpen).bind fun opened _ => .ite (fun _ => ?_) fun _ => ?_
  · cases inner with
    | none =>
        exact Yields.bind (P := fun _ => False) (.failing _) fun _ absurd => absurd.elim
    | some item =>
        rcases yields item rfl with ⟨below, rfl, each⟩
        refine each.bind fun e holds => (expectMark_yields _).bind fun _ _ => ?_
        refine Yields.bind (.pure ?_) fun base holds => markedType_yields holds
        exact ⟨⟨holds.named, holds.normal, Nat.succ_le_succ holds.fits⟩,
          fun _ same => by cases same⟩
  · refine namedType_yields.bind fun name proper => ?_
    refine Yields.bind (.pure ?_) fun base holds => markedType_yields holds
    exact ⟨⟨proper, trivial, Nat.zero_le _⟩, fun _ same => by cases same⟩

theorem typeExpr_yields (levels : Nat) : (typeExpr levels).Yields (TypeExpr.WellFormed levels) := by
  induction levels with
  | zero =>
      exact typeExprOver_yields (by simp)
  | succ levels ih =>
      exact typeExprOver_yields (by simpa using ih)

/-! ## Values and directives -/

/-- No constant is a variable. -/
theorem variableValue_yields (constant : Bool) {levels : Nat} :
    (variableValue constant).Yields fun v => constant = true → v.WellFormed levels := by
  refine (expectMark_yields .dollar).bind fun _ _ => .ite (fun _ => ?_) fun variable_ => ?_
  · refine peek_yields.bind fun found _ => ?_
    split
    · exact .failing _
    · exact .failing _
  · exact expectName_yields.bind fun _ _ => .pure fun fixed => absurd fixed variable_

theorem objectField_yields {P : Value → Prop} {item : Rule Value} (yields : item.Yields P) :
    (objectField item).Yields fun f => IsName f.1.toList ∧ P f.2 :=
  expectName_yields.bind fun _ proper => (expectMark_yields .colon).bind fun _ _ =>
    yields.bind fun _ holds => .pure ⟨proper, holds⟩

/-- A name is a literal of its own, or stands for one of three. -/
theorem namedValue_wellFormed {text : String} (name : IsName text.toList) (levels : Nat) :
    (namedValue text).WellFormed levels := by
  unfold namedValue
  split
  · exact .boolean true
  · exact .boolean false
  · exact .null
  next true false null =>
      exact .enum name (namedValue.eq_4 text true false null)

/-- A literal whose lists and objects have literals of one level less in them. -/
theorem valueOver_yields (constant : Bool) {inner : Option (Rule Value)} {levels : Nat}
    (yields : ∀ item ∈ inner, ∃ below, levels = below + 1 ∧
      item.Yields fun v => constant = true → v.WellFormed below) :
    (valueOver constant inner).Yields fun v => constant = true → v.WellFormed levels := by
  refine peek_yields.bind fun found wellFormed => ?_
  -- one case for each kind of token that a literal can begin with
  split
  · cases inner with
    | none =>
        exact .failing _
    | some item =>
        rcases yields item rfl with ⟨below, rfl, each⟩
        refine (manyBetween_yields _ _ each).bind fun items holds => .pure fun fixed => ?_
        exact .list fun v mem => holds v mem fixed
  · cases inner with
    | none =>
        exact .failing _
    | some item =>
        rcases yields item rfl with ⟨below, rfl, each⟩
        refine (manyBetween_yields _ _ (objectField_yields each)).bind fun fields holds =>
          .pure fun fixed => ?_
        exact .object (fun f mem => (holds f mem).1) fun f mem => (holds f mem).2 fixed
  · exact variableValue_yields constant
  · exact advance_yields.bind fun _ _ => .pure fun _ => .int (wellFormed _ rfl)
  · exact advance_yields.bind fun _ _ => .pure fun _ => .float (wellFormed _ rfl)
  · exact advance_yields.bind fun _ _ => .pure fun _ => .string _
  · exact advance_yields.bind fun _ _ => .pure fun _ => .block (wellFormed _ rfl)
  next name =>
      have proper : IsName name.toList := wellFormed (.name name) rfl
      exact advance_yields.bind fun _ _ => .pure fun _ => namedValue_wellFormed proper levels
  · exact .failing _

theorem value_yields (constant : Bool) (levels : Nat) :
    (value constant levels).Yields fun v => constant = true → v.WellFormed levels := by
  induction levels with
  | zero =>
      exact valueOver_yields constant (by simp)
  | succ levels ih =>
      exact valueOver_yields constant (by simpa using ih)

theorem argument_yields (constant : Bool) (levels : Nat) :
    (argument constant levels).YieldsAny :=
  expectName_yields.bind fun _ _ => (expectMark_yields .colon).bind fun _ _ =>
    (value_yields constant levels).bind fun _ _ => .pure trivial

theorem arguments_yields (constant : Bool) (levels : Nat) :
    (arguments constant levels).YieldsAny :=
  (optionalBetween_yields _ _ (argument_yields constant levels)).any

theorem directive_yields (constant : Bool) (levels : Nat) :
    (directive constant levels).YieldsAny :=
  (expectMark_yields .atSign).bind fun _ _ => expectName_yields.bind fun _ _ =>
    (arguments_yields constant levels).bind fun _ _ => .pure trivial

theorem directives_yields (constant : Bool) (levels : Nat) :
    (directives constant levels).YieldsAny := by
  have stops : (do return !(← isMark .atSign) : Rule Bool).YieldsAny :=
    (isMark_yields .atSign).bind fun _ _ => .pure trivial
  exact (repeatUntil_yields stops (directive_yields constant levels)).any

theorem peekDescription_yields : peekDescription.YieldsAny := by
  refine peek_yields.bind fun found _ => ?_
  split
  · exact .pure trivial
  · exact .pure trivial
  · exact .pure trivial

theorem description?_yields : description?.YieldsAny := by
  refine peekDescription_yields.bind fun found _ => .ite (fun _ => ?_) fun _ => .pure trivial
  exact advance_yields.bind fun _ _ => .pure trivial

/-! ## Parts of definitions -/

theorem constantDirectives_yields : constantDirectives.YieldsAny :=
  directives_yields true levelLimit

theorem inputValue_yields : inputValue.Yields InputValue.WellFormed := by
  refine description?_yields.bind fun description _ => expectName_yields.bind fun name proper => ?_
  refine (expectMark_yields .colon).bind fun _ _ =>
    (typeExpr_yields levelLimit).bind fun type holds => ?_
  have rest (default : Option Value)
      (literal : ∀ value ∈ default, value.WellFormed levelLimit) : (do
      let directives ← constantDirectives
      return { description, name, type, default, directives } : Rule InputValue).Yields
        InputValue.WellFormed :=
    constantDirectives_yields.bind fun _ _ => .pure ⟨proper, holds, literal⟩
  refine (skipMark_yields .equals).bind fun _ _ => .ite (fun _ => ?_) fun _ => ?_
  · exact ((value_yields true levelLimit).map
      fun v wellFormed => by simpa using wellFormed).bind rest
  · exact Yields.bind (.pure (by simp)) rest

theorem argumentDefinitions_yields :
    argumentDefinitions.Yields fun arguments => ∀ v ∈ arguments, v.WellFormed :=
  optionalBetween_yields _ _ inputValue_yields

theorem field_yields : field.Yields Field.WellFormed := by
  refine description?_yields.bind fun description _ => expectName_yields.bind fun name proper => ?_
  refine argumentDefinitions_yields.bind fun arguments each => ?_
  refine (expectMark_yields .colon).bind fun _ _ =>
    (typeExpr_yields levelLimit).bind fun type holds => ?_
  exact constantDirectives_yields.bind fun _ _ => .pure ⟨proper, holds, each⟩

theorem enumValueName_yields : enumValueName.YieldsAny := by
  refine peek_yields.bind fun found _ => ?_
  split
  · exact .ite (fun _ => .failing _) fun _ => expectName_yields.any
  · exact expectName_yields.any

theorem enumValue_yields : enumValue.YieldsAny :=
  description?_yields.bind fun _ _ => enumValueName_yields.bind fun _ _ =>
    constantDirectives_yields.bind fun _ _ => .pure trivial

theorem interfaces_yields : interfaces.YieldsAny :=
  (skipWord_yields "implements").bind fun _ _ =>
    .ite (fun _ => (separatedBy_yields .ampersand namedType_yields).any) fun _ => .pure trivial

theorem fields_yields : fields.Yields fun fs => ∀ f ∈ fs, f.WellFormed :=
  optionalBetween_yields _ _ field_yields

theorem unionMembers_yields : unionMembers.YieldsAny :=
  (skipMark_yields .equals).bind fun _ _ =>
    .ite (fun _ => (separatedBy_yields .pipe namedType_yields).any) fun _ => .pure trivial

theorem enumValues_yields : enumValues.YieldsAny :=
  (optionalBetween_yields _ _ enumValue_yields).any

theorem inputFields_yields : inputFields.Yields fun fs => ∀ v ∈ fs, v.WellFormed :=
  optionalBetween_yields _ _ inputValue_yields

/-! ## Named types -/

section

variable (description : Option String)

theorem scalarType_yields : (scalarType description).Yields TypeDefinition.WellFormed :=
  (expectWord_yields "scalar").bind fun _ _ => expectName_yields.bind fun _ proper =>
    constantDirectives_yields.bind fun _ _ => .pure ⟨proper, trivial⟩

theorem objectType_yields : (objectType description).Yields TypeDefinition.WellFormed := by
  refine (expectWord_yields "type").bind fun _ _ => expectName_yields.bind fun _ proper => ?_
  refine interfaces_yields.bind fun _ _ => constantDirectives_yields.bind fun _ _ => ?_
  exact fields_yields.bind fun _ each => .pure ⟨proper, each⟩

theorem interfaceType_yields : (interfaceType description).Yields TypeDefinition.WellFormed := by
  refine (expectWord_yields "interface").bind fun _ _ => expectName_yields.bind fun _ proper => ?_
  refine interfaces_yields.bind fun _ _ => constantDirectives_yields.bind fun _ _ => ?_
  exact fields_yields.bind fun _ each => .pure ⟨proper, each⟩

theorem unionType_yields : (unionType description).Yields TypeDefinition.WellFormed := by
  refine (expectWord_yields "union").bind fun _ _ => expectName_yields.bind fun _ proper => ?_
  refine constantDirectives_yields.bind fun _ _ => unionMembers_yields.bind fun _ _ => ?_
  exact .pure ⟨proper, trivial⟩

theorem enumType_yields : (enumType description).Yields TypeDefinition.WellFormed := by
  refine (expectWord_yields "enum").bind fun _ _ => expectName_yields.bind fun _ proper => ?_
  refine constantDirectives_yields.bind fun _ _ => enumValues_yields.bind fun _ _ => ?_
  exact .pure ⟨proper, trivial⟩

theorem inputType_yields : (inputType description).Yields TypeDefinition.WellFormed := by
  refine (expectWord_yields "input").bind fun _ _ => expectName_yields.bind fun _ proper => ?_
  refine constantDirectives_yields.bind fun _ _ => inputFields_yields.bind fun _ each => ?_
  exact .pure ⟨proper, each⟩

/-! ## Schema and directives -/

theorem operationWord_yields : operationWord.YieldsAny :=
  expectName_yields.bind fun _ _ => .ite (fun _ => .pure trivial) fun _ => .failing _

theorem operationType_yields : operationType.YieldsAny :=
  operationWord_yields.bind fun _ _ => (expectMark_yields .colon).bind fun _ _ =>
    namedType_yields.bind fun _ _ => .pure trivial

theorem schemaDefinition_yields : (schemaDefinition description).YieldsAny :=
  (expectWord_yields "schema").bind fun _ _ => constantDirectives_yields.bind fun _ _ =>
    (someBetween_yields _ _ operationType_yields).bind fun _ _ => .pure trivial

theorem directiveLocation_yields : directiveLocation.YieldsAny :=
  expectName_yields.bind fun _ _ => .ite (fun _ => .pure trivial) fun _ => .failing _

theorem directiveDefinition_yields :
    (directiveDefinition description).Yields fun d => ∀ v ∈ d.arguments, v.WellFormed := by
  refine (expectWord_yields "directive").bind fun _ _ =>
    (expectMark_yields .atSign).bind fun _ _ => ?_
  refine expectName_yields.bind fun _ _ => argumentDefinitions_yields.bind fun _ each => ?_
  refine constantDirectives_yields.bind fun _ _ => (skipWord_yields "repeatable").bind fun _ _ => ?_
  refine (expectWord_yields "on").bind fun _ _ => ?_
  exact (separatedBy_yields .pipe directiveLocation_yields).bind fun _ _ => .pure each

end

/-! ## Extensions -/

theorem typeExtension_yields {rule : Option String → Rule TypeDefinition}
    (yields : ∀ description, (rule description).Yields TypeDefinition.WellFormed) :
    (typeExtension rule).Yields Definition.WellFormed :=
  (yields none).bind fun _ holds => .ite (fun _ => unexpected_yields) fun _ => .pure holds

theorem schemaExtension_yields : schemaExtension.Yields Definition.WellFormed := by
  refine (expectWord_yields "schema").bind fun _ _ => constantDirectives_yields.bind fun _ _ => ?_
  refine (optionalBetween_yields _ _ operationType_yields).bind fun _ _ => ?_
  exact .ite (fun _ => unexpected_yields) fun _ => .pure trivial

theorem directiveExtension_yields : directiveExtension.Yields Definition.WellFormed := by
  refine (expectWord_yields "directive").bind fun _ _ =>
    (expectMark_yields .atSign).bind fun _ _ => ?_
  refine expectName_yields.bind fun _ _ => constantDirectives_yields.bind fun _ _ => ?_
  exact .ite (fun _ => unexpected_yields) fun _ => .pure trivial

theorem extension_yields : extension.Yields Definition.WellFormed := by
  refine peekSecond_yields.bind fun found _ => ?_
  -- one case for each keyword behind the first
  split
  · exact advance_yields.bind fun _ _ => schemaExtension_yields
  · exact advance_yields.bind fun _ _ => typeExtension_yields scalarType_yields
  · exact advance_yields.bind fun _ _ => typeExtension_yields objectType_yields
  · exact advance_yields.bind fun _ _ => typeExtension_yields interfaceType_yields
  · exact advance_yields.bind fun _ _ => typeExtension_yields unionType_yields
  · exact advance_yields.bind fun _ _ => typeExtension_yields enumType_yields
  · exact advance_yields.bind fun _ _ => typeExtension_yields inputType_yields
  · exact advance_yields.bind fun _ _ => directiveExtension_yields
  · exact .failing _

/-! ## Operations and fragments -/

section

variable {levels : Nat} {inner : Rule Unit}

theorem selectedField_yields (yields : inner.YieldsAny) :
    (selectedField levels inner).YieldsAny := by
  have rest : (do
      let _ ← arguments false levels
      let _ ← directives false levels
      if ← isMark .braceOpen then inner : Rule Unit).YieldsAny := by
    refine (arguments_yields false levels).bind fun _ _ =>
      (directives_yields false levels).bind fun _ _ => ?_
    exact (isMark_yields .braceOpen).bind fun _ _ => .ite (fun _ => yields) fun _ => .pure trivial
  refine expectName_yields.bind fun _ _ => (skipMark_yields .colon).bind fun _ _ => ?_
  exact .ite (fun _ => expectName_yields.bind fun _ _ => rest) fun _ => rest

theorem fragmentName_yields : fragmentName.YieldsAny :=
  peek_yields.bind fun _ _ => .ite (fun _ => unexpected_yields) fun _ => expectName_yields.any

theorem selectedFragment_yields (yields : inner.YieldsAny) :
    (selectedFragment levels inner).YieldsAny := by
  refine (expectMark_yields .spread).bind fun _ _ => (skipWord_yields "on").bind fun _ _ => ?_
  refine .ite (fun _ => ?_) fun _ => isName_yields.bind fun _ _ => .ite (fun _ => ?_) fun _ => ?_
  · exact namedType_yields.bind fun _ _ => (directives_yields false levels).bind fun _ _ => yields
  · exact fragmentName_yields.bind fun _ _ =>
      (directives_yields false levels).bind fun _ _ => .pure trivial
  · exact (directives_yields false levels).bind fun _ _ => yields

theorem selection_yields (yields : inner.YieldsAny) : (selection levels inner).YieldsAny :=
  (isMark_yields .spread).bind fun _ _ =>
    .ite (fun _ => selectedFragment_yields yields) fun _ => selectedField_yields yields

theorem selectionSet_yields (levels : Nat) : (selectionSet levels).YieldsAny := by
  induction levels with
  | zero =>
      exact .failing _
  | succ levels ih =>
      exact (manyBetween_yields _ _ (selection_yields ih)).bind fun _ _ => .pure trivial

end

theorem variableDefinition_yields : variableDefinition.YieldsAny := by
  refine description?_yields.bind fun _ _ => (expectMark_yields .dollar).bind fun _ _ => ?_
  refine expectName_yields.bind fun _ _ => (expectMark_yields .colon).bind fun _ _ => ?_
  have rest : (do let _ ← directives true levelLimit : Rule Unit).YieldsAny :=
    (directives_yields true levelLimit).bind fun _ _ => .pure trivial
  refine (typeExpr_yields levelLimit).bind fun _ _ => (skipMark_yields .equals).bind fun _ _ => ?_
  exact .ite (fun _ => (value_yields true levelLimit).bind fun _ _ => rest) fun _ => rest

theorem shorthandQuery_yields : shorthandQuery.YieldsAny :=
  (selectionSet_yields levelLimit).bind fun _ _ => .pure trivial

theorem operation_yields (description : Option String) : (operation description).YieldsAny := by
  have rest (name : Option String) : (do
      let _ ← optionalBetween .parenOpen .parenClose variableDefinition
      let directives ← directives false levelLimit
      selectionSet levelLimit
      return { kind := .operation, description, name, directives } :
        Rule ExecutableDefinition).YieldsAny := by
    refine (optionalBetween_yields _ _ variableDefinition_yields).bind fun _ _ => ?_
    refine (directives_yields false levelLimit).bind fun _ _ => ?_
    exact (selectionSet_yields levelLimit).bind fun _ _ => .pure trivial
  refine expectName_yields.bind fun _ _ => isName_yields.bind fun _ _ =>
    .ite (fun _ => ?_) fun _ => ?_
  · exact (expectName_yields.map (Q := fun _ => True) fun _ _ => trivial).bind fun name _ =>
      rest name
  · exact Yields.bind (P := fun _ => True) (.pure trivial) fun name _ => rest name

theorem fragment_yields (description : Option String) : (fragment description).YieldsAny := by
  refine (expectWord_yields "fragment").bind fun _ _ => fragmentName_yields.bind fun _ _ => ?_
  refine (expectWord_yields "on").bind fun _ _ => namedType_yields.bind fun _ _ => ?_
  refine (directives_yields false levelLimit).bind fun _ _ => ?_
  exact (selectionSet_yields levelLimit).bind fun _ _ => .pure trivial

/-! ## Documents -/

/-- Whatever keyword a definition begins with, it is well formed. -/
theorem definitionOf?_yields {word : String} {rule : Option String → Rule Definition}
    (found : definitionOf? word = some rule) (description : Option String) :
    (rule description).Yields Definition.WellFormed := by
  unfold definitionOf? at found
  split at found <;> cases found
  · exact (schemaDefinition_yields description).map fun _ _ => trivial
  · exact (scalarType_yields description).map fun _ holds => holds
  · exact (objectType_yields description).map fun _ holds => holds
  · exact (interfaceType_yields description).map fun _ holds => holds
  · exact (unionType_yields description).map fun _ holds => holds
  · exact (enumType_yields description).map fun _ holds => holds
  · exact (inputType_yields description).map fun _ holds => holds
  · exact (directiveDefinition_yields description).map fun _ holds => holds
  · exact (operation_yields description).map fun _ _ => trivial
  · exact (operation_yields description).map fun _ _ => trivial
  · exact (operation_yields description).map fun _ _ => trivial
  · exact (fragment_yields description).map fun _ _ => trivial

theorem describedDefinition_yields : describedDefinition.Yields Definition.WellFormed := by
  refine peekSecond_yields.bind fun found _ => ?_
  split
  · exact .failing _
  · split
    next rule defined =>
        exact description?_yields.bind fun description _ => definitionOf?_yields defined description
    · exact .failing _
  · exact .failing _

theorem plainDefinition_yields : plainDefinition.Yields Definition.WellFormed := by
  refine peek_yields.bind fun found _ => ?_
  split
  · exact shorthandQuery_yields.map fun _ _ => trivial
  · exact extension_yields
  · split
    next rule defined =>
        exact definitionOf?_yields defined none
    · exact unexpected_yields
  · exact unexpected_yields

theorem definition_yields : definition.Yields Definition.WellFormed :=
  peekDescription_yields.bind fun _ _ =>
    .ite (fun _ => describedDefinition_yields) fun _ => plainDefinition_yields

/-- A document has well-formed definitions only. -/
theorem document_yields : document.Yields fun ds => ∀ d ∈ ds, d.WellFormed :=
  someUntil_yields atEnd_yields definition_yields

end Rule

/-- Texts with tokens alike are the same document, of well-formed definitions, or both are none. -/
theorem Document.parse_of_alike {text text' : List Char}
    (alike : (TokenStream.ofText text).Alike (TokenStream.ofText text')) :
    (∃ document, Document.parse text = .ok document ∧ Document.parse text' = .ok document ∧
      ∀ d ∈ document, d.WellFormed) ∨
    ∃ e e', Document.parse text = .error e ∧ Document.parse text' = .error e' := by
  have agree := Rule.document_yields alike
  unfold Document.parse
  generalize Rule.document (TokenStream.ofText text) = result,
    Rule.document (TokenStream.ofText text') = result' at agree
  cases agree with
  | failure e e' =>
      exact .inr ⟨e, e', rfl, rfl⟩
  | success holds rest =>
      exact .inl ⟨_, rfl, rfl, holds⟩

end SchemaCompletion.Sdl
