import SchemaCompletion.Proofs.Writing.Types
import SchemaCompletion.Proofs.Writing.Values

/-!
# Written definitions

The tokens that a definition of the type system is written with, and that the grammar takes it from
them. What may be written in more than one way is left open: a description as a string of either
kind, and a mark before the first of some names.

* `Described`, `Listed` — the ways to write a description, and to write names;
* `InputValue.Written`, `Field.Written`, `EnumValue.Written` — the parts of definitions;
* `TypeBody.Written`, `TypeDefinition.Written`, `Definition.Written` — definitions, and blocks that
  extend them;
* `Definition.declared` — all that is declared to be of a type;
* `Rule.Boundary` — what may stand behind a part;
* `Rule.inputValue_takes`, `Rule.field_takes`, …, `Rule.definition_takes` — each rule takes what it
  is for from its tokens.
-/

namespace SchemaCompletion.Sdl

/-! ## How definitions are written -/

/-- No description, or a string of either kind. -/
inductive Described : Option String → List Token → Prop where
  | none : Described none []
  | string (text : String) : Described (some text) [.string text]
  | block (text : String) : Described (some text) [.blockString text]

/-- A description or a name stands in front. -/
theorem Described.begins {description : Option String} {describing : List Token}
    (described : Described description describing) (name : String) (ts : List Token) :
    ∃ t us, describing ++ .name name :: ts = t :: us ∧ ∀ p, t ≠ .punctuator p := by
  cases described with
  | none | string | block =>
      exact ⟨_, _, rfl, by simp⟩

/-- Names behind a token that announces them, with a mark between them and at will one before the
first; without names there is no token. -/
inductive Listed (announcing : Token) (mark : Punctuator) : List String → List Token → Prop where
  | none : Listed announcing mark [] []
  | some {names : List String} {leading : List Token} (filled : names ≠ [])
      (lead : leading = [] ∨ leading = [.punctuator mark]) :
      Listed announcing mark names (announcing :: (leading ++ apart mark names))

def Argument.tokens (a : Argument) : List Token :=
  .name a.name :: .punctuator .colon :: a.value.tokens

def Directive.tokens (d : Directive) : List Token :=
  .punctuator .atSign :: .name d.name :: enclosed .parenOpen .parenClose
    (d.arguments.map Argument.tokens)

/-- The arguments of a directive are literals as the grammar has them. -/
def Directive.WellFormed (d : Directive) : Prop :=
  ∀ a ∈ d.arguments, a.value.WellFormed Rule.levelLimit

/-- The tokens of the directives that are applied to a definition. -/
def appliedTokens (directives : List Directive) : List Token := directives.flatMap Directive.tokens

/-- The tokens of a default, if there is one. -/
def defaultTokens : Option Value → List Token
  | none => []
  | some v => .punctuator .equals :: v.tokens

/-- An argument or a field of an input type. -/
inductive InputValue.Written (v : InputValue) : List Token → Prop where
  | intro {describing : List Token} (described : Described v.description describing)
      (default : ∀ value ∈ v.default, value.WellFormed Rule.levelLimit)
      (directives : ∀ d ∈ v.directives, d.WellFormed) :
      v.Written (describing ++ .name v.name :: .punctuator .colon ::
        (v.type.tokens ++ (defaultTokens v.default ++ appliedTokens v.directives)))

theorem InputValue.Written.begins {v : InputValue} {ts : List Token} (written : v.Written ts) :
    ∃ t us, ts = t :: us ∧ ∀ p, t ≠ .punctuator p := by
  rcases written with ⟨described, _, _⟩
  exact described.begins _ _

inductive Field.Written (f : Field) : List Token → Prop where
  | intro {describing : List Token} {arguments : List (List Token)}
      (described : Described f.description describing)
      (each : List.Forall₂ InputValue.Written f.arguments arguments)
      (directives : ∀ d ∈ f.directives, d.WellFormed) :
      f.Written (describing ++ .name f.name :: (enclosed .parenOpen .parenClose arguments ++
        .punctuator .colon :: (f.type.tokens ++ appliedTokens f.directives)))

theorem Field.Written.begins {f : Field} {ts : List Token} (written : f.Written ts) :
    ∃ t us, ts = t :: us ∧ ∀ p, t ≠ .punctuator p := by
  rcases written with ⟨described, _, _⟩
  exact described.begins _ _

inductive EnumValue.Written (v : EnumValue) : List Token → Prop where
  | intro {describing : List Token} (described : Described v.description describing)
      (unreserved : v.name ∉ Rule.reservedEnumValues)
      (directives : ∀ d ∈ v.directives, d.WellFormed) :
      v.Written (describing ++ .name v.name :: appliedTokens v.directives)

theorem EnumValue.Written.begins {v : EnumValue} {ts : List Token} (written : v.Written ts) :
    ∃ t us, ts = t :: us ∧ ∀ p, t ≠ .punctuator p := by
  rcases written with ⟨described, _, _⟩
  exact described.begins _ _

/-- The body of a type: the keyword of the type, the tokens in front of its directives, and those
behind. -/
inductive TypeBody.Written : TypeBody → String → List Token → List Token → Prop where
  | scalar : Written .scalar "scalar" [] []
  | object {interfaces : List String} {fields : List Field} {front : List Token}
      {pieces : List (List Token)}
      (listed : Listed (.name "implements") .ampersand interfaces front)
      (each : List.Forall₂ Field.Written fields pieces) :
      Written (.object interfaces fields) "type" front (enclosed .braceOpen .braceClose pieces)
  | interface {interfaces : List String} {fields : List Field} {front : List Token}
      {pieces : List (List Token)}
      (listed : Listed (.name "implements") .ampersand interfaces front)
      (each : List.Forall₂ Field.Written fields pieces) :
      Written (.interface interfaces fields) "interface" front
        (enclosed .braceOpen .braceClose pieces)
  | union {members : List String} {back : List Token}
      (listed : Listed (.punctuator .equals) .pipe members back) :
      Written (.union members) "union" [] back
  | enum {values : List EnumValue} {pieces : List (List Token)}
      (each : List.Forall₂ EnumValue.Written values pieces) :
      Written (.enum values) "enum" [] (enclosed .braceOpen .braceClose pieces)
  | input {fields : List InputValue} {pieces : List (List Token)}
      (each : List.Forall₂ InputValue.Written fields pieces) :
      Written (.input fields) "input" [] (enclosed .braceOpen .braceClose pieces)

/-- A type without its description, from its keyword on. -/
inductive TypeDefinition.Written (d : TypeDefinition) : String → List Token → Prop where
  | intro {keyword : String} {front back : List Token} (body : d.body.Written keyword front back)
      (directives : ∀ applied ∈ d.directives, applied.WellFormed) :
      d.Written keyword (.name d.name :: (front ++ (appliedTokens d.directives ++ back)))

/-- The tokens of a type for an operation. -/
def operationTokens (operation : String × String) : List Token :=
  [.name operation.1, .punctuator .colon, .name operation.2]

/-- A definition of the type system, or a block that extends one. -/
inductive Definition.Written : Definition → List Token → Prop where
  | type {d : TypeDefinition} {describing ts : List Token} {keyword : String}
      (described : Described d.description describing) (written : d.Written keyword ts) :
      Written (.type d) (describing ++ .name keyword :: ts)
  | typeExtension {d : TypeDefinition} {ts : List Token} {keyword : String}
      (plain : d.description = none) (adds : d.isBare = false) (written : d.Written keyword ts) :
      Written (.typeExtension d) (.name "extend" :: .name keyword :: ts)
  | schema {d : SchemaDefinition} {describing : List Token}
      (described : Described d.description describing)
      (directives : ∀ applied ∈ d.directives, applied.WellFormed) (filled : d.operations ≠ [])
      (operations : ∀ operation ∈ d.operations, operation.1 ∈ Rule.operationWords) :
      Written (.schema d) (describing ++ .name "schema" :: (appliedTokens d.directives ++
        enclosed .braceOpen .braceClose (d.operations.map operationTokens)))
  | schemaExtension {d : SchemaDefinition} (plain : d.description = none)
      (directives : ∀ applied ∈ d.directives, applied.WellFormed)
      (adds : (d.directives.isEmpty && d.operations.isEmpty) = false)
      (operations : ∀ operation ∈ d.operations, operation.1 ∈ Rule.operationWords) :
      Written (.schemaExtension d)
        (.name "extend" :: .name "schema" :: (appliedTokens d.directives ++
        enclosed .braceOpen .braceClose (d.operations.map operationTokens)))
  | directive {d : DirectiveDefinition} {describing repeating leading : List Token}
      {arguments : List (List Token)} (described : Described d.description describing)
      (each : List.Forall₂ InputValue.Written d.arguments arguments)
      (directives : ∀ applied ∈ d.directives, applied.WellFormed)
      (repeatable : repeating = if d.repeatable then [.name "repeatable"] else [])
      (filled : d.locations ≠ [])
      (locations : ∀ place ∈ d.locations, place ∈ Rule.directiveLocations)
      (lead : leading = [] ∨ leading = [.punctuator .pipe]) :
      Written (.directive d)
        (describing ++ .name "directive" :: .punctuator .atSign :: .name d.name ::
        (enclosed .parenOpen .parenClose arguments ++ (appliedTokens d.directives ++
          (repeating ++ .name "on" :: (leading ++ apart .pipe d.locations)))))
  | directiveExtension {name : String} {directives : List Directive}
      (wellFormed : ∀ applied ∈ directives, applied.WellFormed) (adds : directives ≠ []) :
      Written (.directiveExtension name directives)
        (.name "extend" :: .name "directive" :: .punctuator .atSign :: .name name ::
          appliedTokens directives)

/-! ## Declared types -/

/-- The name and the type of an argument or of a field of an input type. -/
def InputValue.declared (v : InputValue) : String × TypeExpr := (v.name, v.type)

/-- The name and the type of a field, and those of its arguments. -/
def Field.declared (f : Field) : List (String × TypeExpr) :=
  (f.name, f.type) :: f.arguments.map InputValue.declared

def TypeBody.declared : TypeBody → List (String × TypeExpr)
  | .object _ fields => fields.flatMap Field.declared
  | .interface _ fields => fields.flatMap Field.declared
  | .input fields => fields.map InputValue.declared
  | _ => []

/-- All that is declared to be of a type in a definition or a block that extends one, in order. -/
def Definition.declared : Definition → List (String × TypeExpr)
  | .type d => d.body.declared
  | .typeExtension d => d.body.declared
  | .directive d => d.arguments.map InputValue.declared
  | _ => []

/-- All declared types are ones that the grammar has. -/
abbrev TypesFit (declared : List (String × TypeExpr)) : Prop :=
  ∀ x ∈ declared, x.2.WellFormed Rule.levelLimit

namespace Rule

/-! ## What stands behind a part -/

section

variable {t : Option Token} {u : Token}

/-- A part ends where no mark follows but one that closes a sequence. -/
def Boundary (t : Option Token) : Prop :=
  ∀ p, t = some (.punctuator p) → p = .parenClose ∨ p = .braceClose

theorem Boundary.noMark (boundary : Boundary t) {p : Punctuator}
    (other : ¬(p = .parenClose ∨ p = .braceClose)) :
    NoMark p t :=
  fun same => other (boundary p same)

theorem boundary_none : Boundary none := fun p same => by cases same

theorem boundary_text (text : ∀ p, u ≠ .punctuator p) : Boundary (some u) :=
  fun p same => absurd (Option.some.inj same) (text p)

theorem head?_append_or (ts us : List Token) (t : Option Token) :
    (ts ++ us).head?.or t = ts.head?.or (us.head?.or t) := by
  rw [List.head?_append, Option.or_assoc]

/-- The tokens begin with a certain one, if there are any. -/
def Opens (u : Token) (ts : List Token) : Prop := ∀ v ∈ ts.head?, v = u

theorem opens_nil : Opens u [] := fun v mem => by cases mem

theorem opens_cons (ts : List Token) : Opens u (u :: ts) := fun v mem => by
  cases mem
  rfl

/-- Another token is not in front if it is not behind. -/
theorem Opens.absent {v : Token} {ts : List Token} (opens : Opens u ts) (other : v ≠ u)
    (absent : t ≠ some v) :
    ts.head?.or t ≠ some v := by
  cases ts with
  | nil =>
      exact absent
  | cons w ts =>
      exact fun same => other ((Option.some.inj same).symm.trans (opens w rfl))

theorem opens_applied (ds : List Directive) : Opens (.punctuator .atSign) (appliedTokens ds) := by
  cases ds with
  | nil =>
      exact opens_nil
  | cons =>
      exact opens_cons _

theorem opens_enclosed (opening closing : Punctuator) (pieces : List (List Token)) :
    Opens (.punctuator opening) (enclosed opening closing pieces) := by
  cases pieces with
  | nil =>
      exact opens_nil
  | cons =>
      exact opens_cons _

theorem opens_default (default : Option Value) :
    Opens (.punctuator .equals) (defaultTokens default) := by
  cases default with
  | none =>
      exact opens_nil
  | some =>
      exact opens_cons _

theorem opens_listed {mark : Punctuator} {names : List String} {ts : List Token}
    (listed : Listed u mark names ts) :
    Opens u ts := by
  cases listed with
  | none =>
      exact opens_nil
  | some =>
      exact opens_cons _

end

/-! ## Descriptions and names -/

variable {α : Type} {ok : Option Token → Prop} {a : α}

/-- A string in front of a definition is its description. -/
theorem description?_takes {t : Token} {text : String} (written : Described (some text) [t]) :
    description?.Takes [t] Always (some text) := by
  have taken : (do advance; return some text : Rule (Option String)).Takes [t] Always (some text) :=
    (advance_takes t).andThen (.pure (some text))
  rw [description?, peekDescription, bind_assoc]
  cases written with
  | string | block =>
      exact Takes.looking fun _ _ => taken

theorem description?_takes_none :
    description?.Takes [] (fun t => ∃ name, t = some (.name name)) none := by
  rw [description?, peekDescription, bind_assoc]
  refine Takes.looking fun t named => ?_
  rcases named with ⟨name, rfl⟩
  exact .pure none

/-- A description, or none, in front of a name. -/
theorem describing_takes {description : Option String} {describing ts : List Token} {name : String}
    {f : Option String → Rule α} (described : Described description describing)
    (rest : (f description).Takes (.name name :: ts) ok a) :
    (description? >>= f).Takes (describing ++ .name name :: ts) ok a := by
  cases described with
  | none =>
      exact description?_takes_none.skipping rest fun _ _ => ⟨name, rfl⟩
  | string text =>
      exact (description?_takes (.string text)).andThen rest
  | block text =>
      exact (description?_takes (.block text)).andThen rest

/-- Names that are announced, or none. -/
theorem listed_takes {announcing : Token} {mark : Punctuator} {names : List String}
    {ts : List Token} {announced : Rule Bool} {item : Rule String}
    (listed : Listed announcing mark names ts)
    (skips : announced.Takes [announcing] Always true)
    (skips' : announced.Takes [] (fun t => t ≠ some announcing) false)
    (each : ∀ n ∈ names, item.Takes [.name n] Always n) :
    (do if ← announced then separatedBy mark item else return [] : Rule (List String)).Takes ts
      (fun t => t ≠ some announcing ∧ NoMark mark t) names := by
  cases listed with
  | none =>
      exact skips'.ending (.pure []) fun _ absent => absent.1
  | some filled lead =>
      have taken := separatedBy_takes lead filled each
      exact skips.andThen (taken.mono fun _ absent => absent.2)

/-! ## Directives -/

theorem argument_takes {a : Argument} (wellFormed : a.value.WellFormed levelLimit) :
    (argument true levelLimit).Takes a.tokens Always a :=
  (expectName_takes a.name).andThen
  ((expectMark_takes .colon).andThen (value_takes wellFormed true).giving)

theorem directive_takes {d : Directive} (wellFormed : d.WellFormed) :
    (directive true levelLimit).Takes d.tokens (NoMark .parenOpen) d := by
  have pieces : List.Forall₂
      (TakesItem (argument true levelLimit) (· ≠ .punctuator .parenClose) Always)
      d.arguments (d.arguments.map Argument.tokens) :=
    takesItems_map fun a mem => ⟨⟨_, _, rfl, by simp⟩, argument_takes (wellFormed a mem)⟩
  have taken := optionalBetween_takes .parenOpen pieces (fun t begins => ⟨trivial, begins⟩) trivial
    fun _ t (absent : NoMark .parenOpen t) => absent
  exact (expectMark_takes .atSign).andThen ((expectName_takes d.name).andThen taken.giving)

theorem constantDirectives_takes {ds : List Directive} (each : ∀ d ∈ ds, d.WellFormed) :
    constantDirectives.Takes (appliedTokens ds)
      (fun t => NoMark .atSign t ∧ NoMark .parenOpen t) ds := by
  have pieces : List.Forall₂
      (TakesItem (directive true levelLimit) (· = .punctuator .atSign) (NoMark .parenOpen))
      ds (ds.map Directive.tokens) :=
    takesItems_map fun d mem => ⟨⟨_, _, rfl, rfl⟩, directive_takes (each d mem)⟩
  have stops :=
    (notMark_stops .atSign).mono fun t (absent : NoMark .atSign t ∧ NoMark .parenOpen t) => absent.1
  have taken := repeatUntil_takes notMark_goes stops pieces
    (by rintro t rfl same; cases same) fun _ absent => absent.2
  rwa [List.append_nil, ← List.flatMap_def] at taken

/-- Directives at the end of a part. -/
theorem constantDirectives_takes_last {ds : List Directive} (each : ∀ d ∈ ds, d.WellFormed) :
    constantDirectives.Takes (appliedTokens ds) Boundary ds :=
  (constantDirectives_takes each).mono fun _ boundary =>
    ⟨boundary.noMark (by decide), boundary.noMark (by decide)⟩

/-! ## Parts of definitions -/

theorem inputValue_takes {v : InputValue} {ts : List Token} (written : v.Written ts)
    (fits : v.declared.2.WellFormed levelLimit) : inputValue.Takes ts Boundary v := by
  rcases written with ⟨described, literal, directives⟩
  have rest (default : Option Value) : (do
      let directives ← constantDirectives
      return { v with default, directives } :
        Rule InputValue).Takes (appliedTokens v.directives) Boundary
        { v with default } :=
    (constantDirectives_takes_last directives).giving
  have behind : (do
      let default ← if ← skipMark .equals then some <$> value true levelLimit else pure none
      let directives ← constantDirectives
      return { v with default, directives } : Rule InputValue).Takes
        (defaultTokens v.default ++ appliedTokens v.directives) Boundary v := by
    rcases v with ⟨description, name, e, default, applied⟩
    cases default with
    | none =>
        refine (skipMark_takes_none .equals).skipping (rest none) fun t boundary => ?_
        exact (opens_applied applied).absent (by decide) (boundary.noMark (by decide))
    | some literal_ =>
        refine (skipMark_takes .equals).andThen ?_
        exact ((value_takes (literal literal_ rfl) true).map).andThen (rest (some literal_))
  refine describing_takes described
    ((expectName_takes v.name).andThen ((expectMark_takes .colon).andThen ?_))
  refine (typeExpr_takes fits.normal fits.fits).bind behind fun t boundary => ?_
  rw [head?_append_or]
  exact (opens_default _).absent (by decide)
    ((opens_applied _).absent (by decide) (boundary.noMark (by decide)))

/-- Parts between two marks, if there are any, each of them written as the rule for a part takes
it. -/
theorem parts_takes {α : Type} {item : Rule α} {written : α → List Token → Prop} {parts : List α}
    {pieces : List (List Token)} (opening : Punctuator) {closing : Punctuator}
    (closes : closing = .parenClose ∨ closing = .braceClose)
    (begins : ∀ a ts, written a ts → ∃ t us, ts = t :: us ∧ ∀ p, t ≠ .punctuator p)
    (each : List.Forall₂ written parts pieces)
    (takes : ∀ a ∈ parts, ∀ ts, written a ts → item.Takes ts Boundary a) :
    (optionalBetween opening closing item).Takes (enclosed opening closing pieces)
      (NoMark opening) parts := by
  have items : List.Forall₂ (TakesItem item (fun t => ∀ p, t ≠ .punctuator p) Boundary)
      parts pieces :=
    ((List.forall₂_and_left parts pieces).2 ⟨fun _ mem => mem, each⟩).imp fun a ts here =>
      ⟨begins a ts here.2, takes a here.1 ts here.2⟩
  refine optionalBetween_takes opening items (fun t text => ⟨boundary_text text, text closing⟩) ?_
    fun _ _ absent => absent
  intro p same
  cases same
  exact closes

theorem argumentDefinitions_takes {vs : List InputValue} {pieces : List (List Token)}
    (each : List.Forall₂ InputValue.Written vs pieces)
    (types : TypesFit (vs.map InputValue.declared)) :
    argumentDefinitions.Takes (enclosed .parenOpen .parenClose pieces) (NoMark .parenOpen) vs :=
  parts_takes .parenOpen (.inl rfl) (fun _ _ => InputValue.Written.begins) each
    fun v mem _ written => inputValue_takes written (types v.declared (List.mem_map_of_mem mem))

theorem field_takes {f : Field} {ts : List Token} (written : f.Written ts)
    (types : TypesFit f.declared) : field.Takes ts Boundary f := by
  rcases written with ⟨described, each, directives⟩
  have type := types (f.name, f.type) List.mem_cons_self
  have arguments := argumentDefinitions_takes each fun x mem => types x (List.mem_cons_of_mem _ mem)
  have behind : (do
      let type ← typeExpr levelLimit
      let directives ← constantDirectives
      return { f with type, directives } :
        Rule Field).Takes (f.type.tokens ++ appliedTokens f.directives)
        Boundary f := by
    refine (typeExpr_takes type.normal type.fits).bind
      (constantDirectives_takes_last directives).giving ?_
    exact fun t boundary => (opens_applied _).absent (by decide) (boundary.noMark (by decide))
  refine describing_takes described ((expectName_takes f.name).andThen ?_)
  refine arguments.bind ((expectMark_takes .colon).andThen behind) fun _ _ same => ?_
  cases same

theorem enumValueName_takes {name : String} (unreserved : name ∉ reservedEnumValues) :
    enumValueName.Takes [.name name] Always name := by
  refine Takes.looking fun _ _ => ?_
  have free : reservedEnumValues.contains name = false := by simpa using unreserved
  change (if reservedEnumValues.contains name then _ else expectName).Takes [.name name] Always name
  rw [free]
  exact expectName_takes name

theorem enumValue_takes {v : EnumValue} {ts : List Token} (written : v.Written ts) :
    enumValue.Takes ts Boundary v := by
  rcases written with ⟨described, unreserved, directives⟩
  refine describing_takes described ((enumValueName_takes unreserved).andThen ?_)
  exact (constantDirectives_takes_last directives).giving

theorem interfaces_takes {names : List String} {ts : List Token}
    (listed : Listed (.name "implements") .ampersand names ts) :
    interfaces.Takes ts (fun t => NoWord "implements" t ∧ NoMark .ampersand t) names :=
  listed_takes listed (skipWord_takes _) (skipWord_takes_none _) fun n _ => expectName_takes n

theorem unionMembers_takes {names : List String} {ts : List Token}
    (listed : Listed (.punctuator .equals) .pipe names ts) :
    unionMembers.Takes ts (fun t => NoMark .equals t ∧ NoMark .pipe t) names :=
  listed_takes listed (skipMark_takes _) (skipMark_takes_none _) fun n _ => expectName_takes n

theorem fields_takes {fs : List Field} {pieces : List (List Token)}
    (each : List.Forall₂ Field.Written fs pieces) (types : TypesFit (fs.flatMap Field.declared)) :
    fields.Takes (enclosed .braceOpen .braceClose pieces) (NoMark .braceOpen) fs :=
  parts_takes .braceOpen (.inr rfl) (fun _ _ => Field.Written.begins) each fun _ mem _ written =>
    field_takes written fun x there => types x (List.mem_flatMap_of_mem mem there)

theorem enumValues_takes {vs : List EnumValue} {pieces : List (List Token)}
    (each : List.Forall₂ EnumValue.Written vs pieces) :
    enumValues.Takes (enclosed .braceOpen .braceClose pieces) (NoMark .braceOpen) vs :=
  parts_takes .braceOpen (.inr rfl) (fun _ _ => EnumValue.Written.begins) each
    fun _ _ _ written => enumValue_takes written

theorem inputFields_takes {vs : List InputValue} {pieces : List (List Token)}
    (each : List.Forall₂ InputValue.Written vs pieces)
    (types : TypesFit (vs.map InputValue.declared)) :
    inputFields.Takes (enclosed .braceOpen .braceClose pieces) (NoMark .braceOpen) vs :=
  parts_takes .braceOpen (.inr rfl) (fun _ _ => InputValue.Written.begins) each
    fun v mem _ written => inputValue_takes written (types v.declared (List.mem_map_of_mem mem))

/-! ## Named types -/

/-- What may follow a definition. -/
def Ending (t : Option Token) : Prop := Boundary t ∧ NoWord "implements" t

/-- Directives in front of a body that does not begin as directives or their arguments do. -/
theorem applied_takes {ds : List Directive} {back : List Token} {body : List Directive → Rule α}
    (each : ∀ d ∈ ds, d.WellFormed) (rest : (body ds).Takes back Ending a)
    (other : ∀ t, Ending t → NoMark .atSign (back.head?.or t) ∧
      NoMark .parenOpen (back.head?.or t)) :
    (constantDirectives >>= body).Takes (appliedTokens ds ++ back) Ending a :=
  (constantDirectives_takes each).bind rest other

/-- The rule for a type with such a body. -/
def typeRule : TypeBody → Option String → Rule TypeDefinition
  | .scalar => scalarType
  | .object .. => objectType
  | .interface .. => interfaceType
  | .union .. => unionType
  | .enum .. => enumType
  | .input .. => inputType

/-- Nothing in front of a sequence between braces, or in place of it, belongs to the directives
before it. -/
theorem braces_other (pieces : List (List Token)) (t : Option Token) (ending : Ending t) :
    NoMark .atSign ((enclosed .braceOpen .braceClose pieces).head?.or t) ∧
      NoMark .parenOpen ((enclosed .braceOpen .braceClose pieces).head?.or t) :=
  ⟨(opens_enclosed _ _ pieces).absent (by decide) (ending.1.noMark (by decide)),
    (opens_enclosed _ _ pieces).absent (by decide) (ending.1.noMark (by decide))⟩

/-- Interfaces, directives and fields, as object and interface types have them. -/
theorem fielded_takes {names : List String} {front : List Token} {fs : List Field}
    {pieces : List (List Token)} {ds : List Directive}
    (make : List String → List Directive → List Field → α)
    (listed : Listed (.name "implements") .ampersand names front)
    (directives : ∀ d ∈ ds, d.WellFormed) (each : List.Forall₂ Field.Written fs pieces)
    (types : TypesFit (fs.flatMap Field.declared)) :
    (do
      let interfaces ← interfaces
      let directives ← constantDirectives
      return make interfaces directives (← fields) : Rule α).Takes
        (front ++ (appliedTokens ds ++ enclosed .braceOpen .braceClose pieces)) Ending
          (make names ds fs) := by
  have braces := (fields_takes each types).mono fun t (ending : Ending t) =>
    ending.1.noMark (by decide)
  have behind : (do
      let directives ← constantDirectives
      return make names directives (← fields) : Rule α).Takes
        (appliedTokens ds ++ enclosed .braceOpen .braceClose pieces) Ending (make names ds fs) :=
    applied_takes directives braces.giving (braces_other pieces)
  refine (interfaces_takes listed).bind behind fun t ending => ?_
  rw [head?_append_or]
  have braces' := opens_enclosed .braceOpen .braceClose pieces
  exact ⟨(opens_applied ds).absent (by decide) (braces'.absent (by decide) ending.2),
    (opens_applied ds).absent (by decide)
    (braces'.absent (by decide) (ending.1.noMark (by decide)))⟩

theorem typeRule_takes {d : TypeDefinition} {keyword : String} {ts : List Token}
    (written : d.Written keyword ts) (types : TypesFit d.body.declared) :
    (typeRule d.body d.description).Takes (.name keyword :: ts) Ending d := by
  rcases written with ⟨body, directives⟩
  rcases d with ⟨description, name, applied, _⟩
  dsimp only at body
  -- one case for each kind of type: the keyword, the name, and then what the kind has
  cases body with
  | scalar =>
      refine (expectWord_takes _).andThen ((expectName_takes name).andThen ?_)
      exact applied_takes directives (.pure _) fun t ending =>
        ⟨ending.1.noMark (by decide), ending.1.noMark (by decide)⟩
  | object listed each =>
      refine (expectWord_takes _).andThen ((expectName_takes name).andThen ?_)
      let make interfaces directives fields : TypeDefinition :=
        { description, name, directives, body := .object interfaces fields }
      exact fielded_takes make listed directives each types
  | interface listed each =>
      refine (expectWord_takes _).andThen ((expectName_takes name).andThen ?_)
      let make interfaces directives fields : TypeDefinition :=
        { description, name, directives, body := .interface interfaces fields }
      exact fielded_takes make listed directives each types
  | union listed =>
      refine (expectWord_takes _).andThen ((expectName_takes name).andThen ?_)
      have members := (unionMembers_takes listed).mono fun t (ending : Ending t) =>
        ⟨ending.1.noMark (by decide), ending.1.noMark (by decide)⟩
      exact applied_takes directives members.giving fun t ending =>
        ⟨(opens_listed listed).absent (by decide) (ending.1.noMark (by decide)),
          (opens_listed listed).absent (by decide) (ending.1.noMark (by decide))⟩
  | enum each =>
      refine (expectWord_takes _).andThen ((expectName_takes name).andThen ?_)
      have braces := (enumValues_takes each).mono fun t (ending : Ending t) =>
        ending.1.noMark (by decide)
      exact applied_takes directives braces.giving (braces_other _)
  | input each =>
      refine (expectWord_takes _).andThen ((expectName_takes name).andThen ?_)
      have braces := (inputFields_takes each types).mono fun t (ending : Ending t) =>
        ending.1.noMark (by decide)
      exact applied_takes directives braces.giving (braces_other _)

/-! ## Definitions -/

/-- The keyword in front of a type leads to the rule for it. -/
theorem definitionOf?_keyword {body : TypeBody} {keyword : String} {front back : List Token}
    (written : body.Written keyword front back) :
    definitionOf? keyword = some fun description =>
      Definition.type <$> typeRule body description := by
  cases written <;> rfl

theorem extension_takes_type {body : TypeBody} {keyword : String} {front back ts : List Token}
    {d : Definition} (written : body.Written keyword front back)
    (rest : (typeExtension (typeRule body)).Takes (.name keyword :: ts) ok d) :
    extension.Takes (.name "extend" :: .name keyword :: ts) ok d := by
  cases written <;> exact Takes.lookingSecond ((advance_takes _).andThen rest)

theorem definition_takes_plain {word : String} {ts : List Token} {d : Definition}
    (plain : plainDefinition.Takes (.name word :: ts) ok d) :
    definition.Takes (.name word :: ts) ok d := by
  rw [definition, peekDescription, bind_assoc]
  exact Takes.looking fun _ _ => plain

theorem definition_takes_extension {ts : List Token} {d : Definition}
    (rest : extension.Takes (.name "extend" :: ts) ok d) :
    definition.Takes (.name "extend" :: ts) ok d :=
  definition_takes_plain (Takes.looking fun _ _ => rest)

section

variable {ts : List Token} {word : String} {rule : Option String → Rule Definition} {d : Definition}

/-- A definition that begins with a keyword. -/
theorem plainDefinition_takes (found : definitionOf? word = some rule)
    (rest : (rule none).Takes (.name word :: ts) ok d) :
    plainDefinition.Takes (.name word :: ts) ok d := by
  refine Takes.looking fun _ _ => ?_
  simp only [List.head?_cons, Option.some_or]
  split
  next same =>
      cases same
  next same =>
      cases same
      simp [definitionOf?] at found
  next same =>
      cases same
      simp only [found]
      exact rest
  next absent =>
      exact absurd rfl (absent word)

/-- A keyword behind a description. -/
theorem describedDefinition_takes {t : Token} {text : String} (written : Described (some text) [t])
    (found : definitionOf? word = some rule)
    (rest : (rule (some text)).Takes (.name word :: ts) ok d) :
    describedDefinition.Takes (t :: .name word :: ts) ok d := by
  refine Takes.lookingSecond ?_
  simp only [found]
  exact (description?_takes written).andThen rest

theorem definition_takes_described {t : Token} {text : String} (written : Described (some text) [t])
    (rest : describedDefinition.Takes (t :: ts) ok d) : definition.Takes (t :: ts) ok d := by
  rw [definition, peekDescription, bind_assoc]
  cases written with
  | string | block =>
      exact Takes.looking fun _ _ => rest

/-- A definition that begins with a keyword, behind its description or without one. -/
theorem definition_takes_keyword {description : Option String} {describing : List Token}
    (described : Described description describing) (found : definitionOf? word = some rule)
    (rest : (rule description).Takes (.name word :: ts) ok d) :
    definition.Takes (describing ++ .name word :: ts) ok d := by
  cases described with
  | none =>
      exact definition_takes_plain (plainDefinition_takes found rest)
  | string text =>
      exact definition_takes_described (.string text)
        (describedDefinition_takes (.string text) found rest)
  | block text =>
      exact definition_takes_described (.block text)
        (describedDefinition_takes (.block text) found rest)

end

theorem operationType_takes {operation : String × String} (known : operation.1 ∈ operationWords) :
    operationType.Takes (operationTokens operation) Always operation := by
  have word : operationWord.Takes [.name operation.1] Always operation.1 := by
    refine (expectName_takes operation.1).ending ?_ fun _ _ => trivial
    rw [if_pos (by simpa using known)]
    exact .pure _
  exact word.andThen ((expectMark_takes .colon).andThen (expectName_takes operation.2).giving)

theorem operations_takesItems {operations : List (String × String)}
    (known : ∀ operation ∈ operations, operation.1 ∈ operationWords) :
    List.Forall₂ (TakesItem operationType (· ≠ .punctuator .braceClose) Always) operations
      (operations.map operationTokens) :=
  takesItems_map fun operation mem =>
    ⟨⟨_, _, rfl, by simp⟩, operationType_takes (known operation mem)⟩

theorem schemaDefinition_takes {d : SchemaDefinition}
    (directives : ∀ applied ∈ d.directives, applied.WellFormed)
    (filled : d.operations ≠ [])
    (known : ∀ operation ∈ d.operations, operation.1 ∈ operationWords) :
    (schemaDefinition d.description).Takes (.name "schema" :: (appliedTokens d.directives ++
      enclosed .braceOpen .braceClose (d.operations.map operationTokens))) Ending d := by
  have braces : (someBetween .braceOpen .braceClose operationType).Takes
      (enclosed .braceOpen .braceClose (d.operations.map operationTokens)) Ending d.operations :=
    someBetween_takes .braceOpen (operations_takesItems known) filled
      (fun t begins => ⟨trivial, begins⟩) trivial
  exact (expectWord_takes "schema").andThen
    (applied_takes directives braces.giving (braces_other _))

theorem schemaExtension_takes {d : SchemaDefinition} (plain : d.description = none)
    (directives : ∀ applied ∈ d.directives, applied.WellFormed)
    (adds : (d.directives.isEmpty && d.operations.isEmpty) = false)
    (known : ∀ operation ∈ d.operations, operation.1 ∈ operationWords) :
    schemaExtension.Takes (.name "schema" :: (appliedTokens d.directives ++
      enclosed .braceOpen .braceClose (d.operations.map operationTokens))) Ending
        (.schemaExtension d) := by
  rcases d with ⟨_, applied, operations⟩
  obtain rfl := plain
  have braces := optionalBetween_takes .braceOpen (operations_takesItems known)
    (fun t begins => ⟨trivial, begins⟩) trivial fun _ t (ending : Ending t) =>
    ending.1.noMark (by decide)
  refine (expectWord_takes "schema").andThen (applied_takes directives ?_ (braces_other _))
  refine braces.ending ?_ fun _ ending => ending
  rw [if_neg (by simpa using adds)]
  exact .pure _

theorem directiveLocation_takes {place : String} (known : place ∈ directiveLocations) :
    directiveLocation.Takes [.name place] Always place := by
  refine (expectName_takes place).ending ?_ fun _ _ => trivial
  rw [if_pos (by simpa using known)]
  exact .pure _

/-- What stands behind the arguments of a directive and the directives that are applied to it. -/
theorem locations_takes {d : DirectiveDefinition} {repeating leading : List Token}
    (repeatable : repeating = if d.repeatable then [.name "repeatable"] else [])
    (filled : d.locations ≠ []) (known : ∀ place ∈ d.locations, place ∈ directiveLocations)
    (lead : leading = [] ∨ leading = [.punctuator .pipe]) :
    (do
      let repeatable ← skipWord "repeatable"
      expectWord "on"
      let locations ← separatedBy .pipe directiveLocation
      return { d with repeatable, locations } : Rule DirectiveDefinition).Takes
        (repeating ++ .name "on" :: (leading ++ apart .pipe d.locations)) Ending d := by
  have names :=
    (separatedBy_takes lead filled fun place mem => directiveLocation_takes (known place mem)).mono
    fun t (ending : Ending t) => ending.1.noMark (by decide)
  rcases d with ⟨description, name, arguments, applied, again, locations⟩
  cases again with
  | false =>
      obtain rfl : repeating = [] := repeatable
      have other : Token.name "on" ≠ .name "repeatable" := by decide
      refine (skipWord_takes_none "repeatable").skipping
        ((expectWord_takes "on").andThen names.giving) ?_
      exact fun _ _ same => other (Option.some.inj same)
  | true =>
      obtain rfl : repeating = [.name "repeatable"] := repeatable
      exact (skipWord_takes "repeatable").andThen ((expectWord_takes "on").andThen names.giving)

theorem directiveDefinition_takes {d : DirectiveDefinition} {arguments : List (List Token)}
    {repeating leading : List Token} (each : List.Forall₂ InputValue.Written d.arguments arguments)
    (types : TypesFit (d.arguments.map InputValue.declared))
    (directives : ∀ applied ∈ d.directives, applied.WellFormed)
    (repeatable : repeating = if d.repeatable then [.name "repeatable"] else [])
    (filled : d.locations ≠ []) (known : ∀ place ∈ d.locations, place ∈ directiveLocations)
    (lead : leading = [] ∨ leading = [.punctuator .pipe]) :
    (directiveDefinition d.description).Takes
    (.name "directive" :: .punctuator .atSign :: .name d.name ::
      (enclosed .parenOpen .parenClose arguments ++ (appliedTokens d.directives ++
        (repeating ++ .name "on" :: (leading ++ apart .pipe d.locations))))) Ending d := by
  have word (p : Punctuator) (t : Option Token) :
      (repeating ++ .name "on" :: (leading ++ apart .pipe d.locations)).head?.or t ≠
      some (.punctuator p) := by
    rw [repeatable]
    split <;> simp
  refine (expectWord_takes "directive").andThen ((expectMark_takes .atSign).andThen ?_)
  refine (expectName_takes d.name).andThen
    ((argumentDefinitions_takes each types).bind ?_ fun t _ => ?_)
  · exact applied_takes directives (locations_takes repeatable filled known lead) fun t _ =>
      ⟨word _ t, word _ t⟩
  · rw [head?_append_or]
    exact (opens_applied d.directives).absent (by decide) (word _ t)

theorem directiveExtension_takes (name : String) {ds : List Directive}
    (each : ∀ d ∈ ds, d.WellFormed) (adds : ds ≠ []) :
    directiveExtension.Takes
      (.name "directive" :: .punctuator .atSign :: .name name :: appliedTokens ds) Ending
      (.directiveExtension name ds) := by
  refine (expectWord_takes "directive").andThen ((expectMark_takes .atSign).andThen ?_)
  refine (expectName_takes name).andThen
    ((constantDirectives_takes_last each).ending ?_ fun _ ending => ending.1)
  rw [if_neg (by simpa using adds)]
  exact .pure _

theorem typeExtension_takes {d : TypeDefinition} {keyword : String} {ts : List Token}
    (plain : d.description = none) (adds : d.isBare = false) (written : d.Written keyword ts)
    (types : TypesFit d.body.declared) :
    (typeExtension (typeRule d.body)).Takes (.name keyword :: ts) Ending (.typeExtension d) := by
  have taken := typeRule_takes written types
  rw [plain] at taken
  refine taken.ending ?_ fun _ ending => ending
  rw [adds]
  exact .pure _

/-- A definition of the type system is taken from its tokens. -/
theorem definition_takes {d : Definition} {ts : List Token} (written : d.Written ts)
    (types : TypesFit d.declared) : definition.Takes ts Ending d := by
  cases written with
  | type described written =>
      have taken := (typeRule_takes written types).map (f := Definition.type)
      cases written with
      | intro body _ =>
          exact definition_takes_keyword described (definitionOf?_keyword body) taken
  | typeExtension plain adds written =>
      have taken := typeExtension_takes plain adds written types
      cases written with
      | intro body _ =>
          exact definition_takes_extension (extension_takes_type body taken)
  | schema described directives filled known =>
      exact definition_takes_keyword described rfl
        (schemaDefinition_takes directives filled known).map
  | schemaExtension plain directives adds known =>
      have taken := schemaExtension_takes plain directives adds known
      exact definition_takes_extension (Takes.lookingSecond ((advance_takes _).andThen taken))
  | directive described each directives repeatable filled known lead =>
      have taken := directiveDefinition_takes each types directives repeatable filled known lead
      exact definition_takes_keyword described rfl taken.map
  | @directiveExtension name _ wellFormed adds =>
      have taken := directiveExtension_takes name wellFormed adds
      exact definition_takes_extension (Takes.lookingSecond ((advance_takes _).andThen taken))

end Rule

end SchemaCompletion.Sdl
