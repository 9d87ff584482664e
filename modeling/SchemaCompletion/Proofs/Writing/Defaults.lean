import SchemaCompletion.Member
import SchemaCompletion.Proofs.Declaring.OneLine
import SchemaCompletion.Proofs.Writing.Values

/-!
# Printed defaults

The default of a parameter is a literal of the language that says what was declared.

* `Document.inputValues` — all input values of a document, wherever they are defined;
* `Document.wellFormed_inputValues` — their defaults are as the grammar has them;
* `Document.defaults_reread` — the default of a parameter is missing only if none was declared, and
  otherwise it is read as the literal that was declared.
-/

namespace SchemaCompletion.Sdl

/-! ## Input values -/

/-- The input values in the body of a type: the arguments of its fields, or its own fields. -/
def TypeBody.inputValues : TypeBody → List InputValue
  | .object _ fields => fields.flatMap Field.arguments
  | .interface _ fields => fields.flatMap Field.arguments
  | .input fields => fields
  | _ => []

/-- The input values of a definition or of a block that extends one. -/
def Definition.inputValues : Definition → List InputValue
  | .type d => d.body.inputValues
  | .typeExtension d => d.body.inputValues
  | .directive d => d.arguments
  | _ => []

def Document.inputValues (document : Document) : List InputValue :=
  document.flatMap Definition.inputValues

theorem TypeBody.WellFormed.inputValues {body : TypeBody} (wellFormed : body.WellFormed) :
    ∀ v ∈ body.inputValues, v.WellFormed := by
  intro v mem
  cases body with
  | object interfaces fields | interface interfaces fields =>
      rcases List.mem_flatMap.1 mem with ⟨f, there, argument⟩
      exact (wellFormed f there).arguments v argument
  | input fields =>
      exact wellFormed v mem
  | _ =>
      cases mem

theorem Definition.WellFormed.inputValues {d : Definition} (wellFormed : d.WellFormed) :
    ∀ v ∈ d.inputValues, v.WellFormed := by
  cases d with
  | type d | typeExtension d =>
      exact wellFormed.body.inputValues
  | directive d =>
      exact wellFormed
  | _ =>
      exact List.forall_mem_nil _

theorem Document.wellFormed_inputValues {text : List Char} {document : Document}
    (parsed : Document.parse text = .ok document) : ∀ v ∈ document.inputValues, v.WellFormed := by
  intro v mem
  rcases List.mem_flatMap.1 mem with ⟨d, there, defined⟩
  exact (Document.wellFormed_of_parse parsed d there).inputValues v defined

/-! ## Defaults -/

/-- The default that a parameter shows is the declared one: there is none if none was declared, and
only then, and otherwise it is read as the declared literal, which is printed as this default
again. -/
theorem Document.defaults_reread {text : List Char} {document : Document}
    (parsed : Document.parse text = .ok document) : ∀ v ∈ document.inputValues,
    ((Parameter.ofInput v).default = none ↔ v.default = none) ∧
      ∀ literal, (Parameter.ofInput v).default = some literal →
        ∃ value, v.default = some value ∧ Value.parse literal.toList = .ok value ∧
        value.print = literal := by
  intro v mem
  have wellFormed := (Document.wellFormed_inputValues parsed v mem).default
  refine ⟨Option.map_eq_none_iff, fun literal shown => ?_⟩
  rcases Option.map_eq_some_iff.1 shown with ⟨value, declared, rfl⟩
  exact ⟨value, declared, (wellFormed value declared).parse_print, rfl⟩

/-- A list that is printed on several lines, with a block string that has quotation marks, a
backslash, a blank line and indentation, a control character, an empty object and a null; no
default; and an empty string. -/
theorem Document.defaults_reread_inside_list :
    let text := "input I\x7bx:[S]=[\"\"\"\n  one\n    \\\"\"\"two\\\n\n  three\"\n\"\"\",\"" ++
      "\\u0007, an unusual character in a string\",\x7b\x7d,null]y:Int z:S=\"\"\x7d"
    let list := "[\n  \"\"\"\n  one\n    \\\"\"\"two\\\n  \n  three\"\n  \"\"\"\n" ++
      "  \"\\u0007, an unusual character in a string\"\n  \x7b  \x7d\n  null\n]"
    ∃ document, Document.parse text.toList = .ok document ∧
      (document.inputValues.map fun v => (Parameter.ofInput v).default) =
        [some list, none, some "\"\""] ∧
      ∀ v ∈ document.inputValues, ((Parameter.ofInput v).default = none ↔ v.default = none) ∧
        ∀ literal, (Parameter.ofInput v).default = some literal →
          ∃ value, v.default = some value ∧ Value.parse literal.toList = .ok value ∧
          value.print = literal := by
  intro text list
  have shown : (Document.parse text.toList).toOption.map
      (fun document => document.inputValues.map fun v => (Parameter.ofInput v).default) =
        some [some list, none, some "\"\""] := by
    decide +kernel
  cases parsed : Document.parse text.toList with
  | error e =>
      rw [parsed] at shown
      cases shown
  | ok document =>
      rw [parsed] at shown
      exact ⟨document, rfl, Option.some.inj shown, Document.defaults_reread parsed⟩

end SchemaCompletion.Sdl
