import SchemaCompletion.CommandLine
import SchemaCompletion.Proofs.Cache.Reply

/-!
# Answers in print

Every command puts one question to the schema and prints the answer.

* `Command.question` — the question that a command puts;
* `Command.text` — the answer in print;
* `Query.Consults.map` — what is made of an answer consults the schema as the answer does;
* `Command.output_consults` — what a command prints is the answer to its question.
-/

namespace SchemaCompletion

/-- What is made of an answer loads the schema once, and tells what the answer tells. -/
theorem Query.Consults.map {α β : Type} {h : Host} {schemaFile : String} {q : Query α}
    {reply : Except Unavailable Snapshot → α × List Diagnostic}
    {reply' : Except Unavailable Snapshot → β × List Diagnostic} {f : α → β}
    (consults : Consults h schemaFile q reply)
    (made : ∀ found, reply' found = (f (reply found).1, (reply found).2)) :
    Consults h schemaFile (q >>= fun a => pure (f a)) reply' := by
  intro m
  rw [run_bind, consults m]
  rcases (load h schemaFile).run.run m with ⟨e | found, m'⟩
  · rfl
  · simp only [run_pure, made]

namespace CommandLine

/-- The question that a command puts to the schema. -/
def Command.question : Command → Question
  | .types => .types
  | .fields type _ => .fields type
  | .suggest type existing =>
    if type.getD "" = "" then .api existing else .suggest (type.getD "") existing

/-- The answer to the question of a command, in print. -/
def Command.text (d : Dialect) : Command → Answer → String
  | .types, .names names => unlines (Text.sorted names)
  | .fields type form, .members members =>
    unlines (members.map ((form.getD (.standard type)).text d))
  | .suggest _ _, .suggestions suggestions => listing suggestions
  | _, _ => ""

/-- A command loads the schema once. It prints the answer to its question, and tells what the
question tells. -/
theorem Command.output_consults (h : Host) (c : Configuration) (command : Command) :
    Query.Consults h c.schemaFile (command.output h c.schemaFile c.dialect) fun found =>
      (command.text c.dialect (command.question.reply c found).answer,
        (command.question.reply c found).told) := by
  cases command with
  | types =>
      refine Query.typeNames_consults.map fun found => ?_
      rcases found with u | s <;> rfl
  | fields type form =>
      refine (Query.fieldsIn_consults type).map fun found => ?_
      rcases found with u | s <;> rfl
  | suggest type existing =>
      unfold output question
      by_cases api : type.getD "" = ""
      · simp only [api, if_true]
        refine (Query.apiSuggestions_consults c.dialect existing).map fun found => ?_
        rcases found with u | s <;> rfl
      · simp only [api, if_false]
        refine (Query.typeSuggestions_consults c.dialect _ existing).map fun found => ?_
        rcases found with u | s <;> rfl

end CommandLine

end SchemaCompletion
