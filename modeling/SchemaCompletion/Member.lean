import SchemaCompletion.Sdl.Document

/-!
# Members

The members of a type: fields, which take parameters, and input values, which take none.

* `Parameter`, `Member` — what declarations are made from;
* `Parameter.ofInput`, `Member.ofField`, `Member.ofInput` — from the parts of a definition;
* `membersOf` — the members of a definition, in order.
-/

namespace SchemaCompletion

open SchemaCompletion.Sdl

structure Parameter where
  name : String
  type : TypeExpr
  description : String
  default : Option String
  deriving DecidableEq, Repr

/-- A member is a field with parameters or an input value. -/
inductive MemberKind where
  | field (parameters : List Parameter)
  | inputValue
  deriving DecidableEq, Repr

structure Member where
  container : String
  name : String
  type : TypeExpr
  description : String
  kind : MemberKind
  deriving DecidableEq, Repr

/-- The parameters of a member; an input value has none. -/
def Member.parameters (m : Member) : List Parameter :=
  match m.kind with
  | .field parameters => parameters
  | .inputValue => []

def Member.isField (m : Member) : Bool :=
  match m.kind with
  | .field _ => true
  | .inputValue => false

/-! ## From definitions -/

/-- The parameter that an input value defines; its default is printed as a literal. -/
def Parameter.ofInput (v : InputValue) : Parameter where
  name := v.name
  type := v.type
  description := v.description.getD ""
  default := v.default.map Value.print

def Member.ofField (container : String) (f : Field) : Member where
  container
  name := f.name
  type := f.type
  description := f.description.getD ""
  kind := .field (f.arguments.map Parameter.ofInput)

def Member.ofInput (container : String) (v : InputValue) : Member where
  container
  name := v.name
  type := v.type
  description := v.description.getD ""
  kind := .inputValue

/-- The members of a named type or of a block that extends one, in order. Only object, interface and
input types have members. -/
def membersOf (d : TypeDefinition) : List Member :=
  match d.body with
  | .object _ fields => fields.map (Member.ofField d.name)
  | .interface _ fields => fields.map (Member.ofField d.name)
  | .input fields => fields.map (Member.ofInput d.name)
  | _ => []

end SchemaCompletion
