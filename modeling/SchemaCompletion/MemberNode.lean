import SchemaCompletion.Member
import SchemaCompletion.Sdl.Node

/-!
# Members at nodes

The types, parameters and members that single nodes of a document stand for.

* `NodeError` — a node stands for something else;
* `Node.typeExpr`, `Node.parameter`, `Node.member` — what one node stands for;
* `Node.members` — the members of a node that has fields.
-/

namespace SchemaCompletion

open SchemaCompletion.Sdl

/-- A node of another kind was needed: the kind that was found. -/
inductive NodeError where
  | notType (found : String)
  | notMember (found : String)
  | notParameter (found : String)
  deriving DecidableEq, Repr

def NodeError.message : NodeError → String
  | .notType found => "Expected a type node, got " ++ found
  | .notMember found => "Expected a field or input value definition, got " ++ found
  | .notParameter found => "Expected an input value definition, got " ++ found

namespace Sdl.Node

/-- The expression at a node for a type. Such a node holds the expression itself, as the grammar
reads it. -/
def typeExpr : Node → Except NodeError TypeExpr
  | .type e => .ok e
  | n => .error (.notType n.label)

def parameter : Node → Except NodeError Parameter
  | .inputValue v => .ok (.ofInput v)
  | n => .error (.notParameter n.label)

/-- The member at a node, for a given container. -/
def member (container : String) : Node → Except NodeError Member
  | .field f => .ok (.ofField container f)
  | .inputValue v => .ok (.ofInput container v)
  | n => .error (.notMember n.label)

/-- The members of the type that a node defines or extends; other nodes have none. -/
def members : Node → List Member
  | .definition (.type d) => membersOf d
  | .definition (.typeExtension d) => membersOf d
  | _ => []

end Sdl.Node

end SchemaCompletion
