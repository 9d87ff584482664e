/-!
# Type expressions

The type of a field, argument or input value: a name under list and non-null wrappers.

* `TypeExpr` — the expressions;
* `TypeExpr.named` — the name under all wrappers;
* `TypeExpr.toSdl` — the notation of the language, `[ID!]!`;
* `TypeExpr.Shape` — a value from outside that claims to be an expression.
-/

namespace SchemaCompletion.Sdl

/-- A type name under list and non-null wrappers. -/
inductive TypeExpr where
  | name (text : String)
  | list (item : TypeExpr)
  | nonNull (inner : TypeExpr)
  deriving DecidableEq, Repr

namespace TypeExpr

/-- The name under all wrappers. -/
def named : TypeExpr → String
  | name text => text
  | list item => item.named
  | nonNull inner => inner.named

/-- The expression in the notation of the language. -/
def toSdl : TypeExpr → String
  | name text => text
  | list item => "[" ++ item.toSdl ++ "]"
  | nonNull inner => inner.toSdl ++ "!"

/-- No non-null wrapper stands directly inside another. -/
def Normal : TypeExpr → Prop
  | name _ => True
  | list item => item.Normal
  | nonNull inner => inner.Normal ∧ ∀ e, inner ≠ nonNull e

/-! ## Values from outside -/

/-- A value that claims to be a type expression: its innermost part may be of a foreign kind. -/
inductive Shape where
  | name (text : String)
  | list (item : Shape)
  | nonNull (inner : Shape)
  | foreign (kind : String)
  deriving Repr

/-- A value was no type expression: the kind of its innermost part. -/
structure ForeignError where
  kind : String
  deriving DecidableEq, Repr

def ForeignError.message (e : ForeignError) : String := "Expected a type expression, got " ++ e.kind

/-- The expression that a value from outside is. -/
def ofShape : Shape → Except ForeignError TypeExpr
  | .name text => .ok (name text)
  | .list item => (ofShape item).map list
  | .nonNull inner => (ofShape inner).map nonNull
  | .foreign kind => .error ⟨kind⟩

end TypeExpr

end SchemaCompletion.Sdl
