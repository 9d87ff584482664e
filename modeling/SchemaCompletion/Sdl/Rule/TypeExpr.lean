import SchemaCompletion.Sdl.Rule
import SchemaCompletion.Sdl.TypeExpr

/-!
# Rules for type expressions

* `levelLimit` — how deep lists, objects and selections may nest;
* `typeExpr` — a type expression that may open a number of further levels;
* `namedType` — a bare type name.
-/

namespace SchemaCompletion.Sdl.Rule

/-- How deep list types, list and object values and selection sets may nest. -/
def levelLimit : Nat := 200

def namedType : Rule String := expectName

/-- A type expression, given the rule for what stands in a list; without one no list may open, which
is noticed once its bracket has been taken. -/
def typeExprOver (inner : Option (Rule TypeExpr)) : Rule TypeExpr := do
  let base ←
    if ← skipMark .bracketOpen then
      match inner with
      | none => throw .tooDeep
      | some item => do
        let e ← item
        expectMark .bracketClose
        pure (TypeExpr.list e)
    else do pure (TypeExpr.name (← namedType))
  if ← skipMark .bang then return .nonNull base else return base

/-- A type expression that may open so many levels. -/
def typeExpr : Nat → Rule TypeExpr
  | 0 => typeExprOver none
  | levels + 1 => typeExprOver (some (typeExpr levels))

end SchemaCompletion.Sdl.Rule
