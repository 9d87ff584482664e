import SchemaCompletion.Member
import SchemaCompletion.Target
import SchemaCompletion.TypeMapping

/-!
# Declarations

Members as declarations on a single line, such as

    @Query @NonNull List<Person> people(@NonNull Integer first);
    @Id @NonNull String id;

* `Dialect` — the mappings and reserved words that declarations are written with;
* `Dialect.typeText` — a type expression;
* `Dialect.parameterText` — a parameter;
* `Dialect.methodText`, `Dialect.fieldText` — the two forms of a declaration.
-/

namespace SchemaCompletion

open SchemaCompletion.Sdl

/-- The mappings and reserved words that declarations are written with. -/
structure Dialect where
  mappings : MappingTable
  reserved : List String

namespace Dialect

/-- The dialect of the built-in mappings and the reserved words of Java. -/
def java : Dialect := { mappings := .builtIn, reserved := javaReserved }

/-- The annotation of a type that cannot be null. -/
def nonNullMark : String := "@NonNull "

/-- A type expression without its marker. -/
def bareTypeText (d : Dialect) : TypeExpr → String
  | .name text => (d.mappings.resolve text).target
  | .list item => "List<" ++ d.bareTypeText item ++ ">"
  | .nonNull inner => nonNullMark ++ d.bareTypeText inner

/-- A type expression. The marker of its name goes in front of the whole type. -/
def typeText (d : Dialect) (e : TypeExpr) : String :=
  let marker := (d.mappings.resolve e.named).marker
  if marker = "" then d.bareTypeText e else marker ++ " " ++ d.bareTypeText e

/-- A parameter. A reserved name gets an underscore, and an annotation keeps what it was. -/
def parameterText (d : Dialect) (p : Parameter) : String :=
  if d.reserved.contains p.name then
    "@Name(\"" ++ p.name ++ "\") " ++ d.typeText p.type ++ " " ++ p.name ++ "_"
  else d.typeText p.type ++ " " ++ p.name

def parametersText (d : Dialect) (m : Member) : String :=
  ", ".intercalate (m.parameters.map d.parameterText)

/-- A member as a method, annotated with its container. -/
def methodText (d : Dialect) (m : Member) : String :=
  "@" ++ m.container ++ " " ++ d.typeText m.type ++ " " ++ m.name ++ "(" ++
    d.parametersText m ++ ");"

def fieldText (d : Dialect) (m : Member) : String := d.typeText m.type ++ " " ++ m.name ++ ";"

end Dialect

end SchemaCompletion
