/-!
# Target languages

The languages that declarations can be written in, and the words they reserve.

* `targets` — the names of the languages;
* `javaReserved` — the reserved words of Java;
* `reservedWords` — the reserved words of a language, by its name.
-/

namespace SchemaCompletion

def targets : List String := ["java"]

/-- The keywords of Java at its highest language level, its literals, and the lone underscore. -/
def javaReserved : List String :=
  ["_", "abstract", "assert", "boolean", "break", "byte", "case", "catch", "char", "class", "const",
    "continue", "default", "do", "double", "else", "enum", "extends", "false", "final", "finally",
    "float", "for", "goto", "if", "implements", "import", "instanceof", "int", "interface", "long",
    "native", "new", "null", "package", "private", "protected", "public", "return", "short",
    "static", "strictfp", "super", "switch", "synchronized", "this", "throw", "throws", "transient",
    "true", "try", "void", "volatile", "while"]

/-- A language that declarations cannot be written in. -/
structure UnknownTarget where
  name : String
  deriving DecidableEq, Repr

def UnknownTarget.message (e : UnknownTarget) : String := "Unknown target language: " ++ e.name

def reservedWords (target : String) : Except UnknownTarget (List String) :=
  if target = "java" then .ok javaReserved else .error ⟨target⟩

end SchemaCompletion
