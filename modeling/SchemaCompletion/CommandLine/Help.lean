/-!
# Help

The texts that the command line shows about itself.

* `versionText` — the version;
* `helpText`, `typesHelp`, `fieldsHelp`, `suggestHelp` — how the program and its commands are used;
* `usageText` — the hint after arguments that could not be understood.
-/

namespace SchemaCompletion.CommandLine

/-- Lines of text, each ended by a line feed. -/
def unlines (lines : List String) : String := String.join (lines.map (· ++ "\n"))

def versionText : String := unlines ["gql-assist, version 0.1.0"]

def helpText : String := unlines [
  "Usage: gql-assist [OPTIONS] COMMAND [ARGS]...",
  "",
  "  Suggest Java declarations for a GraphQL schema.",
  "",
  "  Reads the schema from the workspace root and prints the declarations an editor",
  "  would offer as completions.",
  "",
  "Options:",
  "  --version               Show the version and exit.",
  "  -r, --root DIRECTORY    Workspace root directory containing the schema.",
  "  -s, --schema-file TEXT  Schema path relative to the root (default:",
  "                          schema.graphql).",
  "  -v, --verbose           Enable debug logging.",
  "  --help                  Show this message and exit.",
  "",
  "Commands:",
  "  fields   Print one declaration per member of TYPE_NAME.",
  "  suggest  Show the completions offered for a client API or a type class.",
  "  types    List the types declared in the schema."]

def typesHelp : String := unlines [
  "Usage: gql-assist types [OPTIONS]",
  "",
  "  List the types declared in the schema.",
  "",
  "Options:",
  "  --help  Show this message and exit."]

def fieldsHelp : String := unlines [
  "Usage: gql-assist fields [OPTIONS] TYPE_NAME",
  "",
  "  Print one declaration per member of TYPE_NAME.",
  "",
  "  Examples:",
  "",
  "      gql-assist fields Query",
  "",
  "      gql-assist -r ./project fields Person --form method",
  "",
  "Options:",
  "  -f, --form [method|field]  Declaration form (default: method for",
  "                             Query/Mutation, field otherwise).",
  "  --help                     Show this message and exit."]

def suggestHelp : String := unlines [
  "Usage: gql-assist suggest [OPTIONS]",
  "",
  "  Show the completions offered for a client API or a type class.",
  "",
  "Options:",
  "  -t, --type TEXT      Suggest fields for a class named after this type instead",
  "                       of API methods.",
  "  -e, --existing TEXT  Member already declared in the class (repeatable).",
  "  --help               Show this message and exit."]

/-- The hint after arguments that could not be understood. -/
def usageText : String := unlines [
  "Usage: gql-assist [OPTIONS] COMMAND [ARGS]...",
  "Try 'gql-assist --help' for help."]

end SchemaCompletion.CommandLine
