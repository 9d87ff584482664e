import SchemaCompletion.Member

/-!
# Catalogs

The type system of a document, sorted by role.

* `Catalog` — types, extension blocks, scalars and directives;
* `DocumentError` — why a document gives no catalog;
* `Catalog.collect` — the catalog of a document;
* `Catalog.members` — the members of a type, with those that extension blocks add.
-/

namespace SchemaCompletion

open SchemaCompletion.Sdl

/-- The type system of a document. Types and directives stand in document order, extension blocks
under the name they extend, names in order of first appearance. -/
structure Catalog where
  types : List TypeDefinition
  extensions : List (String × List TypeDefinition)
  scalars : List String
  directives : List String
  deriving Repr

namespace Catalog

def empty : Catalog := { types := [], extensions := [], scalars := [], directives := [] }

/-! ## Looking up -/

/-- The names of the declared types, scalars not among them, in document order. -/
def typeNames (c : Catalog) : List String := c.types.map (·.name)

def type? (c : Catalog) (name : String) : Option TypeDefinition := c.types.find? (·.name == name)

/-- The blocks that extend a name, in document order. -/
def extensionsOf (c : Catalog) (name : String) : List TypeDefinition :=
  (c.extensions.lookup name).getD []

def isExtended (c : Catalog) (name : String) : Bool := c.extensions.any (·.1 == name)

def knows (c : Catalog) (name : String) : Bool := (c.type? name).isSome || c.isExtended name

/-- The members of a type: its own, then those that extension blocks add. -/
def members (c : Catalog) (name : String) : List Member :=
  ((c.type? name).toList ++ c.extensionsOf name).flatMap membersOf

end Catalog

/-! ## Collecting -/

inductive DocumentError where
  | executable (kind : ExecutableKind)
  | duplicateType (name : String)
  | duplicateDirective (name : String)
  deriving DecidableEq, Repr

def DocumentError.message : DocumentError → String
  | .executable kind => kind.label ++ " is not allowed in a schema definition document"
  | .duplicateType name => "type '" ++ name ++ "' is defined more than once"
  | .duplicateDirective name => "directive '@" ++ name ++ "' is defined more than once"

namespace Catalog

def addExtension (d : TypeDefinition) :
    List (String × List TypeDefinition) → List (String × List TypeDefinition)
  | [] => [(d.name, [d])]
  | (name, blocks) :: rest =>
    if name = d.name then (name, blocks ++ [d]) :: rest else (name, blocks) :: addExtension d rest

def declares (c : Catalog) (name : String) : Bool :=
  c.scalars.contains name || c.typeNames.contains name

/-- Adds a definition. Types and scalars share one space of names, directives have their own, and
extensions and schema definitions conflict with nothing. -/
def add (c : Catalog) : Definition → Except DocumentError Catalog
  | .executable d => .error (.executable d.kind)
  | .type d =>
    if c.declares d.name then .error (.duplicateType d.name)
    else
      -- a scalar has no members, so only its name is kept
      match d.body with
      | .scalar => .ok { c with scalars := c.scalars ++ [d.name] }
      | _ => .ok { c with types := c.types ++ [d] }
  | .typeExtension d => .ok { c with extensions := addExtension d c.extensions }
  | .directive d =>
    if c.directives.contains d.name then .error (.duplicateDirective d.name)
    else .ok { c with directives := c.directives ++ [d.name] }
  | .schema _ => .ok c
  | .schemaExtension _ => .ok c
  | .directiveExtension .. => .ok c

def collect (document : Document) : Except DocumentError Catalog := document.foldlM add empty

end Catalog

end SchemaCompletion
