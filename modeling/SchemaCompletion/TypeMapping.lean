/-!
# Type mappings

How the type names of a schema appear in declarations.

* `TypeMapping` — a target name, with a marker that goes in front of the whole type;
* `MappingTable` — the registered mappings, the latest for a name first;
* `MappingTable.resolve` — the mapping of a name; a name without one stands for itself.
-/

namespace SchemaCompletion

/-- How one type name appears in declarations. -/
structure TypeMapping where
  target : String
  marker : String
  deriving DecidableEq, Repr

/-- The mapping of a name that stands for itself. -/
def TypeMapping.same (name : String) : TypeMapping := { target := name, marker := "" }

/-- The registered mappings; the latest registration of a name stands first and counts. -/
structure MappingTable where
  entries : List (String × TypeMapping)
  deriving Repr

namespace MappingTable

def builtIn : MappingTable :=
  { entries := [("ID", { target := "String", marker := "@Id" }),
      ("Int", { target := "Integer", marker := "" })] }

def register (t : MappingTable) (name : String) (m : TypeMapping) : MappingTable :=
  { entries := (name, m) :: t.entries }

def get? (t : MappingTable) (name : String) : Option TypeMapping := t.entries.lookup name

def has (t : MappingTable) (name : String) : Bool := t.entries.any (·.1 == name)

/-- The mapping of a name; a name without one stands for itself. -/
def resolve (t : MappingTable) (name : String) : TypeMapping :=
  (t.get? name).getD (.same name)

/-- A registered name has its mapping. -/
@[simp]
theorem get?_register_self (t : MappingTable) (name : String) (m : TypeMapping) :
    (t.register name m).get? name = some m := by
  simp [get?, register]

/-- A registration leaves the other names alone. -/
theorem get?_register_of_ne (t : MappingTable) {name other : String} (m : TypeMapping)
    (h : other ≠ name) : (t.register name m).get? other = t.get? other := by
  have : (other == name) = false := by simpa using h
  simp [get?, register, List.lookup_cons, this]

end MappingTable

end SchemaCompletion
