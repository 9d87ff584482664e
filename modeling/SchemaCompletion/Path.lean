/-!
# Paths

POSIX paths in normal form: without empty and `.` components, but with `..` kept.

* `Path` — how a path begins and its components;
* `Path.parse`, `Path.toString` — reading and writing;
* `Path.join` — a path seen from another;
* `Path.resolve` — the absolute path without `..`;
* `Path.hasNul` — a path that no file system can follow.
-/

namespace SchemaCompletion

/-- How a path begins: nowhere in particular, at the root, or at the root with two slashes. -/
inductive Anchor where
  | relative
  | root
  | doubleRoot
  deriving DecidableEq, Repr

/-- A path in normal form. -/
structure Path where
  anchor : Anchor
  parts : List String
  deriving DecidableEq, Repr

namespace Path

/-! ## Reading -/

/-- The texts between the slashes. -/
def splitSlashes : List Char → List (List Char)
  | [] => [[]]
  | c :: cs =>
    if c = '/' then [] :: splitSlashes cs
    else
      match splitSlashes cs with
      | [] => [[c]]
      | part :: parts => (c :: part) :: parts

/-- A component that means something. -/
def isProper (part : List Char) : Bool := !part.isEmpty && part != ['.']

/-- How a text begins: exactly two slashes are kept, three or more count as one. -/
def anchorOf : List Char → Anchor
  | '/' :: '/' :: '/' :: _ => .root
  | '/' :: '/' :: _ => .doubleRoot
  | '/' :: _ => .root
  | _ => .relative

def parse (text : String) : Path where
  anchor := anchorOf text.toList
  parts := ((splitSlashes text.toList).filter isProper).map String.ofList

/-! ## Writing -/

/-- The beginning of a path in text. -/
def anchorText : Anchor → String
  | .relative => ""
  | .root => "/"
  | .doubleRoot => "//"

/-- The text of a path; the empty relative path is `.`. -/
def toString (p : Path) : String :=
  if p.anchor = .relative ∧ p.parts = [] then "."
  else anchorText p.anchor ++ "/".intercalate p.parts

/-! ## Operations -/

def isAbsolute (p : Path) : Bool := p.anchor != .relative

/-- The component that leads to the parent directory. -/
def parent : String := ".."

/-- A path as seen from another; an absolute one stands for itself. -/
def join (p q : Path) : Path :=
  if q.isAbsolute then q else { p with parts := p.parts ++ q.parts }

/-- One more component, where the parent component takes one away. -/
def follow (parts : List String) (part : String) : List String :=
  if part = parent then parts.dropLast else parts ++ [part]

/-- The absolute path without parent components, as seen from a directory. -/
def resolve (directory p : Path) : Path :=
  { anchor := .root, parts := (directory.join p).parts.foldl follow [] }

/-- The last component, empty for a bare root. -/
def name (p : Path) : String := p.parts.getLastD ""

/-- The path without its last component. -/
def directory (p : Path) : Path := { p with parts := p.parts.dropLast }

def hasNul (p : Path) : Bool := p.parts.any (·.toList.contains '\x00')

theorem parts_join_of_relative {p q : Path} (h : q.anchor = .relative) :
    (p.join q).parts = p.parts ++ q.parts := by
  simp [join, isAbsolute, h]

end Path

end SchemaCompletion
