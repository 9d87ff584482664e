import SchemaCompletion.Catalog
import SchemaCompletion.Sdl.Rule.Document
import SchemaCompletion.Text.Blank
import SchemaCompletion.Text.Utf8

/-!
# Snapshots

A schema as it was read from a source at one time.

* `isBlankDocument` — a text of white space and comments only, which is an empty schema;
* `Catalog.ofText`, `Catalog.ofBytes` — reading a schema from text and from the bytes of a file;
* `Snapshot` — a catalog with its source and time;
* `ParseError` — why a source could not be read as a schema.
-/

namespace SchemaCompletion

open SchemaCompletion.Sdl SchemaCompletion.Text

/-! ## Blank documents -/

def byteOrderMark : Char := '\ufeff'

/-- A line of white space, or one whose first other character opens a comment. -/
def isBlankOrComment (line : List Char) : Bool :=
  match trimStart line with
  | [] => true
  | c :: _ => c == '#'

/-- The text has only white space and comments on its lines, after any byte order marks. -/
def isBlankDocument (text : List Char) : Bool :=
  (splitLines (text.dropWhile (· == byteOrderMark))).all isBlankOrComment

/-! ## Reading -/

/-- Why the content of a source is no schema. -/
inductive ContentError where
  | undecodable (fault : Utf8.Fault)
  | syntactic (e : SyntaxError)
  | document (e : DocumentError)
  deriving DecidableEq, Repr

def ContentError.message : ContentError → String
  | .undecodable fault => fault.message
  | .syntactic e => e.message
  | .document e => e.message

/-- The schema that a text is: empty if the text is blank, else the catalog of its document. -/
def Catalog.ofText (text : List Char) : Except ContentError Catalog :=
  if isBlankDocument text then .ok .empty
  else
    match Document.parse text with
    | .error e => .error (.syntactic e)
    | .ok document =>
      match Catalog.collect document with
      | .error e => .error (.document e)
      | .ok catalog => .ok catalog

/-- The text of a file: decoded, with line feeds for all line ends. -/
def decodeFile (bytes : List UInt8) : Except ContentError (List Char) :=
  match Utf8.decode bytes with
  | .error fault => .error (.undecodable fault)
  | .ok text => .ok (unifyLineBreaks text)

def Catalog.ofBytes (bytes : List UInt8) : Except ContentError Catalog :=
  match decodeFile bytes with
  | .error e => .error e
  | .ok text => Catalog.ofText text

/-! ## Snapshots -/

/-- A schema with the name of its source and the time of the content it was read from. -/
structure Snapshot extends Catalog where
  modified : Int
  source : String
  deriving Repr

/-- The content of a source is no schema. -/
structure ParseError where
  source : String
  cause : ContentError
  deriving DecidableEq, Repr

def ParseError.message (e : ParseError) : String :=
  "parsing of schema at " ++ e.source ++ " failed:\n" ++ e.cause.message

/-- The snapshot of a source, given what reading its content came to. -/
def Snapshot.ofContent (source : String) (modified : Int) (content : Except ContentError Catalog) :
    Except ParseError Snapshot :=
  match content with
  | .error cause => .error { source, cause }
  | .ok catalog => .ok { catalog with modified, source }

def Snapshot.ofText (source : String) (modified : Int) (text : String) :
    Except ParseError Snapshot :=
  Snapshot.ofContent source modified (Catalog.ofText text.toList)

/-- The snapshot of the bytes of a file. -/
def Snapshot.ofBytes (source : String) (modified : Int) (bytes : List UInt8) :
    Except ParseError Snapshot :=
  Snapshot.ofContent source modified (Catalog.ofBytes bytes)

/-- The snapshot of a file is its catalog with the source and the time that were given. -/
theorem Snapshot.ofBytes_eq_ok_iff {source : String} {modified : Int} {bytes : List UInt8}
    {s : Snapshot} :
    Snapshot.ofBytes source modified bytes = .ok s ↔
      Catalog.ofBytes bytes = .ok s.toCatalog ∧ s.modified = modified ∧ s.source = source := by
  unfold ofBytes ofContent
  cases Catalog.ofBytes bytes with
  | error cause => simp
  | ok catalog =>
      cases s
      simp only [Except.ok.injEq, Snapshot.mk.injEq]
      exact ⟨fun ⟨hc, hm, hs⟩ => ⟨hc, hm.symm, hs.symm⟩, fun ⟨hc, hm, hs⟩ => ⟨hc, hm.symm, hs.symm⟩⟩

/-- A file is no schema because of its bytes alone. -/
theorem Snapshot.ofBytes_eq_error_iff {source : String} {modified : Int} {bytes : List UInt8}
    {e : ParseError} :
    Snapshot.ofBytes source modified bytes = .error e ↔
      Catalog.ofBytes bytes = .error e.cause ∧ e.source = source := by
  unfold ofBytes ofContent
  cases Catalog.ofBytes bytes with
  | error cause =>
      cases e
      simp only [Except.error.injEq, ParseError.mk.injEq]
      exact ⟨fun ⟨hs, hc⟩ => ⟨hc, hs.symm⟩, fun ⟨hc, hs⟩ => ⟨hs.symm, hc⟩⟩
  | ok catalog => simp

end SchemaCompletion
