import SchemaCompletion.Proofs.Reading.Grammar
import SchemaCompletion.Proofs.Reading.Tokens
import SchemaCompletion.Proofs.Reading.Utf8
import SchemaCompletion.Snapshot

/-!
# Files and texts

A schema read from a file against the same schema read from its text. A file is decoded and its line
ends are unified before the text is looked at, and a text is taken as it is.

* `isBlankDocument_unifyLineBreaks`, `Document.parse_unifyLineBreaks` — unifying line ends changes
  neither whether a text is blank nor its document;
* `Catalog.ofText_unifyLineBreaks` — so it does not change the schema;
* `Snapshot.ofBytes_ofText` — a file is the schema that its text is, and is none if it has no text.
-/

namespace SchemaCompletion

open SchemaCompletion.Sdl SchemaCompletion.Text

theorem isBlankDocument_unifyLineBreaks (text : List Char) :
    isBlankDocument (unifyLineBreaks text) = isBlankDocument text := by
  unfold isBlankDocument
  rw [dropWhile_unifyLineBreaks (by decide) (by decide), splitLines_unifyLineBreaks]

/-- A text is the same document with line feeds for all line ends, or it is none either way. -/
theorem Sdl.Document.parse_unifyLineBreaks (text : List Char) :
    (∃ document, Document.parse (unifyLineBreaks text) = .ok document ∧
      Document.parse text = .ok document) ∨
    ∃ e e', Document.parse (unifyLineBreaks text) = .error e ∧ Document.parse text = .error e' := by
  rcases Document.parse_of_alike (ofText_alike text) with ⟨document, unified, parsed, -⟩ | failed
  · exact .inl ⟨document, unified, parsed⟩
  · exact .inr failed

/-- A text is the same schema with line feeds for all line ends, or it is none either way. -/
theorem Catalog.ofText_unifyLineBreaks (text : List Char) :
    (∃ catalog, Catalog.ofText (unifyLineBreaks text) = .ok catalog ∧
      Catalog.ofText text = .ok catalog) ∨
    ∃ e e', Catalog.ofText (unifyLineBreaks text) = .error e ∧ Catalog.ofText text = .error e' := by
  unfold Catalog.ofText
  rw [isBlankDocument_unifyLineBreaks]
  split
  · exact .inl ⟨_, rfl, rfl⟩
  · rcases Document.parse_unifyLineBreaks text with
      ⟨document, unified, parsed⟩ | ⟨e, e', unified, failed⟩
    · simp only [unified, parsed]
      cases Catalog.collect document with
      | error e =>
          exact .inr ⟨_, _, rfl, rfl⟩
      | ok catalog =>
          exact .inl ⟨catalog, rfl, rfl⟩
    · rw [unified, failed]
      exact .inr ⟨_, _, rfl, rfl⟩

/-- The bytes of a text are the schema that the text is with line feeds. -/
theorem Catalog.ofBytes_of_toUTF8 {bytes : List UInt8} {text : String}
    (encoded : text.toUTF8 = bytes.toByteArray) :
    Catalog.ofBytes bytes = Catalog.ofText (unifyLineBreaks text.toList) := by
  simp [Catalog.ofBytes, decodeFile, Utf8.decode_of_toUTF8 encoded]

/-- A file that is no UTF-8 is no schema. A file that is the UTF-8 of a text, whatever its line ends
and with or without a byte order mark, is the schema that the text is as it stands, or neither is
one. -/
theorem Snapshot.ofBytes_ofText (bytes : List UInt8) (path source : String)
    (modified modified' : Int) :
    (¬bytes.toByteArray.IsValidUTF8 →
      ∃ fault, Snapshot.ofBytes path modified bytes = .error ⟨path, .undecodable fault⟩) ∧
    ∀ text : String, text.toUTF8 = bytes.toByteArray →
      (∃ s s', Snapshot.ofBytes path modified bytes = .ok s ∧
        Snapshot.ofText source modified' text = .ok s' ∧ s.toCatalog = s'.toCatalog) ∨
      ∃ e e', Snapshot.ofBytes path modified bytes = .error e ∧
        Snapshot.ofText source modified' text = .error e' := by
  constructor
  · intro invalid
    rcases Utf8.decode_eq_error_iff.2 invalid with ⟨fault, failed⟩
    exact ⟨fault, by simp [Snapshot.ofBytes, Catalog.ofBytes, decodeFile, failed,
      Snapshot.ofContent]⟩
  · intro text encoded
    unfold Snapshot.ofBytes Snapshot.ofText
    rw [Catalog.ofBytes_of_toUTF8 encoded]
    rcases Catalog.ofText_unifyLineBreaks text.toList with
      ⟨catalog, unified, read⟩ | ⟨e, e', unified, failed⟩
    · rw [unified, read]
      exact .inl ⟨_, _, rfl, rfl, rfl⟩
    · rw [unified, failed]
      exact .inr ⟨_, _, rfl, rfl⟩

/-- A file with every kind of line end and a byte order mark, and one byte that no text has. -/
theorem Snapshot.ofBytes_ofText_line_ends :
    let text := "\ufeff#\rtype A \x7b\r\n\"\"\"\r  one\r\n  two\n\"\"\" x(y: Int = 1): ID\r\x7d"
    let bytes := text.toUTF8.data.toList
    (∃ fault, Snapshot.ofBytes "a.graphql" 1 [0xFF] = .error ⟨"a.graphql", .undecodable fault⟩) ∧
      (∃ s s', Snapshot.ofBytes "a.graphql" 1 bytes = .ok s ∧
        Snapshot.ofText "a" 2 text = .ok s' ∧ s.toCatalog = s'.toCatalog) ∧
      ((Snapshot.ofText "a" 2 text).toOption.map fun s =>
        (s.members "A").map fun m => (m.name, m.description)) = some [("x", "one\ntwo")] := by
  intro text bytes
  have encoded : text.toUTF8 = bytes.toByteArray := by decide +kernel
  have unreadable : ¬[0xFF].toByteArray.IsValidUTF8 := by decide +kernel
  have members : ((Snapshot.ofText "a" 2 text).toOption.map fun s =>
      (s.members "A").map fun m => (m.name, m.description)) = some [("x", "one\ntwo")] := by
    decide +kernel
  refine ⟨(Snapshot.ofBytes_ofText [0xFF] "a.graphql" "a" 1 2).1 unreadable, ?_, members⟩
  rcases (Snapshot.ofBytes_ofText bytes "a.graphql" "a" 1 2).2 text encoded with
    read | ⟨e, e', -, failed⟩
  · exact read
  · rw [failed] at members
    cases members

end SchemaCompletion
