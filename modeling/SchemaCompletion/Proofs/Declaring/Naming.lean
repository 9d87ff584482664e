import SchemaCompletion.Proofs.Declaring.Renaming
import SchemaCompletion.Proofs.Reading.Blank
import SchemaCompletion.Proofs.Writing.Documents

/-!
# Declared members

The identifiers that fields and methods are declared with. They are the names of the members, as the
schema has them; the reserved words play no part.

* `DeclaresField`, `DeclaresMethod` — the identifier of a declaration, as its text shows it;
* `Dialect.declaresField_iff`, `Dialect.declaresMethod_iff` — it is the name of the member;
* `Snapshot.WasRead` — a schema that was accepted;
* `Snapshot.exists_wasRead_declaring` — every proper name is that of a member of some schema;
* `Dialect.Legal` — neither declaration of a member has a reserved word for its identifier;
* `Dialect.legal_iff_not_mem_reserved` — this is so for the members whose names are no reserved
  words.
-/

namespace SchemaCompletion

open SchemaCompletion.Sdl

/-! ## Identifiers -/

/-- The text declares a field with the identifier: it is the last word in front of the semicolon. -/
def DeclaresField (text identifier : String) : Prop :=
  ∃ front, text = front ++ ";" ∧ Dialect.lastWord front = identifier

/-- The text declares a method with the identifier: it is the last word in front of the
parameters. -/
def DeclaresMethod (text parameters identifier : String) : Prop :=
  ∃ front, text = front ++ "(" ++ parameters ++ ");" ∧ Dialect.lastWord front = identifier

/-- A text declares one field. -/
theorem declaresField_append_iff {front identifier : String} :
    DeclaresField (front ++ ";") identifier ↔ identifier = Dialect.lastWord front := by
  constructor
  · rintro ⟨front', same, rfl⟩
    rw [(String.append_left_inj _).1 same]
  · rintro rfl
    exact ⟨front, rfl, rfl⟩

/-- A text declares one method with the same parameters. -/
theorem declaresMethod_append_iff {front parameters identifier : String} :
    DeclaresMethod (front ++ "(" ++ parameters ++ ");") parameters identifier ↔
      identifier = Dialect.lastWord front := by
  constructor
  · rintro ⟨front', same, rfl⟩
    rw [String.append_left_inj, String.append_left_inj, String.append_left_inj] at same
    rw [same]
  · rintro rfl
    exact ⟨front, rfl, rfl⟩

namespace Dialect

variable (d : Dialect) {m : Member} {identifier : String}

theorem declaresField_iff (proper : IsName m.name.toList) :
    DeclaresField (d.fieldText m) identifier ↔ identifier = m.name := by
  rw [fieldText, declaresField_append_iff, lastWord_append_name proper]

theorem declaresMethod_iff (proper : IsName m.name.toList) :
    DeclaresMethod (d.methodText m) (d.parametersText m) identifier ↔ identifier = m.name := by
  rw [methodText, declaresMethod_append_iff, lastWord_append_name proper]

/-- Neither declaration of the member has a reserved word for its identifier. -/
def Legal (m : Member) : Prop :=
  ∀ identifier, DeclaresField (d.fieldText m) identifier ∨
    DeclaresMethod (d.methodText m) (d.parametersText m) identifier → identifier ∉ d.reserved

theorem legal_iff (proper : IsName m.name.toList) : d.Legal m ↔ m.name ∉ d.reserved := by
  simp only [Legal, d.declaresField_iff proper, d.declaresMethod_iff proper, or_self, forall_eq]

end Dialect

/-! ## Accepted schemas -/

namespace Snapshot

/-- The schema was read, from a text or from the bytes of a file. -/
def WasRead (s : Snapshot) : Prop :=
  ∃ source modified, (∃ text, Snapshot.ofText source modified text = .ok s) ∨
    ∃ bytes, Snapshot.ofBytes source modified bytes = .ok s

/-- The members of a schema that was read have proper names. -/
theorem WasRead.named_members {s : Snapshot} (read : s.WasRead) (type : String) :
    ∀ m ∈ s.members type, m.Named := by
  rcases read with ⟨source, modified, ⟨text, read⟩ | ⟨bytes, read⟩⟩
  · rcases Catalog.exists_document_of_ofText (toCatalog_of_ofText read) with
      ⟨document, holds, definitions⟩
    exact holds.named_members definitions type
  · rcases Catalog.exists_document_of_ofBytes (ofBytes_eq_ok_iff.1 read).1 with
      ⟨document, holds, definitions⟩
    exact holds.named_members definitions type

end Snapshot

/-- A type with a single field is a schema. -/
theorem Catalog.ofText_singleField {container name : String} {e : TypeExpr}
    (proper : IsName container.toList) (proper' : IsName name.toList)
    (fits : e.WellFormed Rule.levelLimit) :
    Catalog.ofText (singleFieldText container name e).toList =
      .ok { Catalog.empty with types := [.singleField container name e] } := by
  have parsed := Document.parse_singleField proper proper' fits
  have visible := isBlankDocument_of_parse parsed
  rw [Catalog.ofText, visible, if_neg Bool.false_ne_true, parsed]
  rfl

/-- Every proper name is that of a field in some schema. -/
theorem Snapshot.exists_wasRead_declaring {name : String} (proper : IsName name.toList) :
    ∃ s : Snapshot, s.WasRead ∧ ∃ m ∈ s.members "Query", m.name = name := by
  -- any container and any type will do
  have fits : (TypeExpr.name "String").WellFormed Rule.levelLimit :=
    ⟨by decide, trivial, Nat.zero_le _⟩
  have query : IsName "Query".toList := by decide
  have read := Catalog.ofText_singleField query proper fits
  refine ⟨{ Catalog.empty with
    types := [.singleField "Query" name (.name "String")], modified := 0, source := "" }, ?_, ?_⟩
  · refine ⟨"", 0, .inl ⟨singleFieldText "Query" name (.name "String"), ?_⟩⟩
    rw [Snapshot.ofText, read]
    rfl
  · exact ⟨.ofField "Query" (.plain name (.name "String")), List.mem_singleton_self _, rfl⟩

/-! ## Reserved words -/

namespace Dialect

/-- Fields and methods are declared with the names of the members, in every schema that was read and
whatever is reserved. So the declarations of a member are free of reserved words for identifiers
exactly if it is not called by one; and those of all members of all schemas are, exactly if no
proper name is reserved. -/
theorem legal_iff_not_mem_reserved (d : Dialect) :
    (∀ s : Snapshot, s.WasRead → ∀ type, ∀ m ∈ s.members type,
      (∀ identifier, DeclaresField (d.fieldText m) identifier ↔ identifier = m.name) ∧
      (∀ identifier, DeclaresMethod (d.methodText m) (d.parametersText m) identifier ↔
        identifier = m.name) ∧
      (d.Legal m ↔ m.name ∉ d.reserved)) ∧
    ((∀ s : Snapshot, s.WasRead → ∀ type, ∀ m ∈ s.members type, d.Legal m) ↔
      ∀ word ∈ d.reserved, ¬ IsName word.toList) := by
  constructor
  · intro s read type m mem
    have proper := (read.named_members type m mem).name
    exact ⟨fun _ => d.declaresField_iff proper, fun _ => d.declaresMethod_iff proper,
      d.legal_iff proper⟩
  · constructor
    · intro legal word reserved proper
      -- a reserved word that is a proper name is that of a member of some schema
      rcases Snapshot.exists_wasRead_declaring proper with ⟨s, read, m, mem, rfl⟩
      exact (d.legal_iff proper).1 (legal s read "Query" m mem) reserved
    · intro improper s read type m mem
      have proper := (read.named_members type m mem).name
      exact (d.legal_iff proper).2 fun reserved => improper m.name reserved proper

/-- Members that are almost called by reserved words, one with a reserved word for a parameter, and
an input value. -/
theorem legal_iff_not_mem_reserved_near_words :
    let text :=
      "type Query \x7b Class(class: Int): Int class_: ID! __: Int \x7d input New \x7b news: Int \x7d"
    ∃ s : Snapshot, Snapshot.ofText "schema.graphql" 0 text = .ok s ∧
      (s.members "Query").map java.methodText =
        ["@Query Integer Class(@Name(\"class\") Integer class_);",
          "@Query @Id @NonNull String class_();", "@Query Integer __();"] ∧
      (s.members "New").map java.fieldText = ["Integer news;"] ∧
      (∀ m ∈ s.members "Query", ∀ identifier,
        DeclaresMethod (java.methodText m) (java.parametersText m) identifier →
          identifier ∈ ["Class", "class_", "__"]) ∧
      (∀ m ∈ s.members "Query", java.Legal m) ∧ ∀ m ∈ s.members "New", java.Legal m := by
  intro text
  have facts : ((Snapshot.ofText "schema.graphql" 0 text).toOption.map fun s =>
      ((s.members "Query").map java.methodText, (s.members "New").map java.fieldText,
        (s.members "Query").map (·.name), (s.members "New").map (·.name))) =
      some (["@Query Integer Class(@Name(\"class\") Integer class_);",
        "@Query @Id @NonNull String class_();", "@Query Integer __();"], ["Integer news;"],
        ["Class", "class_", "__"], ["news"]) := by
    decide +kernel
  rcases exists_ok_of_map_toOption facts with ⟨s, read, shown⟩
  simp only [Prod.mk.injEq] at shown
  rcases shown with ⟨methods, fields, called, called'⟩
  have apart : ∀ name ∈ ["Class", "class_", "__"] ++ ["news"], name ∉ java.reserved := by decide
  have declared := java.legal_iff_not_mem_reserved.1 s ⟨"schema.graphql", 0, .inl ⟨text, read⟩⟩
  refine ⟨s, read, methods, fields, fun m mem identifier declares => ?_, fun m mem => ?_,
    fun m mem => ?_⟩
  · rw [((declared "Query" m mem).2.1 identifier).1 declares, ← called]
    exact List.mem_map_of_mem mem
  · refine (declared "Query" m mem).2.2.2 (apart m.name ?_)
    rw [← called]
    exact List.mem_append_left _ (List.mem_map_of_mem mem)
  · refine (declared "New" m mem).2.2.2 (apart m.name ?_)
    rw [← called']
    exact List.mem_append_right _ (List.mem_map_of_mem mem)

/-- A field that is called by a reserved word. -/
theorem reserved_word_is_declared :
    let m : Member := ⟨"Query", "class", .name "String", "", .field []⟩
    (∃ s, Snapshot.ofText "schema.graphql" 0 "type Query \x7b class: String \x7d" = .ok s ∧
        s.members "Query" = [m]) ∧
      java.fieldText m = "String class;" ∧ DeclaresField (java.fieldText m) "class" ∧
      java.methodText m = "@Query String class();" ∧
      DeclaresMethod (java.methodText m) (java.parametersText m) "class" ∧
      "class" ∈ java.reserved := by
  intro m
  have proper : IsName m.name.toList := by decide
  have members :
      ((Snapshot.ofText "schema.graphql" 0 "type Query \x7b class: String \x7d").toOption.map
      fun s => s.members "Query") = some [m] := by
    decide +kernel
  exact ⟨exists_ok_of_map_toOption members, by decide,
    (java.declaresField_iff proper).2 rfl, by decide,
    (java.declaresMethod_iff proper).2 rfl, by decide⟩

end Dialect

end SchemaCompletion
