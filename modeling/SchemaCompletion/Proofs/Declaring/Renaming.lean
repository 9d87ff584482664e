import Mathlib.Data.List.Nodup
import SchemaCompletion.Proofs.Declaring.OneLine
import SchemaCompletion.Proofs.Printing.Words

/-!
# Renamed parameters

The identifiers that the parameters of a method are declared with. A name that is a reserved word
gets an underscore, whatever the other parameters are called.

* `Dialect.identifiers` — the identifiers of a method, as the declarations of its parameters show
  them;
* `Dialect.rename` — the name that a parameter gets;
* `Dialect.identifiers_eq_map_rename` — the identifiers are these names;
* `Dialect.nodup_map_rename_iff`, `Dialect.forall_rename_not_mem_iff` — when names stay apart, and
  away from the reserved words;
* `Dialect.identifiers_legal_iff` — when the identifiers of a method do.
-/

namespace SchemaCompletion

open SchemaCompletion.Sdl SchemaCompletion.Text

namespace Dialect

/-! ## Identifiers -/

/-- The identifier of a declaration, which is its last word. -/
def lastWord (declaration : String) : String :=
  String.ofList ((words declaration.toList).getLastD [])

/-- The identifiers that the parameters of a method are declared with, in order. -/
def identifiers (d : Dialect) (m : Member) : List String :=
  (m.parameters.map d.parameterText).map lastWord

/-- The name that a parameter gets. -/
def rename (d : Dialect) (name : String) : String :=
  if d.reserved.contains name then name ++ "_" else name

end Dialect

namespace Sdl

/-- A name has no white space. -/
theorem IsName.solid {n : List Char} (name : IsName n) : ∀ c ∈ n, isBlank c = false := by
  intro c mem
  have continues : (c.isAlphanum || c == '_') = true := name.isNameContinue c mem
  cases blank : isBlank c with
  | false =>
      rfl
  | true =>
      rw [isAlphanum_of_isBlank blank, Bool.false_or, beq_iff_eq] at continues
      subst continues
      cases blank

theorem IsName.ne_nil {n : List Char} (name : IsName n) : n ≠ [] := by
  rcases name with ⟨c, rest, rfl, -⟩
  exact List.cons_ne_nil c rest

theorem IsName.concat_underscore {n : List Char} (name : IsName n) : IsName (n ++ ['_']) := by
  rcases name with ⟨c, rest, rfl, start, others⟩
  refine ⟨c, rest ++ ['_'], rfl, start, ?_⟩
  rw [List.forall_mem_append]
  exact ⟨others, List.forall_mem_singleton.2 rfl⟩

end Sdl

namespace Dialect

variable (d : Dialect)

theorem isName_rename {name : String} (proper : IsName name.toList) :
    IsName (d.rename name).toList := by
  unfold rename
  split
  · rw [String.toList_append]
    exact proper.concat_underscore
  · exact proper

/-- A name behind a blank is the last word. -/
theorem lastWord_append_name {name : String} (proper : IsName name.toList) (front : String) :
    lastWord (front ++ " " ++ name) = name := by
  have split : words (front ++ " " ++ name).toList = words front.toList ++ [name.toList] := calc
    words (front ++ " " ++ name).toList = words (front.toList ++ ' ' :: name.toList) := by
      simp
    _ = words front.toList ++ words name.toList := words_append_blank isBlank_space _ _
    _ = words front.toList ++ [name.toList] := by
      rw [words_of_solid proper.ne_nil proper.solid]
  rw [lastWord, split, List.getLastD_concat, String.ofList_toList]

/-- A declaration ends with the name that the parameter gets, behind a blank. -/
theorem exists_parameterText (p : Parameter) :
    ∃ front, d.parameterText p = front ++ " " ++ d.rename p.name := by
  unfold parameterText rename
  split
  · exact ⟨"@Name(\"" ++ p.name ++ "\") " ++ d.typeText p.type, String.append_assoc⟩
  · exact ⟨d.typeText p.type, rfl⟩

/-- The last word of a declaration is the name that the parameter gets. -/
theorem lastWord_parameterText {p : Parameter} (proper : IsName p.name.toList) :
    lastWord (d.parameterText p) = d.rename p.name := by
  rcases d.exists_parameterText p with ⟨front, text⟩
  rw [text, lastWord_append_name (d.isName_rename proper)]

theorem identifiers_eq_map_rename {m : Member}
    (proper : ∀ p ∈ m.parameters, IsName p.name.toList) :
    d.identifiers m = (m.parameters.map (·.name)).map d.rename := by
  rw [identifiers, List.map_map, List.map_map]
  exact List.map_congr_left fun p mem => d.lastWord_parameterText (proper p mem)

/-! ## Names that are taken -/

variable {names : List String}

theorem ne_append_underscore (name : String) : name ≠ name ++ "_" := by
  intro same
  have lengths := congrArg String.length same
  simp at lengths

/-- Names that differ are renamed alike only if one is a reserved word and the other one is not, and
is that word with an underscore. -/
theorem rename_inj_iff {a b : String} (differ : a ≠ b) :
    d.rename a = d.rename b ↔
      (a ∈ d.reserved ∧ b ∉ d.reserved ∧ b = a ++ "_") ∨
        (b ∈ d.reserved ∧ a ∉ d.reserved ∧ a = b ++ "_") := by
  simp only [rename, List.contains_iff_mem]
  by_cases first : a ∈ d.reserved <;> by_cases second : b ∈ d.reserved
  · -- both get an underscore
    simp [first, second, differ]
  · simp [first, second, eq_comm]
  · simp [first, second]
  · simp [first, second, differ]

/-- Names that differ are still different after the renaming exactly if no reserved word among them
comes with the same word with an underscore, unless that is reserved, too. -/
theorem nodup_map_rename_iff (distinct : names.Nodup) :
    (names.map d.rename).Nodup ↔
      ∀ name ∈ names, name ∈ d.reserved → name ++ "_" ∈ names → name ++ "_" ∈ d.reserved := by
  rw [List.nodup_map_iff_inj_on distinct]
  constructor
  · intro apart name mem reserved taken
    -- else both names would become the longer one
    by_cases free : name ++ "_" ∈ d.reserved
    · exact free
    · have differ := ne_append_underscore name
      have same : d.rename name = d.rename (name ++ "_") :=
        (d.rename_inj_iff differ).2 (.inl ⟨reserved, free, rfl⟩)
      exact absurd (apart name mem (name ++ "_") taken same) differ
  · intro settled a mem b mem' same
    by_cases differ : a = b
    · exact differ
    · rcases (d.rename_inj_iff differ).1 same with ⟨reserved, free, rfl⟩ | ⟨reserved, free, rfl⟩
      · exact absurd (settled a mem reserved mem') free
      · exact absurd (settled b mem' reserved mem) free

/-- The renaming leads away from the reserved words exactly if no name that is one of them is one
with an underscore, too. -/
theorem forall_rename_not_mem_iff :
    (∀ name ∈ names.map d.rename, name ∉ d.reserved) ↔
      ∀ name ∈ names, name ∈ d.reserved → name ++ "_" ∉ d.reserved := by
  rw [List.forall_mem_map]
  refine forall₂_congr fun name _ => ?_
  by_cases reserved : name ∈ d.reserved
  · simp [rename, reserved]
  · simp [rename, reserved]

/-- No reserved word of Java is another one with an underscore. -/
theorem append_underscore_not_mem_javaReserved :
    ∀ word ∈ javaReserved, word ++ "_" ∉ javaReserved := by
  decide

/-! ## Methods -/

/-- The parameters of a method, called by proper names that differ, are declared with identifiers
that differ exactly if no parameter called by a reserved word comes with one called by that word
with an underscore, unless this is a reserved word, too. No identifier is a reserved word exactly if
no parameter is called by a reserved word that is one with an underscore, too; with the reserved
words of Java this is so for all methods. -/
theorem identifiers_legal_iff {m : Member} (proper : ∀ p ∈ m.parameters, IsName p.name.toList)
    (distinct : (m.parameters.map (·.name)).Nodup) :
    ((d.identifiers m).Nodup ↔
      ∀ p ∈ m.parameters, ∀ q ∈ m.parameters,
        p.name ∈ d.reserved → q.name = p.name ++ "_" → q.name ∈ d.reserved) ∧
    ((∀ identifier ∈ d.identifiers m, identifier ∉ d.reserved) ↔
      ∀ p ∈ m.parameters, p.name ∈ d.reserved → p.name ++ "_" ∉ d.reserved) ∧
    (d.reserved = javaReserved → ∀ identifier ∈ d.identifiers m, identifier ∉ d.reserved) := by
  rw [d.identifiers_eq_map_rename proper, d.nodup_map_rename_iff distinct,
    d.forall_rename_not_mem_iff, List.forall_mem_map, List.forall_mem_map]
  refine ⟨⟨?_, ?_⟩, Iff.rfl, ?_⟩
  · intro settled p mem q mem' reserved called
    rw [called]
    exact settled p mem reserved (List.mem_map.2 ⟨q, mem', called⟩)
  · intro settled p mem reserved taken
    rcases List.mem_map.1 taken with ⟨q, mem', called⟩
    rw [← called]
    exact settled p mem q mem' reserved called
  · intro java p _ reserved
    rw [java] at reserved ⊢
    exact append_underscore_not_mem_javaReserved p.name reserved

/-- A parameter called by a reserved word, one called by that word with two underscores, one that no
word is like, and one called by the lone underscore. -/
theorem identifiers_legal_near_words :
    let parameter (name : String) : Parameter := ⟨name, .name "Int", "", none⟩
    let m : Member := ⟨"Query", "f", .name "Int", "",
      .field (["class", "class__", "value", "_"].map parameter)⟩
    java.parametersText m = "@Name(\"class\") Integer class_, Integer class__, Integer value, " ++
        "@Name(\"_\") Integer __" ∧
      (java.identifiers m).Nodup ∧ ∀ identifier ∈ java.identifiers m,
      identifier ∉ java.reserved := by
  intro parameter m
  have proper : ∀ p ∈ m.parameters, IsName p.name.toList := by decide
  have distinct : (m.parameters.map (·.name)).Nodup := by decide
  rcases java.identifiers_legal_iff proper distinct with ⟨apart, -, away⟩
  exact ⟨by decide, apart.2 (by decide), away rfl⟩

/-- A parameter called by a reserved word and one called by that word with an underscore, in a
schema: both are declared with the same identifier. Where the word with an underscore is reserved,
too, a reserved word is an identifier. -/
theorem identifiers_clash :
    let parameter (name : String) : Parameter := ⟨name, .name "Int", "", none⟩
    let m : Member := ⟨"Query", "f", .name "Int", "", .field (["class", "class_"].map parameter)⟩
    let d : Dialect := { java with reserved := ["class", "class_"] }
    (∃ s, Snapshot.ofText "schema.graphql" 0
        "type Query \x7b f(class: Int, class_: Int): Int \x7d" = .ok s ∧ s.members "Query" = [m]) ∧
      (m.parameters.map (·.name)).Nodup ∧
      java.parametersText m = "@Name(\"class\") Integer class_, Integer class_" ∧
      java.identifiers m = ["class_", "class_"] ∧ ¬ (java.identifiers m).Nodup ∧
      d.identifiers m = ["class_", "class__"] ∧ "class_" ∈ d.reserved := by
  intro parameter m d
  have proper : ∀ p ∈ m.parameters, IsName p.name.toList := by decide
  have members : ((Snapshot.ofText "schema.graphql" 0
      "type Query \x7b f(class: Int, class_: Int): Int \x7d").toOption.map fun s =>
        s.members "Query") = some [m] := by
    decide +kernel
  have same : java.identifiers m = ["class_", "class_"] := by
    rw [java.identifiers_eq_map_rename proper]
    decide
  have taken : d.identifiers m = ["class_", "class__"] := by
    rw [d.identifiers_eq_map_rename proper]
    decide
  refine ⟨?_, by decide, by decide, same, by rw [same]; decide, taken, by decide⟩
  cases read : Snapshot.ofText "schema.graphql" 0
      "type Query \x7b f(class: Int, class_: Int): Int \x7d" with
  | error e =>
      rw [read] at members
      cases members
  | ok s =>
      rw [read] at members
      exact ⟨s, rfl, Option.some.inj members⟩

end Dialect

end SchemaCompletion
