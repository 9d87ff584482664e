import Mathlib.Data.List.Forall2
import SchemaCompletion.Declaration
import SchemaCompletion.Sdl.Name

/-!
# What a declaration says

A declaration can be read in one way only: it says all that it is made from, and no more.

* `TypeSignature`, `Signature` — what a type and a member are made from, as far as declarations show
  it;
* `Parameter.Named`, `Member.Named` — members all of whose names are proper ones;
* `IsName.append_inj`, `TypeSignature.text_append_inj` — a name or a type ends where it ends;
* `Dialect.declares_signature` — two declarations of Java are the same text if they say the same,
  and only then.
-/

namespace SchemaCompletion

open SchemaCompletion.Sdl

/-! ## Signatures -/

/-- What a type expression puts around another. -/
inductive Sdl.Wrapper where
  | list
  | nonNull
  deriving DecidableEq, Repr

/-- The wrappers of a type expression, the outermost first. -/
def Sdl.TypeExpr.wrappers : TypeExpr → List Wrapper
  | .name _ => []
  | .list item => .list :: item.wrappers
  | .nonNull inner => .nonNull :: inner.wrappers

/-- A type as declarations show it: its wrappers and what its name is mapped to. -/
structure TypeSignature where
  wrappers : List Wrapper
  mapping : TypeMapping
  deriving DecidableEq, Repr

/-- A member as declarations show it: the parameters are in order, each with its name and type. -/
structure Signature where
  container : String
  name : String
  result : TypeSignature
  parameters : List (String × TypeSignature)
  deriving DecidableEq, Repr

namespace Dialect

def typeSignature (d : Dialect) (e : TypeExpr) : TypeSignature :=
  { wrappers := e.wrappers, mapping := d.mappings.resolve e.named }

def parameterSignature (d : Dialect) (p : Parameter) : String × TypeSignature :=
  (p.name, d.typeSignature p.type)

def signature (d : Dialect) (m : Member) : Signature where
  container := m.container
  name := m.name
  result := d.typeSignature m.type
  parameters := m.parameters.map d.parameterSignature

end Dialect

/-! ## Proper names -/

/-- The name of a parameter and the name in its type are proper ones. -/
structure Parameter.Named (p : Parameter) : Prop where
  name : IsName p.name.toList
  type : IsName p.type.named.toList

/-- All names that a declaration of a member shows are proper ones. -/
structure Member.Named (m : Member) : Prop where
  container : IsName m.container.toList
  name : IsName m.name.toList
  type : IsName m.type.named.toList
  parameters : ∀ p ∈ m.parameters, p.Named

namespace Sdl

theorem isNameContinue_of_isNameStart {c : Char} (start : isNameStart c = true) :
    isNameContinue c = true := by
  simp only [isNameStart, isNameContinue, Char.isAlphanum, Bool.or_eq_true] at start ⊢
  rcases start with letter | underscore
  · exact .inl (.inl letter)
  · exact .inr underscore

variable {n n' : List Char}

theorem IsName.isNameContinue (name : IsName n) : ∀ c ∈ n, isNameContinue c = true := by
  rcases name with ⟨c, rest, rfl, start, others⟩
  intro d mem
  rcases List.mem_cons.1 mem with rfl | mem
  · exact isNameContinue_of_isNameStart start
  · exact others d mem

/-- A name ends at the first character that no name has. -/
theorem IsName.append_inj (name : IsName n) (name' : IsName n') {c c' : Char}
    {rest rest' : List Char} (stop : Sdl.isNameContinue c = false)
    (stop' : Sdl.isNameContinue c' = false) (same : n ++ c :: rest = n' ++ c' :: rest') :
    n = n' ∧ c = c' ∧ rest = rest' := by
  have names := congrArg (List.takeWhile Sdl.isNameContinue) same
  rw [List.takeWhile_append_of_pos name.isNameContinue,
    List.takeWhile_append_of_pos name'.isNameContinue] at names
  obtain rfl : n = n' := by simpa [stop, stop'] using names
  exact ⟨rfl, by simpa using same⟩

/-- A name begins with the first character of a name. -/
theorem IsName.start_of_append (name : IsName n) {c : Char} {rest rest' : List Char}
    (same : n ++ rest = c :: rest') : isNameStart c = true := by
  rcases name with ⟨d, others, rfl, start, -⟩
  cases same
  exact start

end Sdl

/-! ## The text of a type -/

namespace TypeSignature

/-- A name under wrappers. -/
def wrap (target : List Char) : List Wrapper → List Char
  | [] => target
  | .list :: wrappers => "List".toList ++ '<' :: (wrap target wrappers ++ ['>'])
  | .nonNull :: wrappers => Dialect.nonNullMark.toList ++ wrap target wrappers

/-- A type with the marker of its name in front. -/
def text (s : TypeSignature) : List Char :=
  (if s.mapping.marker = "" then [] else s.mapping.marker.toList ++ [' ']) ++
    wrap s.mapping.target.toList s.wrappers

end TypeSignature

namespace Dialect

variable (d : Dialect)

theorem toList_bareTypeText (e : TypeExpr) :
    (d.bareTypeText e).toList =
      TypeSignature.wrap (d.mappings.resolve e.named).target.toList e.wrappers := by
  induction e with
  | name text =>
      rfl
  | list item ih =>
      simp [bareTypeText, ih, TypeExpr.named, TypeExpr.wrappers, TypeSignature.wrap]
  | nonNull inner ih =>
      simp [bareTypeText, ih, TypeExpr.named, TypeExpr.wrappers, TypeSignature.wrap]

/-- The text of a type is that of its signature. -/
theorem toList_typeText (e : TypeExpr) : (d.typeText e).toList = (d.typeSignature e).text := by
  simp only [typeText, TypeSignature.text, typeSignature]
  split
  next unmarked =>
      simp [unmarked, toList_bareTypeText]
  next marked =>
      simp [marked, toList_bareTypeText]

theorem typeText_eq_of_typeSignature {e e' : TypeExpr}
    (same : d.typeSignature e = d.typeSignature e') : d.typeText e = d.typeText e' := by
  rw [← String.toList_inj, toList_typeText, toList_typeText, same]

theorem parameterText_eq_of_parameterSignature {p p' : Parameter}
    (same : d.parameterSignature p = d.parameterSignature p') :
    d.parameterText p = d.parameterText p' := by
  rcases Prod.mk.inj same with ⟨names, types⟩
  simp only [parameterText, names, d.typeText_eq_of_typeSignature types]

/-- A method says nothing that is not in its signature. -/
theorem methodText_eq_of_signature {m m' : Member} (same : d.signature m = d.signature m') :
    d.methodText m = d.methodText m' := by
  rcases Signature.mk.inj same with ⟨containers, names, results, parameters⟩
  have texts : m.parameters.map d.parameterText = m'.parameters.map d.parameterText := by
    rw [← List.forall₂_eq_eq_eq, List.forall₂_map_left_iff, List.forall₂_map_right_iff] at *
    exact parameters.imp fun _ _ => d.parameterText_eq_of_parameterSignature
  simp only [methodText, parametersText, containers, names, texts,
    d.typeText_eq_of_typeSignature results]

end Dialect

/-! ## Reading a type back -/

namespace TypeSignature

/-- A type whose name is mapped to a proper name, and is marked as an identifier or not at all. -/
structure Readable (s : TypeSignature) : Prop where
  target : IsName s.mapping.target.toList
  marker : s.mapping.marker = "" ∨ s.mapping.marker = "@Id"

variable {target target' : List Char} {ws ws' : List Wrapper} {rest rest' : List Char}

/-- A type without a marker begins with a letter or with the annotation of what cannot be null. -/
theorem wrap_begins (name : IsName target) (ws : List Wrapper) :
    (∃ c rest, wrap target ws = c :: rest ∧ isNameStart c = true) ∨
      ∃ rest, wrap target ws = Dialect.nonNullMark.toList ++ rest := by
  cases ws with
  | nil =>
      rcases name with ⟨c, rest, rfl, start, -⟩
      exact .inl ⟨c, rest, rfl, start⟩
  | cons w ws =>
      cases w with
      | list =>
          exact .inl ⟨'L', _, rfl, rfl⟩
      | nonNull =>
          exact .inr ⟨_, rfl⟩

/-- A type without a marker ends at the first character that can follow it. -/
theorem wrap_append_inj (name : IsName target) (name' : IsName target') {c c' : Char}
    (stop : isNameContinue c = false ∧ c ≠ '<') (stop' : isNameContinue c' = false ∧ c' ≠ '<')
    (same : wrap target ws ++ c :: rest = wrap target' ws' ++ c' :: rest') :
    ws = ws' ∧ target = target' ∧ c = c' ∧ rest = rest' := by
  have list : IsName "List".toList := by decide
  -- wrapper by wrapper; two types that differ here differ in a character, a list and a type called
  -- `List` only in the one behind the name
  induction ws generalizing ws' c c' rest rest' with
  | nil =>
      match ws' with
      | [] =>
          exact ⟨rfl, name.append_inj name' stop.1 stop'.1 same⟩
      | .list :: ws' =>
          have apart : target ++ c :: rest =
              "List".toList ++ '<' :: (wrap target' ws' ++ '>' :: c' :: rest') := by
            simpa [wrap] using same
          exact absurd (name.append_inj list stop.1 (by decide) apart).2.1 stop.2
      | .nonNull :: ws' =>
          cases name.start_of_append same
  | cons w ws ih =>
      match w, ws' with
      | .list, [] =>
          have apart : "List".toList ++ '<' :: (wrap target ws ++ '>' :: c :: rest) =
              target' ++ c' :: rest' := by
            simpa [wrap] using same
          exact absurd (list.append_inj name' (by decide) stop'.1 apart).2.1.symm stop'.2
      | .nonNull, [] =>
          cases name'.start_of_append same.symm
      | .list, .nonNull :: ws' =>
          cases same
      | .nonNull, .list :: ws' =>
          cases same
      | .list, .list :: ws' =>
          have inner : wrap target ws ++ '>' :: c :: rest = wrap target' ws' ++
              '>' :: c' :: rest' := by
            simpa [wrap] using same
          rcases ih (by decide) (by decide) inner with ⟨rfl, targets, -, others⟩
          exact ⟨rfl, targets, List.cons.inj others⟩
      | .nonNull, .nonNull :: ws' =>
          have inner : wrap target ws ++ c :: rest = wrap target' ws' ++ c' :: rest' := by
            simpa [wrap] using same
          rcases ih stop stop' inner with ⟨rfl, others⟩
          exact ⟨rfl, others⟩

variable {s s' : TypeSignature}

/-- The marker of identifiers is no part of a type without one. -/
theorem wrap_ne_marked (name : IsName target) (ws : List Wrapper) (rest rest' : List Char) :
    wrap target ws ++ rest ≠ "@Id".toList ++ rest' := by
  rcases wrap_begins name ws with ⟨c, others, begins, start⟩ | ⟨others, begins⟩
  · intro same
    obtain rfl : c = '@' := by simpa [begins] using congrArg List.head? same
    cases start
  · simp [begins, Dialect.nonNullMark]

/-- A type ends at the first blank that no annotation ends with. -/
theorem Readable.text_append_inj (readable : s.Readable) (readable' : s'.Readable)
    (same : s.text ++ ' ' :: rest = s'.text ++ ' ' :: rest') : s = s' ∧ rest = rest' := by
  rcases s with ⟨ws, target, marker⟩
  rcases s' with ⟨ws', target', marker'⟩
  have name : IsName target.toList := readable.target
  have name' : IsName target'.toList := readable'.target
  have types : marker = marker' ∧
      wrap target.toList ws ++ ' ' :: rest = wrap target'.toList ws' ++ ' ' :: rest' := by
    -- a marker on one side only would have to be a part of the type on the other
    rcases readable.marker with rfl | rfl <;> rcases readable'.marker with rfl | rfl
    · exact ⟨rfl, by simpa [text] using same⟩
    · exact absurd (by simpa [text] using same) (wrap_ne_marked name ws _ (' ' :: _))
    · exact absurd (by simpa [text] using same.symm) (wrap_ne_marked name' ws' _ (' ' :: _))
    · exact ⟨rfl, by simpa [text] using same⟩
  rcases wrap_append_inj name name' (by decide) (by decide) types.2 with ⟨rfl, targets, -, rests⟩
  rw [String.toList_inj] at targets
  exact ⟨by rw [types.1, targets], rests⟩

/-- A type begins with a letter or with an annotation other than that of a renamed parameter. -/
theorem Readable.text_begins (readable : s.Readable) :
    (∃ c rest, s.text = c :: rest ∧ isNameStart c = true) ∨
      ∃ a ∈ ["@Id", "@NonNull"], ∃ rest, s.text = a.toList ++ rest := by
  unfold text
  rcases readable.marker with unmarked | marked
  · rw [if_pos unmarked, List.nil_append]
    rcases wrap_begins readable.target s.wrappers with letter | ⟨rest, annotated⟩
    · exact .inl letter
    · exact .inr ⟨"@NonNull", by simp, ' ' :: rest, annotated⟩
  · refine .inr ⟨"@Id", by simp, ' ' :: wrap s.mapping.target.toList s.wrappers, ?_⟩
    simp [marked]

end TypeSignature

/-! ## Reading a declaration back -/

namespace Dialect

/-- A proper name stays one under the built-in mappings, and only identifiers are marked. -/
theorem readable_java {e : TypeExpr} (name : IsName e.named.toList) :
    (java.typeSignature e).Readable := by
  have found : java.mappings.resolve e.named =
      if e.named = "ID" then { target := "String", marker := "@Id" }
      else if e.named = "Int" then { target := "Integer", marker := "" }
      else .same e.named := by
    simp only [java, MappingTable.builtIn, MappingTable.resolve, MappingTable.get?,
      List.lookup_cons, List.lookup_nil]
    by_cases identifier : e.named = "ID"
    · simp [identifier]
    · by_cases integer : e.named = "Int"
      · simp [integer]
      · simp [identifier, integer, beq_eq_false_iff_ne.2]
  constructor
  · change IsName (java.mappings.resolve e.named).target.toList
    rw [found]
    split
    · exact (by decide : IsName "String".toList)
    · split
      · exact (by decide : IsName "Integer".toList)
      · exact name
  · change (java.mappings.resolve e.named).marker = "" ∨
      (java.mappings.resolve e.named).marker = "@Id"
    rw [found]
    split
    · exact .inr rfl
    · split
      · exact .inl rfl
      · exact .inl rfl

variable {rest rest' : List Char}

theorem typeText_append_inj {e e' : TypeExpr} (name : IsName e.named.toList)
    (name' : IsName e'.named.toList)
    (same : (java.typeText e).toList ++ ' ' :: rest = (java.typeText e').toList ++ ' ' :: rest') :
    java.typeSignature e = java.typeSignature e' ∧ rest = rest' := by
  rw [toList_typeText, toList_typeText] at same
  exact (readable_java name).text_append_inj (readable_java name') same

/-- A type does not begin as a renamed parameter does, and not with what ends a list of
parameters. -/
theorem typeText_ne {e : TypeExpr} (name : IsName e.named.toList) {front : String}
    (other : front ∈ ["@Name", ")"]) :
    (java.typeText e).toList ++ rest ≠ front.toList ++ rest' := by
  rw [toList_typeText]
  simp only [List.mem_cons, List.not_mem_nil, or_false] at other
  rcases (readable_java name).text_begins with
    ⟨c, others, begins, start⟩ | ⟨a, annotation, others, begins⟩
  · intro same
    have first := congrArg List.head? same
    rcases other with rfl | rfl
    · obtain rfl : c = '@' := by simpa [begins] using first
      cases start
    · obtain rfl : c = ')' := by simpa [begins] using first
      cases start
  · simp only [List.mem_cons, List.not_mem_nil, or_false] at annotation
    rw [begins]
    rcases other with rfl | rfl <;> rcases annotation with rfl | rfl <;> simp

/-! ### Parameters -/

variable {p p' : Parameter}

theorem toList_parameterText_renamed {d : Dialect} (reserved : d.reserved.contains p.name = true) :
    (d.parameterText p).toList =
      "@Name".toList ++ '(' :: '"' :: (p.name.toList ++ '"' :: ')' :: ' ' ::
        ((d.typeText p.type).toList ++ ' ' :: (p.name.toList ++ ['_']))) := by
  rw [parameterText, if_pos reserved]
  simp

theorem toList_parameterText_plain {d : Dialect} (free : d.reserved.contains p.name = false) :
    (d.parameterText p).toList = (d.typeText p.type).toList ++ ' ' :: p.name.toList := by
  rw [parameterText, if_neg (by simp only [free, Bool.false_eq_true, not_false_eq_true])]
  simp

/-- A parameter does not begin with what ends a list of parameters. -/
theorem parameterText_ne_closed (named : p.Named) :
    (java.parameterText p).toList ++ rest ≠ ')' :: rest' := by
  cases reserved : java.reserved.contains p.name with
  | true =>
      rw [toList_parameterText_renamed reserved]
      simp
  | false =>
      rw [toList_parameterText_plain reserved, List.append_assoc]
      exact typeText_ne named.type (by simp : ")" ∈ ["@Name", ")"])

/-- A parameter ends at the first character after its name that no name has. -/
theorem parameterText_append_inj (named : p.Named) (named' : p'.Named) {c c' : Char}
    (stop : isNameContinue c = false) (stop' : isNameContinue c' = false)
    (same : (java.parameterText p).toList ++ c :: rest =
      (java.parameterText p').toList ++ c' :: rest') :
    java.parameterSignature p = java.parameterSignature p' ∧ c = c' ∧ rest = rest' := by
  cases reserved : java.reserved.contains p.name with
  | true =>
      rw [toList_parameterText_renamed reserved] at same
      cases reserved' : java.reserved.contains p'.name with
      | true =>
          -- the annotation tells the name, and then the type stands before the same name again
          rw [toList_parameterText_renamed reserved'] at same
          simp only [List.append_assoc, List.cons_append, List.nil_append] at same
          have annotations := List.append_cancel_left same
          rcases named.name.append_inj named'.name (by decide) (by decide)
            (List.cons.inj (List.cons.inj annotations).2).2 with ⟨names, -, others⟩
          rcases typeText_append_inj named.type named'.type
            (List.cons.inj (List.cons.inj others).2).2 with ⟨types, others⟩
          rw [names] at others
          have ends := List.cons.inj (List.cons.inj (List.append_cancel_left others)).2
          exact ⟨Prod.ext (String.toList_inj.1 names) types, ends⟩
      | false =>
          rw [toList_parameterText_plain reserved', List.append_assoc, List.append_assoc] at same
          exact absurd same.symm (typeText_ne named'.type (by simp))
  | false =>
      rw [toList_parameterText_plain reserved, List.append_assoc] at same
      cases reserved' : java.reserved.contains p'.name with
      | true =>
          rw [toList_parameterText_renamed reserved', List.append_assoc] at same
          exact absurd same (typeText_ne named.type (by simp))
      | false =>
          rw [toList_parameterText_plain reserved', List.append_assoc] at same
          rcases typeText_append_inj named.type named'.type same with ⟨types, others⟩
          rcases named.name.append_inj named'.name stop stop' others with ⟨names, ends⟩
          exact ⟨Prod.ext (String.toList_inj.1 names) types, ends⟩

/-- The parameters of a method in parentheses, after the opening one. -/
def closedParameters (d : Dialect) (ps : List Parameter) (rest : List Char) : List Char :=
  (", ".intercalate (ps.map d.parameterText)).toList ++ ')' :: rest

/-- After a parameter comes the end of the list or the next parameter. -/
theorem closedParameters_cons (d : Dialect) (p : Parameter) (ps : List Parameter)
    (rest : List Char) :
    ∃ c tail, closedParameters d (p :: ps) rest = (d.parameterText p).toList ++ c :: tail ∧
      isNameContinue c = false ∧
      (ps = [] ∧ c = ')' ∧ tail = rest ∨
        ps ≠ [] ∧ c = ',' ∧ tail = ' ' :: closedParameters d ps rest) := by
  cases ps with
  | nil =>
      exact ⟨')', rest, by simp [closedParameters], by decide, .inl ⟨rfl, rfl, rfl⟩⟩
  | cons q qs =>
      refine ⟨',', ' ' :: closedParameters d (q :: qs) rest, ?_, by decide,
        .inr ⟨by simp, rfl, rfl⟩⟩
      simp [closedParameters, String.toList_append]

/-- A list of parameters ends at its closing parenthesis. -/
theorem closedParameters_inj {ps ps' : List Parameter} (named : ∀ p ∈ ps, p.Named)
    (named' : ∀ p ∈ ps', p.Named)
    (same : closedParameters java ps rest = closedParameters java ps' rest') :
    ps.map java.parameterSignature = ps'.map java.parameterSignature ∧ rest = rest' := by
  -- parameter by parameter: the character after each one shows whether there is another
  induction ps generalizing ps' with
  | nil =>
      cases ps' with
      | nil =>
          exact ⟨rfl, by simpa [closedParameters] using same⟩
      | cons p' ps' =>
          rcases closedParameters_cons java p' ps' rest' with ⟨c, tail, begins, -⟩
          rw [begins] at same
          exact absurd same.symm (parameterText_ne_closed (named' p' (by simp)))
  | cons p ps ih =>
      rcases closedParameters_cons java p ps rest with ⟨c, tail, begins, stop, next⟩
      rw [begins] at same
      cases ps' with
      | nil =>
          exact absurd same (parameterText_ne_closed (named p (by simp)))
      | cons p' ps' =>
          rcases closedParameters_cons java p' ps' rest' with ⟨c', tail', begins', stop', next'⟩
          rw [begins'] at same
          rcases parameterText_append_inj (named p (by simp)) (named' p' (by simp)) stop stop' same
            with ⟨first, rfl, rfl⟩
          rcases next with ⟨rfl, rfl, rfl⟩ | ⟨-, rfl, rfl⟩
          · rcases next' with ⟨rfl, -, rfl⟩ | ⟨-, comma, -⟩
            · exact ⟨by simp [first], rfl⟩
            · cases comma
          · rcases next' with ⟨-, comma, -⟩ | ⟨-, -, others⟩
            · cases comma
            · rcases ih (fun q mem => named q (by simp [mem]))
                (fun q mem => named' q (by simp [mem])) (List.cons.inj others).2 with ⟨later, rests⟩
              exact ⟨by simp [first, later], rests⟩

/-! ### Members -/

variable {m m' : Member}

theorem toList_methodText (d : Dialect) (m : Member) :
    (d.methodText m).toList =
      '@' :: (m.container.toList ++ ' ' :: ((d.typeText m.type).toList ++ ' ' ::
        (m.name.toList ++ '(' :: closedParameters d m.parameters [';']))) := by
  simp [methodText, parametersText, closedParameters]

/-- A method says all that is in its signature. -/
theorem signature_eq_of_methodText (named : m.Named) (named' : m'.Named)
    (same : java.methodText m = java.methodText m') : java.signature m = java.signature m' := by
  rw [← String.toList_inj, toList_methodText, toList_methodText] at same
  rcases named.container.append_inj named'.container (by decide) (by decide)
    (List.cons.inj same).2 with ⟨containers, -, same⟩
  rcases typeText_append_inj named.type named'.type same with ⟨types, same⟩
  rcases named.name.append_inj named'.name (by decide) (by decide) same with ⟨names, -, same⟩
  rcases closedParameters_inj named.parameters named'.parameters same with ⟨parameters, -⟩
  rw [String.toList_inj] at containers names
  simp only [signature, containers, names, types, parameters]

theorem toList_fieldText (d : Dialect) (m : Member) :
    (d.fieldText m).toList = (d.typeText m.type).toList ++ ' ' :: (m.name.toList ++ [';']) := by
  simp [fieldText]

/-- A field says the name and the type. -/
theorem eq_of_fieldText (named : m.Named) (named' : m'.Named)
    (same : java.fieldText m = java.fieldText m') :
    m.name = m'.name ∧ java.typeSignature m.type = java.typeSignature m'.type := by
  rw [← String.toList_inj, toList_fieldText, toList_fieldText] at same
  rcases typeText_append_inj named.type named'.type same with ⟨types, same⟩
  rcases named.name.append_inj named'.name (by decide) (by decide) same with ⟨names, -⟩
  exact ⟨String.toList_inj.1 names, types⟩

/-- Two members with proper names, however deep their types and however many their parameters, are
the same method if their signatures are the same, and only then; and they are the same field if
their names and the signatures of their types are the same, and only then. -/
theorem declares_signature (named : m.Named) (named' : m'.Named) :
    (java.methodText m = java.methodText m' ↔ java.signature m = java.signature m') ∧
      (java.fieldText m = java.fieldText m' ↔
        m.name = m'.name ∧ java.typeSignature m.type = java.typeSignature m'.type) := by
  refine ⟨⟨signature_eq_of_methodText named named', java.methodText_eq_of_signature⟩,
    eq_of_fieldText named named', ?_⟩
  rintro ⟨names, types⟩
  simp only [fieldText, names, java.typeText_eq_of_typeSignature types]

/-- A parameter that is called like a reserved word is not taken for one that is called like its
replacement, and a type that is called like a list is not taken for one. -/
theorem declares_signature_renamed :
    let type : TypeExpr := .list (.nonNull (.name "ID"))
    let parameter (name : String) : Parameter := ⟨name, .nonNull (.name "List"), "", none⟩
    let m : Member := ⟨"Query", "of", type, "", .field [parameter "class"]⟩
    let m' : Member := ⟨"Query", "of", type, "", .field [parameter "class_"]⟩
    m.Named ∧ m'.Named ∧
      java.methodText m =
        "@Query @Id List<@NonNull String> of(@Name(\"class\") @NonNull List class_);" ∧
      java.methodText m ≠ java.methodText m' ∧ java.fieldText m = java.fieldText m' := by
  intro type parameter m m'
  have named : m.Named := by
    refine ⟨by decide, by decide, by decide, ?_⟩
    simpa [m, parameter, Member.parameters] using ⟨by decide, by decide⟩
  have named' : m'.Named := by
    refine ⟨by decide, by decide, by decide, ?_⟩
    simpa [m', parameter, Member.parameters] using ⟨by decide, by decide⟩
  rcases declares_signature named named' with ⟨methods, fields⟩
  refine ⟨named, named', by decide, ?_, fields.2 ⟨rfl, rfl⟩⟩
  rw [Ne, methods]
  decide

end Dialect

end SchemaCompletion
