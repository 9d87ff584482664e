import SchemaCompletion.Proofs.Declaring.OneLine
import SchemaCompletion.Proofs.LastValue

/-!
# Registered mappings

What names stand for after a history of registrations, and which declarations another registration
reaches.

* `MappingTable.registerAll` — a table after a history of registrations;
* `MappingTable.Stands` — what a name stands for: what was last registered for it, else what every
  table has for it, else the name itself;
* `MappingTable.resolve_registerAll_iff` — this is the mapping that is found;
* `MappingTable.Agree` — tables that no question tells apart;
* `Dialect.typeText_congr`, `Dialect.methodText_congr` — declarations ask a table only for the names
  under the wrappers of their types;
* `Dialect.registrations_reach_mentions` — so a registration reaches the types with its name, and no
  others.
-/

namespace SchemaCompletion

open SchemaCompletion.Sdl

/-! ## Histories of registrations -/

namespace MappingTable

/-- The table after some registrations, in order. -/
def registerAll (t : MappingTable) (registrations : List (String × TypeMapping)) : MappingTable :=
  registrations.foldl (fun t r => t.register r.1 r.2) t

/-- The mappings that every table begins with. -/
def standard : List (String × TypeMapping) :=
  [("Int", { target := "Integer", marker := "" }), ("ID", { target := "String", marker := "@Id" })]

/-- What a name stands for after some registrations. -/
inductive Stands (registrations : List (String × TypeMapping)) (name : String) :
    TypeMapping → Prop where
  | registered {m : TypeMapping} (last : LastValue registrations name m) :
      Stands registrations name m
  | builtIn {m : TypeMapping} (unregistered : name ∉ registrations.map (·.1))
      (mem : (name, m) ∈ standard) : Stands registrations name m
  | itself (unregistered : name ∉ registrations.map (·.1)) (other : name ∉ standard.map (·.1)) :
      Stands registrations name { target := name, marker := "" }

variable {t t' : MappingTable} {registrations : List (String × TypeMapping)} {name : String}
  {m : TypeMapping}

theorem builtIn_eq : builtIn = ({ entries := [] } : MappingTable).registerAll standard := rfl

theorem entries_registerAll (t : MappingTable) (registrations : List (String × TypeMapping)) :
    (t.registerAll registrations).entries = registrations.reverse ++ t.entries := by
  induction registrations generalizing t with
  | nil =>
      rfl
  | cons r registrations ih =>
      calc
        (t.registerAll (r :: registrations)).entries
            = ((t.register r.1 r.2).registerAll registrations).entries := rfl
        _ = registrations.reverse ++ (t.register r.1 r.2).entries := ih _
        _ = (r :: registrations).reverse ++ t.entries := by simp [register]

/-- What was last registered for a name is found, and else what was there before. -/
theorem get?_registerAll (t : MappingTable) (registrations : List (String × TypeMapping))
    (name : String) :
    (t.registerAll registrations).get? name =
      (registrations.reverse.lookup name).or (t.get? name) := by
  rw [get?, entries_registerAll, List.lookup_append, get?]

/-- A new table begins with the standard mappings, so what is found was registered last, or is one
of them. -/
theorem get?_builtIn_registerAll (registrations : List (String × TypeMapping)) (name : String) :
    (builtIn.registerAll registrations).get? name =
      (standard ++ registrations).reverse.lookup name := by
  have whole : builtIn.registerAll registrations =
      ({ entries := [] } : MappingTable).registerAll (standard ++ registrations) := by
    rw [builtIn_eq, registerAll, registerAll, registerAll, List.foldl_append]
  have none : ({ entries := [] } : MappingTable).get? name = none := rfl
  rw [whole, get?_registerAll, none, Option.or_none]

/-- No name has two standard mappings. -/
theorem lastValue_standard_iff : LastValue standard name m ↔ (name, m) ∈ standard := by
  have distinct : (standard.map (·.1)).Nodup := by decide
  constructor
  · rintro ⟨before, after, split, -⟩
    rw [split]
    exact List.mem_append_right _ List.mem_cons_self
  · intro mem
    rcases List.append_of_mem mem with ⟨before, after, split⟩
    refine ⟨before, after, split, fun v later same => ?_⟩
    rw [split, List.map_append, List.map_cons, List.nodup_append] at distinct
    exact (List.nodup_cons.1 distinct.2.1).1 (List.mem_map.2 ⟨v, later, same⟩)

/-- The registrations are made after the standard ones, so a name stands for what comes last of all,
and for itself if it was never registered. -/
theorem stands_iff : Stands registrations name m ↔
    LastValue (standard ++ registrations) name m ∨
      name ∉ (standard ++ registrations).map (·.1) ∧ m = .same name := by
  rw [lastValue_append_iff, lastValue_standard_iff, List.map_append, List.mem_append, not_or]
  constructor
  · intro stands
    cases stands with
    | registered last =>
        exact .inl (.inl last)
    | builtIn unregistered mem =>
        exact .inl (.inr ⟨unregistered, mem⟩)
    | itself unregistered other =>
        exact .inr ⟨⟨other, unregistered⟩, rfl⟩
  · rintro ((last | ⟨unregistered, mem⟩) | ⟨⟨other, unregistered⟩, rfl⟩)
    · exact .registered last
    · exact .builtIn unregistered mem
    · exact .itself unregistered other

theorem resolve_eq_iff :
    t.resolve name = m ↔ t.get? name = some m ∨ t.get? name = none ∧ m = .same name := by
  rw [resolve]
  cases t.get? name with
  | none =>
      simp [eq_comm]
  | some found =>
      simp

/-- What a name stands for is the mapping that is found for it. -/
theorem resolve_registerAll_iff : (builtIn.registerAll registrations).resolve name = m ↔
    Stands registrations name m := by
  rw [resolve_eq_iff, stands_iff, get?_builtIn_registerAll, lastValue_iff_lookup, not_mem_names_iff]

/-! ## Tables that agree -/

/-- No question tells the tables apart. -/
structure Agree (t t' : MappingTable) : Prop where
  get? : ∀ name, t.get? name = t'.get? name
  has : ∀ name, t.has name = t'.has name
  resolve : ∀ name, t.resolve name = t'.resolve name

theorem has_eq (t : MappingTable) (name : String) : t.has name = (t.get? name).isSome := by
  rw [has, MappingTable.get?]
  induction t.entries with
  | nil =>
      rfl
  | cons entry entries ih =>
      rcases entry with ⟨key, value⟩
      rw [List.any_cons, ih, List.lookup_cons, Bool.beq_comm]
      cases name == key with
      | true =>
          rfl
      | false =>
          rfl

/-- All that is asked of a table is what it has for a name. -/
theorem agree_of_get? (same : ∀ name, t.get? name = t'.get? name) : t.Agree t' := by
  refine ⟨same, fun name => ?_, fun name => ?_⟩
  · rw [has_eq, has_eq, same]
  · rw [MappingTable.resolve, MappingTable.resolve, same]

/-- Registrations of different names may be made in either order, whatever was registered before and
afterwards. -/
theorem agree_registerAll_swap {r r' : String × TypeMapping} (differ : r.1 ≠ r'.1)
    (t : MappingTable) (before after : List (String × TypeMapping)) :
    (t.registerAll (before ++ r :: r' :: after)).Agree
      (t.registerAll (before ++ r' :: r :: after)) := by
  have two (name : String) : [r', r].lookup name = [r, r'].lookup name := by
    rcases r with ⟨first, m⟩
    rcases r' with ⟨second, m'⟩
    by_cases same : name = first
    · have other : (first == second) = false := beq_false_of_ne differ
      simp [List.lookup_cons, same, other]
    · have other : (name == first) = false := beq_false_of_ne same
      simp [List.lookup_cons, other]
  refine agree_of_get? fun name => ?_
  rw [get?_registerAll, get?_registerAll]
  have split (r r' : String × TypeMapping) :
      (before ++ r :: r' :: after).reverse = after.reverse ++ ([r', r] ++ before.reverse) := by
    simp
  simp only [split, List.lookup_append, two]

end MappingTable

/-! ## What declarations ask for -/

namespace Dialect

variable {d d' : Dialect}

/-- A type asks only for the name under its wrappers. -/
theorem typeText_congr {e : TypeExpr}
    (same : d'.mappings.resolve e.named = d.mappings.resolve e.named) :
    d'.typeText e = d.typeText e := by
  have signatures : d'.typeSignature e = d.typeSignature e := by
    rw [typeSignature, typeSignature, same]
  rw [← String.toList_inj, toList_typeText, toList_typeText, signatures]

variable (reserved : d'.reserved = d.reserved)

include reserved in
/-- A parameter asks only for the name in its type. Its own name is only looked for among the
reserved words. -/
theorem parameterText_congr {p : Parameter}
    (same : d'.mappings.resolve p.type.named = d.mappings.resolve p.type.named) :
    d'.parameterText p = d.parameterText p := by
  simp only [parameterText, reserved, typeText_congr same]

theorem fieldText_congr {m : Member}
    (same : d'.mappings.resolve m.type.named = d.mappings.resolve m.type.named) :
    d'.fieldText m = d.fieldText m := by
  rw [fieldText, fieldText, typeText_congr same]

include reserved in
/-- A method asks only for the names in its types, not for those of its container, of itself or of
its parameters. -/
theorem methodText_congr {m : Member}
    (same : ∀ e ∈ m.types, d'.mappings.resolve e.named = d.mappings.resolve e.named) :
    d'.methodText m = d.methodText m := by
  rw [Member.types, List.forall_mem_cons, List.forall_mem_map] at same
  have parameters : m.parameters.map d'.parameterText = m.parameters.map d.parameterText :=
    List.map_congr_left fun p mem => parameterText_congr reserved (same.2 p mem)
  rw [methodText, methodText, parametersText, parametersText, parameters, typeText_congr same.1]

/-- The dialect with one more registration. -/
def register (d : Dialect) (name : String) (m : TypeMapping) : Dialect :=
  { d with mappings := d.mappings.register name m }

theorem resolve_register_of_ne (d : Dialect) {name other : String} (m : TypeMapping)
    (h : other ≠ name) :
    (d.register name m).mappings.resolve other = d.mappings.resolve other := by
  rw [MappingTable.resolve, register, MappingTable.get?_register_of_ne _ m h, MappingTable.resolve]

/-- After any history of registrations, a name stands for what was last registered for it, else for
what every table begins with, else for itself, and the table has a name exactly if something is
found for it. A type shows the target of the name under its wrappers as it was registered, whatever
is registered for that target. Registrations of different names may change places in the history.
And one more registration changes the types with its name, to what it says, and no others: not the
parameters, fields and methods in whose types the name does not stand, wherever else it stands. -/
theorem registrations_reach_mentions (registrations : List (String × TypeMapping))
    (reserved : List String) :
    let d : Dialect := { mappings := MappingTable.builtIn.registerAll registrations, reserved }
    (∀ name,
      (∀ m, d.mappings.resolve name = m ↔ MappingTable.Stands registrations name m) ∧
      (∀ m, d.mappings.get? name = some m ↔
        LastValue (MappingTable.standard ++ registrations) name m) ∧
      (d.mappings.has name = true ↔ d.mappings.get? name ≠ none)) ∧
    (∀ e m, MappingTable.Stands registrations e.named m →
      (d.typeText e).toList = TypeSignature.text { wrappers := e.wrappers, mapping := m }) ∧
    (∀ before r r' after, registrations = before ++ r :: r' :: after → r.1 ≠ r'.1 →
      d.mappings.Agree (MappingTable.builtIn.registerAll (before ++ r' :: r :: after))) ∧
    ∀ name m,
      (∀ e, e.named = name → ((d.register name m).typeText e).toList =
        TypeSignature.text { wrappers := e.wrappers, mapping := m }) ∧
      (∀ e, e.named ≠ name → (d.register name m).typeText e = d.typeText e) ∧
      (∀ p, p.type.named ≠ name → (d.register name m).parameterText p = d.parameterText p) ∧
      ∀ member,
        (member.type.named ≠ name → (d.register name m).fieldText member = d.fieldText member) ∧
        ((∀ e ∈ member.types, e.named ≠ name) →
          (d.register name m).methodText member = d.methodText member) := by
  intro d
  refine ⟨fun name => ⟨fun m => ?_, fun m => ?_, ?_⟩, fun e m stands => ?_, ?_, fun name m => ?_⟩
  · exact MappingTable.resolve_registerAll_iff
  · rw [MappingTable.get?_builtIn_registerAll, lastValue_iff_lookup]
  · rw [MappingTable.has_eq, Option.isSome_iff_ne_none]
  · rw [toList_typeText, typeSignature, MappingTable.resolve_registerAll_iff.2 stands]
  · rintro before r r' after rfl differ
    exact MappingTable.agree_registerAll_swap differ _ before after
  · have reserved : (d.register name m).reserved = d.reserved := rfl
    refine ⟨fun e same => ?_, fun e other => ?_, fun p other => ?_,
      fun member => ⟨fun other => ?_, ?_⟩⟩
    · have found : (d.register name m).mappings.resolve e.named = m := by
        rw [same, MappingTable.resolve, register, MappingTable.get?_register_self, Option.getD_some]
      rw [toList_typeText, typeSignature, found]
    · exact typeText_congr (d.resolve_register_of_ne m other)
    · exact parameterText_congr reserved (d.resolve_register_of_ne m other)
    · exact fieldText_congr (d.resolve_register_of_ne m other)
    · intro others
      exact methodText_congr reserved fun e mem => d.resolve_register_of_ne m (others e mem)

/-- A name that was registered twice, and one with a target that is registered after it. The target
is also the name of a container, of its method and of a parameter. -/
theorem registrations_reach_mentions_twice_registered :
    let person : TypeMapping := { target := "Query", marker := "@Ref" }
    let long : TypeMapping := { target := "Long", marker := "" }
    let big : TypeMapping := { target := "BigInteger", marker := "" }
    let d : Dialect :=
      { mappings := MappingTable.builtIn.registerAll
          [("Int", long), ("Person", person), ("Int", big)],
        reserved := javaReserved }
    let m : Member := ⟨"Query", "Query", .list (.nonNull (.name "Person")), "",
      .field [⟨"Query", .nonNull (.name "Int"), "", none⟩]⟩
    let other : TypeMapping := { target := "Root", marker := "@Api" }
    d.mappings.resolve "Int" = big ∧
      d.mappings.resolve "ID" = { target := "String", marker := "@Id" } ∧
      d.mappings.Agree (.registerAll .builtIn [("Int", long), ("Int", big), ("Person", person)]) ∧
      d.methodText m = "@Query @Ref List<@NonNull Query> Query(@NonNull BigInteger Query);" ∧
      (d.register "Query" other).methodText m = d.methodText m ∧
      (d.register "Query" other).fieldText m = d.fieldText m ∧
      (d.register "Query" other).typeText (.list (.name "Query")) = "@Api List<Root>" := by
  intro person long big d m other
  rcases registrations_reach_mentions [("Int", long), ("Person", person), ("Int", big)]
      javaReserved with
    ⟨found, shown, swapped, reached⟩
  have last : MappingTable.Stands [("Int", long), ("Person", person), ("Int", big)] "Int" big :=
    .registered ⟨[("Int", long), ("Person", person)], [], rfl, List.forall_mem_nil _⟩
  have builtIn : MappingTable.Stands [("Int", long), ("Person", person), ("Int", big)] "ID"
      { target := "String", marker := "@Id" } :=
    .builtIn (by decide) (by decide)
  have unmentioned : ∀ e ∈ m.types, e.named ≠ "Query" := by decide
  have declared := (reached "Query" other).2.2.2 m
  refine ⟨((found "Int").1 big).2 last, ((found "ID").1 _).2 builtIn, ?_, by decide,
    declared.2 unmentioned, declared.1 (by decide), ?_⟩
  · exact swapped [("Int", long)] ("Person", person) ("Int", big) [] rfl (by decide)
  · rw [← String.toList_inj]
    exact ((reached "Query" other).1 (.list (.name "Query")) rfl).trans (by decide)

end Dialect

end SchemaCompletion
