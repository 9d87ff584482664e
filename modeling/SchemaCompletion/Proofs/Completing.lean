import Mathlib.Data.List.Basic
import Mathlib.Data.List.Forall2
import SchemaCompletion.Proofs.Cache.Resolution

/-!
# Completions and members

The completions are the members that a class lacks, each with its own declaration.

* `Suggestion.Shows` — a completion shows a member;
* `Offers` — completions for just the members whose names do not exist yet, in order;
* `offers_iff` — what is offered is that, and nothing else is;
* `LeavesOut`, `leavesOut_suggestionsFor` — how the completions depend on the existing names;
* `Session.completions_are_missing_members` — both questions for completions, about any schema.
-/

namespace SchemaCompletion

/-! ## Completions for members -/

/-- The completion inserts the declaration of the member, and shows the name, the description and
the container of that same member. -/
structure Suggestion.Shows (declaration : Member → String) (m : Member) (s : Suggestion) :
    Prop where
  lookup : s.lookup = declaration m
  presentable : s.presentable = m.name
  tail : s.tail = " " ++ m.description
  typeText : s.typeText = "GraphQL " ++ m.container

/-- The completions show, one by one, some of the members in their order: each member whose name
does not exist as often as it is there, and no other. -/
def Offers (declaration : Member → String) (existing : List String) (members : List Member)
    (list : List Suggestion) : Prop :=
  ∃ kept : List Member, kept.Sublist members ∧
    List.Forall₂ (Suggestion.Shows declaration) kept list ∧
    ∀ m, kept.count m = if m.name ∈ existing then 0 else members.count m

variable {declaration : Member → String} {existing : List String} {members : List Member}
  {list : List Suggestion}

theorem Suggestion.shows_iff {m : Member} {s : Suggestion} :
    s.Shows declaration m ↔ s = .ofMember (declaration m) m := by
  constructor
  · rintro ⟨lookup, presentable, tail, typeText⟩
    cases s
    simp only at lookup presentable tail typeText
    simp only [Suggestion.ofMember, lookup, presentable, tail, typeText]
  · rintro rfl
    exact ⟨rfl, rfl, rfl, rfl⟩

theorem forall₂_shows_iff {kept : List Member} :
    List.Forall₂ (Suggestion.Shows declaration) kept list ↔
      list = kept.map fun m => .ofMember (declaration m) m := by
  constructor
  · intro shows
    induction shows with
    | nil =>
        rfl
    | cons first _ ih =>
        rw [Suggestion.shows_iff.1 first, ih, List.map_cons]
  · rintro rfl
    rw [List.forall₂_map_right_iff, List.forall₂_same]
    exact fun m _ => Suggestion.shows_iff.2 rfl

/-- The names that do not exist settle which members are kept. -/
theorem kept_iff {kept : List Member} :
    (kept.Sublist members ∧ ∀ m, kept.count m = if m.name ∈ existing then 0 else members.count m) ↔
      kept = members.filter fun m => !existing.contains m.name := by
  have counts : ∀ m, (members.filter fun m => !existing.contains m.name).count m =
      if m.name ∈ existing then 0 else members.count m := by
    intro m
    by_cases exists? : m.name ∈ existing
    · rw [if_pos exists?, List.count_eq_zero]
      simp [exists?]
    · rw [if_neg exists?, List.count_filter (by simpa using exists?)]
  constructor
  · rintro ⟨sublist, count⟩
    -- a sublist of the members with only such names is one of those that are left
    have missing : ∀ m ∈ kept, (!existing.contains m.name) = true := by
      intro m mem
      have positive : 0 < kept.count m := List.count_pos_iff.2 mem
      rw [count m] at positive
      by_cases exists? : m.name ∈ existing
      · rw [if_pos exists?] at positive
        exact absurd positive (Nat.lt_irrefl 0)
      · simpa using exists?
    have among : kept.Sublist (members.filter fun m => !existing.contains m.name) := by
      rw [← List.filter_eq_self.2 missing]
      exact sublist.filter _
    have perm : kept.Perm (members.filter fun m => !existing.contains m.name) :=
      List.perm_iff_count.2 fun m => (count m).trans (counts m).symm
    exact among.eq_of_length perm.length_eq
  · rintro rfl
    exact ⟨List.filter_sublist, counts⟩

/-- Just the completions for the missing members are offered. -/
theorem offers_iff :
    Offers declaration existing members list ↔
      list = suggestionsFor declaration existing members := by
  constructor
  · rintro ⟨kept, sublist, shows, count⟩
    rw [forall₂_shows_iff.1 shows, kept_iff.1 ⟨sublist, count⟩]
    rfl
  · rintro rfl
    have kept := kept_iff.2 (rfl : (members.filter fun m => !existing.contains m.name) = _)
    exact ⟨_, kept.1, forall₂_shows_iff.2 rfl, kept.2⟩

/-! ## Existing names -/

/-- What is offered depends on the existing names as on a set. More names leave some of the
completions, in the same order, and leaving out names in two steps is leaving them out in one. -/
structure LeavesOut (offered : List String → List Suggestion) : Prop where
  ofSet : ∀ a b, (∀ name, name ∈ a ↔ name ∈ b) → offered a = offered b
  larger : ∀ a b, a ⊆ b → (offered b).Sublist (offered a)
  twice : ∀ a b, (offered a).filter (fun s => !b.contains s.presentable) = offered (a ++ b)

theorem leavesOut_suggestionsFor (declaration : Member → String) (members : List Member) :
    LeavesOut fun existing => suggestionsFor declaration existing members where
  ofSet a b same := by
    have contained : ∀ name, a.contains name = b.contains name := by
      intro name
      rw [Bool.eq_iff_iff, List.contains_iff_mem, List.contains_iff_mem, same name]
    simp only [suggestionsFor, contained]
  larger a b sub := by
    refine List.Sublist.map _ (List.monotone_filter_right members fun m missing => ?_)
    simp only [Bool.not_eq_true', List.contains_eq_mem, decide_eq_false_iff_not] at missing ⊢
    exact fun mem => missing (sub mem)
  twice a b := by
    -- a completion shows the name of its member, so it is the members that are filtered again
    simp only [suggestionsFor, List.filter_map, List.filter_filter, Function.comp_def,
      Suggestion.ofMember]
    congr 2
    funext m
    simp only [List.contains_eq_mem, List.mem_append, Bool.decide_or, Bool.not_or, Bool.and_comm]

/-! ## Questions for completions -/

namespace Session

variable {c : Configuration} {s : Session} {snapshot : Snapshot}

/-- A snapshot that is shown was loaded. -/
theorem loads_of_shown
    (shown : (s.perform c .snapshot).1 = .answered (.snapshot (some snapshot))) :
    ∃ m, Loads s.host c.schemaFile s.memory (.ok (.ok snapshot)) m := by
  rcases exists_loads s.host c.schemaFile s.memory with ⟨e | u | found, m, loads⟩
  · cases (congrArg Prod.fst (perform_of_failure loads .snapshot)).symm.trans shown
  · cases (congrArg Prod.fst (perform_of_found loads .snapshot)).symm.trans shown
  · cases (congrArg Prod.fst (perform_of_found loads .snapshot)).symm.trans shown
    exact ⟨m, loads⟩

/-- Where a schema is available, the completions for a client API are methods for the members of
`Query`, those of its definition and then those of the blocks that extend it, and then for the
members of `Mutation`. The completions for a class named after a declared type are fields for the
members of that type. Of these members all are offered whose names do not exist yet, in order and as
often as they are there. The existing names count as a set, more of them leave a part of the
completions in the same order, and those of two sets can be left out one after the other. -/
theorem completions_are_missing_members
    (available : (s.perform c .snapshot).1 = .answered (.snapshot (some snapshot))) :
    (∃ offered : List String → List Suggestion, LeavesOut offered ∧ ∀ existing,
      (s.perform c (.api existing)).1 = .answered (.suggestions (offered existing)) ∧
      Offers c.dialect.methodText existing
        (((snapshot.type? "Query").toList ++ snapshot.extensionsOf "Query").flatMap membersOf ++
          ((snapshot.type? "Mutation").toList ++
            snapshot.extensionsOf "Mutation").flatMap membersOf)
        (offered existing)) ∧
    ∀ type ∈ snapshot.typeNames, ∃ offered : List String → List Suggestion,
      LeavesOut offered ∧ ∀ existing,
        (s.perform c (.suggest type existing)).1 = .answered (.suggestions (offered existing)) ∧
        Offers c.dialect.fieldText existing
          (((snapshot.type? type).toList ++ snapshot.extensionsOf type).flatMap membersOf)
          (offered existing) := by
  rcases loads_of_shown available with ⟨m, loads⟩
  constructor
  · have operations : snapshot.operations =
        snapshot.members "Query" ++ snapshot.members "Mutation" := by
      simp [Catalog.operations, operationTypes]
    refine ⟨_, leavesOut_suggestionsFor c.dialect.methodText snapshot.operations,
      fun existing => ?_⟩
    refine ⟨congrArg Prod.fst (perform_of_found loads (.api existing)), offers_iff.2 ?_⟩
    rw [operations]
    rfl
  · intro type declared
    refine ⟨_, leavesOut_suggestionsFor c.dialect.fieldText (snapshot.members type),
      fun existing => ?_⟩
    refine ⟨?_, offers_iff.2 rfl⟩
    rw [perform_suggest loads, if_pos (List.contains_iff_mem.2 declared)]

/-- The queries are declared and extended with a name that is there already, and the mutations are
only extended. The names that exist are given twice and in another order. -/
theorem completions_of_repeated_names :
    let c : Configuration := { schemaFile := "schema.graphql", dialect := .java }
    let h := Host.withSchema
      ("extend type Query \x7b a: ID class: Int \x7d type Query \x7b a: Int b: Int \x7d " ++
        "extend type Mutation \x7b a(class: Int): Int \x7d").toUTF8.toList 1
    ∃ methods fields : List String → List Suggestion, LeavesOut methods ∧ LeavesOut fields ∧
      (∀ existing,
        ((start h).perform c (.api existing)).1 = .answered (.suggestions (methods existing)) ∧
        ((start h).perform c (.suggest "Query" existing)).1 =
          .answered (.suggestions (fields existing))) ∧
      (methods []).map (·.lookup) = ["@Query Integer a();", "@Query Integer b();",
        "@Query @Id String a();", "@Query Integer class();",
        "@Mutation Integer a(@Name(\"class\") Integer class_);"] ∧
      (fields ["b", "class", "b"]).map (·.lookup) = ["Integer a;", "@Id String a;"] ∧
      fields ["b", "class", "b"] = fields ["class", "b"] := by
  intro c h
  let membersIn (snapshot : Snapshot) (name : String) :=
    ((snapshot.type? name).toList ++ snapshot.extensionsOf name).flatMap membersOf
  have facts : ((h.readAfresh c.schemaFile).toOption.bind Except.toOption).map (fun snapshot =>
      (snapshot.typeNames,
        (suggestionsFor c.dialect.methodText []
          (membersIn snapshot "Query" ++ membersIn snapshot "Mutation")).map (·.lookup),
        (suggestionsFor c.dialect.fieldText ["b", "class", "b"] (membersIn snapshot "Query")).map
          (·.lookup))) =
      some (["Query"],
        ["@Query Integer a();", "@Query Integer b();", "@Query @Id String a();",
          "@Query Integer class();", "@Mutation Integer a(@Name(\"class\") Integer class_);"],
        ["Integer a;", "@Id String a;"]) := by
    decide +kernel
  rcases Option.map_eq_some_iff.1 facts with ⟨snapshot, found, shown⟩
  rw [Prod.mk.injEq, Prod.mk.injEq] at shown
  have read : h.readAfresh c.schemaFile = .ok (.ok snapshot) := by
    generalize h.readAfresh c.schemaFile = result at found ⊢
    rcases result with e | u | s
    · cases found
    · cases found
    · cases found
      rfl
  have nothing : (start h).memory.cached = none := rfl
  rcases loads_readAfresh nothing with ⟨m, loads⟩
  rw [show (start h).host.readAfresh c.schemaFile = _ from read] at loads
  have available := congrArg Prod.fst (perform_of_found loads .snapshot)
  rcases completions_are_missing_members available with ⟨⟨methods, leaves, offered⟩, each⟩
  rcases each "Query" (by simp [shown.1]) with ⟨fields, leaves', offered'⟩
  refine ⟨methods, fields, leaves, leaves',
    fun existing => ⟨(offered existing).1, (offered' existing).1⟩, ?_, ?_, ?_⟩
  · rw [offers_iff.1 (offered []).2]
    exact shown.2.1
  · rw [offers_iff.1 (offered' ["b", "class", "b"]).2]
    exact shown.2.2
  · exact leaves'.ofSet _ _ (by simp)

end Session

end SchemaCompletion
