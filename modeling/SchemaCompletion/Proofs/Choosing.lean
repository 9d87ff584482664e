import Mathlib.Data.List.Basic
import SchemaCompletion.Proofs.Confinement
import SchemaCompletion.Proofs.LastValue

/-!
# Settings from the environment

Where the value of each setting is taken from, and what becomes of it.

* `Setting.InEffect` — the value in effect: an override, else a variable, else the default;
* `Setting.inEffect_iff` — the value that is chosen is the one in effect;
* `Setting.Valid`, `Setting.keep`, `Setting.complaint` — the values that a setting can have, what it
  makes of them, and what is wrong with any other;
* `Setting.checkGiven_eq_ok_iff`, `Setting.checkGiven_of_not_valid` — a check passes just the valid
  values;
* `Settings.build_eq_ok_iff_forall`, `Settings.problems_of_build` — all settings are checked alike;
* `Settings.build_given` — settings that were built can be built again from their own values;
* `Settings.environment_resolves` — what settings are built from an environment and overrides.
-/

namespace SchemaCompletion

open SchemaCompletion.Text

/-- The value of a setting. -/
def Settings.value (settings : Settings) : Setting → String
  | .schemaFile => settings.schemaFile
  | .target => settings.target
  | .logLevel => settings.logLevel

namespace Setting

open Settings

/-- All settings, in the order in which they are checked. -/
def all : List Setting := [.schemaFile, .target, .logLevel]

/-! ## Values in effect -/

/-- The value in effect for a setting. An override that is missing altogether overrides nothing; a
variable counts as soon as it is there. -/
inductive InEffect (environment overrides : List (String × Option Given)) (s : Setting) :
    Given → Prop where
  | override {g : Given} (given : LastValue overrides s.name (some g)) :
      InEffect environment overrides s g
  | fromEnvironment {v : Option Given} (free : ∀ g, ¬ LastValue overrides s.name (some g))
      (set : LastValue environment s.variableName v) :
      InEffect environment overrides s (v.getD .notText)
  | default (free : ∀ g, ¬ LastValue overrides s.name (some g))
      (unset : s.variableName ∉ environment.map (·.1)) :
      InEffect environment overrides s (.text (standard.value s))

/-- The variables of the three settings. -/
example : all.map variableName =
    ["GQL_ASSIST_SCHEMA_FILE", "GQL_ASSIST_TARGET", "GQL_ASSIST_LOG_LEVEL"] := by
  decide +kernel

variable {values environment overrides : List (String × Option Given)} {name : String} {s : Setting}

theorem lastGiven_eq (values : List (String × Option Given)) (name : String) :
    lastGiven values name = values.reverse.lookup name := by
  -- from the end, because each value takes the place of those before it
  induction values using List.reverseRecOn with
  | nil =>
      rfl
  | append_singleton values v ih =>
      rcases v with ⟨key, value⟩
      have last : lastGiven (values ++ [(key, value)]) name =
          if key = name then some value else lastGiven values name := by
        simp [lastGiven]
      rw [last, ih, List.reverse_append, List.reverse_singleton, List.singleton_append,
        List.lookup_cons]
      by_cases same : name = key
      · simp [same]
      · simp [Ne.symm same, beq_false_of_ne same]

theorem lastGiven_eq_some_iff {v : Option Given} :
    lastGiven values name = some v ↔ LastValue values name v := by
  rw [lastGiven_eq, lastValue_iff_lookup]

theorem lastGiven_eq_none_iff : lastGiven values name = none ↔ name ∉ values.map (·.1) := by
  rw [lastGiven_eq, not_mem_names_iff]

/-- What was chosen for a setting, or else its default. -/
def chosen (s : Setting) (choice : Option Given) : Given := choice.getD (.text (standard.value s))

/-- One value is in effect. -/
theorem InEffect.unique {g g' : Given} (inEffect : InEffect environment overrides s g)
    (inEffect' : InEffect environment overrides s g') : g' = g := by
  cases inEffect with
  | override given =>
      cases inEffect' with
      | override given' =>
          exact Option.some.inj (given.unique given')
      | fromEnvironment free | default free =>
          exact absurd given (free g)
  | fromEnvironment free set =>
      cases inEffect' with
      | override given' =>
          exact absurd given' (free g')
      | fromEnvironment _ set' =>
          rw [set.unique set']
      | default _ unset =>
          exact absurd set (not_mem_names_iff_forall_not.1 unset _)
  | default free unset =>
      cases inEffect' with
      | override given' =>
          exact absurd given' (free g')
      | fromEnvironment _ set' =>
          exact absurd set' (not_mem_names_iff_forall_not.1 unset _)
      | default =>
          rfl

/-- The value that is chosen is in effect. -/
theorem inEffect_chosen (environment overrides : List (String × Option Given)) (s : Setting) :
    InEffect environment overrides s (s.chosen (Choice.ofEnvironment environment overrides s)) := by
  rw [Choice.ofEnvironment]
  have override {g : Given} : LastValue overrides s.name (some g) ↔
      (lastGiven overrides s.name).join = some g := by
    rw [Option.join_eq_some_iff, lastGiven_eq_some_iff]
  cases overridden : (lastGiven overrides s.name).join with
  | some g =>
      exact .override (override.2 overridden)
  | none =>
      have free (g : Given) : ¬ LastValue overrides s.name (some g) := by
        rw [override, overridden]
        exact Option.some_ne_none g ∘ Eq.symm
      cases found : lastGiven environment s.variableName with
      | some v =>
          exact .fromEnvironment free (lastGiven_eq_some_iff.1 found)
      | none =>
          exact .default free (lastGiven_eq_none_iff.1 found)

theorem inEffect_iff {g : Given} : InEffect environment overrides s g ↔
    g = s.chosen (Choice.ofEnvironment environment overrides s) := by
  constructor
  · intro inEffect
    exact (inEffect_chosen environment overrides s).unique inEffect
  · rintro rfl
    exact inEffect_chosen environment overrides s

/-- Only the overrides of a setting and its variable, unless it is overridden, decide which value is
in effect. -/
theorem InEffect.congr {environment' : List (String × Option Given)} {g : Given}
    (same : (∃ g, LastValue overrides s.name (some g)) ∨
      ∀ v, LastValue environment' s.variableName v ↔ LastValue environment s.variableName v)
    (inEffect : InEffect environment overrides s g) : InEffect environment' overrides s g := by
  have open' (free : ∀ g, ¬ LastValue overrides s.name (some g)) (v : Option Given) :
      LastValue environment' s.variableName v ↔ LastValue environment s.variableName v := by
    rcases same with ⟨g, given⟩ | same
    · exact absurd given (free g)
    · exact same v
  cases inEffect with
  | override given =>
      exact .override given
  | fromEnvironment free set =>
      exact .fromEnvironment free ((open' free _).2 set)
  | default free unset =>
      refine .default free (not_mem_names_iff_forall_not.2 fun v set => ?_)
      exact not_mem_names_iff_forall_not.1 unset v ((open' free v).1 set)

/-! ## Checks -/

/-- The text is one that the setting can have. -/
def Admits : Setting → String → Prop
  | .schemaFile, t => StaysBelow t
  | .target, t => t ∈ targets
  | .logLevel, t => upper t ∈ levelNames

instance : (s : Setting) → (t : String) → Decidable (s.Admits t)
  | .schemaFile, t => decidable_of_iff _ (isInsideRoot_iff t)
  | .target, t => inferInstanceAs (Decidable (t ∈ targets))
  | .logLevel, t => inferInstanceAs (Decidable (upper t ∈ levelNames))

/-- The value is one that the setting can have. -/
def Valid (s : Setting) : Given → Prop
  | .notText => False
  | .text t => s.Admits t

instance (s : Setting) : (g : Given) → Decidable (s.Valid g)
  | .notText => inferInstanceAs (Decidable False)
  | .text t => inferInstanceAs (Decidable (s.Admits t))

/-- What a setting makes of a text: only the level is not kept as it is given. -/
def keep : Setting → String → String
  | .logLevel, t => upper t
  | _, t => t

/-- What is wrong with a value that is not valid. -/
def complaint : Setting → Given → Cause
  | _, .notText => .notText
  | .schemaFile, .text _ => .outsideRoot
  | .target, .text t => .unknownTarget t
  | .logLevel, .text t => .unknownLevel (upper t)

/-- The check of a setting. -/
def check : Setting → String → Except Cause String
  | .schemaFile => checkSchemaFile
  | .target => checkTarget
  | .logLevel => checkLogLevel

theorem check_of_admits {t : String} (admits : s.Admits t) : s.check t = .ok (s.keep t) := by
  cases s with
  | schemaFile =>
      exact checkSchemaFile_eq_ok_iff.2 ⟨admits, rfl⟩
  | target | logLevel =>
      exact if_pos (List.contains_iff_mem.2 admits)

theorem check_of_not_admits {t : String} (bad : ¬ s.Admits t) :
    s.check t = .error (s.complaint (.text t)) := by
  cases s with
  | schemaFile =>
      exact if_neg (mt (isInsideRoot_iff t).1 bad)
  | target | logLevel =>
      exact if_neg (mt List.contains_iff_mem.1 bad)

/-- The name of a level is the same in upper case. -/
theorem upper_of_mem_levelNames : ∀ name ∈ levelNames, upper name = name := by
  decide +kernel

/-- What a setting makes of a text that it can have is one that it can have, and is kept as it
is. -/
theorem admits_keep {t : String} (admits : s.Admits t) :
    s.Admits (s.keep t) ∧ s.keep (s.keep t) = s.keep t := by
  cases s with
  | schemaFile | target =>
      exact ⟨admits, rfl⟩
  | logLevel =>
      have again : upper (upper t) = upper t := upper_of_mem_levelNames _ admits
      refine ⟨?_, again⟩
      change upper (upper t) ∈ levelNames
      rw [again]
      exact admits

/-- The defaults are not checked, but each would pass its check unchanged. -/
theorem admits_standard (s : Setting) :
    s.Admits (standard.value s) ∧ s.keep (standard.value s) = standard.value s := by
  cases s with
  | schemaFile | target | logLevel =>
      decide +kernel

variable {choice : Option Given}

/-- A valid value passes its check. -/
theorem checkGiven_of_admits {t : String} (given : s.chosen choice = .text t)
    (admits : s.Admits t) :
    checkGiven s.check (standard.value s) choice = .ok (s.keep t) := by
  cases choice with
  | none =>
      cases given
      rw [s.admits_standard.2]
      rfl
  | some g =>
      obtain rfl : g = .text t := given
      exact check_of_admits admits

/-- Any other value does not, and what is wrong with it is told. -/
theorem checkGiven_of_not_valid (bad : ¬ s.Valid (s.chosen choice)) :
    checkGiven s.check (standard.value s) choice = .error (s.complaint (s.chosen choice)) := by
  cases choice with
  | none =>
      exact absurd s.admits_standard.1 bad
  | some g =>
      cases g with
      | notText =>
          cases s <;> rfl
      | text t =>
          exact check_of_not_admits bad

/-- A check passes just the valid values, with what the setting makes of them. -/
theorem checkGiven_eq_ok_iff {value : String} :
    checkGiven s.check (standard.value s) choice = .ok value ↔
      ∃ t, s.chosen choice = .text t ∧ s.Admits t ∧ value = s.keep t := by
  constructor
  · intro passed
    cases given : s.chosen choice with
    | notText =>
        rw [checkGiven_of_not_valid (given ▸ id)] at passed
        cases passed
    | text t =>
        by_cases admits : s.Admits t
        · rw [checkGiven_of_admits given admits] at passed
          exact ⟨t, rfl, admits, (Except.ok.inj passed).symm⟩
        · rw [checkGiven_of_not_valid (given ▸ admits)] at passed
          cases passed
  · rintro ⟨t, given, admits, rfl⟩
    exact checkGiven_of_admits given admits

/-- A problem is told of a value that is not valid, and of no other. -/
theorem problemOf_checkGiven (s : Setting) (choice : Option Given) :
    problemOf s (checkGiven s.check (standard.value s) choice) =
      if s.Valid (s.chosen choice) then [] else [⟨s.name, s.complaint (s.chosen choice)⟩] := by
  by_cases valid : s.Valid (s.chosen choice)
  · rw [if_pos valid]
    cases given : s.chosen choice with
    | notText =>
        rw [given] at valid
        exact valid.elim
    | text t =>
        rw [given] at valid
        rw [checkGiven_of_admits given valid]
        rfl
  · rw [if_neg valid, checkGiven_of_not_valid valid]
    rfl

end Setting

/-! ## Building -/

namespace Settings

variable {choice : Choice} {settings : Settings}

/-- Every setting has what it makes of the value that was chosen for it, or of its default. -/
theorem build_eq_ok_iff_forall : build choice = .ok settings ↔
    ∀ s : Setting, ∃ t, s.chosen (choice s) = .text t ∧ s.Admits t ∧
      settings.value s = s.keep t := by
  have checked : build choice = .ok settings ↔
      ∀ s : Setting, checkGiven s.check (standard.value s) (choice s) = .ok (settings.value s) := by
    rw [build_eq_ok_iff]
    constructor
    · rintro ⟨schemaFile, target, logLevel⟩ s
      cases s with
      | schemaFile =>
          exact schemaFile
      | target =>
          exact target
      | logLevel =>
          exact logLevel
    · intro each
      exact ⟨each .schemaFile, each .target, each .logLevel⟩
  rw [checked]
  exact forall_congr' fun s => Setting.checkGiven_eq_ok_iff

/-- Settings are built exactly if all values are valid. -/
theorem exists_build_eq_ok_iff :
    (∃ settings, build choice = .ok settings) ↔ ∀ s : Setting, s.Valid (s.chosen (choice s)) := by
  constructor
  · rintro ⟨settings, built⟩ s
    rcases build_eq_ok_iff_forall.1 built s with ⟨t, given, admits, -⟩
    rw [given]
    exact admits
  · intro valid
    have text (s : Setting) : ∃ t, s.chosen (choice s) = .text t ∧ s.Admits t := by
      have here := valid s
      cases given : s.chosen (choice s) with
      | notText =>
          rw [given] at here
          exact here.elim
      | text t =>
          rw [given] at here
          exact ⟨t, rfl, here⟩
    rcases text .schemaFile with ⟨file, givenFile, admitsFile⟩
    rcases text .target with ⟨target, givenTarget, admitsTarget⟩
    rcases text .logLevel with ⟨level, givenLevel, admitsLevel⟩
    refine ⟨{ schemaFile := file, target, logLevel := upper level },
      build_eq_ok_iff_forall.2 fun s => ?_⟩
    cases s with
    | schemaFile =>
        exact ⟨file, givenFile, admitsFile, rfl⟩
    | target =>
        exact ⟨target, givenTarget, admitsTarget, rfl⟩
    | logLevel =>
        exact ⟨level, givenLevel, admitsLevel, rfl⟩

/-- Else one problem is told for each value that is not valid, in the order of the checks. -/
theorem problems_of_build {problems : List Problem} (failed : build choice = .error problems) :
    problems = (Setting.all.filter fun s => ¬ s.Valid (s.chosen (choice s))).map fun s =>
      { place := s.name, cause := s.complaint (s.chosen (choice s)) } := by
  have each (s : Setting) := s.problemOf_checkGiven (choice s)
  calc
    problems
        = problemOf .schemaFile (checkGiven (Setting.check .schemaFile) (standard.value .schemaFile)
              (choice .schemaFile)) ++
            problemOf .target
              (checkGiven (Setting.check .target) (standard.value .target) (choice .target)) ++
            problemOf .logLevel (checkGiven (Setting.check .logLevel) (standard.value .logLevel)
              (choice .logLevel)) := (build_eq_error_iff.1 failed).2
    _ = Setting.all.flatMap fun s => if s.Valid (s.chosen (choice s)) then [] else
          [{ place := s.name, cause := s.complaint (s.chosen (choice s)) }] := by
        rw [each, each, each]
        simp [Setting.all]
    _ = _ := by
        rw [← List.filterMap_eq_map, List.filterMap_filter, List.filterMap_eq_flatMap_toList]
        refine List.flatMap_congr fun s _ => ?_
        by_cases valid : s.Valid (s.chosen (choice s))
        · simp [valid]
        · simp [valid]

/-- The values of settings, by name. -/
def given (settings : Settings) : List (String × Option Given) :=
  Setting.all.map fun s => (s.name, some (.text (settings.value s)))

theorem ofValues_given (settings : Settings) (s : Setting) :
    Choice.ofValues settings.given s = some (.text (settings.value s)) := by
  cases s <;> rfl

/-- Settings that were built are built again from their own values. -/
theorem build_given (built : build choice = .ok settings) :
    build (Choice.ofValues settings.given) = .ok settings := by
  rw [build_eq_ok_iff_forall] at built ⊢
  intro s
  rcases built s with ⟨t, -, admits, kept⟩
  have again := Setting.admits_keep admits
  rw [ofValues_given, kept]
  exact ⟨s.keep t, rfl, again.1, again.2.symm⟩

/-- Only the values that are chosen or stand for what was not chosen decide what is built. -/
theorem build_congr {choice' : Choice}
    (same : ∀ s : Setting, s.chosen (choice' s) = s.chosen (choice s)) :
    build choice' = build choice := by
  have built_iff (settings : Settings) : build choice' = .ok settings ↔
      build choice = .ok settings := by
    rw [build_eq_ok_iff_forall, build_eq_ok_iff_forall]
    simp only [same]
  cases built : build choice with
  | ok settings =>
      exact (built_iff settings).2 built
  | error problems =>
      cases built' : build choice' with
      | ok settings =>
          rw [(built_iff settings).1 built'] at built
          cases built
      | error problems' =>
          rw [problems_of_build built, problems_of_build built']
          simp only [same]

/-- For every environment and all overrides there is one value in effect for each setting: the
override if there is one that is not missing, else the variable if it is there, else the default.
Settings are built exactly if all three are valid, of the values in effect, with the level in upper
case; it is the name of a level, and from their own values the same settings are built again. Else
there is one problem for each value that is not valid, in the order of the settings, with what is
wrong with it. Nothing else in the environment matters, and what is overridden does not matter
either. -/
theorem environment_resolves (environment overrides : List (String × Option Given)) :
    ∃ value : Setting → Given,
      (∀ s g, s.InEffect environment overrides g ↔ g = value s) ∧
      ((∃ settings, build (Choice.ofEnvironment environment overrides) = .ok settings) ↔
        ∀ s : Setting, s.Valid (value s)) ∧
      (∀ settings, build (Choice.ofEnvironment environment overrides) = .ok settings →
        value .schemaFile = .text settings.schemaFile ∧ value .target = .text settings.target ∧
        (∃ t, value .logLevel = .text t ∧ settings.logLevel = upper t) ∧
        settings.logLevel ∈ levelNames ∧
        build (Choice.ofValues settings.given) = .ok settings) ∧
      (∀ problems, build (Choice.ofEnvironment environment overrides) = .error problems →
        problems = (Setting.all.filter fun s => ¬ s.Valid (value s)).map fun s =>
          { place := s.name, cause := s.complaint (value s) }) ∧
      ∀ environment',
        (∀ s : Setting, (∃ g, LastValue overrides s.name (some g)) ∨
          ∀ v, LastValue environment' s.variableName v ↔ LastValue environment s.variableName v) →
        build (Choice.ofEnvironment environment' overrides) =
          build (Choice.ofEnvironment environment overrides) := by
  refine ⟨fun s => s.chosen (Choice.ofEnvironment environment overrides s),
    fun s g => Setting.inEffect_iff, exists_build_eq_ok_iff, fun settings built => ?_,
    fun problems failed => problems_of_build failed, ?_⟩
  · rcases build_eq_ok_iff_forall.1 built .schemaFile with ⟨file, givenFile, -, keptFile⟩
    rcases build_eq_ok_iff_forall.1 built .target with ⟨target, givenTarget, -, keptTarget⟩
    rcases build_eq_ok_iff_forall.1 built .logLevel with ⟨level, givenLevel, admitsLevel, keptLevel⟩
    have file_eq : settings.schemaFile = file := keptFile
    have target_eq : settings.target = target := keptTarget
    have level_eq : settings.logLevel = upper level := keptLevel
    have known : upper level ∈ levelNames := admitsLevel
    rw [file_eq, target_eq, level_eq]
    exact ⟨givenFile, givenTarget, ⟨level, givenLevel, rfl⟩, known, build_given built⟩
  · intro environment' same
    -- what was in effect still is, and only one value can be
    refine build_congr fun s => ?_
    have inEffect := Setting.inEffect_chosen environment overrides s
    exact (Setting.inEffect_iff.1 (inEffect.congr (same s))).symm

/-- An override in place of a variable that is not valid, another one that is missing, and a level
with a letter that is an `S` in upper case. -/
theorem environment_resolves_shadowed :
    let level : String × Option Given := ("GQL_ASSIST_LOG_LEVEL", some (.text "notſet"))
    let environment := [("GQL_ASSIST_SCHEMA_FILE", some (.text "../a")), ("PATH", none), level]
    let environment' := [level, ("GQL_ASSIST_SCHEMA_FILE", some (.text ""))]
    let overrides :=
      [("schema_file", some (.text "api/a")), ("target", none), ("level", some .notText)]
    let settings : Settings := { schemaFile := "api/a", target := "java", logLevel := "NOTSET" }
    Setting.schemaFile.InEffect environment overrides (.text "api/a") ∧
      Setting.target.InEffect environment overrides (.text "java") ∧
      Setting.logLevel.InEffect environment overrides (.text "notſet") ∧
      build (Choice.ofEnvironment environment overrides) = .ok settings ∧
      build (Choice.ofEnvironment environment' overrides) = .ok settings ∧
      build (Choice.ofValues settings.given) = .ok settings := by
  intro level environment environment' overrides settings
  rcases environment_resolves environment overrides with ⟨value, inEffect, -, made, -, others⟩
  have built : build (Choice.ofEnvironment environment overrides) = .ok settings := by
    decide +kernel
  have file : Setting.schemaFile.InEffect environment overrides (.text "api/a") :=
    .override ⟨[], [("target", none), ("level", some .notText)], rfl, by decide⟩
  have same : ∀ s : Setting, (∃ g, LastValue overrides s.name (some g)) ∨
      ∀ v, LastValue environment' s.variableName v ↔ LastValue environment s.variableName v := by
    intro s
    by_cases overridden : s = .schemaFile
    · rw [overridden]
      exact .inl ⟨.text "api/a", [], [("target", none), ("level", some .notText)], rfl, by decide⟩
    · have found : environment'.reverse.lookup s.variableName =
          environment.reverse.lookup s.variableName := by
        revert overridden
        cases s <;> decide +kernel
      refine .inr fun v => ?_
      rw [lastValue_iff_lookup, lastValue_iff_lookup, found]
  rcases made settings built with ⟨-, target, -, -, again⟩
  refine ⟨file, (inEffect _ _).2 target.symm, ?_, built,
    (others environment' same).trans built, again⟩
  have free (g : Given) : ¬ LastValue overrides Setting.logLevel.name (some g) :=
    not_mem_names_iff_forall_not.1 (by decide) (some g)
  have set : LastValue environment Setting.logLevel.variableName (some (.text "notſet")) :=
    lastValue_iff_lookup.2 (by decide +kernel)
  exact .fromEnvironment free set

/-- Two variables that are not valid. -/
example : build (Choice.ofEnvironment
      [("GQL_ASSIST_TARGET", none), ("GQL_ASSIST_SCHEMA_FILE", some (.text ""))] []) =
    .error [{ place := "schema_file", cause := .outsideRoot },
      { place := "target", cause := .notText }] := by
  decide +kernel

end Settings

end SchemaCompletion
