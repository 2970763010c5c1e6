import DesignLint.Proofs.Json.Mapping
import DesignLint.Proofs.Outcome
import DesignLint.Scan.Configuration

/-!
# Layers of settings

Settings come from a preset, from a configuration file and from overrides. A
setting in the file and an override for the same rule are not layered: the
override is read on the setting of the preset, so a level or options that it
leaves out come from there and not from the file. The resolved settings differ
from layered ones exactly in that.
-/

namespace DesignLint

open JsonObject

/-! ## Names of rules and levels -/

@[simp]
theorem Rule.ofName?_name (rule : Rule) : Rule.ofName? rule.name = some rule := by
  cases rule <;> rfl

theorem Rule.name_eq_of_ofName? {name : String} {rule : Rule}
    (named : Rule.ofName? name = some rule) : name = rule.name := by
  have found := List.find?_some named
  exact (beq_iff_eq.mp found).symm

theorem Rule.name_injective : Function.Injective Rule.name := by
  intro first second same
  have found := Rule.ofName?_name first
  rw [same, Rule.ofName?_name] at found
  exact (Option.some.inj found).symm

theorem Rule.mem_all (rule : Rule) : rule ∈ Rule.all := by
  cases rule <;> simp [Rule.all]

@[simp]
theorem Level.ofLabel?_label (level : Level) : Level.ofLabel? level.label = some level := by
  cases level <;> rfl

/-! ## What a value writes -/

/-- What the value of a rule writes of a setting. -/
structure WrittenSetting where
  level : Option Level
  options : Option JsonObject

/-- The setting with what is not written taken from a setting so far. -/
def WrittenSetting.on (written : WrittenSetting) (base : RuleSetting) : RuleSetting where
  level := written.level.getD base.level
  options := written.options.getD base.options

/-- What a value writes of the setting of a rule, if it is valid. -/
def readWritten (rule : String) : Json → Except ConfigError WrittenSetting
  | .array [level] => do
    return ⟨some (← readLevel rule level), none⟩
  | .array [level, options] => do
    let options ← readOptionsMapping rule options
    return ⟨some (← readLevel rule level), some options⟩
  | .array _ => .error (.badListLength rule)
  | .object entries =>
    let unexpected := unexpectedSettingKeys entries
    if unexpected.isEmpty then do
      let options ← (entries.lookup "options").mapM (readOptionsMapping rule)
      return ⟨← (entries.lookup "level").mapM (readLevel rule), options⟩
    else .error (.unexpectedKeys rule unexpected)
  | value => do
    return ⟨some (← readLevel rule value), none⟩

/-- Whether a value can be read, and what it writes, does not depend on the setting so far. -/
theorem readSetting_eq (rule : String) (value : Json) (base : RuleSetting) :
    readSetting rule value (some base) = (readWritten rule value).map (·.on base) := by
  have plain (value : Json) :
      (do return ⟨← readLevel rule value, base.options⟩ : Except ConfigError RuleSetting) =
        (do return ⟨some (← readLevel rule value), none⟩ : Except _ WrittenSetting).map
          (·.on base) := by
    cases readLevel rule value <;> rfl
  cases value with
  | null => exact plain _
  | bool => exact plain _
  | number => exact plain _
  | string => exact plain _
  | array items =>
      rcases items with _ | ⟨level, _ | ⟨options, _ | _⟩⟩
      · rfl
      · exact plain level
      · simp only [readSetting, readWritten]
        cases readOptionsMapping rule options
        · rfl
        · cases readLevel rule level <;> rfl
      · rfl
  | object entries =>
      simp only [readSetting, readWritten]
      split
      · have options : readOptionsMapping rule
            ((entries.lookup "options").getD (.object (inheritedOptions (some base)))) =
              ((entries.lookup "options").mapM (readOptionsMapping rule)).map
                (·.getD base.options) := by
          cases entries.lookup "options" with
          | none => rfl
          | some value => cases written : readOptionsMapping rule value <;> simp [written] <;> rfl
        have level : readLevel rule
            ((entries.lookup "level").getD (.string (inheritedLevel (some base)).label)) =
              ((entries.lookup "level").mapM (readLevel rule)).map (·.getD base.level) := by
          cases entries.lookup "level" with
          | none => simp [readLevel, inheritedLevel]; rfl
          | some value => cases written : readLevel rule value <;> simp [written] <;> rfl
        rw [options, level]
        cases (entries.lookup "options").mapM (readOptionsMapping rule)
        · rfl
        · cases (entries.lookup "level").mapM (readLevel rule) <;> rfl
      · rfl

/-! ## One layer -/

namespace RuleTable

variable {table layered : RuleTable} {entries : JsonObject}

/-- What laying entries over a table gives: each named rule has what its value writes, on its
setting in the table, and the others keep their settings. -/
def LaidOver (table : RuleTable) (entries : JsonObject) (layered : RuleTable) : Prop :=
  ∀ rule, match entries.lookup rule.name with
    | some value => ∃ written, readWritten rule.name value = .ok written ∧
        layered rule = written.on (table rule)
    | none => layered rule = table rule

theorem override_eq_ok_iff {name : String} {value : Json} :
    table.override (name, value) = .ok layered ↔ ∃ rule written, name = Rule.name rule ∧
      readWritten name value = .ok written ∧
        layered = table.set rule (written.on (table rule)) := by
  unfold override
  cases named : Rule.ofName? name with
  | none =>
      simp only [reduceCtorEq, false_iff]
      rintro ⟨rule, -, rfl, -⟩
      simp at named
  | some rule =>
      obtain rfl := Rule.name_eq_of_ofName? named
      simp only [readSetting_eq]
      cases readWritten rule.name value with
      | error error => simp [Except.map]
      | ok written =>
          simp only [Except.map, Except.ok.injEq]
          constructor
          · rintro rfl
            exact ⟨rule, written, rfl, rfl, rfl⟩
          · rintro ⟨other, _, same, rfl, rfl⟩
            rw [Rule.name_injective same]

theorem laidOver_cons_iff {rule : Rule} {value : Json} {written : WrittenSetting}
    (absent : rule.name ∉ entries.keys) (read : readWritten rule.name value = .ok written) :
    table.LaidOver ((rule.name, value) :: entries) layered ↔
      (table.set rule (written.on (table rule))).LaidOver entries layered := by
  refine forall_congr' fun other => ?_
  by_cases same : other = rule
  · subst same
    simp [lookup_eq_none_iff_not_mem_keys.mpr absent, read, set]
  · have names : (other.name == rule.name) = false :=
      beq_false_of_ne fun equal => same (Rule.name_injective equal)
    simp [List.lookup_cons, names, same, set]

/-- Entries that name each rule once can be laid over a table exactly if they name rules only and
their values can be read; the order of the entries does not matter. -/
theorem overrideAll_eq_ok_iff (mapping : entries.IsMapping) :
    table.overrideAll entries = .ok layered ↔
      (∀ name ∈ entries.keys, ∃ rule, name = Rule.name rule) ∧ table.LaidOver entries layered := by
  induction entries generalizing table with
  | nil =>
      constructor
      · rintro ⟨⟩
        simp [LaidOver]
      · rintro ⟨-, same⟩
        exact congrArg Except.ok (funext fun rule => (same rule).symm)
  | cons entry entries inductionHypothesis =>
      obtain ⟨name, value⟩ := entry
      obtain ⟨absent, rest⟩ := isMapping_cons.mp mapping
      have split : table.overrideAll ((name, value) :: entries) = .ok layered ↔
          ∃ middle, table.override (name, value) = .ok middle ∧
            overrideAll middle entries = .ok layered := by
        rw [overrideAll, List.foldlM_cons]
        cases table.override (name, value) with
        | error error => simp [bind, Except.bind]
        | ok middle => simp [bind, Except.bind, overrideAll]
      rw [split, keys_cons, List.forall_mem_cons]
      constructor
      · rintro ⟨middle, overridden, later⟩
        obtain ⟨rule, written, rfl, read, rfl⟩ := override_eq_ok_iff.mp overridden
        obtain ⟨named, laid⟩ := (inductionHypothesis rest).mp later
        exact ⟨⟨⟨rule, rfl⟩, named⟩, (laidOver_cons_iff absent read).mpr laid⟩
      · rintro ⟨⟨⟨rule, rfl⟩, named⟩, laid⟩
        have here := laid rule
        rw [List.lookup_cons_self] at here
        obtain ⟨written, read, -⟩ := here
        exact ⟨_, override_eq_ok_iff.mpr ⟨rule, written, rfl, read, rfl⟩,
          (inductionHypothesis rest).mpr ⟨named, (laidOver_cons_iff absent read).mp laid⟩⟩

/-! ## Checked options -/

/-- A table whose options are all accepted. -/
def HasValidOptions (table : RuleTable) : Prop :=
  ∀ rule : Rule, rule.optionsError? (table rule).options = none

theorem optionsError?_eq_none_iff {rules : List Rule} :
    table.optionsError? rules = none ↔
      ∀ rule ∈ rules, rule.optionsError? (table rule).options = none := by
  induction rules with
  | nil => simp [optionsError?]
  | cons rule rules inductionHypothesis =>
      rw [optionsError?, List.forall_mem_cons, Rule.configure, Rule.readOptions]
      cases rule.optionsError? (table rule).options with
      | some error => simp
      | none => simp [inductionHypothesis]

theorem validated_eq_ok_iff :
    table.validated = .ok layered ↔ layered = table ∧ table.HasValidOptions := by
  have all : table.optionsError? Rule.all = none ↔ table.HasValidOptions := by
    rw [optionsError?_eq_none_iff]
    exact ⟨fun valid rule => valid rule rule.mem_all, fun valid rule _ => valid rule⟩
  unfold validated
  cases checked : table.optionsError? Rule.all with
  | some error => simp [← all, checked]
  | none =>
      simp only [Except.ok.injEq, ← all, checked, and_true]
      exact eq_comm

end RuleTable

/-- The options of every preset are accepted. -/
theorem Preset.hasValidOptions (preset : Preset) : preset.table.HasValidOptions := by
  intro rule
  rw [← Option.isNone_iff_eq_none]
  cases preset <;> cases rule <;> decide +kernel

/-! ## All layers -/

/-- Read on two settings, a value gives the same if they agree in all that it does not write. -/
theorem WrittenSetting.on_eq_on_iff {written : WrittenSetting} {first second : RuleSetting} :
    written.on first = written.on second ↔
      (written.level = none → first.level = second.level) ∧
        (written.options = none → first.options = second.options) := by
  obtain ⟨level, options⟩ := written
  cases level <;> cases options <;> simp [on]

/-- Overrides that can be laid over the settings in a file can be merged with them: what is then
laid over the preset has, for each rule, the last value that is written for it. -/
theorem Preset.overrideAll_merge {preset : Preset} {written overrides : JsonObject}
    {file layered : RuleTable} (writtenMapping : written.IsMapping)
    (mapping : overrides.IsMapping)
    (fileValid : preset.table.overrideAll written = .ok file)
    (valid : file.overrideAll overrides = .ok layered) :
    ∃ merged, preset.table.overrideAll (written.merge overrides) = .ok merged ∧
      ∀ rule, match overrides.lookup rule.name with
        | some value => ∃ written, readWritten rule.name value = .ok written ∧
            merged rule = written.on (preset.table rule) ∧ layered rule = written.on (file rule)
        | none => merged rule = layered rule := by
  obtain ⟨writtenNames, fileLaid⟩ := (RuleTable.overrideAll_eq_ok_iff writtenMapping).mp fileValid
  obtain ⟨names, laid⟩ := (RuleTable.overrideAll_eq_ok_iff mapping).mp valid
  have last : ∀ rule : Rule, ∃ setting,
      (match (written.merge overrides).lookup rule.name with
        | some value => ∃ written, readWritten rule.name value = .ok written ∧
            setting = written.on (preset.table rule)
        | none => setting = preset.table rule) ∧
      match overrides.lookup rule.name with
        | some value => ∃ written, readWritten rule.name value = .ok written ∧
            setting = written.on (preset.table rule) ∧ layered rule = written.on (file rule)
        | none => setting = layered rule := by
    intro rule
    rw [lookup_merge mapping]
    have layeredHas := laid rule
    cases overridden : overrides.lookup rule.name with
    | some value =>
        rw [overridden] at layeredHas
        obtain ⟨written, read, layeredEq⟩ := layeredHas
        exact ⟨_, ⟨written, read, rfl⟩, written, read, rfl, layeredEq⟩
    | none =>
        rw [overridden] at layeredHas
        refine ⟨layered rule, ?_, rfl⟩
        rw [Option.none_or, layeredHas]
        exact fileLaid rule
  choose merged laidMerged compared using last
  refine ⟨merged, (RuleTable.overrideAll_eq_ok_iff (isMapping_merge writtenMapping)).mpr
    ⟨fun name member => ?_, laidMerged⟩, compared⟩
  rcases mem_keys_merge.mp member with member | member
  · exact writtenNames name member
  · exact names name member

/-- The configuration document that a request refers to. -/
def ConfigRequest.documentIn (request : ConfigRequest) (files : FileSystem) (root : FilePath) :
    Except LoadError ConfigDocument :=
  match request.file.or (findConfig? files root) with
  | some path => readConfigFile files path
  | none => .ok .silent

theorem exists_configFor_eq {files : FileSystem} {root : FilePath} {request : ConfigRequest}
    {document : ConfigDocument} {rules : RuleTable}
    (found : request.documentIn files root = .ok document)
    (resolved : layeredRules (choosePreset request.preset document.preset)
      (document.rules.merge request.rules) = .ok rules) :
    ∃ config events, configFor files root request = .ok (config, events) ∧
      config.rules = rules := by
  unfold ConfigRequest.documentIn at found
  unfold configFor
  cases source : request.file.or (findConfig? files root) with
  | none =>
      rw [source] at found
      cases found
      simp only [bind, Except.bind, resolved, mapError_ok]
      exact ⟨_, _, rfl, rfl⟩
  | some path =>
      rw [source] at found
      simp only [found, bind, Except.bind, resolved, mapError_ok]
      exact ⟨_, _, rfl, rfl⟩

/-- The settings that a scan is configured with, compared to layered ones. Where a value overrides
a rule, a level or options that it does not write are those of the preset, not those of the file;
the settings are the layered ones exactly where that makes no difference. -/
theorem configFor_eq_layered_iff {files : FileSystem} {root : FilePath} {request : ConfigRequest}
    {document : ConfigDocument} {preset : Preset} {file layered : RuleTable}
    (found : request.documentIn files root = .ok document)
    (chosen : Preset.ofName? (choosePreset request.preset document.preset) = some preset)
    (writtenMapping : document.rules.IsMapping) (mapping : request.rules.IsMapping)
    (fileValid : preset.table.overrideAll document.rules = .ok file)
    (valid : file.overrideAll request.rules = .ok layered)
    (checked : layered.validated = .ok layered) :
    ∃ config events, configFor files root request = .ok (config, events) ∧
      ∀ rule, match request.rules.lookup rule.name with
        | none => config.rules rule = layered rule
        | some value => ∃ written, readWritten rule.name value = .ok written ∧
            config.rules rule = written.on (preset.table rule) ∧
            layered rule = written.on (file rule) ∧
            (config.rules rule = layered rule ↔
              (written.level = none → (preset.table rule).level = (file rule).level) ∧
              (written.options = none → (preset.table rule).options = (file rule).options)) := by
  obtain ⟨merged, laid, compared⟩ :=
    Preset.overrideAll_merge writtenMapping mapping fileValid valid
  have mergedChecked : merged.validated = .ok merged := by
    obtain ⟨-, options⟩ := RuleTable.validated_eq_ok_iff.mp checked
    refine RuleTable.validated_eq_ok_iff.mpr ⟨rfl, fun rule => ?_⟩
    have accepted := options rule
    have here := compared rule
    cases overridden : request.rules.lookup rule.name with
    | none =>
        rw [overridden] at here
        exact here ▸ accepted
    | some value =>
        rw [overridden] at here
        obtain ⟨written, -, mergedEq, layeredEq⟩ := here
        rw [mergedEq]
        rw [layeredEq] at accepted
        cases options : written.options with
        | none => simpa [WrittenSetting.on, options] using preset.hasValidOptions rule
        | some entries => simpa [WrittenSetting.on, options] using accepted
  have resolved : layeredRules (choosePreset request.preset document.preset)
      (document.rules.merge request.rules) = .ok merged := by
    simp [layeredRules, chosen, laid, mergedChecked, bind, Except.bind]
  obtain ⟨config, events, configured, rfl⟩ := exists_configFor_eq found resolved
  refine ⟨config, events, configured, fun rule => ?_⟩
  have here := compared rule
  cases overridden : request.rules.lookup rule.name with
  | none =>
      rw [overridden] at here
      exact here
  | some value =>
      rw [overridden] at here
      obtain ⟨written, read, mergedEq, layeredEq⟩ := here
      refine ⟨written, read, mergedEq, layeredEq, ?_⟩
      rw [mergedEq, layeredEq]
      exact WrittenSetting.on_eq_on_iff

/-- Settings that allow a nesting depth of five. -/
def deepRules : JsonObject :=
  [("max-nesting-depth", .array [.string "warn", .object [("maxDepth", .nat 5)]])]

/-- A project whose configuration file allows a nesting depth of five. -/
def deepProject : FileSystem :=
  let settings : Json := .object [("rules", .object deepRules)]
  ⟨.directory [(".code-complete.yml", .file ⟨1, .ok "rules", .ok ⟨[]⟩, some settings⟩)], [], false⟩

/-- A request that makes too deep nesting an error, and says nothing of the depth. -/
def nestingErrors : ConfigRequest where
  rules := [("max-nesting-depth", .string "error")]

/-- What the configuration file of the project says. -/
def deepDocument : ConfigDocument where
  preset := ""
  included := []
  excluded := []
  rules := deepRules

theorem documentIn_deepProject :
    nestingErrors.documentIn deepProject ⟨0, []⟩ = .ok deepDocument := by
  with_unfolding_all rfl

/-- The depth is the one of the preset, not the one of the file. -/
theorem configFor_deepProject :
    ∃ config events, configFor deepProject ⟨0, []⟩ nestingErrors = .ok (config, events) ∧
      config.rules .nesting = ⟨.error, [("maxDepth", .nat 3)]⟩ := by
  let file := Preset.recommended.table.set .nesting ⟨.warn, [("maxDepth", .nat 5)]⟩
  let layered := file.set .nesting ⟨.error, [("maxDepth", .nat 5)]⟩
  have chosen : Preset.ofName? (choosePreset nestingErrors.preset deepDocument.preset) =
      some .recommended := rfl
  have fileValid : Preset.recommended.table.overrideAll deepDocument.rules = .ok file := rfl
  have valid : file.overrideAll nestingErrors.rules = .ok layered := rfl
  have checked : layered.HasValidOptions := by
    intro rule
    rw [← Option.isNone_iff_eq_none]
    cases rule <;> decide +kernel
  obtain ⟨config, events, configured, compared⟩ :=
    configFor_eq_layered_iff documentIn_deepProject chosen (by decide) (by decide) fileValid valid
      (RuleTable.validated_eq_ok_iff.mpr ⟨rfl, checked⟩)
  obtain ⟨written, read, rules, -, -⟩ := compared .nesting
  refine ⟨config, events, configured, ?_⟩
  rw [rules]
  cases read
  rfl

end DesignLint
