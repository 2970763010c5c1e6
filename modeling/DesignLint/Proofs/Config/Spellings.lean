import DesignLint.Proofs.Config.Resolution

/-!
# Spellings of settings

A level can be written by itself, as a list of its own, or under its key, and a level with options
as a list of both or as a mapping. What is read does not depend on the spelling, whether it is a
setting or an error. The mapping with both keys says all of a setting, so the settings of all rules,
written in this way, are read back unchanged over any preset.
-/

namespace DesignLint

open JsonObject

/-! ## Two spellings -/

/-- Values that are read alike for every rule and over every setting so far. -/
def Json.ReadsAlike (first second : Json) : Prop :=
  ∀ (rule : String) (base : Option RuleSetting),
    readSetting rule first base = readSetting rule second base

/-- Neither a list nor a mapping. -/
def Json.IsSingle : Json → Prop
  | .array _ | .object _ => False
  | _ => True

section Mappings

variable {rule : String} {entries : JsonObject} {base : Option RuleSetting}

theorem readSetting_single {value : Json} (single : value.IsSingle) :
    readSetting rule value base =
      (readLevel rule value).map fun level => ⟨level, inheritedOptions base⟩ := by
  cases value with
  | array | object => exact single.elim
  | _ => rfl

/-- A mapping without other keys is read key by key, the options first. -/
theorem readSetting_object
    (known : ∀ key ∈ entries.keys, key = "level" ∨ key = "options") :
    readSetting rule (.object entries) base =
      (readOptionsMapping rule
        ((entries.lookup "options").getD (.object (inheritedOptions base)))).bind fun options =>
          (readLevel rule ((entries.lookup "level").getD
            (.string (inheritedLevel base).label))).map fun level => ⟨level, options⟩ := by
  have noOthers := unexpectedSettingKeys_isEmpty_iff.mpr known
  simp only [readSetting, noOthers, if_true]
  rfl

end Mappings

theorem Json.readsAlike_listed {value : Json} (single : value.IsSingle) :
    ReadsAlike (.array [value]) value := by
  intro rule base
  rw [readSetting_single single]
  rfl

theorem Json.readsAlike_keyed {value : Json} (single : value.IsSingle) :
    ReadsAlike (.object [("level", value)]) value := by
  intro rule base
  rw [readSetting_single single, readSetting_object (by simp)]
  rfl

/-- A list of a level and options is read like any mapping of both. -/
theorem Json.readsAlike_withOptions {value : Json} {options entries : JsonObject}
    (known : ∀ key ∈ entries.keys, key = "level" ∨ key = "options")
    (level : entries.lookup "level" = some value)
    (given : entries.lookup "options" = some (.object options)) :
    ReadsAlike (.array [value, .object options]) (.object entries) := by
  intro rule base
  rw [readSetting_object known, level, given]
  rfl

/-! ## Reading back -/

/-- The settings of some rules, written as mappings under the names of the rules. -/
def RuleTable.written (table : RuleTable) (rules : List Rule) : JsonObject :=
  rules.map fun rule => (rule.name, (table rule).toJson)

/-- A written setting says its level and its options. -/
theorem RuleSetting.writesSetting_toJson (setting : RuleSetting) :
    setting.toJson.WritesSetting ⟨some setting.level, some setting.options⟩ :=
  .mapping (by simp) (.some (.label setting.level)) rfl

theorem RuleSetting.readWritten_toJson (setting : RuleSetting) (rule : String) :
    readWritten rule setting.toJson = .ok ⟨some setting.level, some setting.options⟩ :=
  readWritten_eq_ok_iff.mpr setting.writesSetting_toJson

namespace RuleTable

variable {table other : RuleTable} {rules : List Rule}

theorem keys_written (table : RuleTable) (rules : List Rule) :
    (table.written rules).keys = rules.map Rule.name := by
  rw [written, keys, List.map_map]
  rfl

theorem isMapping_written (distinct : rules.Nodup) : (table.written rules).IsMapping := by
  rw [IsMapping, keys_written]
  exact distinct.map Rule.name_injective

/-- Nothing is left of the settings that all written ones are laid over. -/
theorem laidOver_written_iff {base : RuleTable} (distinct : rules.Nodup)
    (all : ∀ rule, rule ∈ rules) : base.LaidOver (table.written rules) other ↔ other = table := by
  have found (rule : Rule) :
      (table.written rules).lookup rule.name = some (table rule).toJson :=
    lookup_of_mem (isMapping_written distinct) (List.mem_map_of_mem (all rule))
  rw [funext_iff]
  refine forall_congr' fun rule => ?_
  rw [found rule]
  simp only [RuleSetting.readWritten_toJson, Except.ok.injEq, exists_eq_left', WrittenSetting.on,
    Option.getD_some]

/-- The settings of all rules are read back over any preset, exactly if their options are
accepted. -/
theorem layeredRules_written_iff (preset : Preset) (listed : rules.Perm Rule.all) :
    layeredRules preset.name (table.written rules) = .ok other ↔
      other = table ∧ table.HasValidOptions := by
  have distinct : rules.Nodup := listed.nodup_iff.mpr (by decide)
  have all (rule : Rule) : rule ∈ rules := listed.mem_iff.mpr rule.mem_all
  have names : ∀ name ∈ (table.written rules).keys, ∃ rule, name = Rule.name rule := by
    intro name member
    rw [keys_written] at member
    obtain ⟨rule, -, rfl⟩ := List.mem_map.mp member
    exact ⟨rule, rfl⟩
  have laid (whole : RuleTable) :
      preset.table.overrideAll (table.written rules) = .ok whole ↔ whole = table := by
    rw [overrideAll_eq_ok_iff (isMapping_written distinct), laidOver_written_iff distinct all]
    exact and_iff_right names
  rw [layeredRules, Preset.ofName?_name]
  constructor
  · intro layered
    obtain ⟨whole, overridden, checked⟩ := bind_eq_ok_iff.mp layered
    obtain rfl := (laid whole).mp overridden
    exact validated_eq_ok_iff.mp checked
  · rintro ⟨rfl, valid⟩
    exact bind_eq_ok_iff.mpr
      ⟨other, (laid other).mpr rfl, validated_eq_ok_iff.mpr ⟨rfl, valid⟩⟩

end RuleTable

/-- The spellings of a setting are interchangeable, and resolved settings can be written and read
back: for all rules together, in any order, over any preset. -/
theorem readSetting_spellings :
    (∀ value : Json, value.IsSingle →
      Json.ReadsAlike (.array [value]) value ∧
        Json.ReadsAlike (.object [("level", value)]) value) ∧
    (∀ (value : Json) (options : JsonObject),
      Json.ReadsAlike (.array [value, .object options])
          (.object [("level", value), ("options", .object options)]) ∧
        Json.ReadsAlike (.array [value, .object options])
          (.object [("options", .object options), ("level", value)])) ∧
    ∀ (source : String) (overrides : JsonObject) (table : RuleTable),
      layeredRules source overrides = .ok table →
        ∀ (preset : Preset) (rules : List Rule), rules.Perm Rule.all →
          layeredRules preset.name (table.written rules) = .ok table := by
  refine ⟨?levels, ?options, ?written⟩
  case levels =>
    intro value single
    exact ⟨Json.readsAlike_listed single, Json.readsAlike_keyed single⟩
  case options =>
    intro value options
    exact ⟨Json.readsAlike_withOptions (by simp) rfl rfl,
      Json.readsAlike_withOptions (by simp) rfl rfl⟩
  case written =>
    intro source overrides table layered preset rules listed
    have valid := hasValidOptions_of_layeredRules layered
    exact (RuleTable.layeredRules_written_iff preset listed).mpr ⟨rfl, valid⟩

/-- Overrides that make less of the depth in the strict preset, and nothing of the numbers. -/
def mildOverrides : JsonObject :=
  [("max-nesting-depth", .array [.string "warn"]),
    ("no-magic-numbers-except-zero-one", .array [.bool false])]

/-- A level that is none is refused in every spelling, and the strict settings with overrides are
read back over the relaxed ones. -/
theorem readSetting_mildOverrides :
    readSetting "max-nesting-depth" (.object [("level", .string "loud")]) none =
        .error (.badLevel "max-nesting-depth" (.string "loud")) ∧
      ∃ table, layeredRules "strict" mildOverrides = .ok table ∧
        (table .nesting).level = .warn ∧ (table .literals).level = .off ∧
        layeredRules "relaxed" (table.written Rule.alphabetical) = .ok table := by
  obtain ⟨levels, -, written⟩ := readSetting_spellings
  let table := (Preset.strict.table.set .nesting ⟨.warn, [("maxDepth", .nat 2)]⟩).set
    .literals ⟨.off, (Preset.strict.table .literals).options⟩
  have laid : Preset.strict.table.overrideAll mildOverrides = .ok table := rfl
  have valid : table.HasValidOptions := by
    intro rule
    rw [← Option.isNone_iff_eq_none]
    cases rule <;> decide +kernel
  have layered : layeredRules "strict" mildOverrides = .ok table :=
    bind_eq_ok_iff.mpr ⟨table, laid, RuleTable.validated_eq_ok_iff.mpr ⟨rfl, valid⟩⟩
  refine ⟨?_, table, layered, rfl, rfl, written _ _ table layered .relaxed _ (by decide)⟩
  obtain ⟨-, keyed⟩ := levels (.string "loud") trivial
  rw [keyed "max-nesting-depth" none]
  rfl

end DesignLint
