import DesignLint.Proofs.Config.Telling

/-!
# Resolved settings

A preset and overrides resolve unless something is wrong with them: the preset or the rule
of an override is unknown, a value has none of the forms of a setting, or a rule, enabled
or not, is left with options that its schema does not accept. The forms are told here
without regard to how they are read. From resolved settings the analyzers can always be
made, one for each rule that is not off.
-/

namespace DesignLint

open JsonObject

/-! ## Forms of settings -/

namespace Json

/-- The values that name a level. -/
inductive NamesLevel : Json → Level → Prop
  | label (level : Level) : NamesLevel (.string level.label) level
  | false : NamesLevel (.bool false) .off

/-- The forms of a setting, and what each of them writes. -/
inductive WritesSetting : Json → WrittenSetting → Prop
  | level {value : Json} {level : Level} (named : value.NamesLevel level) :
    WritesSetting value ⟨some level, none⟩
  | listed {value : Json} {level : Level} (named : value.NamesLevel level) :
    WritesSetting (.array [value]) ⟨some level, none⟩
  | withOptions {value : Json} {level : Level} {options : JsonObject}
      (named : value.NamesLevel level) :
    WritesSetting (.array [value, .object options]) ⟨some level, some options⟩
  | mapping {entries : JsonObject} {level : Option Level} {options : Option JsonObject}
      (known : ∀ key ∈ entries.keys, key = "level" ∨ key = "options")
      (named : Option.Rel NamesLevel (entries.lookup "level") level)
      (given : entries.lookup "options" = options.map .object) :
    WritesSetting (.object entries) ⟨level, options⟩

end Json

section Forms

variable {rule : String} {value : Json} {entries : JsonObject}

theorem readLevel_eq_ok_iff {level : Level} :
    readLevel rule value = .ok level ↔ value.NamesLevel level := by
  constructor
  · intro read
    unfold readLevel at read
    split at read
    · cases read
      exact .false
    · split at read
      · rename_i label _ found
        cases read
        have same := List.find?_some found
        rw [← beq_iff_eq.mp same]
        exact .label level
      · cases read
    · cases read
  · rintro (_ | _)
    · simp [readLevel]
    · rfl

theorem readOptionsMapping_eq_ok_iff {options : JsonObject} :
    readOptionsMapping rule value = .ok options ↔ value = .object options := by
  cases value <;> simp [readOptionsMapping]

theorem unexpectedSettingKeys_isEmpty_iff : (unexpectedSettingKeys entries).isEmpty = true ↔
    ∀ key ∈ entries.keys, key = "level" ∨ key = "options" := by
  rw [unexpectedSettingKeys, List.isEmpty_iff, ← List.length_eq_zero_iff, List.length_mergeSort,
    List.length_eq_zero_iff, List.filter_eq_nil_iff]
  refine forall₂_congr fun key _ => ?_
  by_cases level : key = "level" <;> simp [level]

theorem readWritten_level_eq_ok_iff {written : WrittenSetting} :
    (do return ⟨some (← readLevel rule value), none⟩ : Except ConfigError WrittenSetting) =
      .ok written ↔ ∃ level, value.NamesLevel level ∧ written = ⟨some level, none⟩ := by
  rw [bind_eq_ok_iff]
  simp only [readLevel_eq_ok_iff, pure, Except.pure, Except.ok.injEq, eq_comm]

theorem readWritten_object_eq_ok_iff {written : WrittenSetting} :
    readWritten rule (.object entries) = .ok written ↔
      (∀ key ∈ entries.keys, key = "level" ∨ key = "options") ∧
      Option.Rel Json.NamesLevel (entries.lookup "level") written.level ∧
      entries.lookup "options" = written.options.map .object := by
  obtain ⟨level, options⟩ := written
  have given : (entries.lookup "options").mapM (readOptionsMapping rule) = .ok options ↔
      entries.lookup "options" = options.map .object := by
    simp only [option_mapM_eq_ok_iff, readOptionsMapping_eq_ok_iff]
    cases entries.lookup "options" <;> cases options <;> simp
  have named : (entries.lookup "level").mapM (readLevel rule) = .ok level ↔
      Option.Rel Json.NamesLevel (entries.lookup "level") level := by
    simp only [option_mapM_eq_ok_iff, readLevel_eq_ok_iff]
  rw [← unexpectedSettingKeys_isEmpty_iff, ← named, ← given, readWritten]
  split
  · rename_i known
    simp only [known, true_and]
    constructor
    · intro read
      obtain ⟨options, optionsRead, rest⟩ := bind_eq_ok_iff.mp read
      obtain ⟨level, levelRead, finish⟩ := bind_eq_ok_iff.mp rest
      cases finish
      exact ⟨levelRead, optionsRead⟩
    · rintro ⟨levelRead, optionsRead⟩
      exact bind_eq_ok_iff.mpr ⟨options, optionsRead, bind_eq_ok_iff.mpr ⟨level, levelRead, rfl⟩⟩
  · rename_i unknown
    simp [unknown]

/-- What is read of a value is what its form writes. -/
theorem readWritten_eq_ok_iff {written : WrittenSetting} :
    readWritten rule value = .ok written ↔ value.WritesSetting written := by
  constructor
  · intro read
    cases value with
    | array items =>
        rcases items with _ | ⟨value, _ | ⟨options, _ | _⟩⟩
        · cases read
        · obtain ⟨level, named, rfl⟩ := readWritten_level_eq_ok_iff.mp read
          exact .listed named
        · obtain ⟨options, given, rest⟩ := bind_eq_ok_iff.mp read
          obtain ⟨level, named, finish⟩ := bind_eq_ok_iff.mp rest
          cases finish
          obtain rfl := readOptionsMapping_eq_ok_iff.mp given
          exact .withOptions (readLevel_eq_ok_iff.mp named)
        · cases read
    | object entries =>
        obtain ⟨known, named, given⟩ := readWritten_object_eq_ok_iff.mp read
        exact .mapping known named given
    -- a value of any other kind is read as a level
    | _ =>
        obtain ⟨level, named, rfl⟩ := readWritten_level_eq_ok_iff.mp read
        exact .level named
  · rintro (named | named | named | ⟨known, named, given⟩)
    · cases named with
      | label => exact readWritten_level_eq_ok_iff.mpr ⟨_, .label _, rfl⟩
      | false => rfl
    · exact readWritten_level_eq_ok_iff.mpr ⟨_, named, rfl⟩
    · exact bind_eq_ok_iff.mpr ⟨_, rfl, bind_eq_ok_iff.mpr ⟨_, readLevel_eq_ok_iff.mpr named, rfl⟩⟩
    · exact readWritten_object_eq_ok_iff.mpr ⟨known, named, given⟩

end Forms

/-! ## Settings that are left -/

namespace Preset

variable {preset : Preset} {name : String}

@[simp]
theorem ofName?_name (preset : Preset) : ofName? preset.name = some preset := by
  cases preset <;> rfl

theorem name_eq_of_ofName? (named : ofName? name = some preset) : name = preset.name := by
  have found := List.find?_some named
  exact (beq_iff_eq.mp found).symm

/-- The setting that overrides leave a rule with, on the settings of a preset. -/
inductive Leaves (preset : Preset) (overrides : JsonObject) (rule : Rule) : RuleSetting → Prop
  | kept (absent : rule.name ∉ overrides.keys) : Leaves preset overrides rule (preset.table rule)
  | overridden {value : Json} {written : WrittenSetting}
      (listed : (rule.name, value) ∈ overrides) (writes : value.WritesSetting written) :
    Leaves preset overrides rule (written.on (preset.table rule))

variable {overrides : JsonObject} {rule : Rule} {setting other : RuleSetting}

/-- What overrides leave is told by looking up the name of the rule among them. -/
theorem leaves_iff (mapping : overrides.IsMapping) : preset.Leaves overrides rule setting ↔
    match overrides.lookup rule.name with
    | some value => ∃ written, readWritten rule.name value = .ok written ∧
        setting = written.on (preset.table rule)
    | none => setting = preset.table rule := by
  constructor
  · rintro (absent | ⟨listed, writes⟩)
    · rw [lookup_eq_none_iff_not_mem_keys.mpr absent]
    · rw [lookup_of_mem mapping listed]
      exact ⟨_, readWritten_eq_ok_iff.mpr writes, rfl⟩
  · intro told
    split at told
    · rename_i value found
      obtain ⟨written, read, rfl⟩ := told
      exact .overridden (mem_of_lookup_eq_some found) (readWritten_eq_ok_iff.mp read)
    · rename_i found
      rw [told]
      exact .kept (lookup_eq_none_iff_not_mem_keys.mp found)

theorem Leaves.eq (mapping : overrides.IsMapping) (first : preset.Leaves overrides rule setting)
    (second : preset.Leaves overrides rule other) : setting = other := by
  rw [leaves_iff mapping] at first second
  split at first
  · rename_i value found
    obtain ⟨written, read, rfl⟩ := first
    rw [found] at second
    obtain ⟨again, readAgain, rfl⟩ := second
    cases read.symm.trans readAgain
    rfl
  · rename_i found
    rw [found] at second
    exact first.trans second.symm

/-- Overrides that all have a form leave every rule with some setting. -/
theorem exists_leaves (formed : ∀ entry ∈ overrides, ∃ written, entry.2.WritesSetting written)
    (preset : Preset) (rule : Rule) : ∃ setting, preset.Leaves overrides rule setting := by
  by_cases present : rule.name ∈ overrides.keys
  · obtain ⟨⟨name, value⟩, listed, same⟩ := List.mem_map.mp present
    obtain rfl : name = rule.name := same
    obtain ⟨written, writes⟩ := formed _ listed
    exact ⟨_, .overridden listed writes⟩
  · exact ⟨_, .kept present⟩

theorem laidOver_iff_leaves {table : RuleTable} (mapping : overrides.IsMapping) :
    preset.table.LaidOver overrides table ↔ ∀ rule, preset.Leaves overrides rule (table rule) :=
  forall_congr' fun _ => (leaves_iff mapping).symm

end Preset

/-! ## When settings resolve -/

section Resolution

variable {preset : String} {overrides : JsonObject} {table : RuleTable}

theorem layeredRules_eq_ok_iff (mapping : overrides.IsMapping) :
    layeredRules preset overrides = .ok table ↔ ∃ known : Preset, preset = known.name ∧
      (∀ name ∈ overrides.keys, ∃ rule, name = Rule.name rule) ∧
      (∀ rule, known.Leaves overrides rule (table rule)) ∧ table.HasValidOptions := by
  constructor
  · intro layered
    unfold layeredRules at layered
    split at layered
    · cases layered
    · rename_i known named
      obtain ⟨whole, laid, checked⟩ := bind_eq_ok_iff.mp layered
      obtain ⟨rfl, valid⟩ := RuleTable.validated_eq_ok_iff.mp checked
      obtain ⟨names, leaves⟩ := (RuleTable.overrideAll_eq_ok_iff mapping).mp laid
      exact ⟨known, Preset.name_eq_of_ofName? named, names,
        (Preset.laidOver_iff_leaves mapping).mp leaves, valid⟩
  · rintro ⟨known, rfl, names, leaves, valid⟩
    have laid : known.table.overrideAll overrides = .ok table :=
      (RuleTable.overrideAll_eq_ok_iff mapping).mpr
        ⟨names, (Preset.laidOver_iff_leaves mapping).mpr leaves⟩
    have checked : table.validated = .ok table :=
      RuleTable.validated_eq_ok_iff.mpr ⟨rfl, valid⟩
    rw [layeredRules, Preset.ofName?_name]
    exact bind_eq_ok_iff.mpr ⟨table, laid, checked⟩

/-- What can be wrong with the name of a preset and with overrides. -/
inductive Misconfigured (preset : String) (overrides : JsonObject) : Prop
  | unknownPreset (unknown : ∀ known : Preset, preset ≠ known.name)
  | unknownRule {name : String} (listed : name ∈ overrides.keys)
      (unknown : ∀ rule : Rule, name ≠ rule.name)
  | badForm {name : String} {value : Json} (listed : (name, value) ∈ overrides)
      (formless : ∀ written, ¬value.WritesSetting written)
  | badOptions {known : Preset} {rule : Rule} {setting : RuleSetting}
      (named : preset = known.name) (leaves : known.Leaves overrides rule setting)
      (violated : rule.optionsSchema.errors (.object setting.options) ≠ [])

theorem Misconfigured.not_eq_ok (mapping : overrides.IsMapping)
    (wrong : Misconfigured preset overrides) : layeredRules preset overrides ≠ .ok table := by
  intro layered
  obtain ⟨known, rfl, names, leaves, valid⟩ := (layeredRules_eq_ok_iff mapping).mp layered
  cases wrong with
  | unknownPreset unknown => exact unknown known rfl
  | unknownRule listed unknown =>
      obtain ⟨rule, named⟩ := names _ listed
      exact unknown rule named
  | badForm listed formless =>
      obtain ⟨rule, rfl⟩ := names _ (List.mem_map_of_mem listed)
      have left := (Preset.leaves_iff mapping).mp (leaves rule)
      rw [lookup_of_mem mapping listed] at left
      obtain ⟨written, read, -⟩ := left
      exact formless written (readWritten_eq_ok_iff.mp read)
  | @badOptions other rule setting named left violated =>
      obtain rfl : known = other := by
        have found := Preset.ofName?_name known
        rw [named, Preset.ofName?_name] at found
        exact (Option.some.inj found).symm
      have same := (leaves rule).eq mapping left
      have accepted := valid rule
      rw [same] at accepted
      exact violated (Rule.optionsError?_eq_none_iff.mp accepted)

/-- Resolving fails exactly if something is wrong. -/
theorem exists_error_iff_misconfigured (mapping : overrides.IsMapping) :
    (∃ error, layeredRules preset overrides = .error error) ↔ Misconfigured preset overrides := by
  constructor
  · rintro ⟨error, failed⟩
    by_contra right
    obtain ⟨known, rfl⟩ : ∃ known : Preset, preset = known.name := by
      by_contra unknown
      exact right (.unknownPreset (not_exists.mp unknown))
    have names : ∀ name ∈ overrides.keys, ∃ rule, name = Rule.name rule := by
      intro name listed
      by_contra unknown
      exact right (.unknownRule listed (not_exists.mp unknown))
    have formed : ∀ entry ∈ overrides, ∃ written, entry.2.WritesSetting written := by
      intro entry listed
      by_contra formless
      exact right (.badForm listed (not_exists.mp formless))
    -- with nothing wrong so far there is a table to succeed with, or options are to blame
    choose table leaves using known.exists_leaves formed
    have valid : RuleTable.HasValidOptions table := by
      intro rule
      by_contra violated
      exact right (.badOptions rfl (leaves rule)
        fun accepted => violated (Rule.optionsError?_eq_none_iff.mpr accepted))
    have layered := (layeredRules_eq_ok_iff mapping).mpr ⟨known, rfl, names, leaves, valid⟩
    cases failed.symm.trans layered
  · intro wrong
    cases outcome : layeredRules preset overrides with
    | error error => exact ⟨error, rfl⟩
    | ok table => exact absurd outcome (wrong.not_eq_ok mapping)

end Resolution

/-! ## Errors that are told -/

section Telling

variable {preset : String} {overrides : JsonObject} {error : ConfigError}

/-- The options that a value writes are a part of it. -/
theorem Json.WritesSetting.isWritable_options {value : Json} {written : WrittenSetting}
    {options : JsonObject} (writes : value.WritesSetting written)
    (writable : value.isWritable = true) (given : written.options = some options) :
    (Json.object options).isWritable = true := by
  cases writes with
  | level => cases given
  | listed => cases given
  | withOptions =>
      cases given
      exact isWritable_array_iff.mp writable (.object options) (by simp)
  | mapping _ _ found =>
      cases given
      exact isWritable_of_lookup writable found

theorem Preset.isWritable_options (preset : Preset) (rule : Rule) :
    (Json.object (preset.table rule).options).isWritable = true := by
  cases preset <;> cases rule <;> decide +kernel

theorem Preset.Leaves.isWritable_options {preset : Preset} {rule : Rule} {setting : RuleSetting}
    (leaves : preset.Leaves overrides rule setting)
    (writable : (Json.object overrides).isWritable = true) :
    (Json.object setting.options).isWritable = true := by
  cases leaves with
  | kept => exact preset.isWritable_options rule
  | @overridden value written listed writes =>
      have part := (Json.isWritable_object_iff.mp writable _ listed).2
      cases given : written.options with
      | none => simpa [WrittenSetting.on, given] using preset.isWritable_options rule
      | some options =>
          simpa [WrittenSetting.on, given] using writes.isWritable_options part given

theorem fault?_of_override {table : RuleTable} {entry : String × Json}
    (key : JsonObject.isWritableKey entry.1 = true) (writable : entry.2.isWritable = true)
    (failed : table.override entry = .error error) :
    error.fault? = none ∨ entry.2.MixesKeys := by
  unfold RuleTable.override at failed
  split at failed
  · cases failed
    rw [ConfigError.fault?, key]
    exact .inl rfl
  · rw [readSetting_eq, map_eq_error_iff, map_eq_error_iff] at failed
    exact fault?_of_readWritten writable failed

theorem RuleTable.exists_of_optionsError? {table : RuleTable} {rules : List Rule}
    (found : table.optionsError? rules = some error) : ∃ rule own,
      rule.optionsError? (table rule).options = some own ∧ error = .badOptions rule own := by
  induction rules with
  | nil => cases found
  | cons rule rules inductionHypothesis =>
      rw [optionsError?, Rule.configure, Rule.readOptions] at found
      cases violated : rule.optionsError? (table rule).options with
      | some own =>
          rw [violated] at found
          cases found
          exact ⟨rule, own, violated, rfl⟩
      | none =>
          rw [violated] at found
          exact inductionHypothesis found

/-- Overrides that can be written resolve, or it is told why not, but for a mapping with mixed
keys. -/
theorem fault?_of_layeredRules (mapping : overrides.IsMapping)
    (writable : (Json.object overrides).isWritable = true)
    (failed : layeredRules preset overrides = .error error) :
    error.fault? = none ∨ ∃ entry ∈ overrides, entry.2.MixesKeys := by
  have parts := Json.isWritable_object_iff.mp writable
  unfold layeredRules at failed
  split at failed
  · cases failed
    exact .inl rfl
  · rename_i known named
    rcases bind_eq_error_iff.mp failed with unlaid | ⟨table, laid, unchecked⟩
    · obtain ⟨before, entry, listed, here⟩ := exists_of_foldlM_eq_error unlaid
      obtain ⟨key, value⟩ := parts entry listed
      exact (fault?_of_override key value here).imp_right fun mixed => ⟨entry, listed, mixed⟩
    · left
      obtain ⟨-, leaves⟩ := (RuleTable.overrideAll_eq_ok_iff mapping).mp laid
      unfold RuleTable.validated at unchecked
      split at unchecked <;> cases unchecked
      rename_i found
      obtain ⟨rule, own, violated, rfl⟩ := RuleTable.exists_of_optionsError? found
      have left := ((Preset.laidOver_iff_leaves mapping).mp leaves rule).isWritable_options writable
      rw [ConfigError.fault?, Schema.isWritable_of_endingError left violated]
      rfl

/-- A level that is a number with too many digits to be written is not told. -/
theorem exists_untold_of_unwritable (known : Preset) (rule : Rule) {level : Int}
    (long : (Number.int level).isWritable = false) :
    ∃ error, layeredRules known.name [(rule.name, .int level)] = .error error ∧
      error.fault? = some .tooManyDigits := by
  refine ⟨.badLevel rule.name (.int level), ?_, ?_⟩
  · rw [layeredRules, Preset.ofName?_name]
    have refused : known.table.override (rule.name, .int level) =
        .error (.badLevel rule.name (.int level)) := by
      rw [RuleTable.override, Rule.ofName?_name]
      rfl
    refine bind_eq_error_iff.mpr (.inl ?_)
    rw [RuleTable.overrideAll, List.foldlM_cons, refused]
    rfl
  · rw [ConfigError.fault?, Json.int, Json.isWritable, long]
    rfl

end Telling

/-! ## Options as mappings -/

theorem Json.WritesSetting.isMapping_options {value : Json} {written : WrittenSetting}
    {options : JsonObject} (writes : value.WritesSetting written) (once : value.NamesKeysOnce)
    (given : written.options = some options) : options.IsMapping := by
  cases writes with
  | level => cases given
  | listed => cases given
  | withOptions =>
      cases given
      cases once with
      | array parts => exact (parts (.object options) (by simp)).isMapping
  | mapping known named found =>
      cases given
      cases once with
      | object mapping parts => exact (parts _ (mem_of_lookup_eq_some found)).isMapping

theorem Preset.isMapping_options (preset : Preset) (rule : Rule) :
    (preset.table rule).options.IsMapping := by
  cases preset <;> cases rule <;> decide

theorem Preset.Leaves.isMapping_options {preset : Preset} {overrides : JsonObject} {rule : Rule}
    {setting : RuleSetting} (leaves : preset.Leaves overrides rule setting)
    (once : (Json.object overrides).NamesKeysOnce) : setting.options.IsMapping := by
  cases leaves with
  | kept => exact preset.isMapping_options rule
  | @overridden value written listed writes =>
      cases once with
      | object _ parts =>
          cases given : written.options with
          | none => simpa [WrittenSetting.on, given] using preset.isMapping_options rule
          | some options =>
              have mapping := writes.isMapping_options (parts _ listed) given
              simpa [WrittenSetting.on, given] using mapping

/-! ## Analyzers of resolved settings -/

/-- What the analyzers of a table are: one for each rule that is not off, in the order of the
names, on the severity of the level, with every option in its field and the defaults elsewhere. -/
structure RuleTable.ServedBy (table : RuleTable) (analyzers : List Analyzer) : Prop where
  enabled : ∀ rule, rule ∈ analyzers.map Analyzer.rule ↔ (table rule).level ≠ .off
  increasing : (analyzers.map fun analyzer => analyzer.rule.name).Pairwise (· < ·)
  medium : ∀ analyzer ∈ analyzers,
    (table analyzer.rule).level = .warn → analyzer.severity = .medium
  high : ∀ analyzer ∈ analyzers,
    (table analyzer.rule).level = .error → analyzer.severity = .high
  fields : ∀ analyzer ∈ analyzers, analyzer.options.toValues =
    analyzer.rule.optionSpecs.map fun spec =>
      (spec.name, ((table analyzer.rule).options.lookup spec.name).getD spec.default)

@[simp]
theorem RuleOptions.rule_ofValues (values : JsonObject) (rule : Rule) :
    (ofValues values rule).rule = rule := by
  cases rule <;> rfl

theorem Rule.mem_alphabetical (rule : Rule) : rule ∈ alphabetical := by
  cases rule <;> simp [alphabetical]

theorem Rule.increasing_alphabetical :
    (alphabetical.map Rule.name).Pairwise (· < ·) := by
  decide

namespace RuleTable

variable {table : RuleTable} {rule : Rule} {analyzers : List Analyzer}

theorem mem_activeRules_iff : rule ∈ table.activeRules ↔ (table rule).level ≠ .off := by
  simp [activeRules, Rule.mem_alphabetical, RuleSetting.enabled]

/-- The analyzers are those of the rules that are not off, in their order. -/
theorem map_rule_eq_activeRules (valid : table.HasValidOptions)
    (made : table.analyzers = .ok analyzers) : analyzers.map Analyzer.rule = table.activeRules := by
  refine map_eq_of_mapM_eq_ok (fun rule _ analyzer analyzerMade => ?_) made
  rw [analyzer_eq_ok (valid rule)] at analyzerMade
  cases analyzerMade
  exact RuleOptions.rule_ofValues _ rule

/-- Every analyzer has the options and the severity of its rule. -/
theorem eq_of_mem_analyzers (valid : table.HasValidOptions)
    (made : table.analyzers = .ok analyzers) :
    ∀ analyzer ∈ analyzers, analyzer =
      ⟨.ofValues (analyzer.rule.usualOptions.merge (table analyzer.rule).options) analyzer.rule,
        (table analyzer.rule).severity⟩ := by
  intro analyzer listed
  obtain ⟨rule, -, analyzerMade⟩ := exists_of_mapM_eq_ok made analyzer listed
  rw [analyzer_eq_ok (valid rule)] at analyzerMade
  cases analyzerMade
  simp [Analyzer.rule]

theorem servedBy_of_analyzers (valid : table.HasValidOptions)
    (mappings : ∀ rule, (table rule).options.IsMapping)
    (made : table.analyzers = .ok analyzers) : table.ServedBy analyzers where
  enabled := fun rule => by
    rw [map_rule_eq_activeRules valid made]
    exact mem_activeRules_iff
  increasing := by
    have names : analyzers.map (fun analyzer => analyzer.rule.name) =
        table.activeRules.map Rule.name := by
      rw [← map_rule_eq_activeRules valid made, List.map_map]
      rfl
    rw [names]
    exact Rule.increasing_alphabetical.sublist (List.Sublist.map _ List.filter_sublist)
  medium := fun analyzer listed level => by
    rw [eq_of_mem_analyzers valid made analyzer listed]
    simp [RuleSetting.severity, level, Level.severity]
  high := fun analyzer listed level => by
    rw [eq_of_mem_analyzers valid made analyzer listed]
    simp [RuleSetting.severity, level, Level.severity]
  fields := fun analyzer listed => by
    have own := congrArg Analyzer.options (eq_of_mem_analyzers valid made analyzer listed)
    rw [own]
    exact RuleOptions.toValues_merge (valid analyzer.rule) (mappings analyzer.rule)

end RuleTable

/-- Settings resolve unless something is wrong with them. What is wrong is told, as long as no
number of the overrides has too many digits to be written and no mapping mixes keys; a level that is
such a number is not told. Resolved settings are those of all twelve rules, each as overrides leave
it and as in the preset where nothing overrides it, and analyzers are made that serve them. -/
theorem layeredRules_resolves_unless_misconfigured (preset : String) (overrides : JsonObject)
    (once : (Json.object overrides).NamesKeysOnce) :
    ((∃ error, layeredRules preset overrides = .error error) ↔ Misconfigured preset overrides) ∧
      ((Json.object overrides).isWritable = true →
        (∀ entry ∈ overrides, ¬entry.2.MixesKeys) →
        ∀ error, layeredRules preset overrides = .error error → error.fault? = none) ∧
      (∀ (known : Preset) (rule : Rule) (level : Int), (Number.int level).isWritable = false →
        ∃ error, layeredRules known.name [(rule.name, .int level)] = .error error ∧
          error.fault? = some .tooManyDigits) ∧
      (Rule.all.Nodup ∧ Rule.all.length = 12 ∧ ∀ rule, rule ∈ Rule.all) ∧
      ∀ table, layeredRules preset overrides = .ok table →
        (∃ known : Preset, preset = known.name ∧ ∀ rule : Rule,
          known.Leaves overrides rule (table rule) ∧
          (rule.name ∉ overrides.keys → table rule = known.table rule)) ∧
        ∃ analyzers, table.analyzers = .ok analyzers ∧ table.ServedBy analyzers := by
  have mapping := once.isMapping
  have told (writable : (Json.object overrides).isWritable = true)
      (unmixed : ∀ entry ∈ overrides, ¬entry.2.MixesKeys) (error : ConfigError)
      (failed : layeredRules preset overrides = .error error) : error.fault? = none :=
    (fault?_of_layeredRules mapping writable failed).resolve_right
      fun ⟨entry, listed, mixed⟩ => unmixed entry listed mixed
  refine ⟨exists_error_iff_misconfigured mapping, told,
    fun known rule _ => exists_untold_of_unwritable known rule,
    ⟨by decide, rfl, Rule.mem_all⟩, ?_⟩
  intro table layered
  obtain ⟨known, named, -, leaves, valid⟩ := (layeredRules_eq_ok_iff mapping).mp layered
  have mappings (rule : Rule) : (table rule).options.IsMapping :=
    (leaves rule).isMapping_options once
  obtain ⟨analyzers, made, -⟩ := RuleTable.exists_analyzers valid mappings
  have kept (rule : Rule) (absent : rule.name ∉ overrides.keys) :
      table rule = known.table rule :=
    (leaves rule).eq mapping (.kept absent)
  exact ⟨⟨known, named, fun rule => ⟨leaves rule, kept rule⟩⟩, analyzers, made,
    RuleTable.servedBy_of_analyzers valid mappings made⟩

/-- Overrides that make a nesting deeper than five an error, and numbers no matter. -/
def fiveDeep : JsonObject := [
  ("max-nesting-depth", .array [.string "error", .object [("maxDepth", .nat 5)]]),
  ("no-magic-numbers-except-zero-one", .bool false)]

theorem namesKeysOnce_fiveDeep : (Json.object fiveDeep).NamesKeysOnce := by
  have options : (Json.object [("maxDepth", .nat 5)]).NamesKeysOnce :=
    .object (by decide) (List.forall_mem_singleton.mpr (.number _))
  have nesting : (Json.array [.string "error", .object [("maxDepth", .nat 5)]]).NamesKeysOnce :=
    .array (List.forall_mem_cons.mpr ⟨.string _, List.forall_mem_singleton.mpr options⟩)
  exact .object (by decide) (List.forall_mem_cons.mpr
    ⟨nesting, List.forall_mem_singleton.mpr (.bool false)⟩)

/-- The depth reaches the analyzer for nesting, and no analyzer looks for numbers. A number of
4301 digits as a level is refused without a word. -/
theorem layeredRules_fiveDeep : (∃ table analyzers,
    layeredRules "recommended" fiveDeep = .ok table ∧ table.analyzers = .ok analyzers ∧
      ⟨.nesting ⟨5⟩, .high⟩ ∈ analyzers ∧ Rule.literals ∉ analyzers.map Analyzer.rule) ∧
    ∃ error, layeredRules "recommended" [("max-nesting-depth", .int (10 ^ Numeral.digitLimit))] =
        .error error ∧
      error.fault? = some .tooManyDigits := by
  let table := (Preset.recommended.table.set .nesting ⟨.error, [("maxDepth", .nat 5)]⟩).set
    .literals ⟨.off, (Preset.recommended.table .literals).options⟩
  have laid : Preset.recommended.table.overrideAll fiveDeep = .ok table := rfl
  have valid : table.HasValidOptions := by
    intro rule
    rw [← Option.isNone_iff_eq_none]
    cases rule <;> decide +kernel
  have layered : layeredRules "recommended" fiveDeep = .ok table :=
    bind_eq_ok_iff.mpr ⟨table, laid, RuleTable.validated_eq_ok_iff.mpr ⟨rfl, valid⟩⟩
  obtain ⟨-, -, untold, -, resolved⟩ :=
    layeredRules_resolves_unless_misconfigured "recommended" fiveDeep namesKeysOnce_fiveDeep
  obtain ⟨-, analyzers, made, served⟩ := resolved table layered
  refine ⟨⟨table, analyzers, layered, made, ?_, ?_⟩,
    untold .recommended .nesting _ (by decide +kernel)⟩
  · obtain ⟨analyzer, listed, same⟩ := List.mem_map.mp ((served.enabled .nesting).mpr nofun)
    rw [RuleTable.eq_of_mem_analyzers valid made analyzer listed, same] at listed
    exact listed
  · rw [served.enabled]
    exact not_not.mpr rfl

end DesignLint
