import DesignLint.Proofs.Config.Layering
import DesignLint.Proofs.Outcome
import DesignLint.Proofs.Schema.Acceptance

/-!
# Options that reach their fields

The options of every rule of a configuration have been checked, so every enabled rule becomes an
analyzer. Where an option is a percentage, written or left to its default, the analyzer has a whole
number between zero and a hundred.

Options that a rule accepts are read into the record of its check. Every field holds the value that
is given under the name of the option, or the default where none is given: an accepted value has the
form in which its kind is read, so nothing of it is lost.
-/

namespace DesignLint

/-! ## Documents that are accepted -/

theorem SchemaError.leading_eq_none_iff {errors : List SchemaError} :
    SchemaError.leading errors = none ↔ errors = [] := by
  cases errors <;> simp [SchemaError.leading]

theorem Schema.firstError_eq_none_iff {schema : Schema} {document : Json} :
    schema.firstError document = none ↔ schema.errors document = [] :=
  SchemaError.leading_eq_none_iff

theorem Schema.endingError_eq_none_iff {schema : Schema} {document : Json} :
    schema.endingError document = none ↔ schema.errors document = [] := by
  rw [endingError, Option.or_eq_none_iff, firstError_eq_none_iff]
  refine ⟨And.right, fun none => ⟨?_, none⟩⟩
  rw [none, List.find?_nil]

section Options

variable {rule : Rule} {options : JsonObject}

theorem Rule.optionsError?_eq_none_iff :
    rule.optionsError? options = none ↔ rule.optionsSchema.errors (.object options) = [] :=
  Schema.endingError_eq_none_iff

/-- A value that is given for an option meets the schema of the option. -/
theorem Rule.passes_option (valid : rule.optionsError? options = none) {spec : OptionSpec}
    (listed : spec ∈ rule.optionSpecs) {value : Json}
    (found : options.lookup spec.name = some value) :
    spec.schema.Passes value := by
  have passes : rule.optionsSchema.Passes (.object options) :=
    ⟨[], Rule.optionsError?_eq_none_iff.mp valid⟩
  exact (passes.constraint 1 rfl).property_of_mem (List.mem_map_of_mem listed) found

/-- A value of an option that takes whole numbers up to a bound is such a number. -/
theorem Rule.exists_number_of_option (valid : rule.optionsError? options = none)
    {name : String} {most : Nat} {usual : Json}
    (listed : ⟨name, .whole 0 (some most), usual⟩ ∈ rule.optionSpecs) {value : Json}
    (found : options.lookup name = some value) :
    ∃ number, value = .number number ∧ number.Within most ∧ number.isWhole = true := by
  have passes := Rule.passes_option valid listed found
  have integer : JsonType.integer.holds value = true :=
    (passes.of_mem (by simp [OptionKind.constraints])).holds
  obtain ⟨number, rfl, whole⟩ := JsonType.holds_integer_iff.mp integer
  obtain ⟨_, least⟩ : (Constraint.minimum 0).Passes _ (.number number) :=
    passes.of_mem (by simp [OptionKind.constraints])
  obtain ⟨_, bound⟩ : (Constraint.maximum most).Passes _ (.number number) :=
    passes.of_mem (by simp [OptionKind.constraints])
  have above : (!number.lt 0) = true := violationUnless_eq_nil_iff.mp least
  have below : (!(Number.int most).lt number) = true := violationUnless_eq_nil_iff.mp bound
  refine ⟨number, rfl, ?_, whole⟩
  rw [Number.within_iff_lt (Number.exists_point_of_isWhole whole)]
  exact ⟨by simpa using above, by simpa using below⟩

/-- The value of an option that takes whole numbers up to a bound, given or left to its default, is
such a number. -/
theorem Rule.number_of_option (valid : rule.optionsError? options = none)
    (mapping : options.IsMapping) {name : String} {most usual : Nat}
    (listed : ⟨name, .whole 0 (some most), .nat usual⟩ ∈ rule.optionSpecs)
    (standard : rule.usualOptions.lookup name = some (.nat usual)) (le : usual ≤ most) :
    (OptionValues.number (rule.usualOptions.merge options) name).Within most ∧
      (OptionValues.number (rule.usualOptions.merge options) name).isWhole = true := by
  unfold OptionValues.number
  rw [JsonObject.lookup_merge mapping, standard]
  cases found : options.lookup name with
  | none =>
      refine ⟨⟨_, rfl, ?_, ?_⟩, rfl⟩
      · rw [Rat.ofInt_eq_cast]
        exact_mod_cast Nat.zero_le usual
      · rw [Rat.ofInt_eq_cast]
        exact_mod_cast le
  | some value =>
      obtain ⟨number, rfl, within, whole⟩ := Rule.exists_number_of_option valid listed found
      exact ⟨within, whole⟩

/-- Options whose percentage, if they have one, is a whole number up to a hundred. -/
def RuleOptions.HasPercentage : RuleOptions → Prop
  | functionCohesion limits | classCohesion limits =>
      limits.minSharedPercentage.Within 100 ∧ limits.minSharedPercentage.isWhole = true
  | _ => True

theorem RuleOptions.hasPercentage_ofValues (valid : rule.optionsError? options = none)
    (mapping : options.IsMapping) :
    (ofValues (rule.usualOptions.merge options) rule).HasPercentage := by
  cases rule with
  | functionCohesion =>
      exact Rule.number_of_option valid mapping List.mem_cons_self rfl (by decide)
  | classCohesion =>
      exact Rule.number_of_option valid mapping List.mem_cons_self rfl (by decide)
  | _ => trivial

end Options

/-! ## Analyzers of a configuration -/

theorem RuleTable.analyzer_eq_ok {table : RuleTable} {rule : Rule}
    (valid : rule.optionsError? (table rule).options = none) :
    table.analyzer rule = .ok ⟨.ofValues (rule.usualOptions.merge (table rule).options) rule,
      (table rule).severity⟩ := by
  rw [analyzer, Rule.configure, Rule.readOptions, valid]
  rfl

/-- The rules of a table with valid options become analyzers, with percentages where they have
any. -/
theorem RuleTable.exists_analyzers {table : RuleTable} (valid : table.HasValidOptions)
    (mappings : ∀ rule, (table rule).options.IsMapping) :
    ∃ analyzers, table.analyzers = .ok analyzers ∧
      ∀ analyzer ∈ analyzers, analyzer.options.HasPercentage := by
  obtain ⟨analyzers, made⟩ : ∃ analyzers, table.analyzers = .ok analyzers :=
    exists_mapM_eq_ok fun rule _ => ⟨_, analyzer_eq_ok (valid rule)⟩
  refine ⟨analyzers, made, fun item listed => ?_⟩
  obtain ⟨rule, -, itemEq⟩ := exists_of_mapM_eq_ok made item listed
  rw [analyzer_eq_ok (valid rule)] at itemEq
  cases itemEq
  exact RuleOptions.hasPercentage_ofValues (valid rule) (mappings rule)

theorem hasValidOptions_of_layeredRules {preset : String} {overrides : JsonObject}
    {table : RuleTable} (layered : layeredRules preset overrides = .ok table) :
    table.HasValidOptions := by
  unfold layeredRules at layered
  split at layered
  · cases layered
  · obtain ⟨whole, -, checked⟩ := bind_eq_ok_iff.mp layered
    obtain ⟨rfl, valid⟩ := RuleTable.validated_eq_ok_iff.mp checked
    exact valid

/-- The options of every rule of a configuration have been checked. -/
theorem hasValidOptions_of_configFor {files : FileSystem} {root : FilePath}
    {request : ConfigRequest} {config : ScanConfig} {events : List ScanEvent}
    (configured : configFor files root request = .ok (config, events)) :
    config.rules.HasValidOptions := by
  unfold configFor at configured
  dsimp only at configured
  split at configured <;>
    · obtain ⟨document, -, configured⟩ := bind_eq_ok_iff.mp configured
      obtain ⟨table, layered, configured⟩ := bind_eq_ok_iff.mp configured
      cases configured
      exact hasValidOptions_of_layeredRules (mapError_eq_ok_iff.mp layered)

/-! ## Values of a kind -/

namespace OptionKind

variable {kind : OptionKind} {values : JsonObject} {name : String} {value : Json}

/-- The values that options of a kind take. -/
def Takes : OptionKind → Json → Prop
  | whole _ _, value => ∃ number, value = .number number
  | flag, value => ∃ flag, value = .bool flag
  | texts, value => ∃ texts, value = .strings texts
  | numbers, value => ∃ numbers : List Number, value = .array (numbers.map .number)

theorem takes_of_passes {notes : List Constraint}
    (passes : (Schema.mk (kind.constraints ++ notes)).Passes value) : kind.Takes value := by
  cases kind with
  | whole least most =>
      have integer : JsonType.integer.holds value = true :=
        (passes.of_mem (by simp [constraints])).holds
      obtain ⟨number, rfl, -⟩ := JsonType.holds_integer_iff.mp integer
      exact ⟨number, rfl⟩
  | flag =>
      exact JsonType.holds_boolean_iff.mp (passes.of_mem (by simp [constraints])).holds
  | texts =>
      exact passes.exists_array (fun _ => JsonType.holds_string_iff.mp) (by simp [constraints])
        (by simp [constraints])
  | numbers =>
      exact passes.exists_array (fun _ => JsonType.holds_number_iff.mp) (by simp [constraints])
        (by simp [constraints])

/-- What is read under a name for an option of a kind, written as a value again. -/
def reread (values : JsonObject) (name : String) : OptionKind → Json
  | whole _ _ => .number (OptionValues.number values name)
  | flag => .bool (OptionValues.flag values name)
  | texts => .strings (OptionValues.texts values name)
  | numbers => .array ((OptionValues.numbers values name).map .number)

/-- Nothing of a value that an option takes is lost. -/
theorem reread_eq (takes : kind.Takes value) (found : values.lookup name = some value) :
    kind.reread values name = value := by
  cases kind with
  | whole =>
      obtain ⟨number, rfl⟩ := takes
      rw [reread, OptionValues.number, found]
  | flag =>
      obtain ⟨flag, rfl⟩ := takes
      rw [reread, OptionValues.flag, found]
  | texts =>
      obtain ⟨texts, rfl⟩ := takes
      simp [reread, OptionValues.texts, OptionValues.items, found, Json.strings,
        List.filterMap_map]
  | numbers =>
      obtain ⟨numbers, rfl⟩ := takes
      simp [reread, OptionValues.numbers, OptionValues.items, found, List.filterMap_map]

end OptionKind

/-! ## Fields -/

namespace Rule

variable {rule : Rule} {options : JsonObject}

theorem isMapping_usualOptions (rule : Rule) : rule.usualOptions.IsMapping := by
  cases rule <;> decide

/-- A rule accepts its own defaults. -/
theorem optionsError?_usualOptions (rule : Rule) :
    rule.optionsError? rule.usualOptions = none := by
  rw [← Option.isNone_iff_eq_none]
  cases rule <;> decide +kernel

theorem takes_of_lookup (valid : rule.optionsError? options = none) {spec : OptionSpec}
    (listed : spec ∈ rule.optionSpecs) {value : Json}
    (found : options.lookup spec.name = some value) : spec.kind.Takes value :=
  OptionKind.takes_of_passes (passes_option valid listed found)

theorem lookup_usualOptions {spec : OptionSpec} (listed : spec ∈ rule.optionSpecs) :
    rule.usualOptions.lookup spec.name = some spec.default :=
  JsonObject.lookup_of_mem rule.isMapping_usualOptions (List.mem_map_of_mem listed)

end Rule

theorem RuleOptions.toValues_ofValues (values : JsonObject) (rule : Rule) :
    (ofValues values rule).toValues =
      rule.optionSpecs.map fun spec => (spec.name, spec.kind.reread values spec.name) := by
  cases rule <;> rfl

/-- Every given option that is accepted reaches its field, and every missing one its default. -/
theorem RuleOptions.toValues_merge {rule : Rule} {options : JsonObject}
    (valid : rule.optionsError? options = none) (mapping : options.IsMapping) :
    (ofValues (rule.usualOptions.merge options) rule).toValues =
      rule.optionSpecs.map fun spec =>
        (spec.name, (options.lookup spec.name).getD spec.default) := by
  rw [toValues_ofValues]
  refine List.map_congr_left fun spec listed => ?_
  have usual := Rule.lookup_usualOptions listed
  have merged : (rule.usualOptions.merge options).lookup spec.name =
      some ((options.lookup spec.name).getD spec.default) := by
    rw [JsonObject.lookup_merge mapping, usual]
    cases options.lookup spec.name <;> rfl
  have takes : spec.kind.Takes ((options.lookup spec.name).getD spec.default) := by
    cases given : options.lookup spec.name with
    | none => exact Rule.takes_of_lookup rule.optionsError?_usualOptions listed usual
    | some value => exact Rule.takes_of_lookup valid listed given
  rw [OptionKind.reread_eq takes merged]

end DesignLint
