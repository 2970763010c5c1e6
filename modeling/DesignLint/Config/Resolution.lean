import DesignLint.Config.Setting
import DesignLint.Rule.Analyzer

/-!
# Resolving settings

Overrides are laid over the settings of a preset, and the options of every rule
are checked, also of rules that are off. The enabled rules of a resolved table
become analyzers.
-/

namespace DesignLint

/-- The options of a rule, with defaults where nothing is given. -/
def Rule.configure (rule : Rule) (options : JsonObject) : Except ConfigError RuleOptions :=
  (rule.readOptions options).mapError (.badOptions rule)

namespace RuleTable

/-- The table with one override. -/
def override (table : RuleTable) (entry : String × Json) : Except ConfigError RuleTable :=
  match Rule.ofName? entry.1 with
  | none => .error (.unknownRule entry.1)
  | some rule => (readSetting entry.1 entry.2 (some (table rule))).map (table.set rule)

/-- The table with overrides, one after another. -/
def overrideAll (table : RuleTable) (overrides : JsonObject) : Except ConfigError RuleTable :=
  overrides.foldlM override table

/-- The first rule of a list whose options are not valid. -/
def optionsError? (table : RuleTable) : List Rule → Option ConfigError
  | [] => none
  | rule :: rules =>
    match rule.configure (table rule).options with
    | .error error => some error
    | .ok _ => optionsError? table rules

/-- The table, if the options of all rules are valid. -/
def validated (table : RuleTable) : Except ConfigError RuleTable :=
  match table.optionsError? Rule.all with
  | some error => .error error
  | none => .ok table

/-- The analyzer for a rule. -/
def analyzer (table : RuleTable) (rule : Rule) : Except ConfigError Analyzer :=
  (rule.configure (table rule).options).map fun options => ⟨options, (table rule).severity⟩

/-- The analyzers for the enabled rules, in increasing order of the names. -/
def analyzers (table : RuleTable) : Except ConfigError (List Analyzer) :=
  table.activeRules.mapM table.analyzer

end RuleTable

/-- The settings of a preset with overrides. -/
def layeredRules (preset : String) (overrides : JsonObject) : Except ConfigError RuleTable :=
  match Preset.ofName? preset with
  | none => .error (.unknownPreset (quoted preset))
  | some preset => do
    (← preset.table.overrideAll overrides).validated

end DesignLint
