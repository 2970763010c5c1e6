import DesignLint.Config.Error
import DesignLint.Text.Search
import DesignLint.Text.Unicode

/-!
# Reading settings of rules

A configuration writes the setting of a rule as a level, as a list of a level
and options, or as a mapping. What is not written is taken from the setting so
far. The truth value `false` is another way to write the level `off`.
-/

namespace DesignLint

/-- The level that a value names. -/
def readLevel (rule : String) (value : Json) : Except ConfigError Level :=
  match value with
  | .bool false => .ok .off
  | .string label =>
    match Level.ofLabel? label with
    | some level => .ok level
    | none => .error (.badLevel rule value)
  | _ => .error (.badLevel rule value)

/-- The options that a value holds. -/
def readOptionsMapping (rule : String) (value : Json) : Except ConfigError JsonObject :=
  match value with
  | .object entries => .ok entries
  | _ => .error (.optionsNotMapping rule)

/-- The keys of a mapping that a setting does not have, in increasing order where they have
one. -/
def unexpectedSettingKeys (entries : JsonObject) : List String :=
  ((entries.map (·.1)).filter fun key => key != "level" && key != "options").mergeSort
    JsonObject.keyLe

/-- The level where none is written: the one so far, or a warning. -/
def inheritedLevel : Option RuleSetting → Level
  | some base => base.level
  | none => .warn

/-- The options where none are written: the ones so far. -/
def inheritedOptions : Option RuleSetting → JsonObject
  | some base => base.options
  | none => []

/-- The setting that a value stands for, given the setting so far. -/
def readSetting (rule : String) (value : Json) (base : Option RuleSetting) :
    Except ConfigError RuleSetting :=
  let inherited := inheritedOptions base
  match value with
  | .array [level] => do
    return ⟨← readLevel rule level, inherited⟩
  | .array [level, options] => do
    let options ← readOptionsMapping rule options
    return ⟨← readLevel rule level, options⟩
  | .array _ => .error (.badListLength rule)
  | .object entries =>
    let unexpected := unexpectedSettingKeys entries
    if unexpected.isEmpty then do
      let options ← readOptionsMapping rule ((entries.lookup "options").getD (.object inherited))
      let level := (entries.lookup "level").getD (.string (inheritedLevel base).label)
      return ⟨← readLevel rule level, options⟩
    else .error (.unexpectedKeys rule unexpected)
  | value => do
    return ⟨← readLevel rule value, inherited⟩

/-! ## Settings on the command line

A flag sets one rule: the name of the rule, an equals sign and a level. The bare
name lets the rule warn. -/

/-- The override that a flag stands for. -/
def readRuleFlag (flag : String) : Except ConfigError (String × Json) :=
  let (name, level) := splitAtFirst '=' flag
  let name := Unicode.trim name
  if name.isEmpty then .error (.namelessRule flag)
  else .ok (name, .string (match level with
    | some level => Unicode.trim level
    | none => Level.warn.label))

/-- The overrides that flags stand for. A later flag for the same rule takes the place of
an earlier one. -/
def readRuleFlags (flags : List String) : Except ConfigError JsonObject :=
  flags.foldlM (fun (overrides : JsonObject) flag =>
    (readRuleFlag flag).map fun entry => overrides.set entry.1 entry.2) []

end DesignLint
