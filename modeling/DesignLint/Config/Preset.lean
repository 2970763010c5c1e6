import DesignLint.Config.Level
import DesignLint.Rule.Basic

/-!
# Presets

A table of settings has one setting for every rule. Presets are ready-made
tables with a name; a rule that a preset does not mention is off.
-/

namespace DesignLint

/-! ## Tables of settings -/

/-- A setting for every rule. -/
abbrev RuleTable := Rule → RuleSetting

namespace RuleTable

/-- The table with all rules off. -/
def allOff : RuleTable := fun _ => ⟨.off, []⟩

/-- The table with another setting for one rule. -/
def set (table : RuleTable) (rule : Rule) (setting : RuleSetting) : RuleTable :=
  fun other => if other = rule then setting else table other

/-- The rules that are checked, in increasing order of their names. -/
def activeRules (table : RuleTable) : List Rule :=
  Rule.alphabetical.filter fun rule => (table rule).enabled

end RuleTable

/-! ## Presets -/

/-- The presets. -/
inductive Preset where
  | recommended | strict | relaxed | all
deriving DecidableEq, Repr

/-- Whole numbers as an array. -/
private def wholeNumbers (values : List Int) : Json := .array (values.map .int)

namespace Preset

/-- The presets in increasing order of their names. -/
def alphabetical : List Preset := [all, recommended, relaxed, strict]

/-- The name of a preset. -/
def name : Preset → String
  | recommended => "recommended"
  | strict => "strict"
  | relaxed => "relaxed"
  | all => "all"

/-- The preset with a name. -/
def ofName? (name : String) : Option Preset :=
  alphabetical.find? fun preset => preset.name == name

/-- The preset that is used when none is chosen. -/
def standard : Preset := recommended

/-- The recommended settings. -/
def recommendedTable : RuleTable
  | .nesting => ⟨.warn, [("maxDepth", .nat 3)]⟩
  | .conditions => ⟨.warn, [("maxOperators", .nat 3)]⟩
  | .lateArguments => ⟨.warn, [("maxLinesBetweenDeclarationAndUsage", .nat 10)]⟩
  | .lateVariables => ⟨.warn, [("maxLinesBetweenDeclarationAndUsage", .nat 5)]⟩
  | .literals => ⟨.warn, [
      ("ignore", wholeNumbers [0, 1, -1, 2, 10, 24, 60, 100, 1000]),
      ("ignoreArrayIndexes", .bool true),
      ("ignoreDefaultValues", .bool true)]⟩
  | _ => ⟨.off, []⟩

/-- The strict settings. Cohesion only warns. -/
def strictTable : RuleTable
  | .nesting => ⟨.error, [("maxDepth", .nat 2)]⟩
  | .conditions => ⟨.error, [("maxOperators", .nat 2)]⟩
  | .lateArguments => ⟨.error, [("maxLinesBetweenDeclarationAndUsage", .nat 5)]⟩
  | .lateVariables => ⟨.error, [("maxLinesBetweenDeclarationAndUsage", .nat 3)]⟩
  | .literals => ⟨.error, [
      ("ignore", wholeNumbers [0, 1, -1]),
      ("ignoreArrayIndexes", .bool true),
      ("ignoreDefaultValues", .bool true)]⟩
  | .naming => ⟨.error, [
      ("minLength", .nat 3),
      ("allowedNames", .strings ["id", "i", "j", "k", "x", "y", "z", "e", "_", "a", "b"]),
      ("disallowedNames", .strings ["temp", "tmp", "foo", "bar", "baz", "test", "data"])]⟩
  | .booleans => ⟨.error, [("ignoreDefault", .bool true)]⟩
  | .functionCohesion => ⟨.warn, [
      ("minSharedVariablePercentage", .nat 40), ("minFunctionLength", .nat 15)]⟩
  | .classCohesion => ⟨.warn, [
      ("minSharedPropertyPercentage", .nat 40), ("minClassLength", .nat 5)]⟩
  | _ => ⟨.off, []⟩

/-- The relaxed settings. -/
def relaxedTable : RuleTable
  | .nesting => ⟨.warn, [("maxDepth", .nat 4)]⟩
  | .conditions => ⟨.warn, [("maxOperators", .nat 4)]⟩
  | _ => ⟨.off, []⟩

/-- The settings of a preset. -/
def table : Preset → RuleTable
  | recommended => recommendedTable
  | strict => strictTable
  | relaxed => relaxedTable
  | all => fun _ => ⟨.warn, []⟩

end Preset

end DesignLint
