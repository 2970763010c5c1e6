import DesignLint.Config.Preset
import DesignLint.Rule.Options

/-!
# Listings of rules

A listing shows every rule as a preset sets it: its level, and its options with
the defaults where the preset leaves them open.
-/

namespace DesignLint

/-- A rule as a preset sets it. -/
structure ListedRule where
  rule : Rule
  level : Level
  options : JsonObject

/-- A rule as a preset sets it. -/
def Preset.listed (preset : Preset) (rule : Rule) : ListedRule where
  rule := rule
  level := (preset.table rule).level
  options := JsonObject.merge rule.usualOptions (preset.table rule).options

/-- All rules as a preset sets them, in increasing order of their names. -/
def Preset.listing (preset : Preset) : List ListedRule := Rule.alphabetical.map preset.listed

/-- A listed rule as a document. -/
def ListedRule.toJson (listed : ListedRule) : Json := .object [
  ("name", .string listed.rule.name),
  ("rule_ids", .strings (listed.rule.ids.map RuleId.text)),
  ("level", .string listed.level.label),
  ("options", .object listed.options),
  ("description", .string listed.rule.description)]

/-- A listing as a document. -/
def Preset.listingJson (preset : Preset) : Json :=
  .array (preset.listing.map ListedRule.toJson)

end DesignLint
