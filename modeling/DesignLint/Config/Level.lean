import DesignLint.Finding.Severity
import DesignLint.Json.Basic

/-!
# Levels and settings of rules

A rule is off, warns, or reports errors. A setting is a level with options.
-/

namespace DesignLint

/-- How much a configuration makes of a rule. -/
inductive Level where
  | off | warn | error
deriving DecidableEq, Repr

namespace Level

/-- All levels. -/
def all : List Level := [off, warn, error]

/-- The name of a level. -/
def label : Level → String
  | off => "off"
  | warn => "warn"
  | error => "error"

/-- The level with a name. -/
def ofLabel? (label : String) : Option Level := all.find? fun level => level.label == label

/-- The severity of findings on a level. -/
def severity : Level → Severity
  | off => .info
  | warn => .medium
  | error => .high

end Level

/-- A level and options for a rule. -/
structure RuleSetting where
  level : Level
  options : JsonObject

namespace RuleSetting

instance : Inhabited RuleSetting := ⟨⟨.off, []⟩⟩

/-- Whether a rule is checked. -/
def enabled (setting : RuleSetting) : Bool := setting.level != .off

/-- The severity of the findings of a rule. -/
def severity (setting : RuleSetting) : Severity := setting.level.severity

/-- A setting as a document. -/
def toJson (setting : RuleSetting) : Json := .object [
  ("level", .string setting.level.label),
  ("options", .object setting.options)]

end RuleSetting

end DesignLint
