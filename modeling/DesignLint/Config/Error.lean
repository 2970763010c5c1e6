import DesignLint.Config.Preset
import DesignLint.Schema.Validation

/-!
# Errors of configurations

Everything that can be wrong with a configuration, and what the user is told. Some
errors cannot be told: what their message would show cannot be written or put in order.
-/

namespace DesignLint

/-- What is wrong with a configuration. -/
inductive ConfigError where
  | unknownPreset (shown : String)
  | unknownRule (name : String)
  | badLevel (rule : String) (value : Json)
  | badListLength (rule : String)
  | optionsNotMapping (rule : String)
  | unexpectedKeys (rule : String) (keys : List String)
  | badOptions (rule : Rule) (error : SchemaError)
  | namelessRule (flag : String)
  | invalidYaml (path : String)
  | unreadable (path cause : String)
  | badFile (path : String) (error : SchemaError)

namespace ConfigError

/-- The place of a violation among options. -/
def optionPlace (path : DocumentPath) : String :=
  let place := "/".intercalate (path.map PathStep.text)
  if place.isEmpty then "options" else place

/-- The message of an error. -/
def message : ConfigError → String
  | unknownPreset shown =>
    "unknown preset " ++ shown ++ " (choose from "
      ++ ", ".intercalate (Preset.alphabetical.map Preset.name) ++ ")"
  | unknownRule name => "unknown rule " ++ JsonObject.keyShown name
  | badLevel rule value =>
    rule ++ ": level must be one of " ++ ", ".intercalate (Level.all.map Level.label) ++ ", got "
      ++ value.shown
  | badListLength rule => rule ++ ": expected [level] or [level, options]"
  | optionsNotMapping rule => rule ++ ": options must be a mapping"
  | unexpectedKeys rule keys =>
    rule ++ ": unexpected keys [" ++ ", ".intercalate (keys.map JsonObject.keyShown) ++ "]"
  | badOptions rule error =>
    rule.name ++ ": invalid " ++ optionPlace error.path ++ ": " ++ error.message
  | namelessRule flag => "--rule: missing rule name in " ++ quoted flag
  | invalidYaml path => path ++ ": invalid YAML"
  | unreadable path cause => path ++ ": cannot read config: " ++ cause
  | badFile path error => path ++ ": " ++ error.message

end ConfigError

/-! ## Errors that cannot be told -/

/-- Why an error cannot be told: its message shows a whole number with too many digits, or
keys of different kinds, which have no order. -/
inductive TellingFault where
  | tooManyDigits
  | unorderedKeys
deriving DecidableEq, Repr

namespace ConfigError

/-- The fault of a message that shows something, which may have no text. -/
def faultUnless (writable : Bool) : Option TellingFault :=
  if writable then none else some .tooManyDigits

/-- Why an error cannot be told, if it cannot. -/
def fault? : ConfigError → Option TellingFault
  | unknownRule name => faultUnless (JsonObject.isWritableKey name)
  | badLevel _ value => faultUnless value.isWritable
  | unexpectedKeys _ keys =>
    if JsonObject.areOrdered keys then faultUnless (keys.all JsonObject.isWritableKey)
    else some .unorderedKeys
  | badOptions _ error | badFile _ error => faultUnless error.isWritable
  | _ => none

end ConfigError

end DesignLint
