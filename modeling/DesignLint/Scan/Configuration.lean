import DesignLint.Config.Document
import DesignLint.Config.Resolution
import DesignLint.Files.Glob
import DesignLint.Files.Tree
import DesignLint.Scan.Event

/-!
# Configuring a scan

A project is configured by a file at its root. What is asked for elsewhere goes
before what the file says: the preset takes the place of the preset in the file,
and settings of rules are laid over those in the file.
-/

namespace DesignLint

/-! ## Configurations of scans

A scan is configured by where it looks, which files it takes, and the setting of
every rule. -/

/-- A resolved configuration. The preset is the name that the settings started from. -/
structure ScanConfig where
  root : FilePath
  included : List String := usualPatterns
  excluded : List String := []
  preset : String := Preset.standard.name
  rules : RuleTable
  file : Option FilePath := none

/-- A configuration as a document, with the settings of the enabled rules. -/
def ScanConfig.toJson (config : ScanConfig) : Json := .object [
  ("root", .string config.root.text),
  ("include", .strings config.included),
  ("exclude", .strings config.excluded),
  ("preset", .string config.preset),
  ("rules", .object (config.rules.activeRules.map fun rule =>
    (rule.name, (config.rules rule).toJson)))]

/-! ## Loading a configuration -/

/-- Why a configuration cannot be loaded. -/
inductive LoadError where
  | config (error : ConfigError)
  | undecodable (error : Utf8Error)
  | file (error : FileError)

/-- The names of configuration files; the first one that exists counts. -/
def configNames : List String := [".code-complete.yml", ".code-complete.yaml"]

/-- The configuration file at a root. -/
def findConfig? (files : FileSystem) (root : FilePath) : Option FilePath :=
  (configNames.map root.child).find? fun path => (files.file? path).isSome

/-- What the configuration file at a path says. -/
def readConfigFile (files : FileSystem) (path : FilePath) : Except LoadError ConfigDocument :=
  match files.open? path with
  | .error error =>
    if error.fault.isTextual then .error (.file error)
    else .error (.config (.unreadable path.text error.message))
  | .ok content =>
    match content.text, content.settings with
    | .error error, _ => .error (.undecodable error)
    | .ok _, none => .error (.config (.invalidYaml path.text))
    | .ok _, some value =>
      (ConfigDocument.read value).mapError fun error => .config (.badFile path.text error)

/-- What a user asks for next to the configuration file. -/
structure ConfigRequest where
  file : Option FilePath := none
  preset : String := ""
  rules : JsonObject := []

/-- The first name that is not empty, or the standard preset. -/
def choosePreset (asked written : String) : String :=
  if !asked.isEmpty then asked else if !written.isEmpty then written else Preset.standard.name

/-- The configuration for a scan of a root, with what was told while loading it. -/
def configFor (files : FileSystem) (root : FilePath) (request : ConfigRequest) :
    Except LoadError (ScanConfig × List ScanEvent) := do
  let file := request.file.or (findConfig? files root)
  let document ← match file with
    | some path => readConfigFile files path
    | none => .ok .silent
  let preset := choosePreset request.preset document.preset
  let rules ← (layeredRules preset (document.rules.merge request.rules)).mapError .config
  return ({
    root := root
    included := if document.included.isEmpty then usualPatterns else document.included
    excluded := document.excluded
    preset := preset
    rules := rules
    file := file }, (file.map ScanEvent.configured).toList)

end DesignLint
