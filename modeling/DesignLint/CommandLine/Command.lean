import DesignLint.CommandLine.Arguments
import DesignLint.Config.Preset
import DesignLint.Files.Path
import DesignLint.Number.Numeral
import DesignLint.Report.Export

/-!
# Commands

There are three commands: to scan a path, to list the rules, and to validate a
document. The first argument that is not written like an option decides: the
names of the last two are commands, anything else is a path to scan.
-/

namespace DesignLint.CommandLine

/-! ## Commands -/

/-- The options of a scan. -/
inductive ScanOption where
  | help | config | preset | rule | format | output | maxWarnings | projectId | reproducible
  | verbose
deriving DecidableEq, Repr

/-- What a scan is asked for, and the options that it cannot do with because they are given
without a value. -/
structure ScanArguments where
  path : FilePath
  config : Option FilePath := none
  preset : String := ""
  rules : List String := []
  format : ReportFormat := .text
  output : Option FilePath := none
  maxWarnings : Option Int := none
  projectId : String := ""
  reproducible : Bool := false
  unset : List ScanOption := []

/-- What the program is asked for. -/
inductive Command where
  | scan (arguments : ScanArguments)
  | rules (preset : Option Preset) (asJson : Bool)
  | validate (document : FilePath) (schema : String)
  | nothing

/-- The paths that a command names. -/
def Command.paths : Command → List FilePath
  | .scan arguments => arguments.path :: arguments.config.toList ++ arguments.output.toList
  | .validate document _ => [document]
  | .rules _ _ => []
  | .nothing => []

/-! ## Scans -/

/-- Whether a text names a preset. -/
def isPresetName (name : String) : Bool := (Preset.ofName? name).isSome

/-- Whether a text is the full name of a form of reports. -/
def isFormatName (name : String) : Bool := ReportFormat.all.any fun format => format.label == name

/-- Whether a text is a whole number. -/
def isWhole (text : String) : Bool := (Numeral.whole text).toOption.isSome

/-- Any value at all. -/
def anyValue : OptionForm := .value fun _ => true

/-- The options of a scan and how they are written. -/
def scanOptions : List (OptionSpec ScanOption) := [
  { key := .help, names := ["--help"], letter := some 'h', form := .stop },
  { key := .config, names := ["--config"], form := anyValue },
  { key := .preset, names := ["--preset"], form := .value isPresetName },
  { key := .rule, names := ["--rule"], form := anyValue },
  { key := .format, names := ["--format"], form := .value isFormatName },
  { key := .output, names := ["--output"], form := anyValue },
  { key := .maxWarnings, names := ["--max-warnings"], form := .value isWhole },
  { key := .projectId, names := ["--project-id"], form := anyValue },
  { key := .reproducible, names := ["--ci", "--deterministic"], form := .switch },
  { key := .verbose, names := ["--verbose"], letter := some 'v', form := .switch }]

/-- The options that are given without a value after one more option. -/
def unsetAfter (unset : List ScanOption) : ScanOption × Option String → List ScanOption
  | (.rule, some _) => unset
  | (option, some _) => unset.filter (· ≠ option)
  | (option, none) =>
    if [.config, .rule, .format, .maxWarnings].contains option then option :: unset else unset

/-- The value of one more option of a scan. The last value of an option counts; rules add
up. -/
def ScanArguments.withValue (arguments : ScanArguments) : ScanOption × Option String → ScanArguments
  | (.config, value) => { arguments with config := value.map .ofText }
  | (.preset, value) => { arguments with preset := value.getD "" }
  | (.rule, value) => { arguments with rules := arguments.rules ++ value.toList }
  | (.format, value) =>
    { arguments with format := (value.bind ReportFormat.ofName?).getD arguments.format }
  | (.output, value) => { arguments with output := value.map .ofText }
  | (.maxWarnings, value) =>
    { arguments with maxWarnings := value.bind fun text => (Numeral.whole text).toOption }
  | (.projectId, value) => { arguments with projectId := value.getD "" }
  | (.reproducible, _) => { arguments with reproducible := true }
  | (.help, _) => arguments
  | (.verbose, _) => arguments

/-- One more option of a scan. -/
def ScanArguments.with (arguments : ScanArguments) (option : ScanOption × Option String) :
    ScanArguments :=
  { arguments.withValue option with unset := unsetAfter arguments.unset option }

/-- The scan that arguments ask for. -/
def readScan (arguments : List String) : Except Stop ScanArguments := do
  let read ← readArguments scanOptions 1 arguments
  return read.options.foldl ScanArguments.with
    { path := .ofText (read.words.headD "") }

/-! ## Listings and validation -/

/-- The options of a listing. -/
inductive ListingOption where
  | help | preset | json
deriving DecidableEq, Repr

/-- The options of a listing and how they are written. -/
def listingOptions : List (OptionSpec ListingOption) := [
  { key := .help, names := ["--help"], letter := some 'h', form := .stop },
  { key := .preset, names := ["--preset"], form := .value isPresetName },
  { key := .json, names := ["--json"], form := .switch }]

/-- The listing that arguments ask for. -/
def readListing (arguments : List String) : Except Stop Command := do
  let read ← readArguments listingOptions 0 arguments
  let presets := read.options.filterMap fun (key, value) =>
    if key = .preset then some (value.bind Preset.ofName?) else none
  return .rules (presets.getLast?.getD (some .standard))
    (read.options.any fun option => option.1 == .json)

/-- The options of a validation and how they are written. -/
def validationOptions : List (OptionSpec Unit) := [
  { key := (), names := ["--help"], letter := some 'h', form := .stop }]

/-- The validation that arguments ask for. -/
def readValidation (arguments : List String) : Except Stop Command := do
  let read ← readArguments validationOptions 2 arguments
  return .validate (.ofText (read.words.headD "")) (read.words.getD 1 "")

/-! ## Choosing a command -/

/-- The options in front of a command and how they are written. -/
def commonOptions : List (OptionSpec Unit) := [
  { key := (), names := ["--help"], letter := some 'h', form := .stop },
  { key := (), names := ["--version"], form := .stop }]

/-- The names of commands. -/
def commandNames : List String := ["rules", "validate"]

/-- The command that arguments ask for by its name. -/
def readNamed (arguments : List String) : Except Stop Command := do
  let tokens ← tokens commonOptions arguments
  let (before, rest) ← splitCommand commonOptions {} (arguments.zip tokens)
  let command ← match rest with
    | [] => .ok .nothing
    | "rules" :: rest => readListing rest
    | "validate" :: rest => readValidation rest
    | _ => .error .misused
  if before.surplus then .error .misused else return command

/-- The command that arguments ask for. -/
def Command.read (arguments : List String) : Except Stop Command :=
  match arguments.find? fun text => !"-".toList.isPrefixOf text.toList with
  | some first =>
    if first.isEmpty || commandNames.contains first then readNamed arguments
    else (readScan arguments).map .scan
  | none => readNamed arguments

end DesignLint.CommandLine
