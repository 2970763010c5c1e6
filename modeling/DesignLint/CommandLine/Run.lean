import DesignLint.CommandLine.Command
import DesignLint.Config.Setting
import DesignLint.Config.Listing
import DesignLint.Files.Output
import DesignLint.Json.Reader
import DesignLint.Report.Text
import DesignLint.Result.Verdict
import DesignLint.Scan.Project
import DesignLint.Schema.Bundle

/-!
# Running commands

A command gives an exit code, a text, messages, and at most one file to write.
The exit code is 0 when all is well, 1 for violations, and 2 for errors of the
user.
-/

namespace DesignLint.CommandLine

/-! ## The list of rules

The rules of a preset are listed with their levels and descriptions, one line
each, and another line with the options of a rule that has any. -/

/-- The width of the names in a list. -/
def nameWidth : Nat := (Rule.all.map fun rule => rule.name.length).foldl max 0

/-- The options of a rule in one line. -/
def optionsText (options : JsonObject) : String :=
  ", ".intercalate (options.sorted.map fun (name, value) => name ++ "=" ++ value.shown)

/-- The lines for a rule. -/
def ruleLines (listed : ListedRule) : List String :=
  let line := "  " ++ padRight nameWidth listed.rule.name ++ "  " ++ padRight 5 listed.level.label
    ++ "  " ++ listed.rule.description
  if listed.options.isEmpty then [line]
  else [line, "  " ++ padRight nameWidth "" ++ "         " ++ optionsText listed.options]

/-- The list of the rules of a preset. -/
def ruleList (preset : Preset) : String :=
  let lines := ("Rules (" ++ preset.name ++ " preset):") :: preset.listing.flatMap ruleLines
  String.join (lines.map (· ++ "\n"))

/-! ## Outcomes -/

/-- What the user is told apart from the output. -/
inductive Notice where
  | noCommand
  | missingPath (path : FilePath)
  | badConfig (error : ConfigError)
  | unreadable (cause : String)
  | noDocument
  | violation (error : SchemaError)
  | written (path : FilePath)

/-- The text of a notice. -/
def Notice.text : Notice → String
  | noCommand => "error: please provide a path or use a subcommand."
  | missingPath path => "error: path does not exist: " ++ path.text
  | badConfig error => "error: " ++ error.message
  | unreadable cause => "ERROR: " ++ cause
  | noDocument => "ERROR: not a JSON document"
  | violation error => "FAIL: " ++ error.line
  | written path => "Report written to " ++ path.text

/-- What a command leaves behind. -/
structure Outcome where
  code : Int
  output : String := ""
  notices : List Notice := []
  report : Option (FilePath × String) := none

/-- The text of a file after a command. -/
def Outcome.fileText? (outcome : Outcome) (files : FileSystem) (path : FilePath) :
    Option String :=
  let written := outcome.report.filter fun (place, _) =>
    place.resolve files.working == path.resolve files.working
  match written with
  | some (_, text) => some text
  | none => (files.file? path).bind (·.text.toOption)

/-- Why a command has no outcome: its arguments stop it, an option lacks its value, or a
scan fails. -/
inductive Failure where
  | stopped (stop : Stop)
  | noValue (option : ScanOption)
  | scan (error : ScanError)

/-- The exit code for errors of the user. -/
def errorCode : Int := 2

/-- The exit code for violations. -/
def violationCode : Int := 1

/-- The exit code when all is well. -/
def successCode : Int := 0

/-! ## Commands -/

/-- Validates a document against a schema. -/
def runValidation (files : FileSystem) (path : FilePath) (schema : String) : Outcome :=
  let failed (notice : Notice) : Outcome := { code := errorCode, notices := [notice] }
  match files.open? path with
  | .error error => failed (.unreadable error.message)
  | .ok content =>
    match content.text with
    | .error error => failed (.unreadable error.message)
    | .ok text =>
      match Json.read (some Numeral.digitLimit) text, bundledSchema? schema with
      | .error .malformed, _ => failed .noDocument
      | .error (.tooManyDigits count), _ =>
        failed (.unreadable (NumeralError.tooManyDigits count).message)
      | .ok _, none => failed (.unreadable (unknownSchemaMessage schema))
      | .ok document, some bundled =>
        match bundled.errors document with
        | [] => { code := successCode, output := path.text ++ ": OK\n" }
        | errors => { code := violationCode, notices := errors.map .violation }

/-- Lists the rules of a preset. -/
def runListing (preset : Preset) (asJson : Bool) : Outcome where
  code := successCode
  output := if asJson then preset.listingJson.canonicalText false else ruleList preset

/-- The numbers of findings by severity. -/
def severityCounts (result : RunResult) : SeverityCounts :=
  result.bySeverity.map fun (name, count) => (name, Int.ofNat count)

/-- Why the report of a result cannot be delivered: it cannot be written as a text, or the text
cannot be printed or written to a file. -/
def deliveryError? (files : FileSystem) (arguments : ScanArguments) (result : RunResult) :
    Option ScanError :=
  let text := reportText result arguments.format usualTopCount arguments.reproducible
  if result.hasReport arguments.format then
    (match arguments.output with
      | none => files.printingError? text
      | some path => files.writingError? path text).map .file
  else some .unwritable

/-- Delivers the report of a result. -/
def deliver (files : FileSystem) (arguments : ScanArguments) (result : RunResult) :
    Except ScanError Outcome :=
  let policy : ExitPolicy := { maxWarnings := arguments.maxWarnings }
  let code := policy.exitCode (severityCounts result)
  let text := reportText result arguments.format usualTopCount arguments.reproducible
  match deliveryError? files arguments result, arguments.output with
  | some error, _ => .error error
  | none, none => .ok { code := code, output := text }
  | none, some path =>
    .ok { code := code, notices := [.written path], report := some (path, text) }

/-- What is raised for an error of the configuration that cannot be told. -/
def untold (error : ConfigError) : TellingFault → ScanError
  | .tooManyDigits => .unwritable
  | .unorderedKeys => .load (.config error)

/-- The outcome of a scan: errors of the configuration are told if they can be, and all other errors
are raised. -/
def settle : Except ScanError Outcome → Except Failure Outcome
  | .ok outcome => .ok outcome
  | .error (.load (.config error)) =>
    match error.fault? with
    | none => .ok { code := errorCode, notices := [.badConfig error] }
    | some fault => .error (.scan (untold error fault))
  | .error error => .error (.scan error)

/-- The option that lacks its value where a scan with some outcome needs it. -/
def lackedBy? (arguments : ScanArguments) (outcome : Outcome) : Option ScanOption :=
  if arguments.unset.contains .format && outcome.code != errorCode then some .format
  else if arguments.unset.contains .maxWarnings && outcome.code == successCode then
    some .maxWarnings
  else none

/-- Scans a path. -/
def scanPath (files : FileSystem) (stamp : RunStamp) (arguments : ScanArguments) :
    Except Failure Outcome := do
  let target ← (files.target arguments.path).mapError fun error => .scan (.file error)
  if !files.has target then
    return { code := errorCode, notices := [.missingPath target] }
  if let some option := [.rule, .config].find? arguments.unset.contains then
    throw (.noValue option)
  let outcome ← settle do
    let rules ← (readRuleFlags arguments.rules).mapError fun error => .load (.config error)
    let request : ConfigRequest :=
      { file := arguments.config, preset := arguments.preset, rules := rules }
    let mode : ScanMode := { reproducible := arguments.reproducible, stamp := stamp }
    let outcome ← scanProject files target request arguments.projectId mode
    deliver files arguments outcome.result
  match lackedBy? arguments outcome with
  | some option => throw (.noValue option)
  | none => return outcome

/-- Runs a command. -/
def Command.run (files : FileSystem) (stamp : RunStamp) : Command → Except Failure Outcome
  | scan arguments => scanPath files stamp arguments
  | rules (some preset) asJson => .ok (runListing preset asJson)
  | rules none _ => .error (.noValue .preset)
  | validate document schema => .ok (runValidation files document schema)
  | nothing => .ok { code := errorCode, notices := [.noCommand] }

/-- Runs the command that arguments ask for. -/
def run (files : FileSystem) (stamp : RunStamp) (arguments : List String) :
    Except Failure Outcome := do
  (← (Command.read arguments).mapError .stopped).run files stamp

end DesignLint.CommandLine
