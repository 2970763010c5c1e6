import DesignLint.Number.Numeral
import DesignLint.Rule.Analyzer
import DesignLint.Scan.Event

/-!
# Checkers

A checker looks at all files of a scan. It brings findings, or fails: by taking
too long or by crashing. A failed checker costs its findings and nothing else.
Every analyzer is a checker; files that do not parse are passed over.
-/

namespace DesignLint

/-! ## Deadlines

Every analyzer of a scan has a deadline in seconds, so that a slow one does not
hold up the others. The limit can be set by a text; zero lifts it. -/

/-- A limit in seconds, if there is one. -/
abbrev Deadline := Option Number

/-- The limit when nothing is set. -/
def usualDeadline : Deadline := some 300

/-- The limit that a text sets. The empty text sets nothing. -/
def readDeadline (text : String) : Except NumeralError Deadline :=
  if text.isEmpty then .ok usualDeadline
  else (Numeral.real text).map fun seconds =>
    if (Number.float seconds).same 0 then none else some (.float seconds)

/-! ## Checkers -/

/-- A file of a scan: its names from the top, and what its parser gave. -/
structure SourceFile where
  place : List String
  parsed : Syntax.ParseResult

/-- How a checker ends. -/
inductive CheckerEnd where
  | found (findings : List Finding)
  | timedOut
  | crashed

/-- What a checker tells on its way, and how it ends. -/
structure CheckerRun where
  events : List ScanEvent
  ending : CheckerEnd

/-- Something that looks at all files below a root. -/
structure Checker where
  name : String
  run : List String → List SourceFile → CheckerRun

namespace CheckerRun

/-- The run that goes on with another one after an event. -/
def after (event : ScanEvent) (run : CheckerRun) : CheckerRun :=
  { run with events := event :: run.events }

/-- The run that has some findings before those of another one. -/
def withFindings (findings : List Finding) (run : CheckerRun) : CheckerRun :=
  match run.ending with
  | .found others => { run with ending := .found (findings ++ others) }
  | _ => run

end CheckerRun

/-! ## Analyzers as checkers -/

namespace Analyzer

/-- What is told about a file that does not parse. -/
def skipped (file : SourceFile) : Syntax.ParseError → ScanEvent
  | .syntaxError line _ => .syntaxError (.absolute file.place) line
  | .refused message => .refused (.absolute file.place) message

/-- The findings in a file below a root; none where the file cannot be checked. -/
def findingsIn? (analyzer : Analyzer) (rounding : Cohesion.Rounding) (root : List String)
    (file : SourceFile) (module : Syntax.Module) : Option (List Finding) :=
  match relativeTo? root file.place with
  | none => none
  | some names => (analyzer.rawFindings module (FilePath.text ⟨0, names⟩) rounding).toOption

/-- The run over files, with findings that have no identifiers. -/
def runOver (analyzer : Analyzer) (rounding : Cohesion.Rounding) (root : List String) :
    List SourceFile → CheckerRun
  | [] => ⟨[], .found []⟩
  | file :: files =>
    match file.parsed with
    | .error error => (analyzer.runOver rounding root files).after (skipped file error)
    | .ok module =>
      match analyzer.findingsIn? rounding root file module with
      | none => ⟨[], .crashed⟩
      | some findings => (analyzer.runOver rounding root files).withFindings findings

/-- An analyzer as a checker. -/
def checker (analyzer : Analyzer)
    (rounding : Cohesion.Rounding := Cohesion.Rounding.binary64) : Checker where
  name := analyzer.rule.name
  run root files :=
    let run := analyzer.runOver rounding root files
    match run.ending with
    | .found findings => { run with ending := .found (analyzer.numbered findings) }
    | _ => run

end Analyzer

/-! ## Running checkers -/

/-- What all checkers told and found. -/
structure Yield where
  events : List ScanEvent
  findings : List Finding

/-- What is told about the end of a checker. Without a deadline, taking too long is a
failure like any other. -/
def CheckerEnd.events (deadline : Deadline) (name : String) : CheckerEnd → List ScanEvent
  | found _ => []
  | timedOut =>
    match deadline with
    | some limit => [.timedOut name limit]
    | none => [.crashed name]
  | crashed => [.crashed name]

/-- The findings at the end of a checker. -/
def CheckerEnd.findings : CheckerEnd → List Finding
  | found findings => findings
  | _ => []

/-- The yield of one checker. -/
def Checker.yield (checker : Checker) (deadline : Deadline) (root : List String)
    (files : List SourceFile) : Yield :=
  let run := checker.run root files
  ⟨.running checker.name files.length :: (run.events ++ run.ending.events deadline checker.name),
    run.ending.findings⟩

/-- The yield of checkers, one after another. -/
def runCheckers (checkers : List Checker) (deadline : Deadline) (root : List String)
    (files : List SourceFile) : Yield :=
  let yields := checkers.map fun (checker : Checker) => checker.yield deadline root files
  ⟨yields.flatMap Yield.events, yields.flatMap Yield.findings⟩

end DesignLint
