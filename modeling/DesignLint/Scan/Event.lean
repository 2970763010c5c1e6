import DesignLint.Files.Path
import DesignLint.Number.Basic

/-!
# Events of scans

What a scan tells about its course, apart from its result.
-/

namespace DesignLint

/-- How much an event matters. -/
inductive EventLevel where
  | debug | info | warning | error
deriving DecidableEq, Repr

/-- The name of a level. -/
def EventLevel.label : EventLevel → String
  | debug => "DEBUG"
  | info => "INFO"
  | warning => "WARNING"
  | error => "ERROR"

/-- Something that happens in a scan. -/
inductive ScanEvent where
  | configured (file : FilePath)
  | started (files : Nat) (root : FilePath) (rules : Nat)
  | running (checker : String) (files : Nat)
  | timedOut (checker : String) (limit : Number)
  | crashed (checker : String)
  | oversized (path : FilePath) (limit : Nat)
  | syntaxError (path : FilePath) (line : Option Int)
  | refused (path : FilePath) (message : String)
deriving DecidableEq, Repr

namespace ScanEvent

/-- How much an event matters. -/
def level : ScanEvent → EventLevel
  | configured .. => .debug
  | started .. => .info
  | running .. => .debug
  | timedOut .. => .warning
  | crashed .. => .error
  | oversized .. => .warning
  | syntaxError .. => .debug
  | refused .. => .warning

/-- The number of a line, where it is known. -/
def lineText : Option Int → String
  | some line => toString line
  | none => "None"

/-- What is told about an event. -/
def message : ScanEvent → String
  | configured file => "Loading config from " ++ file.text
  | started files root rules =>
    "Scanning " ++ toString files ++ " files under " ++ root.text ++ " with " ++ toString rules
      ++ " rules"
  | running checker files =>
    "Running analyzer '" ++ checker ++ "' on " ++ toString files ++ " files"
  | timedOut checker limit =>
    "Analyzer '" ++ checker ++ "' timed out after " ++ limit.fixed 0 ++ "s — skipped"
  | crashed checker => "Analyzer '" ++ checker ++ "' raised an exception — skipped"
  | oversized path limit =>
    "Skipping " ++ path.text ++ ": larger than " ++ toString limit ++ " bytes"
  | syntaxError path line =>
    "Skipping " ++ path.text ++ ": syntax error at line " ++ lineText line
  | refused path message => "Skipping " ++ path.text ++ ": " ++ message

/-- An event as a line. -/
def line (event : ScanEvent) : String := event.level.label ++ " " ++ event.message

end ScanEvent

end DesignLint
