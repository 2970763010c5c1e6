import DesignLint.Report.Grade
import DesignLint.Result.Basic

/-!
# Reports for terminals

Findings are listed file by file in source order, with a blank line behind each
file and the numbers of errors and warnings at the end.
-/

namespace DesignLint

/-- A text with blanks in front up to a width. -/
def padLeft (width : Nat) (text : String) : String :=
  String.ofList (List.replicate (width - text.length) ' ') ++ text

/-- A text with blanks behind it up to a width. -/
def padRight (width : Nat) (text : String) : String :=
  text ++ String.ofList (List.replicate (width - text.length) ' ')

namespace TextReport

/-- The lines of a finding. -/
def findingLines (finding : Finding) : List String :=
  ("  " ++ padLeft 4 (toString finding.location.lineStart) ++ "  "
      ++ padRight 7 finding.grade.label ++ "  " ++ finding.message ++ "  " ++ finding.rule)
    :: finding.breakdown.map fun line => "          " ++ line

/-- The lines of findings that are sorted by files, behind findings in a file. -/
def linesAfter (previous : Option String) : List Finding → List String
  | [] => if previous.isSome then [""] else []
  | finding :: findings =>
    let path := finding.location.path
    let heading := if previous = some path then []
      else if previous.isSome then ["", path]
      else [path]
    heading ++ findingLines finding ++ linesAfter (some path) findings

/-- The line with the numbers of findings. -/
def totalsLine (result : RunResult) : String :=
  let total := result.findings.length
  let number (grade : Grade) : Nat :=
    (result.findings.filter fun finding => finding.grade == grade).length
  toString total ++ (if total = 1 then " problem (" else " problems (")
    ++ toString (number .error) ++ " errors, " ++ toString (number .warning) ++ " warnings) in "
    ++ toString result.filesScanned ++ " files"

/-- The report as lines. -/
def lines (result : RunResult) : List String :=
  linesAfter none (inSourceOrder result.findings)
    ++ [if result.findings.isEmpty then "No problems found." else totalsLine result]

end TextReport

/-- The report of a result for a terminal. -/
def textReport (result : RunResult) : String :=
  "\n".intercalate (TextReport.lines result) ++ "\n"

end DesignLint
