import DesignLint.Report.Canonical
import DesignLint.Report.Markdown
import DesignLint.Report.Text

/-!
# Forms of reports
-/

namespace DesignLint

/-- The forms in which a result is reported. -/
inductive ReportFormat where
  | text | json | markdown
deriving DecidableEq, Repr

namespace ReportFormat

/-- All forms. -/
def all : List ReportFormat := [text, json, markdown]

/-- The name of a form. -/
def label : ReportFormat → String
  | text => "text"
  | json => "json"
  | markdown => "markdown"

/-- The form with a name, or with the short name of Markdown. -/
def ofName? (name : String) : Option ReportFormat :=
  if name = "md" then some markdown else all.find? fun format => format.label == name

/-- What is said about something that names no form, as it is shown. -/
def unknownMessage (shown : String) : String :=
  "Unknown export format: " ++ shown ++ " (use "
    ++ "|".intercalate (all.map label) ++ ")"

end ReportFormat

/-- How many findings a report in Markdown lists unless told otherwise. -/
def usualTopCount : Int := 20

/-- Why a result has no report in some form, if it has none. -/
def reportFault? (result : RunResult) (format : ReportFormat) (topCount : Int) :
    Option GroupFault :=
  let listed := match format with
    | .text => inSourceOrder result.findings
    | .json => []
    | .markdown => MarkdownReport.worstFindings topCount result.findings
  listed.findSome? Finding.groupFault?

/-- Whether a result can be written in some form. Only its document shows the options of rules,
whose numbers may have too many digits. -/
def RunResult.hasReport (result : RunResult) : ReportFormat → Bool
  | .json => result.toJson.isWritable
  | .text | .markdown => true

/-- The report of a result in some form. -/
def reportText (result : RunResult) (format : ReportFormat) (topCount : Int)
    (reproducible : Bool) : String :=
  match format with
  | .text => textReport result
  | .json => result.toJson.canonicalText reproducible
  | .markdown => markdownReport result topCount

/-- The report of a result in some form, or why it has none. -/
def RunResult.report (result : RunResult) (format : ReportFormat) (topCount : Int)
    (reproducible : Bool) : Except GroupFault String :=
  match reportFault? result format topCount with
  | none => .ok (reportText result format topCount reproducible)
  | some fault => .error fault

end DesignLint
