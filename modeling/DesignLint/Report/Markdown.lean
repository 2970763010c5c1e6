import DesignLint.Report.Grade
import DesignLint.Result.Basic

/-!
# Reports for review comments

A short report in Markdown: the numbers of findings by rule, and the findings
that matter most, the worst first.
-/

namespace DesignLint

namespace MarkdownReport

/-- The table of rules, if there are findings. Findings without a rule count under
the empty name. -/
def ruleTable (findings : List Finding) : List String :=
  let tally := (Tally.ofNames (findings.map Finding.rule)).mergeSort fun a b => decide (a.1 ≤ b.1)
  if tally.isEmpty then []
  else ["## By Rule", "", "| Rule | Count |", "|------|------:|"]
    ++ (tally.map fun (rule, count) => "| \x60" ++ rule ++ "\x60 | " ++ toString count ++ " |")
    ++ [""]

/-- Whether a finding may stand before another one: the worse first, then in source
order. -/
def worstFirst (a b : Finding) : Bool :=
  if a.severity = b.severity then a.sourceOrder b
  else decide (b.severity.rank < a.severity.rank)

/-- The findings at the start of a list; a negative number counts from the end. -/
def takeFirst (count : Int) (findings : List Finding) : List Finding :=
  if count < 0 then findings.take (findings.length - count.natAbs)
  else findings.take count.toNat

/-- The lines of a finding with its number. -/
def findingLines (finding : Finding) (number : Nat) : List String :=
  (toString number ++ ". **[" ++ finding.grade.label.toUpper ++ "]** \x60"
      ++ finding.location.label ++ "\x60 " ++ finding.message)
    :: finding.groupLines.map fun line => "    - " ++ line

/-- The worst findings. -/
def worstFindings (count : Int) (findings : List Finding) : List Finding :=
  takeFirst count (findings.mergeSort worstFirst)

/-- The list of the worst findings, if there are any. -/
def topFindings (count : Int) (findings : List Finding) : List String :=
  let top := worstFindings count findings
  if top.isEmpty then []
  else ["## Top " ++ toString top.length ++ " Findings", ""]
    ++ (top.zipIdx.flatMap fun (finding, index) => findingLines finding (index + 1)) ++ [""]

/-- The report as lines. -/
def lines (result : RunResult) (count : Int) : List String :=
  ["# Scan Results", "",
   "**Generated:** " ++ result.createdAt ++ "  ",
   "**Files scanned:** " ++ toString result.filesScanned ++ "  ",
   "**Findings:** " ++ toString result.findings.length, ""]
  ++ ruleTable result.findings
  ++ topFindings count result.findings
  ++ ["---", "*Exported by code-complete " ++ toolVersion ++ "*", ""]

end MarkdownReport

/-- The report of a result in Markdown with the worst findings. -/
def markdownReport (result : RunResult) (count : Int) : String :=
  "\n".intercalate (MarkdownReport.lines result count)

end DesignLint
