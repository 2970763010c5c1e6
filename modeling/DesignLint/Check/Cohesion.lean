import DesignLint.Check.Violation
import DesignLint.Cohesion.Analysis

/-!
# Cohesion as a rule

The reports of the cohesion analysis as violations, for functions and for
classes.
-/

namespace DesignLint.Check

open DesignLint.Cohesion DesignLint.Syntax

/-- The word that introduces a unit in the text. -/
def unitKeyword : UnitKind → String
  | .function => "def"
  | .class => "class"

/-- The violation that a report describes. -/
def cohesionViolation (ruleId : RuleId) (report : CohesionReport) : Violation := {
  ruleId := ruleId
  lineStart := report.span.startLine
  lineEnd := report.span.endLine
  column := 0
  symbol := report.name
  message := report.message
  snippet := unitKeyword report.kind ++ " " ++ report.name ++ "  # components="
    ++ toString report.componentCount
  details := [("cohesion", .object report.toJsonObject)] }

/-- The functions of a tree whose blocks fall apart. -/
def looseFunctions (options : CohesionLimits) (tree : SyntaxTree)
    (rounding : Rounding := Rounding.binary64) : List Violation :=
  let analysis : CohesionAnalysis :=
    { functionLimits := some options, classLimits := none, rounding := rounding }
  (analysis.reportsOn tree).map (cohesionViolation .cohFunction)

/-- The classes of a tree whose methods fall apart. -/
def looseClasses (options : CohesionLimits) (tree : SyntaxTree)
    (rounding : Rounding := Rounding.binary64) : List Violation :=
  let analysis : CohesionAnalysis :=
    { functionLimits := none, classLimits := some options, rounding := rounding }
  (analysis.reportsOn tree).map (cohesionViolation .cohClass)

end DesignLint.Check
