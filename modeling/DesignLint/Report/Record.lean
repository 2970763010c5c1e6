import DesignLint.Cohesion.Report
import DesignLint.Finding.Basic
import DesignLint.Report.Value

/-!
# Records as values

Severities, places in a text and reports on cohesion as values, field by field.
-/

namespace DesignLint

/-- A severity as a value. -/
def Severity.toValue (severity : Severity) : Value :=
  .member "Severity" severity.label.toUpper severity.label

/-- Lines as a value. -/
def Span.toValue (span : Span) : Value := .record "UnitSpan" [
  ("start_line", .number (.int span.startLine)),
  ("end_line", .number (.int span.endLine))]

/-- A place in a file as a value. -/
def Location.toValue (location : Location) : Value := .record "Location" [
  ("path", .text location.path),
  ("line_start", .number (.int location.lineStart)),
  ("line_end", .number (.int location.lineEnd)),
  ("column", .number (.int location.column))]

namespace Cohesion

/-- A connected group as a value. -/
def ComponentSummary.toValue (detail : ComponentSummary) : Value :=
  let texts (values : List String) : Value := .list (values.map .text)
  .record "ComponentDetail" [
    ("member_names", texts detail.memberNames),
    ("shared_identifiers", texts detail.sharedIdentifiers),
    ("block_type_tags", texts detail.blockTypeTags),
    ("line_ranges", texts detail.lineRanges)]

/-- A report as a value. -/
def CohesionReport.toValue (report : CohesionReport) : Value := .record "CohesionFinding" [
  ("unit_kind", .member "UnitKind" report.kind.label.toUpper report.kind.label),
  ("unit_name", .text report.name),
  ("location", report.span.toValue),
  ("component_count", .number (.int report.componentCount)),
  ("average_overlap_percent", .number report.average),
  ("configured_threshold", .number report.threshold),
  ("components", .list (report.components.map ComponentSummary.toValue))]

end Cohesion

end DesignLint
