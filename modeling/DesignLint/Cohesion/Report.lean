import DesignLint.Cohesion.Component
import DesignLint.Json.Basic

/-!
# Reports on units that lack cohesion

A report names the unit, counts its connected groups, gives the average score
next to the threshold, and lists the groups.
-/

namespace DesignLint.Cohesion

/-- A unit whose blocks fall into several groups. -/
structure CohesionReport where
  kind : UnitKind
  name : String
  span : Span
  componentCount : Int
  average : Number
  threshold : Number
  components : List ComponentSummary
deriving DecidableEq, Repr

namespace CohesionReport

/-- The message of a report. -/
def message (report : CohesionReport) : String :=
  (if report.kind = .class then "Class" else "Function") ++ " '" ++ report.name
    ++ "' has low cohesion: " ++ toString report.componentCount ++ " disconnected groups of "
    ++ (if report.kind = .class then "methods" else "blocks")
    ++ " (average sharing " ++ report.average.fixed 1 ++ "%, threshold "
    ++ report.threshold.text
    ++ "%). Consider splitting it into smaller, focused units."

/-- The groups as numbered lines. -/
def breakdown (report : CohesionReport) : String :=
  "\n".intercalate (report.components.zipIdx.map fun (detail, index) =>
    "  " ++ toString (index + 1) ++ ". " ++ detail.line)

end CohesionReport

/-- A group as a document. -/
def ComponentSummary.toJson (detail : ComponentSummary) : Json :=
  .object [
    ("memberNames", .strings detail.memberNames),
    ("sharedIdentifiers", .strings detail.sharedIdentifiers),
    ("blockTypeTags", .strings detail.blockTypeTags),
    ("lineRanges", .strings detail.lineRanges)]

/-- The entries of a report as a document. -/
def CohesionReport.toJsonObject (report : CohesionReport) : JsonObject := [
  ("unitKind", .string report.kind.label),
  ("unitName", .string report.name),
  ("location", .object [
    ("startLine", .int report.span.startLine),
    ("endLine", .int report.span.endLine)]),
  ("componentCount", .int report.componentCount),
  ("averageOverlapPercent", .number report.average),
  ("configuredThreshold", .number report.threshold),
  ("components", .array (report.components.map ComponentSummary.toJson))]

end DesignLint.Cohesion
