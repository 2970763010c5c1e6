import DesignLint.Finding.Basic

/-!
# Results of scans

What a scan reports: how it was run, how many files were read, and what was
found.
-/

namespace DesignLint

/-! ## Counting -/

/-- The numbers of occurrences of names, in the order of their first occurrences. -/
abbrev Tally := List (String × Nat)

namespace Tally

/-- One occurrence more of a name. -/
def add (tally : Tally) (name : String) : Tally :=
  match tally with
  | [] => [(name, 1)]
  | (other, count) :: rest =>
    if other = name then (other, count + 1) :: rest else (other, count) :: add rest name

/-- The tally of a list of names. -/
def ofNames (names : List String) : Tally := names.foldl add []

/-- A tally as a document. -/
def toJson (tally : Tally) : Json := .object (tally.map fun (name, count) => (name, .nat count))

end Tally

/-! ## Results -/

/-- The version of this tool. -/
def toolVersion : String := "0.1.0"

/-- The version of the engine behind the rules. -/
def engineVersion : String := "engine_v1"

/-- The result of a scan. -/
structure RunResult where
  runId : String
  projectId : String
  createdAt : String
  config : Json
  filesScanned : Int
  findings : List Finding

/-- The highest severity of some findings. -/
def highestSeverity (findings : List Finding) : Option Severity :=
  Severity.all.reverse.find? fun severity =>
    findings.any fun finding => finding.severity == severity

namespace RunResult

/-- The highest severity of the findings. -/
def worst (result : RunResult) : Option Severity := highestSeverity result.findings

/-- The numbers of findings by severity. -/
def bySeverity (result : RunResult) : Tally :=
  .ofNames (result.findings.map (·.severity.label))

/-- The numbers of findings by family. -/
def byFamily (result : RunResult) : Tally := .ofNames (result.findings.map (·.family.label))

/-- The numbers of findings by rule; findings without a rule do not count. -/
def byRule (result : RunResult) : Tally :=
  .ofNames ((result.findings.filter Finding.namesRule).map Finding.rule)

/-- A result as a document. -/
def toJson (result : RunResult) : Json := .object [
  ("schema_version", .string "run_result_v1"),
  ("run", .object [
    ("run_id", .string result.runId),
    ("project_id", .string result.projectId),
    ("created_at", .string result.createdAt),
    ("tool_version", .string toolVersion),
    ("engine_version", .string engineVersion),
    ("config", result.config)]),
  ("summary", .object [
    ("files_scanned", .int result.filesScanned),
    ("worst_severity", .optionalString (result.worst.map Severity.label)),
    ("counts", .object [
      ("findings_total", .nat result.findings.length),
      ("by_severity", result.bySeverity.toJson),
      ("by_type", result.byFamily.toJson),
      ("by_rule", result.byRule.toJson)])]),
  ("findings", .array (result.findings.map Finding.toJson))]

end RunResult

end DesignLint
