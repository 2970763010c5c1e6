import DesignLint.Finding.Family
import DesignLint.Finding.Severity
import DesignLint.Schema.Validation

/-!
# The schema for run results

Documents with the result of a scan have a version and a fixed form.
-/

namespace DesignLint

/-! ## Parts of the schema -/

namespace RunResultSchema

/-- A schema that asks for a type only. -/
def typed (type : JsonType) : Schema := .mk [.ofType [type]]

/-- A whole number that is not negative. -/
def count : Schema := .mk [.ofType [.integer], .minimum 0]

/-- A list of texts. -/
def textList : Schema := .mk [.ofType [.array], .items (typed .string)]

/-- Numbers of findings by some name. -/
def counts : Schema := .mk [.ofType [.object], .others count]

/-- One group of a unit that lacks cohesion. -/
def component : Schema := .mk [
  .ofType [.object],
  .required ["memberNames", "sharedIdentifiers", "blockTypeTags", "lineRanges"],
  .closed,
  .properties [
    ("memberNames", textList),
    ("sharedIdentifiers", textList),
    ("blockTypeTags", textList),
    ("lineRanges", textList)]]

/-- The report on a unit that lacks cohesion. -/
def cohesion : Schema := .mk [
  .ofType [.object],
  .required ["unitKind", "unitName", "location", "componentCount", "averageOverlapPercent",
    "configuredThreshold", "components"],
  .closed,
  .properties [
    ("unitKind", .mk [.oneOf ["function", "class"]]),
    ("unitName", typed .string),
    ("location", .mk [
      .ofType [.object],
      .required ["startLine", "endLine"],
      .properties [("startLine", typed .integer), ("endLine", typed .integer)]]),
    ("componentCount", .mk [.ofType [.integer], .minimum 2]),
    ("averageOverlapPercent", .mk [.ofType [.number], .minimum 0, .maximum 100]),
    ("configuredThreshold", .mk [.ofType [.integer], .minimum 0, .maximum 100]),
    ("components", .mk [.ofType [.array], .minItems 2, .items component])]]

/-- The place of a finding. -/
def location : Schema := .mk [
  .ofType [.object],
  .required ["path", "line_start", "line_end"],
  .closed,
  .properties [
    ("path", typed .string),
    ("line_start", count),
    ("line_end", count),
    ("column", count)]]

/-- A fingerprint: the name of the digest and 64 digits. -/
def fingerprintPattern : TextPattern := ⟨"sha256:", [('0', '9'), ('a', 'f')], 64⟩

/-- One finding. -/
def finding : Schema := .mk [
  .ofType [.object],
  .required ["finding_id", "type", "severity", "confidence", "message", "location",
    "fingerprint"],
  .closed,
  .properties [
    ("finding_id", typed .string),
    ("type", .mk [.oneOf (Family.all.map Family.label)]),
    ("severity", .mk [.oneOf (Severity.all.map Severity.label)]),
    ("confidence", .mk [.ofType [.number], .minimum 0, .maximum 1]),
    ("message", typed .string),
    ("location", location),
    ("fingerprint", .mk [.ofType [.string], .matching fingerprintPattern]),
    ("snippet", typed .string),
    ("metadata", .mk [
      .ofType [.object],
      .properties [
        ("rule_id", typed .string),
        ("rule", typed .string),
        ("cohesion", .mk [.reference "cohesion" cohesion])]])]]

/-- What is said about the run. -/
def run : Schema := .mk [
  .ofType [.object],
  .required ["run_id", "created_at", "tool_version", "engine_version", "config"],
  .closed,
  .properties [
    ("run_id", .mk [.ofType [.string], .minLength 1]),
    ("project_id", typed .string),
    ("created_at", typed .string),
    ("tool_version", typed .string),
    ("engine_version", typed .string),
    ("config", typed .object)]]

/-- The numbers of findings in total and by names. -/
def summaryCounts : Schema := .mk [
  .ofType [.object],
  .required ["findings_total", "by_severity", "by_type", "by_rule"],
  .closed,
  .properties [
    ("findings_total", count),
    ("by_severity", .mk [.reference "counts" counts]),
    ("by_type", .mk [.reference "counts" counts]),
    ("by_rule", .mk [.reference "counts" counts])]]

/-- What is said about all findings together. -/
def summary : Schema := .mk [
  .ofType [.object],
  .required ["files_scanned", "counts"],
  .closed,
  .properties [
    ("files_scanned", count),
    ("worst_severity", .mk [.ofType [.string, .null]]),
    ("counts", summaryCounts)]]

/-- The version of the form. -/
def version : String := "run_result_v1"

/-- The name under which the schema is known. -/
def name : String := "run_result.schema.json"

/-- The schema for the result of a scan. -/
def schema : Schema := .mk [
  .note "$schema" (.string "http://json-schema.org/draft-07/schema#"),
  .note "$id" (.string name),
  .note "title" (.string "code-complete run result"),
  .ofType [.object],
  .required ["schema_version", "run", "summary", "findings"],
  .closed,
  .properties [
    ("schema_version", .mk [.exactly version]),
    ("run", run),
    ("summary", summary),
    ("findings", .mk [.ofType [.array], .items (.mk [.reference "finding" finding])])],
  .definitions [("counts", counts), ("finding", finding), ("cohesion", cohesion)]]

end RunResultSchema

end DesignLint
