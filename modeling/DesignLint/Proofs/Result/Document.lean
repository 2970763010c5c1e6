import DesignLint.Cohesion.Report
import DesignLint.Proofs.Schema.Acceptance
import DesignLint.Result.Basic
import DesignLint.Schema.RunResult

/-!
# Results as documents of their schema

The document of a result meets the schema for results if its findings do: their places
are not negative, their fingerprints have the form of fingerprints, their confidence and
the percentages of their reports are in range, and every report has two groups at least.
-/

namespace DesignLint

open Json

variable {f : Json → Json} (faithful : Faithful f)

namespace RunResultSchema

include faithful

theorem accepts_text (text : String) : (typed .string).Accepts f (.string text) := by
  rw [typed, Schema.accepts_mk_iff]
  simpa using Constraint.accepts_string faithful

theorem accepts_integer (value : Int) : (typed .integer).Accepts f (.int value) := by
  rw [typed, Schema.accepts_mk_iff]
  simpa using Constraint.accepts_integer faithful

theorem accepts_count {value : Int} (nonneg : 0 ≤ value) : count.Accepts f (.int value) :=
  Schema.accepts_atLeast faithful nonneg

theorem accepts_texts (texts : List String) : textList.Accepts f (.strings texts) := by
  refine Schema.accepts_list faithful fun item member => ?_
  obtain ⟨text, -, rfl⟩ := List.mem_map.mp member
  exact accepts_text faithful text

theorem accepts_location {location : Location} (lineStart : 0 ≤ location.lineStart)
    (lineEnd : 0 ≤ location.lineEnd) (column : 0 ≤ location.column) :
    RunResultSchema.location.Accepts f location.toJson := by
  refine Schema.accepts_record faithful ?_ ?_ ?_ ?_
  · simp [JsonObject.IsMapping]
  · simp
  · simp
  · simp [List.lookup_cons, accepts_text faithful, accepts_count faithful, lineStart, lineEnd,
      column]

theorem accepts_component (component : Cohesion.ComponentSummary) :
    RunResultSchema.component.Accepts f component.toJson := by
  refine Schema.accepts_record faithful ?_ ?_ ?_ ?_
  · simp [JsonObject.IsMapping]
  · simp
  · simp
  · simp [List.lookup_cons, accepts_texts faithful]

end RunResultSchema

/-! ## Reports on cohesion -/

/-- What the schema asks of a report on cohesion. -/
structure Cohesion.CohesionReport.Fits (report : CohesionReport) : Prop where
  componentCount : 2 ≤ report.componentCount
  components : 2 ≤ report.components.length
  average : report.average.Within 100
  threshold : report.threshold.Within 100
  whole : report.threshold.isWhole = true

namespace RunResultSchema

include faithful

theorem accepts_cohesion {report : Cohesion.CohesionReport} (fits : report.Fits) :
    cohesion.Accepts f (.object report.toJsonObject) := by
  have small : 100 < 2 ^ 53 := by decide
  have kind : report.kind.label ∈ ["function", "class"] := by
    cases report.kind <;> decide
  have lines : (Schema.mk [.ofType [.object], .required ["startLine", "endLine"],
      .properties [("startLine", typed .integer), ("endLine", typed .integer)]]).Accepts f
        (.object [("startLine", .int report.span.startLine),
          ("endLine", .int report.span.endLine)]) := by
    have mapping : JsonObject.IsMapping [("startLine", .int report.span.startLine),
        ("endLine", .int report.span.endLine)] := by
      simp [JsonObject.IsMapping]
    rw [Schema.accepts_mk_iff]
    simp only [List.forall_mem_cons]
    refine ⟨Constraint.accepts_object faithful,
      Constraint.accepts_required faithful mapping (by simp),
      Constraint.accepts_properties faithful mapping ?_, by simp⟩
    simp [List.lookup_cons, accepts_integer faithful]
  have components : (Schema.mk [.ofType [.array], .minItems 2, .items component]).Accepts f
      (.array (report.components.map Cohesion.ComponentSummary.toJson)) := by
    rw [Schema.accepts_mk_iff]
    simp only [List.forall_mem_cons]
    refine ⟨Constraint.accepts_array faithful, Constraint.accepts_minItems faithful ?_,
      Constraint.accepts_items faithful ?_, by simp⟩
    · simpa using fits.components
    · intro item member
      obtain ⟨component, -, rfl⟩ := List.mem_map.mp member
      exact accepts_component faithful component
  refine Schema.accepts_record faithful ?_ ?_ ?_ ?_
  · simp [JsonObject.IsMapping, Cohesion.CohesionReport.toJsonObject]
  · simp [Cohesion.CohesionReport.toJsonObject]
  · simp [Cohesion.CohesionReport.toJsonObject]
  · simp [Cohesion.CohesionReport.toJsonObject, List.lookup_cons, lines, components,
      accepts_text faithful, Schema.accepts_listed faithful kind,
      Schema.accepts_atLeast faithful fits.componentCount,
      Schema.accepts_range faithful small fits.average,
      Schema.accepts_wholeRange faithful small fits.threshold fits.whole]

end RunResultSchema

/-! ## Findings -/

/-- What the schema asks of the metadata of a finding: the keys that it knows have texts, and a
report on cohesion is one that it accepts. -/
structure FitsMetadata (metadata : JsonObject) : Prop where
  mapping : metadata.IsMapping
  texts : ∀ key ∈ ["rule_id", "rule"], ∀ part, metadata.lookup key = some part →
    ∃ text, part = .string text
  cohesion : ∀ part, metadata.lookup "cohesion" = some part →
    ∃ report : Cohesion.CohesionReport, report.Fits ∧ part = .object report.toJsonObject

/-- What the schema asks of a finding. -/
structure Finding.Fits (finding : Finding) : Prop where
  confidence : finding.confidence.Within 1
  lineStart : 0 ≤ finding.location.lineStart
  lineEnd : 0 ≤ finding.location.lineEnd
  column : 0 ≤ finding.location.column
  fingerprint : RunResultSchema.fingerprintPattern.accepts finding.fingerprint = true
  metadata : FitsMetadata finding.metadata

theorem Family.mem_all (family : Family) : family ∈ all := by
  cases family <;> decide

theorem Severity.mem_all (severity : Severity) : severity ∈ all := by
  cases severity <;> decide

namespace RunResultSchema

include faithful

theorem accepts_metadata {metadata : JsonObject} (fits : FitsMetadata metadata) :
    (Schema.mk [.ofType [.object], .properties [
      ("rule_id", typed .string),
      ("rule", typed .string),
      ("cohesion", .mk [.reference "cohesion" cohesion])]]).Accepts f (.object metadata) := by
  rw [Schema.accepts_mk_iff]
  simp only [List.forall_mem_cons]
  refine ⟨Constraint.accepts_object faithful,
    Constraint.accepts_properties faithful fits.mapping ?_, by simp⟩
  simp only [List.forall_mem_cons]
  refine ⟨?_, ?_, ?_, by simp⟩
  · intro part found
    obtain ⟨text, rfl⟩ := fits.texts "rule_id" (by simp) part found
    exact accepts_text faithful text
  · intro part found
    obtain ⟨text, rfl⟩ := fits.texts "rule" (by simp) part found
    exact accepts_text faithful text
  · intro part found
    obtain ⟨report, reportFits, rfl⟩ := fits.cohesion part found
    rw [Schema.accepts_mk_iff]
    simpa using Constraint.accepts_reference (accepts_cohesion faithful reportFits)

theorem accepts_finding {finding : Finding} (fits : finding.Fits) :
    RunResultSchema.finding.Accepts f finding.toJson := by
  have fingerprint : (Schema.mk [.ofType [.string], .matching fingerprintPattern]).Accepts f
      (.string finding.fingerprint) := by
    rw [Schema.accepts_mk_iff]
    simp only [List.forall_mem_cons]
    exact ⟨Constraint.accepts_string faithful,
      Constraint.accepts_matching faithful fits.fingerprint, by simp⟩
  have type : finding.family.label ∈ Family.all.map Family.label :=
    List.mem_map_of_mem finding.family.mem_all
  have severity : finding.severity.label ∈ Severity.all.map Severity.label :=
    List.mem_map_of_mem finding.severity.mem_all
  have confidence := Schema.accepts_range faithful (by decide) fits.confidence
  have location := accepts_location faithful fits.lineStart fits.lineEnd fits.column
  have metadata := accepts_metadata faithful fits.metadata
  rw [Finding.toJson]
  refine Schema.accepts_record faithful ?_ ?_ ?_ ?_
  · split <;> split <;> simp [JsonObject.IsMapping]
  · split <;> split <;> simp
  · split <;> split <;> simp
  · split <;> split <;> simp [List.lookup_cons, confidence, fingerprint, location, metadata,
      accepts_text faithful, Schema.accepts_listed faithful type,
      Schema.accepts_listed faithful severity]

/-! ## Results -/

theorem accepts_tally (tally : Tally) : counts.Accepts f tally.toJson := by
  rw [counts, Schema.accepts_mk_iff]
  simp only [List.forall_mem_cons]
  refine ⟨Constraint.accepts_object faithful, Constraint.accepts_others faithful ?_, by simp⟩
  intro entry member
  obtain ⟨⟨name, number⟩, -, rfl⟩ := List.mem_map.mp member
  exact accepts_count faithful (Int.natCast_nonneg number)

theorem accepts_counted (tally : Tally) :
    (Schema.mk [.reference "counts" counts]).Accepts f tally.toJson := by
  rw [Schema.accepts_mk_iff]
  simpa using Constraint.accepts_reference (accepts_tally faithful tally)

end RunResultSchema

/-- What the schema asks of a result. -/
structure RunResult.Fits (result : RunResult) : Prop where
  runId : result.runId ≠ ""
  config : ∃ entries, result.config = .object entries
  filesScanned : 0 ≤ result.filesScanned
  findings : ∀ finding ∈ result.findings, finding.Fits

namespace RunResultSchema

include faithful

variable {result : RunResult}

theorem accepts_run (fits : result.Fits) : run.Accepts f (.object [
    ("run_id", .string result.runId),
    ("project_id", .string result.projectId),
    ("created_at", .string result.createdAt),
    ("tool_version", .string toolVersion),
    ("engine_version", .string engineVersion),
    ("config", result.config)]) := by
  have runId : (Schema.mk [.ofType [.string], .minLength 1]).Accepts f (.string result.runId) := by
    rw [Schema.accepts_mk_iff]
    simp only [List.forall_mem_cons]
    exact ⟨Constraint.accepts_string faithful, Constraint.accepts_minLength faithful
      (Nat.one_le_iff_ne_zero.mpr (by simpa using fits.runId)), by simp⟩
  have config : (typed .object).Accepts f result.config := by
    obtain ⟨entries, object⟩ := fits.config
    rw [object, typed, Schema.accepts_mk_iff]
    simpa using Constraint.accepts_object faithful
  refine Schema.accepts_record faithful ?_ ?_ ?_ ?_
  · simp [JsonObject.IsMapping]
  · simp
  · simp
  · simp [List.lookup_cons, runId, config, accepts_text faithful]

theorem accepts_summary (fits : result.Fits) : summary.Accepts f (.object [
    ("files_scanned", .int result.filesScanned),
    ("worst_severity", .optionalString (result.worst.map Severity.label)),
    ("counts", .object [
      ("findings_total", .nat result.findings.length),
      ("by_severity", result.bySeverity.toJson),
      ("by_type", result.byFamily.toJson),
      ("by_rule", result.byRule.toJson)])]) := by
  have worst : (Schema.mk [.ofType [.string, .null]]).Accepts f
      (.optionalString (result.worst.map Severity.label)) := by
    rw [Schema.accepts_mk_iff]
    simp only [List.forall_mem_cons]
    refine ⟨?_, by simp⟩
    cases result.worst with
    | none =>
        have null : JsonType.null.holds (f .null) = true :=
          congrArg (JsonType.holds · .null) faithful.null
        exact Constraint.accepts_ofType (by simp) null
    | some severity =>
        have text : JsonType.string.holds (f (.string severity.label)) = true :=
          congrArg (JsonType.holds · .string) (faithful.string severity.label)
        exact Constraint.accepts_ofType (by simp) text
  have counts : summaryCounts.Accepts f (.object [
      ("findings_total", .nat result.findings.length),
      ("by_severity", result.bySeverity.toJson),
      ("by_type", result.byFamily.toJson),
      ("by_rule", result.byRule.toJson)]) := by
    refine Schema.accepts_record faithful ?_ ?_ ?_ ?_
    · simp [JsonObject.IsMapping]
    · simp
    · simp
    · have total : count.Accepts f (.nat result.findings.length) :=
        accepts_count faithful (Int.natCast_nonneg _)
      simp [List.lookup_cons, total, accepts_counted faithful]
  refine Schema.accepts_record faithful ?_ ?_ ?_ ?_
  · simp [JsonObject.IsMapping]
  · simp
  · simp
  · simp [List.lookup_cons, worst, counts, accepts_count faithful fits.filesScanned]

/-- The document of a result with fitting findings meets the schema, also after a faithful
change. -/
theorem accepts_result (fits : result.Fits) : schema.Accepts f result.toJson := by
  have findings :
      (Schema.mk [.ofType [.array], .items (.mk [.reference "finding" finding])]).Accepts
        f (.array (result.findings.map Finding.toJson)) := by
    refine Schema.accepts_list faithful fun item member => ?_
    obtain ⟨finding, listed, rfl⟩ := List.mem_map.mp member
    rw [Schema.accepts_mk_iff]
    simpa using Constraint.accepts_reference (accepts_finding faithful (fits.findings _ listed))
  have version : (Schema.mk [.exactly version]).Accepts f (.string "run_result_v1") := by
    rw [Schema.accepts_mk_iff]
    simp only [List.forall_mem_cons]
    exact ⟨Constraint.accepts_exactly faithful version, by simp⟩
  rw [schema, Schema.accepts_mk_iff]
  have mapping : JsonObject.IsMapping result.toJson.entries := by
    simp [RunResult.toJson, Json.entries, JsonObject.IsMapping]
  simp only [List.forall_mem_cons]
  refine ⟨by simp, by simp, by simp, Constraint.accepts_object faithful,
    Constraint.accepts_required faithful mapping ?_, Constraint.accepts_closed faithful ?_,
    Constraint.accepts_properties faithful mapping ?_, by simp [Constraint.definitions], by simp⟩
  · simp
  · simp [Schema.namedKeys]
  · simp [List.lookup_cons, findings, version, accepts_run faithful fits,
      accepts_summary faithful fits]

end RunResultSchema

end DesignLint
