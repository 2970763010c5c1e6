import DesignLint.Proofs.Check.Placed
import DesignLint.Proofs.Cohesion.Average
import DesignLint.Proofs.Config.Fields
import DesignLint.Proofs.Finding.Fingerprint
import DesignLint.Proofs.Outcome

/-!
# Findings that fit their schema

Every finding of an analyzer fits the schema for results, whatever the module: a rule
reports at places that are not negative and under keys of its own, its confidence is a
share, and only the rules for cohesion add a report, whose percentages are in range.
-/

namespace DesignLint

open Syntax

/-- Details of which a report on cohesion is one that the schema accepts. -/
def FitsDetails (details : JsonObject) : Prop :=
  ∀ part, details.lookup "cohesion" = some part →
    ∃ report : Cohesion.CohesionReport, report.Fits ∧ part = .object report.toJsonObject

/-! ## Violations -/

section Violations

variable {options : RuleOptions} {module : Module} {violations : List Violation}
  {rounding : Cohesion.Rounding}

theorem fitsDetails_of_not_mem {details : JsonObject} (absent : "cohesion" ∉ details.keys) :
    FitsDetails details := by
  intro part found
  rw [JsonObject.lookup_eq_none_iff_not_mem_keys.mpr absent] at found
  cases found

theorem fitsDetails_cohesionViolation {ruleId : RuleId} {limits : Cohesion.CohesionLimits}
    {analysis : Cohesion.CohesionAnalysis} (keeps : analysis.rounding.KeepsScores module.tree)
    (own : ∀ kind own, analysis.limitsFor kind = some own → own = limits)
    (percentage : limits.minSharedPercentage.Within 100 ∧
      limits.minSharedPercentage.isWhole = true) :
    ∀ violation ∈ (analysis.reportsOn module.tree).map (Check.cohesionViolation ruleId),
      FitsDetails violation.details := by
  intro violation listed
  obtain ⟨report, reported, rfl⟩ := List.mem_map.mp listed
  obtain ⟨unit, closed, judged⟩ := List.mem_filterMap.mp reported
  obtain ⟨used, usedEq, judged⟩ := Option.bind_eq_some_iff.mp judged
  obtain ⟨limit, keepsBelow, few⟩ := keeps unit closed
  rw [own _ _ usedEq] at judged
  intro part found
  obtain rfl : .object report.toJsonObject = part := by simpa [Check.cohesionViolation] using found
  exact ⟨report, Cohesion.fits_of_judge keepsBelow few percentage.1 percentage.2 judged, rfl⟩

/-- Only the rules for cohesion add a report, and it fits where the threshold is a percentage. -/
theorem RuleOptions.fitsDetails_of_violations (percentage : options.HasPercentage)
    (keeps : rounding.KeepsScores module.tree)
    (found : options.violations module rounding = .ok violations) :
    ∀ violation ∈ violations, FitsDetails violation.details := by
  have isOf := RuleOptions.isOf_of_violations found
  have other (absent : "cohesion" ∉ options.rule.detailKeys) :
      ∀ violation ∈ violations, FitsDetails violation.details := by
    intro violation listed
    refine fitsDetails_of_not_mem ?_
    rw [JsonObject.keys, (isOf violation listed).keys]
    exact absent
  cases options with
  | functionCohesion limits =>
      cases found
      refine fitsDetails_cohesionViolation keeps ?_ percentage
      rintro (_ | _) own ⟨⟩
      rfl
  | classCohesion limits =>
      cases found
      refine fitsDetails_cohesionViolation keeps ?_ percentage
      rintro (_ | _) own ⟨⟩
      rfl
  | _ => exact other (by simp [RuleOptions.rule, Rule.detailKeys])

end Violations

/-! ## Findings -/

theorem Rule.nodup_metadataKeys (rule : Rule) : ("rule_id" :: "rule" :: rule.detailKeys).Nodup := by
  cases rule <;> decide

theorem Rule.within_confidence (rule : Rule) : rule.confidence.Within 1 := by
  refine Number.within_float_iff.mpr (Binary64.within_nearest (by decide) ?_ ?_) <;>
    cases rule <;> decide +kernel

namespace Analyzer

variable {analyzer : Analyzer} {module : Module} {path : String} {findings : List Finding}
  {rounding : Cohesion.Rounding}

theorem fits_findingOf {violation : Violation} (isOf : violation.IsOf analyzer.rule)
    (details : FitsDetails violation.details) : (analyzer.findingOf path violation).Fits where
  confidence := analyzer.rule.within_confidence
  lineStart := isOf.lineStart
  lineEnd := isOf.lineEnd
  column := isOf.column
  fingerprint := accepts_fingerprint _ _ _ _
  metadata := {
    mapping := by
      have keys : violation.details.keys = analyzer.rule.detailKeys := isOf.keys
      rw [findingOf, JsonObject.IsMapping, JsonObject.keys_cons, JsonObject.keys_cons, keys]
      exact analyzer.rule.nodup_metadataKeys
    texts := by
      simp only [List.forall_mem_cons]
      refine ⟨?_, ?_, by simp⟩ <;>
        · rintro part ⟨⟩
          exact ⟨_, rfl⟩
    cohesion := details }

theorem fits_of_rawFindings (percentage : analyzer.options.HasPercentage)
    (keeps : rounding.KeepsScores module.tree)
    (found : analyzer.rawFindings module path rounding = .ok findings) :
    ∀ finding ∈ findings, finding.Fits := by
  obtain ⟨violations, violationsEq, made⟩ := bind_eq_ok_iff.mp found
  split at made
  · cases made
  · cases made
    have reported := mapError_eq_ok_iff.mp violationsEq
    intro finding listed
    obtain ⟨violation, member, rfl⟩ := List.mem_map.mp listed
    exact fits_findingOf (RuleOptions.isOf_of_violations reported violation member)
      (RuleOptions.fitsDetails_of_violations percentage keeps reported violation member)

/-- Numbering findings changes their identifiers only. -/
theorem fits_of_numbered (fit : ∀ finding ∈ findings, finding.Fits) :
    ∀ finding ∈ analyzer.numbered findings, finding.Fits := by
  intro finding listed
  obtain ⟨⟨own, number⟩, member, rfl⟩ := List.mem_map.mp listed
  have sorted := List.fst_mem_of_mem_zipIdx member
  have fits := fit own ((List.mergeSort_perm findings _).mem_iff.mp sorted)
  exact ⟨fits.confidence, fits.lineStart, fits.lineEnd, fits.column, fits.fingerprint,
    fits.metadata⟩

end Analyzer

end DesignLint
