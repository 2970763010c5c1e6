import DesignLint.Proofs.Config.Resolution
import DesignLint.Proofs.Scan.Order

/-!
# Where findings come from

Every finding of a scan is made of a violation that an analyzer of the configuration sees in a
scanned file that parsed. Numbering gives it an identifier and sorting a place, and neither changes
anything else.
-/

namespace DesignLint

open Syntax

/-- The findings that an analyzer makes of violations in a file below a root. -/
inductive Analyzer.Makes (analyzer : Analyzer) (rounding : Cohesion.Rounding) (root : List String)
    (file : SourceFile) : Finding → Prop
  | violation {module : Module} {names : List String} {violations : List Violation}
      {violation : Violation} (id : String) (parsed : file.parsed = .ok module)
      (place : file.place = root ++ names)
      (checked : analyzer.options.violations module rounding = .ok violations)
      (listed : violation ∈ violations) :
    Makes analyzer rounding root file
      { analyzer.findingOf (FilePath.text ⟨0, names⟩) violation with id := id }

namespace Analyzer

variable {analyzer : Analyzer} {rounding : Cohesion.Rounding} {root : List String}

section Made

variable {file : SourceFile} {finding : Finding}

theorem Makes.severity_eq (made : analyzer.Makes rounding root file finding) :
    finding.severity = analyzer.severity := by
  cases made
  rfl

theorem Makes.rule_eq (made : analyzer.Makes rounding root file finding) :
    finding.rule = analyzer.rule.name := by
  cases made
  rfl

theorem Makes.namesRule (made : analyzer.Makes rounding root file finding) :
    finding.namesRule = true := by
  cases made
  have named : (Json.string analyzer.rule.name).isTruthy = true := by
    cases analyzer.rule <;> decide
  exact named

end Made

theorem makes_of_ofFile? {file : SourceFile} {findings : List Finding}
    (found : analyzer.ofFile? rounding root file = some findings) :
    ∀ finding ∈ findings, analyzer.Makes rounding root file finding := by
  unfold ofFile? at found
  split at found
  · cases found
    simp
  · rename_i module parsed
    obtain ⟨names, place, raw⟩ := findingsIn?_eq_some_iff.mp found
    obtain ⟨violations, checked, made⟩ := bind_eq_ok_iff.mp raw
    rw [mapError_eq_ok_iff] at checked
    intro finding listed
    split at made
    · cases made
    · cases made
      obtain ⟨violation, member, rfl⟩ := List.mem_map.mp listed
      exact .violation "" parsed place checked member

/-- What a checker finds, it made of violations in its files. -/
theorem makes_of_checker {files : List SourceFile} {findings : List Finding}
    (found : ((analyzer.checker rounding).run root files).ending = .found findings) :
    ∀ finding ∈ findings, ∃ file ∈ files, analyzer.Makes rounding root file finding := by
  rw [ending_checker] at found
  split at found
  · cases found
    intro finding listed
    obtain ⟨own, member, number, rfl⟩ := exists_of_mem_numbered listed
    obtain ⟨file, inFiles, ofFile⟩ := List.mem_flatMap.mp member
    refine ⟨file, inFiles, ?_⟩
    cases result : analyzer.ofFile? rounding root file with
    | none => simp [result] at ofFile
    | some findings =>
        rw [result, Option.getD_some] at ofFile
        cases makes_of_ofFile? result own ofFile with
        | violation id parsed place checked inViolations =>
            exact .violation _ parsed place checked inViolations
  · cases found

end Analyzer

/-- What analyzers find as checkers, they made of violations in the files. -/
theorem exists_makes_of_mem_runCheckers {analyzers : List Analyzer} {rounding : Cohesion.Rounding}
    {deadline : Deadline} {root : List String} {files : List SourceFile} {finding : Finding}
    (listed : finding ∈ (runCheckers (analyzers.map fun analyzer => analyzer.checker rounding)
      deadline root files).findings) :
    ∃ analyzer ∈ analyzers, ∃ file ∈ files, analyzer.Makes rounding root file finding := by
  obtain ⟨checker, inCheckers, findings, found, member⟩ := exists_found_of_mem_runCheckers listed
  obtain ⟨analyzer, inAnalyzers, rfl⟩ := List.mem_map.mp inCheckers
  obtain ⟨file, inFiles, made⟩ := Analyzer.makes_of_checker found finding member
  exact ⟨analyzer, inAnalyzers, file, inFiles, made⟩

/-- The options that a rule is configured with are options of the rule. -/
theorem Rule.rule_of_configure {rule : Rule} {values : JsonObject} {options : RuleOptions}
    (configured : rule.configure values = .ok options) : options.rule = rule := by
  rw [Rule.configure, mapError_eq_ok_iff, Rule.readOptions] at configured
  split at configured
  · cases configured
  · cases configured
    exact RuleOptions.rule_ofValues _ rule

namespace ScanConfig

variable {config : ScanConfig}

/-- The rules of a configuration become checkers. -/
theorem exists_checkers_of_hasValidOptions (valid : config.rules.HasValidOptions)
    (rounding : Cohesion.Rounding) : ∃ checkers, config.checkers rounding = .ok checkers := by
  obtain ⟨analyzers, made⟩ : ∃ analyzers, config.rules.analyzers = .ok analyzers :=
    exists_mapM_eq_ok fun rule _ => ⟨_, RuleTable.analyzer_eq_ok (valid rule)⟩
  exact ⟨_, map_eq_ok_iff.mpr ⟨analyzers, made, rfl⟩⟩

/-- An analyzer of a configuration serves a rule that is not off, on the severity of its level. -/
theorem level_of_mem_analyzers {analyzers : List Analyzer}
    (made : config.rules.analyzers = .ok analyzers) {analyzer : Analyzer}
    (listed : analyzer ∈ analyzers) :
    (config.rules analyzer.rule).level ≠ .off ∧
      analyzer.severity = (config.rules analyzer.rule).level.severity := by
  obtain ⟨rule, active, analyzerMade⟩ := exists_of_mapM_eq_ok made analyzer listed
  obtain ⟨options, configured, rfl⟩ := map_eq_ok_iff.mp analyzerMade
  rw [Analyzer.rule, Rule.rule_of_configure configured]
  exact ⟨RuleTable.mem_activeRules_iff.mp active, rfl⟩

end ScanConfig

section Scans

variable {files : FileSystem} {target : FilePath} {config : ScanConfig}
  {rounding : Cohesion.Rounding} {checkers : List Checker} {projectId : String} {mode : ScanMode}
  {outcome : ScanOutcome}

/-- Every finding of a scan was made by an analyzer of the configuration, in a file that was
discovered. -/
theorem exists_makes_of_mem_findings (made : config.checkers rounding = .ok checkers)
    (scanned : scanWith files target config checkers projectId mode = .ok outcome) :
    ∃ analyzers found, config.rules.analyzers = .ok analyzers ∧
      discover files target config.included config.excluded = .ok found ∧
      outcome.result.filesScanned = found.files.length ∧
      ∀ finding ∈ outcome.result.findings, ∃ analyzer ∈ analyzers,
        ∃ file ∈ sourceFiles files found.files,
          analyzer.Makes rounding (scanRoot files target).parts file finding := by
  obtain ⟨analyzers, analyzersMade, rfl⟩ := map_eq_ok_iff.mp made
  obtain ⟨found, deadline, stamp, discovered, -, -, valid⟩ :=
    result_scanWith_eq_ok_iff.mp (map_eq_ok_iff.mpr ⟨outcome, scanned, rfl⟩)
  have same : assembled files target config
      (analyzers.map fun analyzer => analyzer.checker rounding) projectId mode found deadline
      stamp = outcome.result := by
    unfold RunResult.validated at valid
    split at valid
    · cases valid
    · exact Except.ok.inj valid
  refine ⟨analyzers, found, analyzersMade, discovered, by rw [← same]; rfl, ?_⟩
  intro finding listed
  rw [← same] at listed
  exact exists_makes_of_mem_runCheckers ((List.mergeSort_perm _ _).mem_iff.mp listed)

/-- The severities of the findings of a scan are those of levels on which rules are checked. -/
theorem severity_of_mem_findings (made : config.checkers rounding = .ok checkers)
    (scanned : scanWith files target config checkers projectId mode = .ok outcome) :
    ∀ finding ∈ outcome.result.findings,
      finding.severity = .medium ∨ finding.severity = .high := by
  obtain ⟨analyzers, found, analyzersMade, -, -, origins⟩ :=
    exists_makes_of_mem_findings made scanned
  intro finding listed
  obtain ⟨analyzer, inAnalyzers, file, -, makes⟩ := origins finding listed
  obtain ⟨enabled, severity⟩ := ScanConfig.level_of_mem_analyzers analyzersMade inAnalyzers
  rw [makes.severity_eq, severity]
  cases level : (config.rules analyzer.rule).level with
  | off => exact absurd level enabled
  | warn => exact .inl rfl
  | error => exact .inr rfl

/-- Every finding of a scan names its rule. -/
theorem namesRule_of_mem_findings (made : config.checkers rounding = .ok checkers)
    (scanned : scanWith files target config checkers projectId mode = .ok outcome) :
    ∀ finding ∈ outcome.result.findings, finding.namesRule = true := by
  obtain ⟨analyzers, found, -, -, -, origins⟩ := exists_makes_of_mem_findings made scanned
  intro finding listed
  obtain ⟨analyzer, -, file, -, makes⟩ := origins finding listed
  exact makes.namesRule

end Scans

end DesignLint
