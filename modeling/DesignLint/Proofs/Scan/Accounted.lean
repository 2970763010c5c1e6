import DesignLint.Proofs.Check.Lines
import DesignLint.Proofs.Scan.Origin
import DesignLint.Proofs.Scan.SingleFile

/-!
# What accounts for findings

Every finding of a scan is accounted for: by a rule that is not off, on the severity of its level
and under one of its identifiers, and by lines of a module that was read from a discovered file.
The lines are those of a module whose constructs stand on its lines, as parsed texts have them.
-/

namespace DesignLint

open Syntax Check

/-- A finding of a rule of a table. -/
structure Finding.IsOfRule (table : RuleTable) (rule : Rule) (finding : Finding) : Prop where
  named : finding.rule = rule.name
  enabled : (table rule).level ≠ .off
  registered : ∃ ruleId ∈ rule.ids, finding.ruleId = ruleId.text
  severity : finding.severity = (table rule).level.severity

/-- A place on lines of a file that was parsed, under its path below a root. -/
structure Location.IsIn (root : List String) (file : SourceFile) (location : Location) : Prop where
  path : ∃ names, file.place = root ++ names ∧ location.path = FilePath.text ⟨0, names⟩
  lines : ∃ module, file.parsed = .ok module ∧ 1 ≤ location.lineStart ∧
    location.lineStart ≤ location.lineEnd ∧ location.lineEnd ≤ lastLineOf module

/-- Whether the modules below a root have their constructs on their lines. -/
def FileSystem.IsWellPlaced (files : FileSystem) (root : List String) : Prop :=
  ∀ names content module, files.at? (root ++ names) = some (.file content) →
    content.source = .ok module → module.isWellPlaced = true

namespace Analyzer

variable {analyzer : Analyzer} {rounding : Cohesion.Rounding} {root : List String}
  {file : SourceFile} {finding : Finding}

/-- What an analyzer makes is reported under an identifier of its rule. -/
theorem Makes.registered (made : analyzer.Makes rounding root file finding) :
    ∃ ruleId ∈ analyzer.rule.ids, finding.ruleId = ruleId.text := by
  cases made with
  | violation id parsed place checked listed =>
      exact ⟨_, (RuleOptions.isOf_of_violations checked _ listed).ruleId, rfl⟩

/-- What an analyzer makes of a module whose constructs stand on its lines is on lines of the
module. -/
theorem Makes.isIn (made : analyzer.Makes rounding root file finding)
    (wellPlaced : ∀ module, file.parsed = .ok module → module.isWellPlaced = true) :
    finding.location.IsIn root file := by
  cases made with
  | @violation module names violations violation id parsed place checked listed =>
      have lines := (RuleOptions.showsLines_of_violations checked violation listed).isOnLinesOf
        (wellPlaced module parsed)
      exact ⟨⟨names, place, rfl⟩, module, parsed, lines.begins, lines.ordered, lines.ends⟩

end Analyzer

/-- Every finding of a scan is of a rule of its configuration that is not off, and on lines of a
discovered file that was parsed. -/
theorem scanWith_accountsForFindings {files : FileSystem} {target : FilePath} {config : ScanConfig}
    {rounding : Cohesion.Rounding} {checkers : List Checker} {projectId : String} {mode : ScanMode}
    {outcome : ScanOutcome} (made : config.checkers rounding = .ok checkers)
    (wellPlaced : files.IsWellPlaced (scanRoot files target).parts)
    (scanned : scanWith files target config checkers projectId mode = .ok outcome) :
    ∃ found, discover files target config.included config.excluded = .ok found ∧
      ∀ finding ∈ outcome.result.findings,
        (∃ rule, finding.IsOfRule config.rules rule) ∧
        ∃ file ∈ sourceFiles files found.files,
          finding.location.IsIn (scanRoot files target).parts file := by
  obtain ⟨analyzers, found, analyzersMade, discovered, -, origins⟩ :=
    exists_makes_of_mem_findings made scanned
  refine ⟨found, discovered, ?_⟩
  intro finding listed
  obtain ⟨analyzer, inAnalyzers, file, inFiles, makes⟩ := origins finding listed
  obtain ⟨enabled, severity⟩ := ScanConfig.level_of_mem_analyzers analyzersMade inAnalyzers
  constructor
  · exact ⟨analyzer.rule, makes.rule_eq, enabled, makes.registered,
      makes.severity_eq.trans severity⟩
  · refine ⟨file, inFiles, makes.isIn ?_⟩
    intro module parsed
    obtain ⟨-, content, standing, source⟩ := place_of_mem_sourceFiles inFiles
    obtain ⟨names, below⟩ : ∃ names, file.place = (scanRoot files target).parts ++ names := by
      cases makes with
      | violation id parsed place checked inViolations => exact ⟨_, place⟩
    exact wellPlaced names content module (below ▸ standing) (source ▸ parsed)

/-- A module with a decorator above a function that reads its argument fourteen lines later. -/
def patientModule : Module :=
  ⟨[.functionDef ⟨2, 0, some 16⟩ false "wait"
    (.mk [] [.mk ⟨2, 9, some 2⟩ "seconds" none] none [] [] none [])
    [.returnStmt ⟨16, 4, some 16⟩ (some (.name ⟨16, 11, some 16⟩ "seconds" .load))]
    [.name ⟨1, 1, some 1⟩ "cached" .load] none]⟩

/-- A project of this module. -/
def patientProject : FileSystem :=
  ⟨.directory [("main.py", .file ⟨84, .ok "", .ok patientModule, none⟩)], [], false⟩

theorem isWellPlaced_patientProject : patientProject.IsWellPlaced [] := by
  intro names content module found parsed
  obtain ⟨-, rfl⟩ := FileSystem.at?_single_eq_file_iff.mp found
  cases parsed
  decide

/-- A scan that keeps its stamp. -/
def stampedMode : ScanMode where
  reproducible := false
  stamp := .fresh [] 0

/-- The late argument of the module is accounted for. -/
theorem scanWith_patientProject :
    ∃ checkers outcome found, branchConfig.checkers = .ok checkers ∧
      scanWith patientProject ⟨0, []⟩ branchConfig checkers "" stampedMode = .ok outcome ∧
      outcome.result.findings.map (fun finding =>
        (finding.location.lineStart, finding.location.lineEnd)) = [(2, 16)] ∧
      ∀ finding ∈ outcome.result.findings,
        (∃ rule, finding.IsOfRule branchConfig.rules rule) ∧
        ∃ file ∈ sourceFiles patientProject found, finding.location.IsIn [] file := by
  have scans : (branchConfig.checkers.toOption.bind fun checkers =>
      (scanWith patientProject ⟨0, []⟩ branchConfig checkers "" stampedMode).toOption).map
        (fun outcome => outcome.result.findings.map fun finding =>
          (finding.location.lineStart, finding.location.lineEnd)) = some [(2, 16)] := by
    decide +kernel
  have root : (scanRoot patientProject ⟨0, []⟩).parts = [] := by decide +kernel
  have wellPlaced : patientProject.IsWellPlaced (scanRoot patientProject ⟨0, []⟩).parts := by
    rw [root]
    exact isWellPlaced_patientProject
  obtain ⟨outcome, ran, lines⟩ := Option.map_eq_some_iff.mp scans
  obtain ⟨checkers, made, ran⟩ := Option.bind_eq_some_iff.mp ran
  rw [toOption_eq_some_iff] at made ran
  obtain ⟨found, -, accounted⟩ := scanWith_accountsForFindings made wellPlaced ran
  rw [root] at accounted
  exact ⟨checkers, outcome, found.files, made, ran, lines, accounted⟩

end DesignLint
