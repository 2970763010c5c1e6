import DesignLint.Proofs.CommandLine.Scanning
import DesignLint.Proofs.Result.Totals
import DesignLint.Proofs.Scan.SingleFile

/-!
# Exit codes agree with reports

The exit code of a scan is settled by counts of severities, the closing line of its report by grades
of findings. They agree because the rules of a configuration only find on two severities, one of
which fails a run and one of which warns.
-/

namespace DesignLint

/-- What a result counts are its findings, and the highest severity is that of the counts. -/
structure RunResult.CountsFindings (result : RunResult) : Prop where
  bySeverity : result.bySeverity.total = result.findings.length
  byFamily : result.byFamily.total = result.findings.length
  byRule : (∀ finding ∈ result.findings, finding.namesRule = true) →
    result.byRule.total = result.findings.length
  worst : result.worst.map Severity.label =
    (CommandLine.severityCounts result).worst.map fun rank => (SeverityRank.label rank).toLower

theorem RunResult.countsFindings (result : RunResult) : result.CountsFindings where
  bySeverity := by
    rw [RunResult.bySeverity, Tally.total_ofNames, List.length_map]
  byFamily := by
    rw [RunResult.byFamily, Tally.total_ofNames, List.length_map]
  byRule := by
    intro named
    rw [RunResult.byRule, List.filter_eq_self.mpr named, Tally.total_ofNames, List.length_map]
  worst := by
    have lower (severity : Severity) :
        severity.label = (SeverityRank.label (some severity)).toLower := by
      cases severity <;> decide +kernel
    rw [result.worst_severityCounts, Option.map_map]
    cases result.worst with
    | none => rfl
    | some severity => exact congrArg some (lower severity)

namespace CommandLine

/-- The outcome of a scan agrees with the report of its result for a terminal: the line that closes
it tells so many errors and warnings, and these settle the exit code. -/
structure Outcome.AgreesWith (outcome : Outcome) (arguments : ScanArguments) (result : RunResult) :
    Prop where
  printed : arguments.format = .text → arguments.output = none →
    outcome.output = textReport result
  closing : (TextReport.lines result).getLast? = some
    (if result.findings.isEmpty then "No problems found."
    else toString result.findings.length
      ++ (if result.findings.length = 1 then " problem (" else " problems (")
      ++ toString (result.number .error) ++ " errors, "
      ++ toString (result.number .warning) ++ " warnings) in "
      ++ toString result.filesScanned ++ " files")
  violation : outcome.code = 1 ↔ 0 < result.number .error ∨
    ∃ limit, arguments.maxWarnings = some limit ∧ limit < result.number .warning
  success : outcome.code = 0 ↔ ¬(0 < result.number .error ∨
    ∃ limit, arguments.maxWarnings = some limit ∧ limit < result.number .warning)

variable {files : FileSystem} {stamp : RunStamp} {arguments : ScanArguments} {target : FilePath}

theorem ScanArguments.exitCode_iff (arguments : ScanArguments) {result : RunResult}
    (plain : ∀ finding ∈ result.findings, finding.severity = .medium ∨ finding.severity = .high) :
    (arguments.exitCode result = 1 ↔ 0 < result.number .error ∨
      ∃ limit, arguments.maxWarnings = some limit ∧ limit < result.number .warning) ∧
    (arguments.exitCode result = 0 ↔ ¬(0 < result.number .error ∨
      ∃ limit, arguments.maxWarnings = some limit ∧ limit < result.number .warning)) := by
  rw [← RunResult.fails_severityCounts_iff plain arguments.maxWarnings, exitCode,
    ExitPolicy.exitCode]
  cases ExitPolicy.fails { maxWarnings := arguments.maxWarnings } (severityCounts result) <;> simp

theorem Outcome.agreesWith_of_deliver {result : RunResult} {outcome : Outcome}
    (plain : ∀ finding ∈ result.findings, finding.severity = .medium ∨ finding.severity = .high)
    (delivered : deliver files arguments result = .ok outcome) :
    outcome.AgreesWith arguments result := by
  obtain ⟨-, rfl⟩ := deliver_eq_ok_iff.mp delivered
  obtain ⟨violation, success⟩ := arguments.exitCode_iff plain
  rw [← arguments.code_outcome] at violation success
  refine ⟨?_, result.getLast?_lines, violation, success⟩
  intro format terminal
  rw [ScanArguments.outcome, terminal]
  dsimp only
  rw [ScanArguments.reportText, format]
  rfl

/-- A scan under an accepted configuration that has a result returns exactly if it can deliver its
report, and what it returns agrees with the report: the exit code is that for violations exactly if
errors are told, or more warnings than allowed. Results count their findings in the same way,
whatever they were found by. -/
theorem scanPath_agreesWith {rules : JsonObject} {config : ScanConfig} {events : List ScanEvent}
    (leads : files.LeadsTo arguments.path target)
    (read : readRuleFlags arguments.rules = .ok rules)
    (accepted : configFor files (scanRoot files target) (arguments.request rules) =
      .ok (config, events)) :
    (∀ outcome, CommandLine.scanPath files stamp arguments = .ok outcome →
      ∃ scan, scanProject files target (arguments.request rules) arguments.projectId
          (arguments.mode stamp) = .ok scan ∧
        outcome.AgreesWith arguments scan.result ∧
        ∀ finding ∈ scan.result.findings, finding.namesRule = true) ∧
    (∀ scan, scanProject files target (arguments.request rules) arguments.projectId
        (arguments.mode stamp) = .ok scan →
      arguments.unset = [] →
      ((∃ outcome, CommandLine.scanPath files stamp arguments = .ok outcome) ↔
        CanDeliver files arguments scan.result)) ∧
    ∀ result : RunResult, result.CountsFindings := by
  have valid := hasValidOptions_of_configFor accepted
  have scanned (mode : ScanMode) := scanProject_eq_scanConfigured leads
    (arguments.request rules) arguments.projectId mode
  have reports (outcome : Outcome)
      (returned : CommandLine.scanPath files stamp arguments = .ok outcome) :
      reported files stamp arguments target = .ok outcome := by
    rcases settle_eq_ok_iff.mp (settle_reported_of_scanPath leads returned) with
      reports | ⟨error, failed, -⟩
    · exact reports
    · -- a configuration that is loaded is no cause of an error any more
      exact absurd failed (reported_ne_load leads read accepted (.config error))
  refine ⟨?agrees, ?returns, RunResult.countsFindings⟩
  case agrees =>
    intro outcome returned
    obtain ⟨own, scan, ownRead, ran, delivered⟩ :=
      reported_eq_ok_iff.mp (reports outcome returned)
    cases read.symm.trans ownRead
    rw [scanned] at ran
    obtain ⟨checkers, inner, made, innerRan, same⟩ :=
      exists_scanWith_of_scanConfigured accepted ran
    have plain := severity_of_mem_findings made innerRan
    rw [← same] at plain
    refine ⟨scan, by rw [scanned, ran], Outcome.agreesWith_of_deliver plain delivered, ?_⟩
    rw [same]
    exact namesRule_of_mem_findings made innerRan
  case returns =>
    intro scan ran complete
    constructor
    · rintro ⟨outcome, returned⟩
      obtain ⟨own, ownScan, ownRead, ownRan, delivered⟩ :=
        reported_eq_ok_iff.mp (reports outcome returned)
      cases read.symm.trans ownRead
      cases ran.symm.trans ownRan
      exact (deliver_eq_ok_iff.mp delivered).1
    · intro can
      rw [scanPath_eq_settle leads complete]
      exact ⟨_, settle_eq_ok_iff.mpr (.inl (reported_eq_ok_iff.mpr
        ⟨rules, scan, read, ran, deliver_eq_ok_iff.mpr ⟨can, rfl⟩⟩))⟩

/-- A scan of everything that allows no warnings. -/
def strictScan : ScanArguments where
  path := .absolute []
  preset := "recommended"
  maxWarnings := some 0

theorem leadsTo_strictScan : waitingProject.LeadsTo strictScan.path (.absolute []) where
  working := List.not_mem_nil
  resolved := rfl
  present := rfl

/-- A number without a name is a warning too many for such a scan. -/
theorem scanPath_strictScan : ∃ (outcome : Outcome) (scan : ScanOutcome),
    CommandLine.scanPath waitingProject (.fresh [] 0) strictScan = .ok outcome ∧
      outcome.code = 1 ∧ outcome.AgreesWith strictScan scan.result := by
  have returned : (CommandLine.scanPath waitingProject (.fresh [] 0) strictScan).toOption.map
      (·.code) = some 1 := by
    decide +kernel
  have accepted : (configFor waitingProject (scanRoot waitingProject (.absolute []))
      (strictScan.request [])).toOption.isSome = true := by
    decide +kernel
  obtain ⟨outcome, ended, code⟩ := Option.map_eq_some_iff.mp returned
  obtain ⟨configured, loaded⟩ := Option.isSome_iff_exists.mp accepted
  rw [toOption_eq_some_iff] at ended loaded
  obtain ⟨agrees, -, -⟩ := scanPath_agreesWith leadsTo_strictScan rfl loaded
  obtain ⟨scan, -, agreement, -⟩ := agrees outcome ended
  exact ⟨outcome, scan, ended, code, agreement⟩

end CommandLine

end DesignLint
