import DesignLint.Proofs.Cohesion.Average
import DesignLint.Proofs.Scan.Loading
import DesignLint.Proofs.Scan.Origin

/-!
# Scans under a configuration that is loaded

Once its configuration is loaded, a scan is a scan with the checkers of this configuration. What it
may still fail with has its own causes: patterns that are none, a deadline that is no number, a
reproducible scan without an identity, and a result that its schema does not accept.
-/

namespace DesignLint

section Scans

variable {files : FileSystem} {target : FilePath} {request : ConfigRequest} {config : ScanConfig}
  {events : List ScanEvent} {checkers : List Checker} {projectId : String} {mode : ScanMode}

/-- What a scan fails with after its configuration is loaded. -/
inductive ScanError.IsLate : ScanError → Prop
  | pattern (error : GlobError) : IsLate (.pattern error)
  | numeral (error : NumeralError) : IsLate (.numeral error)
  | outside (path root : FilePath) : IsLate (.outside path root)
  | file (error : FileError) : IsLate (.file error)
  | invalid (error : SchemaError) : IsLate (.invalid error)

theorem isLate_of_scanWith {error : ScanError}
    (failed : scanWith files target config checkers projectId mode = .error error) :
    error.IsLate := by
  rcases scanWith_eq_error_iff.mp failed with ⟨own, -, rfl⟩ | ⟨found, -, rest⟩
  · exact .pattern own
  rcases rest with ⟨own, -, rfl⟩ | ⟨deadline, -, unstamped | ⟨stamp, -, rejected⟩⟩
  · exact .numeral own
  · rcases ScanMode.stampFor_fails unstamped with ⟨place, rfl⟩ | rfl | ⟨own, rfl⟩
    · exact .outside _ _
    · exact .numeral .unwritable
    · exact .file _
  · unfold RunResult.validated at rejected
    split at rejected <;> cases rejected
    exact .invalid _

theorem scanConfigured_of_unloaded {checkers : Option (List Checker)} {error : LoadError}
    (unloaded : configFor files (scanRoot files target) request = .error error) :
    scanConfigured files target request checkers projectId mode = .error (.load error) := by
  unfold scanConfigured
  rw [unloaded]
  rfl

variable (configured : configFor files (scanRoot files target) request = .ok (config, events))
include configured

/-- A configuration that is loaded has its checkers. -/
theorem exists_checkers_of_configFor : ∃ checkers, config.checkers = .ok checkers :=
  ScanConfig.exists_checkers_of_hasValidOptions (hasValidOptions_of_configFor configured) .binary64

/-- A scan under a configuration that is loaded is one with the checkers of the configuration. -/
theorem scanConfigured_eq (made : config.checkers = .ok checkers) :
    scanConfigured files target request none projectId mode =
      (scanWith files target config checkers projectId mode).map fun outcome =>
        { outcome with events := events ++ outcome.events } := by
  unfold scanConfigured
  rw [configured]
  simp only [made, mapError_ok, bind, Except.bind]
  cases scanWith files target config checkers projectId mode <;> rfl

/-- A result under a configuration that is loaded is one of a scan with its checkers. -/
theorem exists_scanWith_of_scanConfigured {outcome : ScanOutcome}
    (scanned : scanConfigured files target request none projectId mode = .ok outcome) :
    ∃ checkers own, config.checkers = .ok checkers ∧
      scanWith files target config checkers projectId mode = .ok own ∧
      outcome.result = own.result := by
  obtain ⟨checkers, made⟩ := exists_checkers_of_configFor configured
  rw [scanConfigured_eq configured made] at scanned
  obtain ⟨own, ran, rfl⟩ := map_eq_ok_iff.mp scanned
  exact ⟨checkers, own, made, ran, rfl⟩

/-- A scan under a configuration that is loaded fails for no fault of loading one. -/
theorem isLate_of_scanConfigured {error : ScanError}
    (failed : scanConfigured files target request none projectId mode = .error error) :
    error.IsLate := by
  obtain ⟨checkers, made⟩ := exists_checkers_of_configFor configured
  rw [scanConfigured_eq configured made, map_eq_error_iff] at failed
  exact isLate_of_scanWith failed

end Scans

/-! ## Success -/

/-- Files that a scan can make something of: documents name each key once, and no module has more
statements than the largest file that is scanned has bytes. -/
structure FileSystem.IsReadable (files : FileSystem) : Prop where
  documents : ∀ place content value, files.at? place = some (.file content) →
    content.settings = some value → value.NamesKeysOnce
  modules : ∀ place content module, files.at? place = some (.file content) →
    content.source = .ok module → Cohesion.statementCount module.tree ≤ sizeLimit

theorem FileSystem.exists_at?_of_open? {files : FileSystem} {path : FilePath}
    {content : FileContent} (opened : files.open? path = .ok content) :
    ∃ place, files.at? place = some (.file content) := by
  unfold FileSystem.open? at opened
  split at opened
  · cases opened
  · rename_i place _
    split at opened
    · rename_i found
      cases opened
      exact ⟨place, found⟩
    · cases opened
    · cases opened

/-- What analyzers find in files of some size fits the schema for results. -/
theorem fits_of_mem_runCheckers {analyzers : List Analyzer}
    (percentages : ∀ analyzer ∈ analyzers, analyzer.options.HasPercentage) {deadline : Deadline}
    {root : List String} {sources : List SourceFile}
    (small : ∀ file ∈ sources, ∀ module, file.parsed = .ok module →
      Cohesion.statementCount module.tree ≤ sizeLimit) :
    ∀ finding ∈ (runCheckers (analyzers.map fun analyzer => analyzer.checker) deadline root
      sources).findings, finding.Fits := by
  intro finding listed
  obtain ⟨checker, inCheckers, findings, found, member⟩ := exists_found_of_mem_runCheckers listed
  obtain ⟨analyzer, inAnalyzers, rfl⟩ := List.mem_map.mp inCheckers
  have keeps : ∀ file ∈ sources, ∀ module, file.parsed = .ok module →
      Cohesion.Rounding.binary64.KeepsScores module.tree := by
    intro file inSources module parsed
    exact Cohesion.Rounding.keepsScores_binary64 (.module module)
      (small file inSources module parsed)
  exact Analyzer.fits_of_checker (percentages analyzer inAnalyzers) keeps found finding member

/-- A scan under a configuration that is loaded succeeds once its files and its stamp are found. -/
theorem exists_scanConfigured_eq_ok {files : FileSystem} {target : FilePath}
    {request : ConfigRequest} {config : ScanConfig} {events : List ScanEvent} {mode : ScanMode}
    {found : Discovery} {deadline : Deadline} {stamp : RunStamp} (projectId : String)
    (readable : files.IsReadable) (requested : (Json.object request.rules).NamesKeysOnce)
    (configured : configFor files (scanRoot files target) request = .ok (config, events))
    (named : mode.runId ≠ some "") (drawn : mode.stamp.runId ≠ "")
    (discovered : discover files target config.included config.excluded = .ok found)
    (limited : readDeadline mode.deadline = .ok deadline)
    (stamped : mode.stampFor (config.shown mode.reproducible) (scanRoot files target).parts
      found.files = .ok stamp) :
    ∃ outcome, scanConfigured files target request none projectId mode = .ok outcome := by
  have mappings := isMapping_options_of_configFor (fun path content value _ opened settings => by
    obtain ⟨place, placed⟩ := FileSystem.exists_at?_of_open? opened
    exact readable.documents place content value placed settings) requested configured
  obtain ⟨analyzers, made, percentages⟩ :=
    RuleTable.exists_analyzers (hasValidOptions_of_configFor configured) mappings
  have fits : (assembled files target config (analyzers.map fun analyzer => analyzer.checker)
      projectId mode found deadline stamp).Fits := by
    apply fits_assembled (ScanMode.runId_stampFor_ne named drawn stamped)
    apply fits_of_mem_runCheckers percentages
    intro file listed module parsed
    obtain ⟨-, content, placed, source⟩ := place_of_mem_sourceFiles listed
    exact readable.modules file.place content module placed (source ▸ parsed)
  obtain ⟨outcome, ran, -⟩ := map_eq_ok_iff.mp (result_scanWith_eq_ok_iff.mpr
    ⟨found, deadline, stamp, discovered, limited, stamped, RunResult.validated_of_fits fits⟩)
  rw [scanConfigured_eq configured (map_eq_ok_iff.mpr ⟨analyzers, made, rfl⟩), ran]
  exact ⟨_, rfl⟩

end DesignLint
