import DesignLint.Proofs.Files.Lookup
import DesignLint.Proofs.Json.Encoding
import DesignLint.Proofs.Rule.Fitting
import DesignLint.Report.Export
import DesignLint.Result.Stamp
import DesignLint.Scan.Project
import DesignLint.Schema.Bundle

/-!
# Scans give valid results

The checkers of a configuration find only what fits the schema for results. So a scan
never fails at the check of its own result, and the result is still valid once it has
been exported and read again.
-/

namespace DesignLint

/-! ## Checkers -/

/-- A checker all of whose findings fit the schema. -/
def Checker.FindsFitting (checker : Checker) : Prop :=
  ∀ root files findings, (checker.run root files).ending = .found findings →
    ∀ finding ∈ findings, finding.Fits

namespace Analyzer

variable {analyzer : Analyzer} {rounding : Cohesion.Rounding}

/-- An analyzer finds something in a file below the root, under the path from there. -/
theorem findingsIn?_eq_some_iff {root : List String} {file : SourceFile} {module : Syntax.Module}
    {findings : List Finding} :
    analyzer.findingsIn? rounding root file module = some findings ↔
      ∃ names, file.place = root ++ names ∧
        analyzer.rawFindings module (FilePath.text ⟨0, names⟩) rounding = .ok findings := by
  simp only [← relativeTo?_eq_some_iff]
  unfold findingsIn?
  cases relativeTo? root file.place <;> simp [toOption_eq_some_iff]

variable (percentage : analyzer.options.HasPercentage)

include percentage

theorem fits_of_findingsIn? {root : List String} {file : SourceFile} {module : Syntax.Module}
    {findings : List Finding} (keeps : rounding.KeepsScores module.tree)
    (found : analyzer.findingsIn? rounding root file module = some findings) :
    ∀ finding ∈ findings, finding.Fits := by
  obtain ⟨names, -, raw⟩ := findingsIn?_eq_some_iff.mp found
  exact fits_of_rawFindings percentage keeps raw

theorem fits_of_runOver {root : List String} {files : List SourceFile} {findings : List Finding}
    (keeps : ∀ file ∈ files, ∀ module, file.parsed = .ok module → rounding.KeepsScores module.tree)
    (found : (analyzer.runOver rounding root files).ending = .found findings) :
    ∀ finding ∈ findings, finding.Fits := by
  induction files generalizing findings with
  | nil =>
      cases found
      simp
  | cons file files inductionHypothesis =>
      have later : ∀ other ∈ files, ∀ module, other.parsed = .ok module →
          rounding.KeepsScores module.tree := by
        intro other listed
        exact keeps other (List.mem_cons_of_mem file listed)
      rw [runOver] at found
      split at found
      · exact inductionHypothesis later found
      · rename_i module parsed
        split at found
        · cases found
        · rename_i own ownFound
          unfold CheckerRun.withFindings at found
          split at found
          · rename_i others rest
            cases found
            have keepsOwn := keeps file List.mem_cons_self module parsed
            exact List.forall_mem_append.mpr
              ⟨fits_of_findingsIn? percentage keepsOwn ownFound, inductionHypothesis later rest⟩
          · rename_i notFound
            exact absurd found (notFound _)

/-- Where the scores can be added up in all files, all findings fit the schema. -/
theorem fits_of_checker {root : List String} {files : List SourceFile} {findings : List Finding}
    (keeps : ∀ file ∈ files, ∀ module, file.parsed = .ok module → rounding.KeepsScores module.tree)
    (found : ((analyzer.checker rounding).run root files).ending = .found findings) :
    ∀ finding ∈ findings, finding.Fits := by
  unfold checker at found
  dsimp only at found
  split at found
  · rename_i raw rawFound
    cases found
    exact fits_of_numbered (fits_of_runOver percentage keeps rawFound)
  · rename_i notFound
    exact absurd found (notFound _)

theorem findsFitting_checker : (analyzer.checker .exact).FindsFitting := by
  intro root files findings found
  refine fits_of_checker percentage ?_ found
  intro file _ module _
  exact Cohesion.Rounding.keepsScores_exact module.tree

end Analyzer

/-- What checkers find, one of them found. -/
theorem exists_found_of_mem_runCheckers {checkers : List Checker} {deadline : Deadline}
    {root : List String} {files : List SourceFile} {finding : Finding}
    (listed : finding ∈ (runCheckers checkers deadline root files).findings) :
    ∃ checker ∈ checkers, ∃ findings, (checker.run root files).ending = .found findings ∧
      finding ∈ findings := by
  obtain ⟨yield_, yielded, member⟩ := List.mem_flatMap.mp listed
  obtain ⟨checker, inCheckers, rfl⟩ := List.mem_map.mp yielded
  cases ending : (checker.run root files).ending with
  | found findings =>
      simp only [Checker.yield, ending, CheckerEnd.findings] at member
      exact ⟨checker, inCheckers, findings, ending, member⟩
  | timedOut => simp [Checker.yield, ending, CheckerEnd.findings] at member
  | crashed => simp [Checker.yield, ending, CheckerEnd.findings] at member

theorem fits_of_runCheckers {checkers : List Checker}
    (fitting : ∀ checker ∈ checkers, checker.FindsFitting)
    (deadline : Deadline) (root : List String) (files : List SourceFile) :
    ∀ finding ∈ (runCheckers checkers deadline root files).findings, finding.Fits := by
  intro finding listed
  obtain ⟨checker, inCheckers, findings, found, member⟩ := exists_found_of_mem_runCheckers listed
  exact fitting checker inCheckers root files findings found finding member

/-- The rules of a configuration become checkers, and what they find fits the schema. -/
theorem ScanConfig.exists_checkers {config : ScanConfig} (valid : config.rules.HasValidOptions)
    (mappings : ∀ rule, (config.rules rule).options.IsMapping) :
    ∃ checkers, config.checkers .exact = .ok checkers ∧
      ∀ checker ∈ checkers, checker.FindsFitting := by
  obtain ⟨analyzers, made, percentages⟩ := RuleTable.exists_analyzers valid mappings
  refine ⟨_, by rw [checkers, made]; rfl, fun checker listed => ?_⟩
  obtain ⟨analyzer, member, rfl⟩ := List.mem_map.mp listed
  exact Analyzer.findsFitting_checker (percentages analyzer member)

/-! ## Stamps -/

theorem identifierText_ne (bytes : List UInt8) : identifierText bytes ≠ "" := by
  unfold identifierText
  dsimp only
  rw [String.intercalate_cons_cons]
  intro empty
  have dash := (String.append_eq_empty_iff.mp (String.append_eq_empty_iff.mp empty).1).2
  exact absurd dash (by decide)

theorem reproducibleRunId_ne (config : Json) (files : List String) :
    reproducibleRunId config files ≠ "" := by
  intro empty
  exact absurd (String.append_eq_empty_iff.mp empty).1 (by decide)

/-- Whether a reproducible run over files at some places has an identity: the files are below the
root, and the configuration can be written, and its texts and the paths of the files can be
encoded. -/
def HasIdentity (config : Json) (root : List String) (places : List (List String)) : Prop :=
  ∃ paths, pathsBelow root places = .ok paths ∧ config.isWritable = true ∧ config.HasEncoding ∧
    ∀ path ∈ paths, IsEncodable path

theorem isEncodable_runIdentityText_iff {config : Json} {paths : List String} :
    IsEncodable (runIdentityText config paths) ↔
      config.HasEncoding ∧ ∀ path ∈ paths, IsEncodable path := by
  have keys : IsEncodable "config" ∧ IsEncodable "files" := by decide
  rw [runIdentityText, Json.isEncodable_canonicalText_iff, Json.hasEncoding_object_iff]
  simp [keys, Json.hasEncoding_strings_iff]

theorem identityError?_eq_none_iff {config : Json} {root paths : List String} :
    identityError? config root paths = none ↔
      config.isWritable = true ∧ config.HasEncoding ∧ ∀ path ∈ paths, IsEncodable path := by
  rw [← isEncodable_runIdentityText_iff, IsEncodable]
  unfold identityError?
  split <;> simp [*]

theorem identityError?_eq_some_iff {config : Json} {root paths : List String} {error : ScanError} :
    identityError? config root paths = some error ↔
      (config.isWritable = false ∧ error = .unwritable) ∨
        config.isWritable = true ∧ ∃ own,
          Utf8.encodingError? (runIdentityText config paths) = some own ∧
            error = .file ⟨.unencodable own, .absolute root⟩ := by
  unfold identityError?
  split <;> simp [*, eq_comm]

theorem identify_eq_ok_iff {config : Json} {root : List String} {places : List (List String)}
    {stamp : RunStamp} :
    identify config root places = .ok stamp ↔
      ∃ paths, pathsBelow root places = .ok paths ∧ identityError? config root paths = none ∧
        stamp = reproducibleStamp config paths := by
  rw [identify, bind_eq_ok_iff]
  refine exists_congr fun paths => and_congr_right fun _ => ?_
  cases identityError? config root paths <;> simp [pure, Except.pure, eq_comm]

/-- How a reproducible run gets no stamp: a file is not below its root, or what makes the run has
no digest. -/
theorem identify_eq_error_iff {config : Json} {root : List String} {places : List (List String)}
    {error : ScanError} :
    identify config root places = .error error ↔
      pathsBelow root places = .error error ∨
        ∃ paths, pathsBelow root places = .ok paths ∧
          identityError? config root paths = some error := by
  rw [identify, bind_eq_error_iff]
  refine or_congr_right (exists_congr fun paths => and_congr_right fun _ => ?_)
  cases identityError? config root paths <;> simp [pure, Except.pure]

theorem exists_identify_iff {config : Json} {root : List String} {places : List (List String)} :
    (∃ stamp, identify config root places = .ok stamp) ↔ HasIdentity config root places := by
  simp only [identify_eq_ok_iff, identityError?_eq_none_iff, HasIdentity]
  constructor
  · rintro ⟨-, paths, below, identity, -⟩
    exact ⟨paths, below, identity⟩
  · rintro ⟨paths, below, identity⟩
    exact ⟨_, paths, below, identity, rfl⟩

theorem exists_outside_of_pathsBelow {root : List String} {places : List (List String)}
    {error : ScanError} (failed : pathsBelow root places = .error error) :
    ∃ place, error = .outside (.absolute place) (.absolute root) := by
  obtain ⟨place, -, placeFailed⟩ := exists_of_mapM_eq_error failed
  split at placeFailed <;> cases placeFailed
  exact ⟨_, rfl⟩

/-- A run has no identity for a file that is not below the root, a number with too many digits, or a
text that has no encoding. -/
theorem identify_fails {config : Json} {root : List String} {places : List (List String)}
    {error : ScanError} (failed : identify config root places = .error error) :
    (∃ place, error = .outside (.absolute place) (.absolute root)) ∨ error = .unwritable ∨
      ∃ own, error = .file ⟨.unencodable own, .absolute root⟩ := by
  rcases identify_eq_error_iff.mp failed with outside | ⟨paths, -, anonymous⟩
  · exact .inl (exists_outside_of_pathsBelow outside)
  · rcases identityError?_eq_some_iff.mp anonymous with ⟨-, rfl⟩ | ⟨-, own, -, rfl⟩
    · exact .inr (.inl rfl)
    · exact .inr (.inr ⟨own, rfl⟩)

namespace ScanMode

variable {mode : ScanMode} {config : Json} {root : List String} {places : List (List String)}

theorem stampFor_eq_ok_iff {stamp : RunStamp} :
    mode.stampFor config root places = .ok stamp ↔
      ∃ own, (if mode.reproducible then identify config root places else .ok mode.stamp) =
          .ok own ∧
        ⟨mode.runId.getD own.runId, mode.createdAt.getD own.createdAt⟩ = stamp := by
  unfold stampFor
  cases mode.reproducible <;> simp [bind_eq_ok_iff, pure, Except.pure]

/-- A stamp fails for a reproducible run only. -/
theorem stampFor_eq_error_iff {error : ScanError} :
    mode.stampFor config root places = .error error ↔
      mode.reproducible = true ∧ identify config root places = .error error := by
  unfold stampFor
  cases mode.reproducible <;> simp [bind_eq_error_iff, pure, Except.pure]

/-- A run has a stamp unless it has to have an identity and has none. -/
theorem exists_stampFor_iff :
    (∃ stamp, mode.stampFor config root places = .ok stamp) ↔
      (mode.reproducible = true → HasIdentity config root places) := by
  simp only [stampFor_eq_ok_iff, ← exists_identify_iff]
  cases mode.reproducible <;> simp

/-- The stamp of a scan has an identifier, if the ones that are drawn and given have. -/
theorem runId_stampFor_ne {stamp : RunStamp} (named : mode.runId ≠ some "")
    (drawn : mode.stamp.runId ≠ "") (stamped : mode.stampFor config root places = .ok stamp) :
    stamp.runId ≠ "" := by
  obtain ⟨own, ownEq, rfl⟩ := stampFor_eq_ok_iff.mp stamped
  have ownNamed : own.runId ≠ "" := by
    split at ownEq
    · obtain ⟨paths, -, -, rfl⟩ := identify_eq_ok_iff.mp ownEq
      exact reproducibleRunId_ne config paths
    · cases ownEq
      exact drawn
  dsimp only
  cases given : mode.runId with
  | none => exact ownNamed
  | some runId => exact fun empty => named (given.trans (congrArg some empty))

theorem stampFor_fails {error : ScanError}
    (failed : mode.stampFor config root places = .error error) :
    (∃ place, error = .outside (.absolute place) (.absolute root)) ∨ error = .unwritable ∨
      ∃ own, error = .file ⟨.unencodable own, .absolute root⟩ :=
  identify_fails (stampFor_eq_error_iff.mp failed).2

end ScanMode

/-! ## Results -/

namespace RunResult

variable {result : RunResult}

theorem validated_of_fits (fits : result.Fits) : result.validated = .ok result := by
  have none : RunResultSchema.schema.firstError result.toJson = none :=
    Schema.firstError_eq_none_iff.mpr
      (RunResultSchema.accepts_result Json.faithful_id fits [])
  rw [validated, none]

/-- The schema for results finds nothing wrong with the document of a result, also after a
faithful change. -/
theorem errors_of_fits {f : Json → Json} (faithful : Json.Faithful f) (fits : result.Fits) :
    (bundledSchema? RunResultSchema.name).map (·.errors (f result.toJson)) = some [] := by
  have bundled : bundledSchema? RunResultSchema.name =
      some ⟨RunResultSchema.name, some RunResultSchema.version, RunResultSchema.schema⟩ :=
    rfl
  have accepted : RunResultSchema.schema.errors (f result.toJson) = [] :=
    RunResultSchema.accepts_result faithful fits []
  obtain ⟨changed, changedEq, -, lookups⟩ := faithful.object result.toJson.entries
  have document : f result.toJson = .object changed := changedEq
  have version : changed.lookup "schema_version" = some (.string RunResultSchema.version) := by
    rw [(lookups (by simp [RunResult.toJson, Json.entries, JsonObject.IsMapping])).2]
    exact congrArg some (faithful.string RunResultSchema.version)
  have ownVersion : (Json.string RunResultSchema.version).same (.string RunResultSchema.version) =
      true := by
    simp [Json.same]
  rw [document] at accepted ⊢
  simp only [bundled, Option.map_some, BundledSchema.errors, BundledSchema.versionError?, version,
    Option.getD_some, ownVersion, if_true, accepted, List.mergeSort_nil]

end RunResult

/-- A result whose document meets the schema for results, and so does what is read back from each
of its exports, if it has any: a number may have more digits than are written or read. -/
structure RunResult.IsValid (result : RunResult) : Prop where
  document : (bundledSchema? RunResultSchema.name).map (·.errors result.toJson) = some []
  exported : result.hasReport .json = true → ∀ topCount reproducible, ∃ document,
    Json.read (some Numeral.digitLimit) (reportText result .json topCount reproducible) =
        .ok document ∧
      (bundledSchema? RunResultSchema.name).map (·.errors document) = some []

theorem RunResult.isValid_of_fits {result : RunResult} (fits : result.Fits) : result.IsValid where
  document := errors_of_fits Json.faithful_id fits
  exported := fun writable _ reproducible => ⟨_, Json.read_canonicalText writable reproducible,
    errors_of_fits (Json.faithful_exported reproducible) fits⟩

/-- With a result its configuration can be written. -/
theorem RunResult.isWritable_config {result : RunResult}
    (hasReport : result.hasReport .json = true) : result.config.isWritable = true := by
  have parts := Json.isWritable_object_iff.mp hasReport
  have run := (parts ("run", _) (List.mem_cons_of_mem _ List.mem_cons_self)).2
  exact (Json.isWritable_object_iff.mp run ("config", result.config) (by simp)).2

/-! ## Scans -/

section Scans

variable {files : FileSystem} {target : FilePath} {config : ScanConfig} {checkers : List Checker}
  {mode : ScanMode}

/-- The result that a scan puts together, before it is checked. -/
def assembled (files : FileSystem) (target : FilePath) (config : ScanConfig)
    (checkers : List Checker) (projectId : String) (mode : ScanMode) (found : Discovery)
    (deadline : Deadline) (stamp : RunStamp) : RunResult where
  runId := stamp.runId
  projectId := projectId
  createdAt := stamp.createdAt
  config := config.shown mode.reproducible
  filesScanned := found.files.length
  findings := (runCheckers checkers deadline (scanRoot files target).parts
    (sourceFiles files found.files)).findings.mergeSort Finding.scanOrder

theorem fits_assembled {projectId : String} {found : Discovery} {deadline : Deadline}
    {stamp : RunStamp} (named : stamp.runId ≠ "")
    (fits : ∀ finding ∈ (runCheckers checkers deadline (scanRoot files target).parts
      (sourceFiles files found.files)).findings, finding.Fits) :
    (assembled files target config checkers projectId mode found deadline stamp).Fits where
  runId := named
  config := ⟨_, rfl⟩
  filesScanned := Int.natCast_nonneg _
  findings := fun finding listed => fits finding ((List.mergeSort_perm _ _).mem_iff.mp listed)

/-- What a scan with checkers gives: the result that is put together from its files, if the schema
for results accepts it. -/
theorem result_scanWith_eq_ok_iff {projectId : String} {result : RunResult} :
    (scanWith files target config checkers projectId mode).map ScanOutcome.result = .ok result ↔
      ∃ found deadline stamp, discover files target config.included config.excluded = .ok found ∧
        readDeadline mode.deadline = .ok deadline ∧
        mode.stampFor (config.shown mode.reproducible) (scanRoot files target).parts found.files =
          .ok stamp ∧
        (assembled files target config checkers projectId mode found deadline stamp).validated =
          .ok result := by
  rw [map_eq_ok_iff]
  constructor
  · rintro ⟨outcome, scanned, rfl⟩
    obtain ⟨found, discovered, rest⟩ := bind_eq_ok_iff.mp scanned
    obtain ⟨deadline, limited, rest⟩ := bind_eq_ok_iff.mp rest
    obtain ⟨stamp, stamped, rest⟩ := bind_eq_ok_iff.mp rest
    obtain ⟨result, valid, finish⟩ := bind_eq_ok_iff.mp rest
    cases finish
    exact ⟨found, deadline, stamp, mapError_eq_ok_iff.mp discovered, mapError_eq_ok_iff.mp limited,
      stamped, valid⟩
  · rintro ⟨found, deadline, stamp, discovered, limited, stamped, valid⟩
    unfold assembled at valid
    unfold scanWith
    simp only [discovered, limited, stamped, valid, mapError_ok, bind, Except.bind]
    exact ⟨_, rfl, rfl⟩

/-- How a scan with checkers fails: at its patterns, at its deadline, at its stamp, or because the
schema for results rejects the result that is put together. -/
theorem scanWith_eq_error_iff {projectId : String} {error : ScanError} :
    scanWith files target config checkers projectId mode = .error error ↔
      (∃ own, discover files target config.included config.excluded = .error own ∧
        error = .pattern own) ∨
      ∃ found, discover files target config.included config.excluded = .ok found ∧
        ((∃ own, readDeadline mode.deadline = .error own ∧ error = .deadline own) ∨
          ∃ deadline, readDeadline mode.deadline = .ok deadline ∧
            (mode.stampFor (config.shown mode.reproducible) (scanRoot files target).parts
                found.files = .error error ∨
              ∃ stamp, mode.stampFor (config.shown mode.reproducible)
                  (scanRoot files target).parts found.files = .ok stamp ∧
                (assembled files target config checkers projectId mode found deadline
                  stamp).validated = .error error)) := by
  unfold scanWith assembled
  simp only [bind_eq_error_iff, mapError_eq_error_iff, mapError_eq_ok_iff]
  simp [pure, Except.pure, eq_comm]

variable (projectId : String) (fitting : ∀ checker ∈ checkers, checker.FindsFitting)
  (named : mode.runId ≠ some "") (drawn : mode.stamp.runId ≠ "")

include fitting named drawn

theorem fits_assembled_of_fitting {found : Discovery} {stamp : RunStamp} (deadline : Deadline)
    (stamped : mode.stampFor (config.shown mode.reproducible) (scanRoot files target).parts
      found.files = .ok stamp) :
    (assembled files target config checkers projectId mode found deadline stamp).Fits :=
  fits_assembled (ScanMode.runId_stampFor_ne named drawn stamped)
    (fits_of_runCheckers fitting deadline _ _)

/-- A scan that has found its files and its deadline gives a result exactly if it has a stamp. -/
theorem exists_scanWith_iff {found : Discovery} {deadline : Deadline}
    (discovered : discover files target config.included config.excluded = .ok found)
    (limited : readDeadline mode.deadline = .ok deadline) :
    (∃ outcome, scanWith files target config checkers projectId mode = .ok outcome) ↔
      ∃ stamp, mode.stampFor (config.shown mode.reproducible) (scanRoot files target).parts
        found.files = .ok stamp := by
  constructor
  · rintro ⟨outcome, scanned⟩
    obtain ⟨own, -, stamp, discoveredToo, -, stamped, -⟩ :=
      result_scanWith_eq_ok_iff.mp (map_eq_ok_iff.mpr ⟨outcome, scanned, rfl⟩)
    cases discovered.symm.trans discoveredToo
    exact ⟨stamp, stamped⟩
  · rintro ⟨stamp, stamped⟩
    have fits := fits_assembled_of_fitting projectId fitting named drawn deadline stamped
    obtain ⟨outcome, scanned, -⟩ := map_eq_ok_iff.mp (result_scanWith_eq_ok_iff.mpr
      ⟨found, deadline, stamp, discovered, limited, stamped, RunResult.validated_of_fits fits⟩)
    exact ⟨outcome, scanned⟩

/-- A scan never fails at the check of its own result. -/
theorem scanWith_ne_invalid (error : SchemaError) :
    scanWith files target config checkers projectId mode ≠ .error (.invalid error) := by
  intro failed
  rcases scanWith_eq_error_iff.mp failed with ⟨own, -, other⟩ | ⟨found, -, rest⟩
  · cases other
  rcases rest with ⟨own, -, other⟩ | ⟨deadline, -, unstamped | ⟨stamp, stamped, rejected⟩⟩
  · cases other
  · rcases ScanMode.stampFor_fails unstamped with ⟨place, other⟩ | other | ⟨own, other⟩ <;>
      cases other
  · have fits := fits_assembled_of_fitting projectId fitting named drawn deadline stamped
    cases rejected.symm.trans (RunResult.validated_of_fits fits)

/-- The result of a scan is valid. -/
theorem isValid_of_scanWith {outcome : ScanOutcome}
    (scanned : scanWith files target config checkers projectId mode = .ok outcome) :
    outcome.result.IsValid := by
  obtain ⟨found, deadline, stamp, -, -, stamped, valid⟩ :=
    result_scanWith_eq_ok_iff.mp (map_eq_ok_iff.mpr ⟨outcome, scanned, rfl⟩)
  have fits := fits_assembled_of_fitting projectId fitting named drawn deadline stamped
  have same := Except.ok.inj ((RunResult.validated_of_fits fits).symm.trans valid)
  exact same ▸ RunResult.isValid_of_fits fits

end Scans

/-- A project of one branch. -/
def branchProject : FileSystem :=
  let branch : Syntax.Module :=
    ⟨[.ifStmt ⟨1, 0, some 2⟩ (.name ⟨1, 3, some 1⟩ "ready" .load) [.passStmt ⟨2, 4, some 2⟩] []]⟩
  ⟨.directory [("main.py", .file ⟨19, .ok "if ready:\n    pass\n", .ok branch, none⟩)], [], false⟩

/-- The configuration that the project has without a file for it. -/
def branchConfig : ScanConfig where
  root := ⟨0, []⟩
  rules := Preset.standard.table

/-- A reproducible scan. -/
def reproducibleMode : ScanMode where
  reproducible := true
  stamp := .fresh [] 0

theorem layeredRules_recommended :
    layeredRules "recommended" [] = .ok Preset.recommended.table := by
  have valid : Preset.recommended.table.validated = .ok Preset.recommended.table :=
    RuleTable.validated_eq_ok_iff.mpr ⟨rfl, Preset.recommended.hasValidOptions⟩
  exact valid

theorem configFor_branchProject :
    configFor branchProject (scanRoot branchProject ⟨0, []⟩) {} = .ok (branchConfig, []) := by
  have noFile : (({} : ConfigRequest).file.or
      (findConfig? branchProject (scanRoot branchProject ⟨0, []⟩))) = none := by
    with_unfolding_all rfl
  have root : scanRoot branchProject ⟨0, []⟩ = ⟨0, []⟩ := by
    with_unfolding_all rfl
  have preset : choosePreset "" "" = "recommended" := by decide
  unfold configFor
  rw [root] at noFile ⊢
  simp only [noFile, bind, Except.bind, ConfigDocument.silent, preset, JsonObject.merge_nil,
    layeredRules_recommended, mapError_ok]
  rfl

/-- The project has an identity. -/
theorem hasIdentity_branchProject : HasIdentity (branchConfig.shown true) [] [["main.py"]] :=
  ⟨["main.py"], rfl, by decide +kernel, by decide +kernel, by decide⟩

/-- A scan that needs not be reproducible. -/
def freshMode : ScanMode where
  reproducible := false
  stamp := .fresh [] 0

/-- A number of four thousand hexadecimal digits. In decimal digits it cannot be written. -/
def longNumber : Int := 16 ^ 4000 - 1

/-- The settings that have this number ignored. -/
def ignoringLong : JsonObject :=
  [("no-magic-numbers-except-zero-one",
    .array [.string "warn", .object [("ignore", .array [.int longNumber])]])]

/-- A configuration with these settings. -/
def ignoringContent : FileContent :=
  let text : Except Utf8Error String := .ok
    ("rules:\n  no-magic-numbers-except-zero-one:\n  - warn\n  - ignore: [0x"
      ++ String.ofList (List.replicate 4000 'f') ++ "]\n")
  ⟨4063, text, FileContent.plainSource text, some (.object [("rules", .object ignoringLong)])⟩

/-- A project with this configuration and nothing else. -/
def ignoringProject : FileSystem :=
  ⟨.directory [(".code-complete.yml", .file ignoringContent)], [], false⟩

/-- The settings that they leave. -/
def ignoringTable : RuleTable :=
  Preset.recommended.table.set .literals ⟨.warn, [("ignore", .array [.int longNumber])]⟩

/-- The configuration that the project has. -/
def ignoringConfig : ScanConfig where
  root := ⟨0, []⟩
  rules := ignoringTable
  file := some ⟨0, [".code-complete.yml"]⟩

theorem hasValidOptions_ignoringTable : ignoringTable.HasValidOptions := by
  intro rule
  rw [← Option.isNone_iff_eq_none]
  cases rule <;> decide +kernel

theorem scanRoot_ignoringProject : scanRoot ignoringProject ⟨0, []⟩ = ⟨0, []⟩ := by
  with_unfolding_all rfl

theorem configFor_ignoringProject :
    configFor ignoringProject (scanRoot ignoringProject ⟨0, []⟩) {} =
      .ok (ignoringConfig, [.configured ⟨0, [".code-complete.yml"]⟩]) := by
  have file : (({} : ConfigRequest).file.or (findConfig? ignoringProject ⟨0, []⟩)) =
      some ⟨0, [".code-complete.yml"]⟩ := by
    with_unfolding_all rfl
  have document : readConfigFile ignoringProject ⟨0, [".code-complete.yml"]⟩ =
      .ok { ConfigDocument.silent with rules := ignoringLong } := by
    with_unfolding_all rfl
  have layered : layeredRules "recommended" ignoringLong = .ok ignoringTable :=
    bind_eq_ok_iff.mpr ⟨ignoringTable, rfl,
      RuleTable.validated_eq_ok_iff.mpr ⟨rfl, hasValidOptions_ignoringTable⟩⟩
  have preset : choosePreset "" "" = "recommended" := by decide
  unfold configFor
  rw [scanRoot_ignoringProject]
  simp only [file, bind, Except.bind, document, ConfigDocument.silent, preset,
    JsonObject.merge_nil, layered, mapError_ok]
  rfl

end DesignLint
