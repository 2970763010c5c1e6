import DesignLint.Proofs.CommandLine.Scanning
import DesignLint.Proofs.Files.Lookup

/-!
# How scans from the command line end over their configurations

A scan tells an error of its configuration and ends with the exit code for errors of the user. With
a configuration that serves, and a report that can be delivered, it ends with one of the other exit
codes. Between the two there are configurations that it neither refuses nor can use, and raises an
error over: files whose bytes are no text, errors that cannot be told, patterns that cannot be
looked up, scans that have to have an identity and have none, and reports that cannot be written.
-/

namespace DesignLint

/-! ## Patterns -/

section Patterns

variable {files : FileSystem} {path target : FilePath}

theorem included_ne_nil_of_configFor {root : FilePath} {request : ConfigRequest}
    {config : ScanConfig} {events : List ScanEvent}
    (configured : configFor files root request = .ok (config, events)) : config.included ≠ [] := by
  rw [configFor_eq_bind] at configured
  obtain ⟨document, -, rest⟩ := bind_eq_ok_iff.mp configured
  obtain ⟨rules, -, made⟩ := map_eq_ok_iff.mp rest
  cases made
  unfold ConfigRequest.configOf
  dsimp only
  split
  · exact List.cons_ne_nil _ _
  · rename_i some
    simpa using some

/-- The files of a directory are found unless one of the patterns cannot be looked up. A single file
needs no patterns. -/
theorem discover_error_iff (leads : files.LeadsTo path target) {included excluded : List String}
    (patterns : included ≠ []) {error : GlobError} :
    discover files target included excluded = .error error ↔
      files.isDirectory target = true ∧
        included.mapM (Glob.ofTextIn files target) = .error error := by
  obtain ⟨entry, found⟩ := Option.isSome_iff_exists.mp leads.present
  have asked : files.askingError? target = none := by
    unfold FileSystem.askingError?
    unfold FileSystem.find? at found
    split at found
    · cases found
    · rename_i place located
      rw [located]
  have some : included.isEmpty = false := by simpa using patterns
  cases entry with
  | file content =>
      have isFile : files.file? target = .some content := by rw [FileSystem.file?, found]
      have noDirectory : files.isDirectory target = false := by
        rw [FileSystem.isDirectory, found]
        rfl
      rw [discover, asked, isFile, noDirectory]
      simp
  | directory entries =>
      have noFile : files.file? target = none := by rw [FileSystem.file?, found]
      have isDirectory : files.isDirectory target = true := by
        rw [FileSystem.isDirectory, found]
        rfl
      rw [discover, asked, noFile, isDirectory, some]
      cases read : included.mapM (Glob.ofTextIn files target) with
      | error own => simp [read, Except.map]
      | ok globs => simp [read, Except.map]

end Patterns

namespace CommandLine

variable {files : FileSystem} {stamp : RunStamp} {arguments : ScanArguments} {target : FilePath}

/-! ## Three kinds of configurations -/

/-- The errors that a configuration is rejected with. -/
inductive Rejects (files : FileSystem) (target : FilePath) (arguments : ScanArguments) :
    ConfigError → Prop
  | flags {error : ConfigError} (unread : readRuleFlags arguments.rules = .error error) :
    Rejects files target arguments error
  | configuration {rules : JsonObject} {error : ConfigError}
      (read : readRuleFlags arguments.rules = .ok rules)
      (refused : configFor files (scanRoot files target) (arguments.request rules) =
        .error (.config error)) :
    Rejects files target arguments error

/-- The errors that a configuration is refused with: those that it is rejected with and that can be
told. -/
structure Refuses (files : FileSystem) (target : FilePath) (arguments : ScanArguments)
    (error : ConfigError) : Prop where
  rejects : Rejects files target arguments error
  told : error.fault? = none

/-- The configuration that the arguments of a scan ask for. -/
structure Loads (files : FileSystem) (target : FilePath) (arguments : ScanArguments)
    (rules : JsonObject) (config : ScanConfig) : Prop where
  read : readRuleFlags arguments.rules = .ok rules
  loaded : ∃ events, configFor files (scanRoot files target) (arguments.request rules) =
    .ok (config, events)

/-- A configuration that serves a scan, with the files that its patterns take. A reproducible scan
needs an identity. -/
structure Serves (files : FileSystem) (target : FilePath) (arguments : ScanArguments)
    (rules : JsonObject) (config : ScanConfig) (found : Discovery) : Prop
    extends Loads files target arguments rules config where
  discovered : discover files target config.included config.excluded = .ok found
  identity : arguments.reproducible = true →
    HasIdentity (config.shown true) (scanRoot files target).parts found.files

/-- The result of a scan under a configuration that serves it. -/
def HasResult (files : FileSystem) (stamp : RunStamp) (target : FilePath)
    (arguments : ScanArguments) (result : RunResult) : Prop :=
  ∃ rules config found scan, Serves files target arguments rules config found ∧
    scanProject files target (arguments.request rules) arguments.projectId
      (arguments.mode stamp) = .ok scan ∧ scan.result = result

/-- The errors that a scan raises over a configuration that it does not refuse. -/
inductive Raises (files : FileSystem) (stamp : RunStamp) (target : FilePath)
    (arguments : ScanArguments) : ScanError → Prop
  | file {rules : JsonObject} {error : LoadError}
      (read : readRuleFlags arguments.rules = .ok rules)
      (escapes : error.Escapes files (scanRoot files target) (arguments.request rules)) :
    Raises files stamp target arguments (.load error)
  | untold {error : ConfigError} {fault : TellingFault}
      (rejects : Rejects files target arguments error) (cannotTell : error.fault? = some fault) :
    Raises files stamp target arguments (CommandLine.untold error fault)
  | pattern {rules : JsonObject} {config : ScanConfig} {error : GlobError}
      (loads : Loads files target arguments rules config)
      (directory : files.isDirectory target = true)
      (unusable : config.included.mapM (Glob.ofTextIn files target) = .error error) :
    Raises files stamp target arguments (.pattern error)
  | anonymous {rules : JsonObject} {config : ScanConfig} {found : Discovery} {error : ScanError}
      (loads : Loads files target arguments rules config)
      (discovered : discover files target config.included config.excluded = .ok found)
      (reproducible : arguments.reproducible = true)
      (noIdentity : identify (config.shown true) (scanRoot files target).parts found.files =
        .error error) :
    Raises files stamp target arguments error
  | report {result : RunResult} {error : ScanError}
      (hasResult : HasResult files stamp target arguments result)
      (undelivered : Undelivered files arguments result error) :
    Raises files stamp target arguments error

/-! ## Endings -/

theorem reported_of_rejects (leads : files.LeadsTo arguments.path target) {error : ConfigError}
    (rejects : Rejects files target arguments error) :
    reported files stamp arguments target = .error (.load (.config error)) := by
  cases rejects with
  | flags unread =>
      unfold reported
      rw [unread]
      rfl
  | configuration read refused =>
      rw [reported_eq leads read, scanConfigured_of_unloaded refused]
      rfl

theorem settle_of_raises (leads : files.LeadsTo arguments.path target) {error : ScanError}
    (raises : Raises files stamp target arguments error) :
    settle (reported files stamp arguments target) = .error (.scan error) := by
  cases raises with
  | file read escapes =>
      rw [reported_eq leads read, scanConfigured_of_unloaded (configFor_of_escapes escapes)]
      cases escapes <;> rfl
  | untold rejects cannotTell =>
      rw [reported_of_rejects leads rejects]
      exact settle_of_fault cannotTell
  | pattern loads directory unusable =>
      rename_i rules config error
      obtain ⟨read, events, configured⟩ := loads
      obtain ⟨checkers, made⟩ := exists_checkers_of_configFor configured
      have failed : discover files target config.included config.excluded = .error error :=
        (discover_error_iff leads (included_ne_nil_of_configFor configured)).mpr
          ⟨directory, unusable⟩
      rw [reported_eq leads read, scanConfigured_eq configured made,
        scanWith_eq_error_iff.mpr (.inl ⟨error, failed, rfl⟩)]
      rfl
  | anonymous loads discovered reproducible noIdentity =>
      obtain ⟨read, events, configured⟩ := loads
      obtain ⟨checkers, made⟩ := exists_checkers_of_configFor configured
      have limited : readDeadline (arguments.mode stamp).deadline = .ok usualDeadline := rfl
      have shown : (arguments.mode stamp).reproducible = true := reproducible
      have unstamped := ScanMode.stampFor_eq_error_iff.mpr ⟨shown, noIdentity⟩
      rw [← shown] at unstamped
      rw [reported_eq leads read, scanConfigured_eq configured made, scanWith_eq_error_iff.mpr
        (.inr ⟨_, discovered, .inr ⟨_, limited, .inl unstamped⟩⟩)]
      rcases identify_fails noIdentity with ⟨place, rfl⟩ | rfl | ⟨own, rfl⟩ <;> rfl
  | report hasResult undelivered =>
      obtain ⟨rules, config, found, scan, serves, scanned, rfl⟩ := hasResult
      have failed : reported files stamp arguments target = .error error := by
        unfold reported
        simp only [serves.read, scanned, mapError_ok, bind, Except.bind]
        exact deliver_eq_error_iff.mpr undelivered
      rw [failed]
      cases undelivered <;> rfl

theorem reported_of_hasResult {result : RunResult}
    (hasResult : HasResult files stamp target arguments result)
    (can : CanDeliver files arguments result) :
    reported files stamp arguments target = .ok (arguments.outcome result) := by
  obtain ⟨rules, config, found, scan, serves, scanned, rfl⟩ := hasResult
  exact reported_eq_ok_iff.mpr
    ⟨rules, scan, serves.read, scanned, deliver_eq_ok_iff.mpr ⟨can, rfl⟩⟩

theorem ScanArguments.exitCode_eq_zero_or_one (arguments : ScanArguments) (result : RunResult) :
    arguments.exitCode result = 0 ∨ arguments.exitCode result = 1 := by
  unfold exitCode ExitPolicy.exitCode
  split
  · exact .inr rfl
  · exact .inl rfl

/-- A configuration that serves a scan gives it a result. -/
theorem exists_hasResult_of_serves (readable : files.IsReadable)
    (leads : files.LeadsTo arguments.path target)
    (drawn : ∃ bytes microseconds, stamp = .fresh bytes microseconds) {rules : JsonObject}
    {config : ScanConfig} {found : Discovery}
    (serves : Serves files target arguments rules config found) :
    ∃ result, HasResult files stamp target arguments result := by
  obtain ⟨events, configured⟩ := serves.loaded
  obtain ⟨runStamp, stamped⟩ : ∃ own, (arguments.mode stamp).stampFor
      (config.shown (arguments.mode stamp).reproducible) (scanRoot files target).parts
        found.files = .ok own := by
    refine ScanMode.exists_stampFor_iff.mpr fun reproducible => ?_
    rw [reproducible]
    exact serves.identity reproducible
  have drawnNamed : (arguments.mode stamp).stamp.runId ≠ "" := by
    obtain ⟨bytes, microseconds, rfl⟩ := drawn
    exact identifierText_ne bytes
  have limited : readDeadline (arguments.mode stamp).deadline = .ok usualDeadline := rfl
  obtain ⟨scan, scanned⟩ := exists_scanConfigured_eq_ok arguments.projectId readable
    (namesKeysOnce_of_readRuleFlags serves.read) configured (fun same => by cases same)
    drawnNamed serves.discovered limited stamped
  rw [← scanProject_eq_scanConfigured leads] at scanned
  exact ⟨scan.result, rules, config, found, scan, serves, scanned, rfl⟩

/-- There is no fourth kind. -/
theorem refuses_or_raises_or_hasResult (readable : files.IsReadable)
    (leads : files.LeadsTo arguments.path target)
    (drawn : ∃ bytes microseconds, stamp = .fresh bytes microseconds) :
    (∃ error, Refuses files target arguments error) ∨
      (∃ error, Raises files stamp target arguments error) ∨
      ∃ result, HasResult files stamp target arguments result ∧
        CanDeliver files arguments result := by
  have rejected {error : ConfigError} (rejects : Rejects files target arguments error) :
      (∃ error, Refuses files target arguments error) ∨
        ∃ error, Raises files stamp target arguments error := by
    cases fault : error.fault? with
    | none => exact .inl ⟨error, rejects, fault⟩
    | some fault => exact .inr ⟨_, .untold rejects ‹_›⟩
  rw [← or_assoc]
  cases read : readRuleFlags arguments.rules with
  | error error => exact .inl (rejected (.flags read))
  | ok rules =>
      rcases configFor_cases files (scanRoot files target) (arguments.request rules) with
        ⟨⟨config, events⟩, configured⟩ | ⟨error, refused⟩ | ⟨error, escapes⟩
      · have loads : Loads files target arguments rules config := ⟨read, events, configured⟩
        cases discovered : discover files target config.included config.excluded with
        | error error =>
            obtain ⟨directory, unusable⟩ := (discover_error_iff leads
              (included_ne_nil_of_configFor configured)).mp discovered
            exact .inl (.inr ⟨_, .pattern loads directory unusable⟩)
        | ok found =>
            have identity (reproducible : arguments.reproducible = true) :
                (∃ error, Raises files stamp target arguments error) ∨
                  HasIdentity (config.shown true) (scanRoot files target).parts found.files := by
              cases own : identify (config.shown true) (scanRoot files target).parts
                  found.files with
              | ok runStamp => exact .inr (exists_identify_iff.mp ⟨runStamp, own⟩)
              | error error => exact .inl ⟨error, .anonymous loads discovered reproducible own⟩
            by_cases raises : ∃ error, Raises files stamp target arguments error
            · exact .inl (.inr raises)
            obtain ⟨result, hasResult⟩ := exists_hasResult_of_serves readable leads drawn
              ⟨loads, discovered, fun reproducible => (identity reproducible).resolve_left raises⟩
            refine .inr ⟨result, hasResult, deliveryError?_eq_none_iff.mp ?_⟩
            refine Option.eq_none_iff_forall_ne_some.mpr fun error undelivered => raises ?_
            exact ⟨error, .report hasResult (deliveryError?_eq_some_iff.mp undelivered)⟩
      · exact .inl (rejected (.configuration read refused))
      · exact .inl (.inr ⟨_, .file read escapes⟩)

section Endings

variable (leads : files.LeadsTo arguments.path target) (complete : arguments.unset = [])
include leads complete

theorem scanPath_of_refuses {error : ConfigError}
    (refuses : Refuses files target arguments error) :
    CommandLine.scanPath files stamp arguments =
      .ok { code := errorCode, notices := [.badConfig error] } := by
  rw [scanPath_eq_settle leads complete, settle_eq_ok_iff]
  exact .inr ⟨error, reported_of_rejects leads refuses.rejects, refuses.told, rfl⟩

theorem scanPath_of_raises {error : ScanError}
    (raises : Raises files stamp target arguments error) :
    CommandLine.scanPath files stamp arguments = .error (.scan error) := by
  rw [scanPath_eq_settle leads complete, settle_of_raises leads raises]

theorem scanPath_of_hasResult {result : RunResult}
    (hasResult : HasResult files stamp target arguments result)
    (can : CanDeliver files arguments result) :
    CommandLine.scanPath files stamp arguments = .ok (arguments.outcome result) := by
  rw [scanPath_eq_settle leads complete, settle_eq_ok_iff]
  exact .inl (reported_of_hasResult hasResult can)

/-- Each kind of configuration has its ending. -/
theorem scanPath_cases (readable : files.IsReadable)
    (drawn : ∃ bytes microseconds, stamp = .fresh bytes microseconds) :
    (∃ error, Refuses files target arguments error ∧
      CommandLine.scanPath files stamp arguments =
        .ok { code := errorCode, notices := [.badConfig error] }) ∨
    (∃ error, Raises files stamp target arguments error ∧
      CommandLine.scanPath files stamp arguments = .error (.scan error)) ∨
    ∃ result, HasResult files stamp target arguments result ∧
      CanDeliver files arguments result ∧
      CommandLine.scanPath files stamp arguments = .ok (arguments.outcome result) := by
  rcases refuses_or_raises_or_hasResult readable leads drawn with
    ⟨error, refuses⟩ | ⟨error, raises⟩ | ⟨result, hasResult, can⟩
  · exact .inl ⟨error, refuses, scanPath_of_refuses leads complete refuses⟩
  · exact .inr (.inl ⟨error, raises, scanPath_of_raises leads complete raises⟩)
  · exact .inr (.inr ⟨result, hasResult, can, scanPath_of_hasResult leads complete hasResult can⟩)

end Endings

/-- A delivered report is told from an error of the user. -/
theorem ScanArguments.code_outcome_ne (arguments : ScanArguments) (result : RunResult) :
    (arguments.outcome result).code ≠ errorCode := by
  rw [arguments.code_outcome]
  rcases arguments.exitCode_eq_zero_or_one result with code | code <;> rw [code] <;> decide

/-- A configuration is loaded, or it is refused, or its file is no text. What refuses it can be told
if nothing in it is too long to be written and no setting mixes keys. -/
theorem configFor_ends (readable : files.IsReadable) (root : FilePath) (request : ConfigRequest) :
    (∃ loaded, configFor files root request = .ok loaded) ∨
      (∃ error, configFor files root request = .error (.config error) ∧
        (request.IsTellable files root → error.fault? = none)) ∨
      ∃ error : LoadError, error.Escapes files root request ∧
        configFor files root request = .error error := by
  rcases configFor_cases files root request with loaded | ⟨error, refused⟩ | ⟨error, escapes⟩
  · exact .inl loaded
  · refine .inr (.inl ⟨error, refused, fun tellable => ?_⟩)
    refine fault?_of_configFor (fun path content value _ opened settings => ?_) tellable refused
    obtain ⟨place, placed⟩ := FileSystem.exists_at?_of_open? opened
    exact readable.documents place content value placed settings
  · exact .inr (.inr ⟨error, escapes, configFor_of_escapes escapes⟩)

/-- Why two bytes of a configuration are no text. -/
def strayByte : Utf8Error := ⟨0, 0xff, 1, .startByte⟩

/-- A file that is no text. -/
def garbledContent : FileContent := ⟨2, .error strayByte, .error (.refused ""), none⟩

/-- A project whose configuration file is no text. -/
def garbledProject : FileSystem :=
  ⟨.directory [(".code-complete.yml", .file garbledContent)], [], false⟩

/-- A scan of such a project. -/
def plainScan : ScanArguments where
  path := .absolute []

theorem isReadable_garbledProject : garbledProject.IsReadable where
  documents := by
    intro place content value found settings
    obtain ⟨-, rfl⟩ := FileSystem.at?_single_eq_file_iff.mp found
    cases settings
  modules := by
    intro place content module found parsed
    obtain ⟨-, rfl⟩ := FileSystem.at?_single_eq_file_iff.mp found
    cases parsed

theorem leadsTo_plainScan : garbledProject.LeadsTo plainScan.path (.absolute []) where
  working := List.not_mem_nil
  resolved := rfl
  present := rfl

end CommandLine

end DesignLint
