import DesignLint.CommandLine.Run
import DesignLint.Proofs.Scan.Configured
import Mathlib.Data.List.Basic

/-!
# Scans from the command line

A path that leads somewhere is scanned under the configuration that the arguments ask for, and the
report of the result is delivered. Errors of the configuration that can be told end with the exit
code for errors of the user; whatever else a scan fails with is raised.
-/

namespace DesignLint

namespace FileSystem

/-- Where a path leads from a working directory, which is written without double points. -/
structure LeadsTo (files : FileSystem) (path target : FilePath) : Prop where
  working : ".." ∉ files.working
  resolved : files.target path = .ok target
  present : files.has target = true

variable {files : FileSystem} {path target : FilePath}

theorem noPoints_foldl_step {names parts : List String} (before : ".." ∉ parts) :
    ".." ∉ names.foldl FilePath.step parts := by
  induction names generalizing parts with
  | nil => exact before
  | cons name names inductionHypothesis =>
      apply inductionHypothesis
      unfold FilePath.step
      split
      · intro listed
        exact before (List.dropLast_subset _ listed)
      · rename_i different
        simp [before, Ne.symm different]

/-- Where a path leads is the same seen from the top. -/
theorem LeadsTo.target_eq (leads : files.LeadsTo path target) :
    files.target target = .ok target := by
  have resolved : target = files.resolve path := by
    have found := leads.resolved
    unfold FileSystem.target at found
    split at found
    · cases found
    · dsimp only at found
      split at found
      · cases found
      · exact (Except.ok.inj found).symm
  have noPoints : ".." ∉ path.resolve files.working := by
    unfold FilePath.resolve
    apply noPoints_foldl_step
    split
    · exact leads.working
    · exact List.not_mem_nil
  obtain ⟨place, located⟩ : ∃ place, files.locate target = .ok place := by
    have present := leads.present
    unfold FileSystem.has FileSystem.find? at present
    split at present
    · cases present
    · exact ⟨_, ‹_›⟩
  have faultless : target.fault? = none := by
    unfold FileSystem.locate at located
    split at located
    · cases located
    · assumption
  have same : files.resolve target = target := by
    have walked : FilePath.resolve files.working (.absolute (path.resolve files.working)) =
        path.resolve files.working :=
      (FilePath.foldl_step_eq noPoints).trans (List.nil_append _)
    rw [resolved, resolve, resolve, walked]
  unfold FileSystem.target askingError?
  rw [faultless, same]
  dsimp only [Option.filter_none]
  rw [located]

end FileSystem

theorem scanProject_eq_scanConfigured {files : FileSystem} {path target : FilePath}
    (leads : files.LeadsTo path target) (request : ConfigRequest) (projectId : String)
    (mode : ScanMode) :
    scanProject files target request projectId mode =
      scanConfigured files target request none projectId mode := by
  unfold scanProject
  rw [leads.target_eq]
  simp only [mapError_ok, bind, Except.bind, leads.present, if_true]

namespace CommandLine

/-- What the arguments of a scan ask for next to the configuration file, with the overrides of
their flags. -/
def ScanArguments.request (arguments : ScanArguments) (rules : JsonObject) : ConfigRequest where
  file := arguments.config
  preset := arguments.preset
  rules := rules

/-- How the arguments of a scan have it run. -/
def ScanArguments.mode (arguments : ScanArguments) (stamp : RunStamp) : ScanMode where
  reproducible := arguments.reproducible
  stamp := stamp

/-- A scan of a path that leads somewhere, from the flags to the report. -/
def reported (files : FileSystem) (stamp : RunStamp) (arguments : ScanArguments)
    (target : FilePath) : Except ScanError Outcome := do
  let rules ← (readRuleFlags arguments.rules).mapError fun error => .load (.config error)
  let outcome ← scanProject files target (arguments.request rules) arguments.projectId
    (arguments.mode stamp)
  deliver files arguments outcome.result

variable {files : FileSystem} {stamp : RunStamp} {arguments : ScanArguments} {target : FilePath}

theorem scanPath_eq (leads : files.LeadsTo arguments.path target) :
    CommandLine.scanPath files stamp arguments =
      match [ScanOption.rule, .config].find? arguments.unset.contains with
      | some option => .error (.noValue option)
      | none => (settle (reported files stamp arguments target)).bind fun outcome =>
          match lackedBy? arguments outcome with
          | some option => .error (.noValue option)
          | none => .ok outcome := by
  unfold CommandLine.scanPath
  rw [leads.resolved]
  simp only [mapError_ok, bind, Except.bind, leads.present]
  cases [ScanOption.rule, .config].find? arguments.unset.contains <;> rfl

/-- A scan with values for all of its options settles what it reports. -/
theorem scanPath_eq_settle (leads : files.LeadsTo arguments.path target)
    (complete : arguments.unset = []) :
    CommandLine.scanPath files stamp arguments =
      settle (reported files stamp arguments target) := by
  rw [scanPath_eq leads, complete]
  have lacked (outcome : Outcome) : lackedBy? arguments outcome = none := by
    simp [lackedBy?, complete]
  cases settle (reported files stamp arguments target) with
  | error failure => rfl
  | ok outcome =>
      simp only [List.find?, List.contains_nil, Except.bind, lacked]

/-- What a scan returns, it settled. -/
theorem settle_reported_of_scanPath (leads : files.LeadsTo arguments.path target)
    {outcome : Outcome} (returned : CommandLine.scanPath files stamp arguments = .ok outcome) :
    settle (reported files stamp arguments target) = .ok outcome := by
  rw [scanPath_eq leads] at returned
  split at returned
  · cases returned
  · obtain ⟨own, settled, kept⟩ := bind_eq_ok_iff.mp returned
    split at kept
    · cases kept
    · cases kept
      exact settled

/-- A settled outcome is a report, or it tells an error of the configuration. -/
theorem settle_eq_ok_iff {ending : Except ScanError Outcome} {outcome : Outcome} :
    settle ending = .ok outcome ↔
      ending = .ok outcome ∨ ∃ error, ending = .error (.load (.config error)) ∧
        error.fault? = none ∧ outcome = { code := errorCode, notices := [.badConfig error] } := by
  unfold settle
  split
  · simp
  · rename_i error
    cases fault : error.fault? <;> simp [fault, eq_comm]
  · simp_all

/-- In place of an error that cannot be told another one is raised. -/
theorem settle_of_fault {error : ConfigError} {fault : TellingFault}
    (cannotTell : error.fault? = some fault) :
    settle (.error (.load (.config error))) = .error (.scan (untold error fault)) := by
  rw [settle, cannotTell]

/-! ## Reports -/

/-- With flags that can be read, a scan is one under the configuration that is asked for. -/
theorem reported_eq {rules : JsonObject} (leads : files.LeadsTo arguments.path target)
    (read : readRuleFlags arguments.rules = .ok rules) :
    reported files stamp arguments target =
      (scanConfigured files target (arguments.request rules) none arguments.projectId
        (arguments.mode stamp)).bind fun scan => deliver files arguments scan.result := by
  unfold reported
  rw [read, ← scanProject_eq_scanConfigured leads]
  rfl

theorem reported_eq_ok_iff {outcome : Outcome} :
    reported files stamp arguments target = .ok outcome ↔
      ∃ rules scan, readRuleFlags arguments.rules = .ok rules ∧
        scanProject files target (arguments.request rules) arguments.projectId
          (arguments.mode stamp) = .ok scan ∧
        deliver files arguments scan.result = .ok outcome := by
  unfold reported
  simp only [bind_eq_ok_iff, mapError_eq_ok_iff]
  constructor
  · rintro ⟨rules, read, scan, scanned, delivered⟩
    exact ⟨rules, scan, read, scanned, delivered⟩
  · rintro ⟨rules, scan, read, scanned, delivered⟩
    exact ⟨rules, read, scan, scanned, delivered⟩

/-- The exit code of a scan. -/
def ScanArguments.exitCode (arguments : ScanArguments) (result : RunResult) : Int :=
  ExitPolicy.exitCode { maxWarnings := arguments.maxWarnings } (severityCounts result)

/-- The report of a scan. -/
def ScanArguments.reportText (arguments : ScanArguments) (result : RunResult) : String :=
  DesignLint.reportText result arguments.format usualTopCount arguments.reproducible

/-- What a scan leaves behind when its report is delivered. -/
def ScanArguments.outcome (arguments : ScanArguments) (result : RunResult) : Outcome :=
  match arguments.output with
  | none => { code := arguments.exitCode result, output := arguments.reportText result }
  | some path =>
    { code := arguments.exitCode result, notices := [.written path]
      report := some (path, arguments.reportText result) }

theorem ScanArguments.code_outcome (arguments : ScanArguments) (result : RunResult) :
    (arguments.outcome result).code = arguments.exitCode result := by
  unfold outcome
  split <;> rfl

/-- What a scan needs to deliver its report: a text, and a terminal or a file that takes it. -/
structure CanDeliver (files : FileSystem) (arguments : ScanArguments) (result : RunResult) :
    Prop where
  hasReport : result.hasReport arguments.format = true
  printable : arguments.output = none →
    files.printingError? (arguments.reportText result) = none
  writable : ∀ path, arguments.output = some path →
    files.writingError? path (arguments.reportText result) = none

/-- The errors that a scan fails to deliver its report with. -/
inductive Undelivered (files : FileSystem) (arguments : ScanArguments) (result : RunResult) :
    ScanError → Prop
  | unwritable (noReport : result.hasReport arguments.format = false) :
    Undelivered files arguments result .unwritable
  | unprinted {error : FileError} (hasReport : result.hasReport arguments.format = true)
      (terminal : arguments.output = none)
      (failed : files.printingError? (arguments.reportText result) = some error) :
    Undelivered files arguments result (.file error)
  | unwritten {path : FilePath} {error : FileError}
      (hasReport : result.hasReport arguments.format = true)
      (toFile : arguments.output = some path)
      (failed : files.writingError? path (arguments.reportText result) = some error) :
    Undelivered files arguments result (.file error)

variable {result : RunResult}

theorem deliveryError?_eq_none_iff :
    deliveryError? files arguments result = none ↔ CanDeliver files arguments result := by
  unfold deliveryError?
  constructor
  · intro faultless
    split at faultless
    · rename_i hasReport
      rw [Option.map_eq_none_iff] at faultless
      refine ⟨hasReport, fun terminal => ?_, fun path toFile => ?_⟩
      · rwa [terminal] at faultless
      · rwa [toFile] at faultless
    · cases faultless
  · rintro ⟨hasReport, printable, writable⟩
    rw [if_pos hasReport, Option.map_eq_none_iff]
    cases output : arguments.output with
    | none => exact printable output
    | some path => exact writable path output

theorem deliveryError?_eq_some_iff {error : ScanError} :
    deliveryError? files arguments result = some error ↔
      Undelivered files arguments result error := by
  unfold deliveryError?
  constructor
  · intro fails
    split at fails
    · rename_i hasReport
      obtain ⟨own, failed, rfl⟩ := Option.map_eq_some_iff.mp fails
      cases output : arguments.output with
      | none =>
          rw [output] at failed
          exact .unprinted hasReport output failed
      | some path =>
          rw [output] at failed
          exact .unwritten hasReport output failed
    · rename_i noReport
      cases fails
      exact .unwritable (Bool.not_eq_true _ ▸ noReport)
  · intro undelivered
    cases undelivered with
    | unwritable noReport => simp [noReport]
    | unprinted hasReport terminal failed =>
        rw [if_pos hasReport, terminal]
        exact Option.map_eq_some_iff.mpr ⟨_, failed, rfl⟩
    | unwritten hasReport toFile failed =>
        rw [if_pos hasReport, toFile]
        exact Option.map_eq_some_iff.mpr ⟨_, failed, rfl⟩

theorem deliver_eq_ok_iff {outcome : Outcome} :
    deliver files arguments result = .ok outcome ↔
      CanDeliver files arguments result ∧ outcome = arguments.outcome result := by
  rw [← deliveryError?_eq_none_iff]
  unfold deliver ScanArguments.outcome ScanArguments.exitCode ScanArguments.reportText
  cases deliveryError? files arguments result with
  | some error => simp
  | none => cases arguments.output <;> simp [eq_comm]

theorem deliver_eq_error_iff {error : ScanError} :
    deliver files arguments result = .error error ↔
      Undelivered files arguments result error := by
  rw [← deliveryError?_eq_some_iff]
  unfold deliver
  cases deliveryError? files arguments result with
  | some own => simp
  | none => cases arguments.output <;> simp

theorem Undelivered.ne_load {error : ScanError}
    (undelivered : Undelivered files arguments result error) (own : LoadError) :
    error ≠ .load own := by
  cases undelivered <;> exact nofun

/-- A scan under an accepted configuration does not fail to load one. -/
theorem reported_ne_load {rules : JsonObject} {config : ScanConfig} {events : List ScanEvent}
    (leads : files.LeadsTo arguments.path target)
    (read : readRuleFlags arguments.rules = .ok rules)
    (accepted : configFor files (scanRoot files target) (arguments.request rules) =
      .ok (config, events)) (error : LoadError) :
    reported files stamp arguments target ≠ .error (.load error) := by
  intro failed
  rw [reported_eq leads read] at failed
  cases ran : scanConfigured files target (arguments.request rules) none arguments.projectId
      (arguments.mode stamp) with
  | error own =>
      rw [ran] at failed
      cases failed
      cases isLate_of_scanConfigured accepted ran
  | ok scan =>
      rw [ran] at failed
      exact (deliver_eq_error_iff.mp failed).ne_load error rfl

end CommandLine

end DesignLint
