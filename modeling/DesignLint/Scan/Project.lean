import DesignLint.Files.Output
import DesignLint.Result.Stamp
import DesignLint.Scan.Checker
import DesignLint.Scan.Configuration
import DesignLint.Scan.Discovery
import DesignLint.Schema.RunResult

/-!
# Scanning projects

A scan finds the files below a root, runs its checkers over them, and puts their
findings in order. The result is checked against its schema before anyone sees
it. Reproducible scans show nothing that differs between two copies of a project.
-/

namespace DesignLint

/-! ## Errors -/

/-- Why a scan has no result, or its result no text. -/
inductive ScanError where
  | noRoot (root : FilePath)
  | load (error : LoadError)
  | pattern (error : GlobError)
  | numeral (error : NumeralError)
  | outside (path root : FilePath)
  | invalid (error : SchemaError)
  | file (error : FileError)

/-- The error of a deadline that is no number. -/
@[match_pattern]
def ScanError.deadline (error : NumeralError) : ScanError := .numeral error

/-- The error of a document with a number that has too many digits to be written. -/
def ScanError.unwritable : ScanError := .numeral .unwritable

/-- The message of an error. -/
def ScanError.message : ScanError → String
  | noRoot root => "scan_project: root does not exist: " ++ root.text
  | load (.config error) => error.message
  | load (.undecodable error) => error.message
  | load (.file error) => error.message
  | pattern error => error.message
  | numeral error => error.message
  | outside path root =>
    quoted path.text ++ " is not in the subpath of " ++ quoted root.text
      ++ " OR one path is relative and the other is absolute."
  | invalid error => error.message
  | file error => error.message

/-! ## Scans -/

/-- How a scan is run: whether its result is reproducible, the stamp it gets when it is
not, the parts of the stamp that are given in any case, and the text that sets the
deadline. -/
structure ScanMode where
  reproducible : Bool
  stamp : RunStamp
  runId : Option String := none
  createdAt : Option String := none
  deadline : String := ""

/-- A result, and what was told on the way. -/
structure ScanOutcome where
  result : RunResult
  events : List ScanEvent

/-- The configuration as a result shows it. The root would differ between copies. -/
def ScanConfig.shown (config : ScanConfig) (reproducible : Bool) : Json :=
  ScanConfig.toJson (if reproducible then { config with root := ⟨0, []⟩ } else config)

/-- The paths of files below a root. -/
def pathsBelow (root : List String) (places : List (List String)) :
    Except ScanError (List String) :=
  places.mapM fun place =>
    match relativeTo? root place with
    | some names => .ok (FilePath.text ⟨0, names⟩)
    | none => .error (.outside (.absolute place) (.absolute root))

/-- Why what makes a reproducible run has no digest: it cannot be written, or its text has no
encoding. -/
def identityError? (config : Json) (root : List String) (paths : List String) :
    Option ScanError :=
  if config.isWritable then
    (Utf8.encodingError? (runIdentityText config paths)).map fun error =>
      .file ⟨.unencodable error, .absolute root⟩
  else some .unwritable

/-- The stamp of a reproducible run with files at some places. -/
def identify (config : Json) (root : List String) (places : List (List String)) :
    Except ScanError RunStamp := do
  let paths ← pathsBelow root places
  match identityError? config root paths with
  | some error => .error error
  | none => return reproducibleStamp config paths

/-- The stamp of a result. -/
def ScanMode.stampFor (mode : ScanMode) (config : Json) (root : List String)
    (places : List (List String)) : Except ScanError RunStamp := do
  let stamp ← if mode.reproducible then identify config root places else .ok mode.stamp
  return ⟨mode.runId.getD stamp.runId, mode.createdAt.getD stamp.createdAt⟩

/-- The files at some places. -/
def sourceFiles (files : FileSystem) (places : List (List String)) : List SourceFile :=
  places.filterMap fun place =>
    match files.at? place with
    | some (.file content) => some ⟨place, content.source⟩
    | _ => none

/-- A result, if its schema accepts it. -/
def RunResult.validated (result : RunResult) : Except ScanError RunResult :=
  match RunResultSchema.schema.firstError result.toJson with
  | some error => .error (.invalid error)
  | none => .ok result

/-- The directory that a scan of a path runs in: the path itself, or the directory of a
single file. -/
def scanRoot (files : FileSystem) (target : FilePath) : FilePath :=
  if files.isDirectory target then target else target.parent

/-- The checkers of a configuration. -/
def ScanConfig.checkers (config : ScanConfig)
    (rounding : Cohesion.Rounding := Cohesion.Rounding.binary64) :
    Except ConfigError (List Checker) :=
  config.rules.analyzers.map (·.map fun analyzer => analyzer.checker rounding)

/-- The scan of a resolved path with checkers. -/
def scanWith (files : FileSystem) (target : FilePath) (config : ScanConfig)
    (checkers : List Checker) (projectId : String) (mode : ScanMode) :
    Except ScanError ScanOutcome := do
  let root := scanRoot files target
  let found ← (discover files target config.included config.excluded).mapError .pattern
  let deadline ← (readDeadline mode.deadline).mapError .deadline
  let yield_ := runCheckers checkers deadline root.parts (sourceFiles files found.files)
  let shown := config.shown mode.reproducible
  let stamp ← mode.stampFor shown root.parts found.files
  let result ← RunResult.validated {
    runId := stamp.runId
    projectId := projectId
    createdAt := stamp.createdAt
    config := shown
    filesScanned := found.files.length
    findings := yield_.findings.mergeSort Finding.scanOrder }
  return ⟨result, found.events
    ++ .started found.files.length root checkers.length :: yield_.events⟩

/-- The scan of a resolved path under the configuration that is asked for, with the
checkers of the configuration unless others are given. -/
def scanConfigured (files : FileSystem) (target : FilePath) (request : ConfigRequest)
    (checkers : Option (List Checker)) (projectId : String) (mode : ScanMode) :
    Except ScanError ScanOutcome := do
  let (config, events) ← (configFor files (scanRoot files target) request).mapError .load
  let checkers ← match checkers with
    | some checkers => .ok checkers
    | none => config.checkers.mapError fun error => .load (.config error)
  let outcome ← scanWith files target config checkers projectId mode
  return { outcome with events := events ++ outcome.events }

/-- The scan of a path under its own configuration. The path needs not exist. -/
def scanPath (files : FileSystem) (target : FilePath) (checkers : Option (List Checker))
    (projectId : String) (mode : ScanMode) : Except ScanError ScanOutcome := do
  let target ← (files.target target).mapError .file
  scanConfigured files target {} checkers projectId mode

/-- The scan of a project. The path must exist. -/
def scanProject (files : FileSystem) (target : FilePath) (request : ConfigRequest)
    (projectId : String) (mode : ScanMode) : Except ScanError ScanOutcome := do
  let target ← (files.target target).mapError .file
  if files.has target then scanConfigured files target request none projectId mode
  else .error (.noRoot target)

/-- The file below a directory that keeps a result, and what is written to it. The directory is
made before the result is written as a text. -/
def resultFile (files : FileSystem) (directory : FilePath) (result : RunResult)
    (reproducible : Bool) : Except ScanError (FilePath × String) :=
  let path := directory.child "run_result.json"
  let text := result.toJson.canonicalText reproducible
  match files.makingError? path.parts.length path.parent with
  | some error => .error (.file error)
  | none =>
    if result.toJson.isWritable then
      match files.writingError? path text with
      | some error => .error (.file error)
      | none => .ok (path, text)
    else .error .unwritable

end DesignLint
