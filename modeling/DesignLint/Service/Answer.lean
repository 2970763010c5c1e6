import DesignLint.Config.Listing
import DesignLint.Scan.Project
import DesignLint.Scan.Source
import DesignLint.Service.Exchange
import DesignLint.Service.Settings

/-!
# Answering requests

The service tells about itself and its rules, scans projects in its file system,
and scans texts. Errors of a configuration and of a text are answered; anything
else that fails is a failure of the service.
-/

namespace DesignLint.Service

/-! ## Routes -/

/-- What the service answers. -/
inductive Route where
  | description | about | health | ready | rules | projectScan | sourceScan
deriving DecidableEq, Repr

namespace Route

/-- All routes. -/
def all : List Route := [description, about, health, ready, rules, projectScan, sourceScan]

/-- The path of a route. -/
def path : Route → String
  | description => "/openapi.json"
  | about => "/"
  | health => "/health"
  | ready => "/ready"
  | rules => "/rules/"
  | projectScan => "/scan/"
  | sourceScan => "/scan/source"

/-- The methods of a route. -/
def methods : Route → List String
  | description => ["GET", "HEAD"]
  | projectScan | sourceScan => ["POST"]
  | _ => ["GET"]

/-- The route at a path. One line end may follow. -/
def ofPath? (path : String) : Option Route :=
  all.find? fun route => route.path.toList == withoutFinalLineEnd path.toList

/-- A path with the final slash taken back or added. -/
def otherForm (path : String) : String :=
  if path.toList.getLast? = some '/' then
    String.ofList (path.toList.reverse.dropWhile (· == '/')).reverse
  else path ++ "/"

/-- The route at a path, also when a final slash is missing or too much. -/
def find? (path : String) : Option Route :=
  (ofPath? path).or (if path = "/" then none else ofPath? (otherForm path))

end Route

/-! ## The service and its rules -/

/-- What the service runs on. -/
structure Host where
  files : FileSystem
  settings : ServiceSettings
  stamp : RunStamp

/-- The description of the service for programs: its routes with their methods. -/
def description : Response := .ok (.object [
  ("openapi", .string "3.1.0"),
  ("info", .object [
    ("title", .string "Code Complete API"),
    ("description", .string "Cohesion, complexity and coupling checks for Python code"),
    ("version", .string toolVersion)]),
  ("paths", .object ((Route.all.filter (· ≠ .description)).map fun route =>
    (route.path, .object (route.methods.map fun method =>
      (String.ofList (method.toList.map Char.toLower), .object [])))))])

/-- What the service tells about itself. -/
def Host.about (host : Host) : Response := .ok (.object [
  ("name", .string "Code Complete API"),
  ("version", .string toolVersion),
  ("presets", .strings (Preset.alphabetical.map Preset.name)),
  ("default_preset", .string host.settings.preset),
  ("docs", .string (if host.settings.debug then "/docs" else "disabled"))])

/-- The answer of a service that is up. -/
def healthy : Response := .ok (.object [
  ("status", .string "ok"), ("version", .string toolVersion)])

/-- The answer of a service that can scan: every preset resolves. -/
def readiness : Response :=
  if Preset.alphabetical.all fun preset => (layeredRules preset.name []).toOption.isSome then
    .ok (.object [
      ("status", .string "ready"),
      ("rules", .nat Rule.all.length),
      ("presets", .strings (Preset.alphabetical.map Preset.name))])
  else .failed

/-- The rules as the preset with a name sets them. -/
def listedRules (name : String) : Response :=
  match Preset.ofName? name with
  | none => .refused 404 ("Unknown preset: " ++ name)
  | some preset => .ok preset.listingJson

/-! ## Scans -/

/-- The answer to a scan with a result, if the result can be written. -/
def projectAnswer (body : ProjectBody) (result : RunResult) : Response :=
  if result.toJson.isWritable then .ok (.object [
    ("status", .string "complete"),
    ("project_id", .optionalString body.projectId),
    ("summary", .object [
      ("files_scanned", .int result.filesScanned),
      ("issues_found", .nat result.findings.length),
      ("worst_severity", .optionalString (result.worst.map Severity.label)),
      ("by_rule", result.byRule.toJson)]),
    ("result", result.toJson)])
  else .failed

/-- Scans a project that may be scanned. -/
def Host.scanProject (host : Host) (body : ProjectBody) : Response :=
  let request : ConfigRequest := { preset := body.preset.getD "", rules := body.rules }
  let mode : ScanMode := { reproducible := body.reproducible, stamp := host.stamp }
  match DesignLint.scanProject host.files (.ofText body.path) request
      (body.projectId.getD "") mode with
  | .ok outcome => projectAnswer body outcome.result
  | .error (.load (.config error)) =>
    if error.fault?.isNone then .refused 422 error.message else .failed
  | .error _ => .failed

/-- Answers the request for the scan of a project. -/
def Host.answerProject (host : Host) (body : ProjectBody) : Response :=
  let path := FilePath.ofText body.path
  if (host.files.askingError? path).isSome then .failed
  else if !host.files.has path then .refused 404 ("Path not found: " ++ body.path)
  else if !host.settings.allows host.files.working path then
    .refused 403 ("Path outside allowed roots: " ++ body.path)
  else host.scanProject body

/-- Answers the request for the scan of a text. Its settings come from a document whose numbers
were read, so that its errors can be told. -/
def Host.answerSource (host : Host) (body : SourceBody) (parsed : Syntax.ParseResult) :
    Response :=
  if host.settings.maxSourceBytes < body.source.utf8ByteSize then
    .refused 413 "Source text too large"
  else
    let asked := body.preset.getD ""
    let preset := if asked.isEmpty then host.settings.preset else asked
    match scanText parsed body.path preset body.rules with
    | .ok findings => .ok (.object [
        ("path", .string body.path),
        ("issues_found", .nat findings.length),
        ("findings", .array (findings.map Finding.toJson))])
    | .error (.config error) => .refused 422 error.message
    | .error (.check (.unparsed (.syntaxError line message))) =>
      .refused 422 ("Syntax error at line " ++ ScanEvent.lineText line ++ ": " ++ message)
    | .error (.check _) => .failed

/-! ## All requests -/

/-- Answers a request at a route, with its method. -/
def Host.answerAt (host : Host) (request : Request) : Route → Response
  | .description => description
  | .about => host.about
  | .health => healthy
  | .ready => readiness
  | .rules =>
    listedRules ((request.address.field? "preset").getD ServiceSettings.usual.preset)
  | .projectScan =>
    match readProjectBody request.body with
    | .error errors => .misfit errors
    | .ok body => host.answerProject body
  | .sourceScan =>
    match readSourceBody unnamedPath request.body with
    | .error errors => .misfit errors
    | .ok body => host.answerSource body request.parsed

/-- Answers a request. When only the head of an answer is asked for, its document is left
out. -/
def Host.answer (host : Host) (request : Request) : Response :=
  let response := match Route.find? request.address.path with
    | none => .notFound
    | some route =>
      if route.methods.contains request.method then host.answerAt request route
      else .notAllowed
  if request.method = "HEAD" then { response with body := .string "" } else response

end DesignLint.Service
