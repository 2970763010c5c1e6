import DesignLint.Proofs.Files.Lookup
import DesignLint.Proofs.Outcome
import DesignLint.Proofs.Service.Body
import DesignLint.Service.Answer
import Mathlib.Data.List.Basic

/-!
# Confinement to the allowed roots

Where roots are set, a project is scanned only if its path resolves to one of them or below. The
service asks whether a path leads anywhere before it asks whether it may be scanned. So what is
outside the roots is never scanned, but the refusal of a path outside tells whether it is there.
-/

namespace DesignLint

/-! ## Where paths lead -/

/-- What is known of a path after asking whether it leads anywhere. The question itself can fail,
for a name that no file can have. -/
inductive Presence where
  | unaskable | absent | present
deriving DecidableEq, Repr

namespace FileSystem

variable {files : FileSystem} {path : FilePath}

/-- The answer to the question whether a path leads anywhere. -/
def presence (files : FileSystem) (path : FilePath) : Presence :=
  if (files.askingError? path).isSome then .unaskable
  else if files.has path then .present else .absent

/-- Something is where a path resolves to that is found to lead somewhere. -/
theorem exists_at?_of_presence (present : files.presence path = .present) :
    ∃ entry, files.at? (path.resolve files.working) = some entry := by
  unfold presence at present
  split at present
  · cases present
  · split at present
    · rename_i found
      unfold has find? at found
      split at found
      · cases found
      · rename_i place located
        rw [← eq_resolve_of_locate located]
        exact Option.isSome_iff_exists.mp found
    · cases present

end FileSystem

/-- A path that is outside all allowed roots, of which there are some: it resolves neither to one of
them nor below. Places are compared name by name. -/
structure ServiceSettings.Excludes (settings : ServiceSettings) (working : List String)
    (path : FilePath) : Prop where
  restricted : settings.allowedRoots ≠ []
  outside : ∀ root ∈ settings.allowedRoots,
    ¬(FilePath.ofText root).resolve working <+: path.resolve working

theorem ServiceSettings.excludes_iff {settings : ServiceSettings} {working : List String}
    {path : FilePath} :
    settings.Excludes working path ↔ settings.allows working path = false := by
  simp only [allows, Bool.or_eq_false_iff, List.isEmpty_eq_false_iff, List.any_eq_false,
    List.isPrefixOf_iff_prefix]
  exact ⟨fun excludes => ⟨excludes.restricted, excludes.outside⟩, fun both => ⟨both.1, both.2⟩⟩

/-- A name that begins like a root is not below it, and double points lead out of it. -/
example : ServiceSettings.Excludes { allowedRoots := ["/srv/code"] } []
    (.ofText "/srv/code/../code-review") :=
  ServiceSettings.excludes_iff.mpr (by decide +kernel)

namespace Service

/-! ## Requests for the scan of a project -/

/-- A well-formed request for the scan of a project. The final slash of the address may be
missing. -/
structure Request.AsksForProject (request : Request) (body : ProjectBody) : Prop where
  method : request.method = "POST"
  path : Route.find? request.address.path = some .projectScan
  document : ∃ entries, request.body = some (.object entries) ∧ WritesProjectBody entries body

theorem Host.answer_of_asksForProject (host : Host) {request : Request} {body : ProjectBody}
    (asks : request.AsksForProject body) : host.answer request = host.answerProject body := by
  obtain ⟨entries, given, writes⟩ := asks.document
  have posted : Route.projectScan.methods.contains "POST" = true := by decide
  unfold Host.answer
  simp only [asks.method, asks.path, posted, if_true, String.reduceEq, if_false, Host.answerAt,
    given, readProjectBody_eq_ok_iff.mpr writes]

/-! ## Refusals -/

/-- The answer about a path outside the allowed roots. -/
def refusalOutside (path : String) : Presence → Response
  | .unaskable => .failed
  | .absent => .refused 404 ("Path not found: " ++ path)
  | .present => .refused 403 ("Path outside allowed roots: " ++ path)

/-- Refusals tell apart all that asking can tell. -/
theorem refusalOutside_injective (path : String) : Function.Injective (refusalOutside path) := by
  intro presence other same
  have status := congrArg Response.status same
  cases presence <;> cases other <;> first | rfl | simp [refusalOutside, Response.refused,
    Response.failed] at status

theorem Host.answerProject_of_excludes {host : Host} {body : ProjectBody}
    (excludes : host.settings.Excludes host.files.working (.ofText body.path)) :
    host.answerProject body =
      refusalOutside body.path (host.files.presence (.ofText body.path)) := by
  unfold answerProject FileSystem.presence
  simp only [ServiceSettings.excludes_iff.mp excludes]
  split
  · rfl
  · cases host.files.has (.ofText body.path) <;> rfl

/-- A path outside the allowed roots is refused, whatever is there, and the refusal with status 403
tells that something is. The refusals of two services that are set up alike are the same exactly if
asking whether the path leads anywhere tells the same of their files. So no file counts for anything
but its presence, and its presence does count. -/
theorem Host.answer_of_excludes (host other : Host) {request : Request} {body : ProjectBody}
    (asks : request.AsksForProject body)
    (excludes : host.settings.Excludes host.files.working (.ofText body.path))
    (settings : other.settings = host.settings)
    (working : other.files.working = host.files.working) :
    host.answer request =
        refusalOutside body.path (host.files.presence (.ofText body.path)) ∧
      ((host.answer request).status = 403 →
        ∃ entry, host.files.at? ((FilePath.ofText body.path).resolve host.files.working) =
          some entry) ∧
      (host.answer request = other.answer request ↔
        host.files.presence (.ofText body.path) = other.files.presence (.ofText body.path)) := by
  have excludesToo : other.settings.Excludes other.files.working (.ofText body.path) := by
    rw [settings, working]
    exact excludes
  rw [host.answer_of_asksForProject asks, other.answer_of_asksForProject asks,
    answerProject_of_excludes excludes, answerProject_of_excludes excludesToo]
  refine ⟨rfl, fun forbidden => ?_, (refusalOutside_injective body.path).eq_iff⟩
  apply FileSystem.exists_at?_of_presence
  cases presence : host.files.presence (.ofText body.path) with
  | present => rfl
  | absent | unaskable => simp [presence, refusalOutside, Response.refused, Response.failed]
      at forbidden

/-! ## Presence outside the roots -/

/-- A service that may scan one directory, which stands below the working directory next to other
entries. -/
def confinedHost (neighbours : List (String × Entry)) : Host where
  files := ⟨.directory (("inside", .directory []) :: neighbours), [], false⟩
  settings := { allowedRoots := ["inside"] }
  stamp := ⟨"run", "then"⟩

/-- The request to scan the directory beside it. -/
def outsideRequest : Request where
  method := "POST"
  address := ⟨"/scan/", []⟩
  body := some (.object [("repo_path", .string "inside/../inside-out")])
  parsed := .error (.refused "")

/-- What it asks for. -/
def outsideBody : ProjectBody := ⟨"inside/../inside-out", none, none, [], false⟩

theorem asksForProject_outsideRequest : outsideRequest.AsksForProject outsideBody where
  method := rfl
  path := by decide +kernel
  document := ⟨_, rfl, rfl, .inl rfl, .inl rfl, .inr ⟨rfl, rfl⟩, .inr ⟨rfl, rfl⟩⟩

/-- Services whose files agree on the allowed root give different answers about a path outside. -/
theorem Host.answer_confinedHost_ne :
    (∀ names, (confinedHost []).files.at? ("inside" :: names) =
      (confinedHost [("inside-out", .directory [])]).files.at? ("inside" :: names)) ∧
    (confinedHost []).answer outsideRequest ≠
      (confinedHost [("inside-out", .directory [])]).answer outsideRequest := by
  refine ⟨fun names => rfl, fun same => ?_⟩
  have excludes : (confinedHost []).settings.Excludes (confinedHost []).files.working
      (.ofText outsideBody.path) :=
    ServiceSettings.excludes_iff.mpr (by decide +kernel)
  have different : (confinedHost []).files.presence (.ofText outsideBody.path) ≠
      (confinedHost [("inside-out", .directory [])]).files.presence (.ofText outsideBody.path) := by
    decide +kernel
  obtain ⟨-, -, told⟩ := Host.answer_of_excludes (confinedHost [])
    (confinedHost [("inside-out", .directory [])]) asksForProject_outsideRequest excludes rfl rfl
  exact different (told.mp same)

end Service

end DesignLint
