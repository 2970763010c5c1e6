import DesignLint.Files.Glob
import DesignLint.Scan.Event

/-!
# Finding files

A scan takes the files below its root that a pattern takes and nothing excludes.
Some directories are never searched, and files above a size are left out. A scan
of a single file takes it, if it is a file with source code.
-/

namespace DesignLint

/-! ## Exclusion -/

/-- Directories that are never searched. -/
def neverSearched : List String := [
  ".git", ".github", ".venv", "venv", "__pycache__", "node_modules", "dist", "build", ".tox",
  ".mypy_cache", ".pytest_cache", ".ruff_cache"]

/-- The most bytes of a file that is scanned. -/
def sizeLimit : Nat := 2000000

/-- What is left out: names of directories, and patterns for paths. -/
structure Exclusion where
  directories : List String
  patterns : List String
deriving DecidableEq, Repr

namespace Exclusion

/-- Whether a text excludes paths, and not directories of a name. -/
def isPathPattern (text : String) : Bool :=
  text.toList.any fun c => c == '*' || c == '?' || c == '[' || c == '/'

/-- The exclusion that texts stand for, together with the directories that are never
searched. -/
def ofTexts (texts : List String) : Exclusion where
  directories := neverSearched ++ texts.filter fun text => !isPathPattern text
  patterns := texts.filter isPathPattern

/-- Whether the path with some names below the root is left out. -/
def covers (exclusion : Exclusion) (names : List String) : Bool :=
  names.dropLast.any exclusion.directories.contains
    || exclusion.patterns.any fun pattern =>
      wildcardMatches pattern (FilePath.text ⟨0, names⟩)

end Exclusion

/-! ## Discovery -/

/-- The files of a scan, by their names from the top, and what was told meanwhile. -/
structure Discovery where
  files : List (List String)
  events : List ScanEvent

/-- A file is taken, or left out with or without a word. -/
inductive Candidate where
  | taken (place : List String)
  | tooLarge (names : List String)
  | passed
deriving DecidableEq, Repr

/-- What becomes of a path that a pattern takes. -/
def Exclusion.candidate (exclusion : Exclusion) (files : FileSystem) (root path : FilePath) :
    Candidate :=
  let names := path.parts.drop root.parts.length
  if exclusion.covers names then .passed
  else match files.file? path with
    | none => .passed
    | some content =>
      if sizeLimit < content.size then .tooLarge names
      else .taken (path.resolve files.working)

/-- The place of a file that is taken. -/
def Candidate.place? : Candidate → Option (List String)
  | taken place => some place
  | _ => none

/-- What is told about a path. -/
def Candidate.event? : Candidate → Option ScanEvent
  | tooLarge names => some (.oversized ⟨0, names⟩ sizeLimit)
  | _ => none

/-- Places in the order of their names, each one once. -/
def sortedPlaces (places : List (List String)) : List (List String) :=
  places.eraseDups.mergeSort fun a b => !partsBefore b a

/-- The files that patterns take below a directory. -/
def discoverBelow (files : FileSystem) (root : FilePath) (included : List Glob)
    (exclusion : Exclusion) : Discovery :=
  let paths := included.flatMap fun glob => glob.select files root
  let candidates := paths.map (exclusion.candidate files root)
  ⟨sortedPlaces (candidates.filterMap Candidate.place?), candidates.filterMap Candidate.event?⟩

/-- The files of a scan. Without patterns, all files with source code are taken. -/
def discover (files : FileSystem) (root : FilePath) (included excluded : List String) :
    Except GlobError Discovery :=
  match files.askingError? root, files.file? root with
  | some error, _ => .error (.file error)
  | none, some _ => .ok ⟨if root.isSource then [root.resolve files.working] else [], []⟩
  | none, none =>
    let texts := if included.isEmpty then usualPatterns else included
    (texts.mapM (Glob.ofTextIn files root)).map fun globs =>
      discoverBelow files root globs (.ofTexts excluded)

end DesignLint
