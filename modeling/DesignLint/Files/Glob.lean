import DesignLint.Files.Tree
import DesignLint.Text.Wildcard

/-!
# File patterns

A file pattern is matched against a tree name by name. A name without wildcards
is looked up, a name with wildcards is compared with the entries of a directory,
and a double star stands for any number of directories. A pattern that ends in a
slash, or in a double star, takes directories only.
-/

namespace DesignLint

/-! ## Patterns -/

/-- One step of a pattern. -/
inductive GlobStep where
  | named (name : String)
  | matching (pattern : String)
  | anyDepth
deriving DecidableEq, Repr

/-- A pattern: its steps, and whether only directories count. -/
structure Glob where
  steps : List GlobStep
  directoriesOnly : Bool
deriving DecidableEq, Repr

/-- Why a text is no pattern, or one that cannot be looked up. -/
inductive GlobError where
  | empty | absolute | starsInName | pointOnly | pointAndSlash
  | file (error : FileError)
deriving DecidableEq, Repr

/-- The message of an error. -/
def GlobError.message : GlobError → String
  | empty => "Unacceptable pattern: ''"
  | absolute => "Non-relative patterns are unsupported"
  | starsInName => "Invalid pattern: '**' can only be an entire path component"
  | pointOnly => "tuple index out of range"
  | pointAndSlash => "'_TerminatingSelector' object has no attribute 'select_from'"
  | file error => error.message

/-- Whether a name has a wildcard in it. -/
def hasWildcard (name : String) : Bool := name.toList.any fun c => c == '*' || c == '?' || c == '['

namespace GlobStep

/-- The step that a name stands for. -/
def ofName (name : String) : Except GlobError GlobStep :=
  if name = "**" then .ok anyDepth
  else if occurs ['*', '*'] name.toList then .error .starsInName
  else if hasWildcard name then .ok (matching name)
  else .ok (named name)

end GlobStep

/-- The pattern that a text stands for. -/
def Glob.ofText (text : String) : Except GlobError Glob :=
  let path := FilePath.ofText text
  let ends := text.toList.getLast? == some '/'
  if text.isEmpty then .error .empty
  else if path.slashes ≠ 0 then .error .absolute
  else if path.parts.isEmpty then .error (if ends then .pointAndSlash else .pointOnly)
  else (path.parts.mapM GlobStep.ofName).map fun steps => ⟨steps, ends⟩

/-- The patterns that are used when nothing else is said: all files with source code. -/
def usualPatterns : List String := ["**/*.py"]

/-! ## Matches -/

/-- The entries of the directory at a path. -/
def FileSystem.entriesAt (files : FileSystem) (path : FilePath) : List (String × Entry) :=
  match files.find? path with
  | some entry => entry.entries
  | none => []

/-- The directories at and below a path. -/
def FileSystem.directoriesAt (files : FileSystem) (path : FilePath) : List FilePath :=
  match files.find? path with
  | some entry => entry.directories.map fun names => ⟨path.slashes, path.parts ++ names⟩
  | none => []

/-- The paths that steps lead to from a directory. Where more steps follow, only
directories are entered. -/
def selectFrom (files : FileSystem) (directoriesOnly : Bool) : List GlobStep → FilePath →
    List FilePath
  | [], place => [place]
  | .named name :: rest, place =>
    let next := place.child name
    if rest.isEmpty && !directoriesOnly then if files.has next then [next] else []
    else if files.isDirectory next then selectFrom files directoriesOnly rest next
    else []
  | .matching pattern :: rest, place =>
    let wanted := (files.entriesAt place).filter fun (name, entry) =>
      wildcardMatches pattern name
        && ((rest.isEmpty && !directoriesOnly) || entry.isDirectory)
    wanted.flatMap fun (name, _) => selectFrom files directoriesOnly rest (place.child name)
  | .anyDepth :: rest, place =>
    ((files.directoriesAt place).flatMap (selectFrom files directoriesOnly rest)).eraseDups

/-- The paths below a directory that a pattern takes. -/
def Glob.select (glob : Glob) (files : FileSystem) (directory : FilePath) : List FilePath :=
  if files.isDirectory directory then
    selectFrom files glob.directoriesOnly glob.steps directory
  else []

/-- Whether looking up a name fails for its length. A name that stands in no path at all
leads nowhere, however long it is. -/
def isOverlong (name : String) : Bool :=
  FilePath.isLongName name && !(FilePath.fault? ⟨0, [name]⟩).any FileFault.isTextual

namespace GlobStep

/-- Whether a step looks up a name that is too long for any file. -/
def isLongName : GlobStep → Bool
  | named name => isOverlong name
  | _ => false

/-- The name that a step looks up; other steps look up none. -/
def name : GlobStep → String
  | named name => name
  | _ => ""

end GlobStep

/-- The error of looking up a pattern below a directory: a name that is too long for any file,
below the first place where it is looked up. -/
def Glob.lookupError? (glob : Glob) (files : FileSystem) (directory : FilePath) :
    Option FileError :=
  let before := glob.steps.takeWhile fun step => !step.isLongName
  match glob.steps.drop before.length with
  | [] => none
  | step :: _ => ((Glob.mk before true).select files directory).head?.map fun place =>
    ⟨.tooLong, place.child step.name⟩

/-- The pattern that a text stands for, when it can be looked up below a directory. -/
def Glob.ofTextIn (files : FileSystem) (directory : FilePath) (text : String) :
    Except GlobError Glob := do
  let glob ← Glob.ofText text
  match glob.lookupError? files directory with
  | some error => .error (.file error)
  | none => .ok glob

end DesignLint
