import DesignLint.Text.Search
import DesignLint.Text.Utf8

/-!
# Paths

A path is a list of names, relative to the working directory or starting at the
top. Empty names and single points do not count; double points are kept, for
they can only be resolved where the path is used.
-/

namespace DesignLint

/-- A path: the slashes it begins with, and its names. Two slashes at the start are
told from one, more than two are one. -/
structure FilePath where
  slashes : Nat
  parts : List String
deriving DecidableEq, Repr

namespace FilePath

/-- The path that a text stands for. -/
def ofText (text : String) : FilePath :=
  let slashes := (text.toList.takeWhile (· == '/')).length
  { slashes := if slashes = 2 then 2 else min slashes 1
    parts := (splitText '/' text).filter fun part => part != "" && part != "." }

/-- A path as a text. The empty relative path is a point. -/
def text (path : FilePath) : String :=
  if path.slashes = 0 && path.parts.isEmpty then "."
  else String.ofList (List.replicate path.slashes '/') ++ "/".intercalate path.parts

/-- The path from the top with some names. -/
def absolute (parts : List String) : FilePath := ⟨1, parts⟩

/-- The error of encoding a path. Some surrogates stand for single bytes. -/
def encodingError? (path : FilePath) : Option EncodingError :=
  Utf8.refusal? (fun c => Surrogate.isStandIn c && !Surrogate.isByteStandIn c) path.text

/-- Whether a zero character stands in a path. No file has such a path. -/
def hasZero (path : FilePath) : Bool := path.parts.any fun part => part.toList.contains '\x00'

/-- The most bytes of a name. -/
def nameLimit : Nat := 255

/-- The number of bytes that are too many for a path. -/
def pathLimit : Nat := 4096

/-- Whether a name is too long for any file. -/
def isLongName (name : String) : Bool := decide (nameLimit < name.utf8ByteSize)

/-- Whether a path as a whole is too long for any file. -/
def isTooLong (path : FilePath) : Bool := decide (pathLimit ≤ path.text.utf8ByteSize)

/-- A name below a path. -/
def child (path : FilePath) (name : String) : FilePath := ⟨path.slashes, path.parts ++ [name]⟩

/-- The path right above. -/
def parent (path : FilePath) : FilePath := ⟨path.slashes, path.parts.dropLast⟩

/-- Whether a path names a file with source code. -/
def isSource (path : FilePath) : Bool :=
  match path.parts.getLast? with
  | some name => decide (3 < name.length) && ".py".toList.isSuffixOf name.toList
  | none => false

/-- One step from a directory: double points go up, where that is possible. -/
def step (parts : List String) (name : String) : List String :=
  if name = ".." then parts.dropLast else parts ++ [name]

/-- The names from the top, seen from a working directory. Double points take back
the name before them. -/
def resolve (working : List String) (path : FilePath) : List String :=
  path.parts.foldl step (if path.slashes = 0 then working else [])

end FilePath

/-- The names below a directory, for a path in it. -/
def relativeTo? (directory parts : List String) : Option (List String) :=
  if directory.isPrefixOf parts then some (parts.drop directory.length) else none

/-- The order of paths by their names. -/
def partsBefore : List String → List String → Bool
  | [], [] => false
  | [], _ :: _ => true
  | _ :: _, [] => false
  | a :: as, b :: bs => if a = b then partsBefore as bs else decide (a < b)

end DesignLint
