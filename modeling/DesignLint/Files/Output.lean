import DesignLint.Files.Tree

/-!
# Writing reports

A report is printed, or it is written to a file after the directories above it have
been made. This module says when that is not possible.
-/

namespace DesignLint.FileSystem

/-- Why a directory cannot be made, when those above it are not made first. -/
def creationFault? (files : FileSystem) (path : FilePath) : Option FileFault :=
  match path.parts.getLast?, path.fault? with
  | none, _ => some .present
  | some _, some fault => some fault
  | some name, none =>
    match (files.locate path.parent).bind fun place => files.enter place name with
    | .ok _ => some .present
    | .error .absent =>
      match files.locate path.parent with
      | .ok _ => none
      | .error fault => some fault
    | .error fault => some fault

/-- Why a directory and those above it cannot be made, for a path of at most `depth` names.
What is there already needs not be made. -/
def makingError? (files : FileSystem) : Nat → FilePath → Option FileError
  | depth, path =>
    match files.creationFault? path with
    | none => none
    | some .absent =>
      match depth with
      | 0 => some ⟨.absent, path⟩
      | depth + 1 =>
        match files.makingError? depth path.parent with
        | some error => some error
        | none =>
          match files.at? (path.resolve files.working) with
          | some (.file _) => some ⟨.present, path⟩
          | _ => none
    | some fault => if files.isDirectory path then none else some ⟨fault, path⟩

/-- Whether a path can only lead to a directory. -/
def namesDirectory (files : FileSystem) (path : FilePath) : Bool :=
  match path.parts.getLast? with
  | none => true
  | some name =>
    name == ".." || (files.at? (path.resolve files.working)).any Entry.isDirectory

/-- Why a text cannot be written to a file. -/
def writingError? (files : FileSystem) (path : FilePath) (text : String) : Option FileError :=
  match files.makingError? path.parts.length path.parent with
  | some error => some error
  | none =>
    if let some fault := path.fault? then some ⟨fault, path⟩
    else if path.parts.getLast?.any FilePath.isLongName then some ⟨.tooLong, path⟩
    else if files.namesDirectory path then some ⟨.isDirectory, path⟩
    else (Utf8.encodingError? text).map fun error => ⟨.unencodable error, path⟩

/-- Why a text cannot be printed. -/
def printingError? (files : FileSystem) (text : String) : Option FileError :=
  if files.strictOutput then
    (Utf8.encodingError? text).map fun error => ⟨.unencodable error, ⟨0, ["<stdout>"]⟩⟩
  else none

end DesignLint.FileSystem
