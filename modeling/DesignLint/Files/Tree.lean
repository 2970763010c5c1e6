import DesignLint.Files.Content
import DesignLint.Files.Path
import DesignLint.Text.Quoted

/-!
# Trees of files

Files stand in a tree of directories without links. A path is looked up name by
name: every name but the last must be a directory, and double points go up. A name
that no file can have, for its length, is a fault of its own.
-/

namespace DesignLint

/-! ## Trees -/

/-- A file, or a directory with named entries. -/
inductive Entry where
  | file (content : FileContent)
  | directory (entries : List (String × Entry))

namespace Entry

/-- Whether an entry is a directory. -/
def isDirectory : Entry → Bool
  | file _ => false
  | directory _ => true

/-- The entries of a directory; a file has none. -/
def entries : Entry → List (String × Entry)
  | file _ => []
  | directory entries => entries

/-- The entry below an entry, name by name. -/
def descendant? (entry : Entry) : List String → Option Entry
  | [] => some entry
  | name :: names =>
    match entry.entries.lookup name with
    | some child => child.descendant? names
    | none => none

mutual

/-- The directories in an entry, itself first, as lists of names. -/
def directories : Entry → List (List String)
  | file _ => []
  | directory entries => [] :: directoriesAmong entries

/-- The directories in some entries. -/
def directoriesAmong : List (String × Entry) → List (List String)
  | [] => []
  | (name, entry) :: rest =>
    entry.directories.map (name :: ·) ++ directoriesAmong rest

end

/-- Entries with one more; it takes the place of an entry of the same name. Increasing
order of the names is kept. -/
def setNamed (name : String) (entry : Entry) : List (String × Entry) → List (String × Entry)
  | [] => [(name, entry)]
  | (other, old) :: rest =>
    if name = other then (name, entry) :: rest
    else if name < other then (name, entry) :: (other, old) :: rest
    else (other, old) :: setNamed name entry rest

/-- An entry with a file below it, or with a directory. Directories on the way are made; a
directory that is there is kept. -/
def put (content : Option FileContent) : List String → Entry → Entry
  | [], entry =>
    match content with
    | some content => .file content
    | none => entry
  | name :: names, entry =>
    let inner := (entry.entries.lookup name).getD (.directory [])
    .directory (setNamed name (put content names inner) entry.entries)

/-- The tree of files and directories at given places. -/
def ofPlaces (places : List (List String × Option FileContent)) : Entry :=
  places.foldl (fun tree place => tree.put place.2 place.1) (.directory [])

end Entry

/-! ## Looking up -/

/-- Why a path cannot be used. -/
inductive FileFault where
  | absent | present | notDirectory | isDirectory | tooLong | zeroCharacter
  | unencodable (error : EncodingError)
deriving DecidableEq, Repr

/-- The words for a fault. -/
def FileFault.text : FileFault → String
  | absent => "[Errno 2] No such file or directory"
  | present => "[Errno 17] File exists"
  | notDirectory => "[Errno 20] Not a directory"
  | isDirectory => "[Errno 21] Is a directory"
  | tooLong => "[Errno 36] File name too long"
  | zeroCharacter => "embedded null byte"
  | unencodable error => error.message

/-- Whether a fault is one of the path as a text. -/
def FileFault.isTextual : FileFault → Bool
  | zeroCharacter | unencodable _ => true
  | _ => false

/-- Why no file has a path, whatever files there are. A name may still be too long. -/
def FilePath.fault? (path : FilePath) : Option FileFault :=
  match path.encodingError? with
  | some error => some (.unencodable error)
  | none =>
    if path.hasZero then some .zeroCharacter
    else if path.isTooLong then some .tooLong
    else none

/-- A path that cannot be used. -/
structure FileError where
  fault : FileFault
  path : FilePath
deriving DecidableEq, Repr

/-- The message of an error. -/
def FileError.message (error : FileError) : String :=
  if error.fault.isTextual then error.fault.text
  else error.fault.text ++ ": " ++ quoted error.path.text

/-- A tree of files, the names from the top to the working directory, and whether the standard
output takes only texts that have an encoding. -/
structure FileSystem where
  top : Entry
  working : List String
  strictOutput : Bool := false

namespace FileSystem

/-- The entry at a place, given by its names from the top. -/
def at? (files : FileSystem) (place : List String) : Option Entry := files.top.descendant? place

/-- One step of a look-up. -/
def enter (files : FileSystem) (place : List String) (name : String) :
    Except FileFault (List String) :=
  match files.at? place with
  | none => .error .absent
  | some (.file _) => .error .notDirectory
  | some (.directory entries) =>
    if name = ".." then .ok place.dropLast
    else if FilePath.isLongName name then .error .tooLong
    else if (entries.lookup name).isSome then .ok (place ++ [name])
    else .error .absent

/-- The place that a path leads to. -/
def locate (files : FileSystem) (path : FilePath) : Except FileFault (List String) :=
  match path.fault? with
  | some fault => .error fault
  | none => path.parts.foldlM files.enter (if path.slashes = 0 then files.working else [])

/-- The entry that a path leads to. -/
def find? (files : FileSystem) (path : FilePath) : Option Entry :=
  match files.locate path with
  | .error _ => none
  | .ok place => files.at? place

/-- Whether a path leads anywhere. -/
def has (files : FileSystem) (path : FilePath) : Bool := (files.find? path).isSome

/-- Whether a path leads to a directory. -/
def isDirectory (files : FileSystem) (path : FilePath) : Bool :=
  (files.find? path).any Entry.isDirectory

/-- The file that a path leads to. -/
def file? (files : FileSystem) (path : FilePath) : Option FileContent :=
  match files.find? path with
  | some (.file content) => some content
  | _ => none

/-- The file that a path leads to, or why there is none. -/
def open? (files : FileSystem) (path : FilePath) : Except FileError FileContent :=
  match files.locate path with
  | .error fault => .error ⟨fault, path⟩
  | .ok place =>
    match files.at? place with
    | some (.file content) => .ok content
    | some (.directory _) => .error ⟨.isDirectory, path⟩
    | none => .error ⟨.absent, path⟩

/-- The path from the top for a path. -/
def resolve (files : FileSystem) (path : FilePath) : FilePath :=
  .absolute (path.resolve files.working)

/-- The error of asking whether a path leads anywhere. That it does not is none. -/
def askingError? (files : FileSystem) (path : FilePath) : Option FileError :=
  match files.locate path with
  | .error .tooLong => some ⟨.tooLong, path⟩
  | _ => none

/-- The path from the top for a path that is about to be used, which needs not lead
anywhere. -/
def target (files : FileSystem) (path : FilePath) : Except FileError FilePath :=
  match path.fault?.filter FileFault.isTextual with
  | some fault => .error ⟨fault, path⟩
  | none =>
    let target := files.resolve path
    match files.askingError? target with
    | some error => .error error
    | none => .ok target

end FileSystem

end DesignLint
