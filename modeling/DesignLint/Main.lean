import DesignLint.CommandLine.Run
import DesignLint.Json.Reader
import DesignLint.Result.Stamp
import Std.Time.DateTime.Timestamp

/-!
# The program

Reads the files that a command names, runs the command, and does what it asks for.
Neither source code nor configurations are parsed here: the document that describes
the file `name` is the file `name.json` beside it.
-/

namespace DesignLint.Program

/-- How the program is called. -/
def usage : String :=
  "usage: design-lint PATH [--config FILE] [--preset NAME] [--rule NAME[=LEVEL]]\n" ++
  "         [--format text|markdown|json] [--output FILE] [--max-warnings N]\n" ++
  "         [--project-id ID] [--ci] [-v]\n" ++
  "       design-lint rules [--preset NAME] [--json]\n" ++
  "       design-lint validate FILE SCHEMA"

/-- A file or directory, and the names from the top to it. -/
abbrev Place := List String × Option FileContent

/-- The document beside a file, if there is one. -/
def documentBeside? (path : String) : IO (Option Json) := do
  try return Json.read? (← IO.FS.readFile (path ++ ".json"))
  catch _ => return none

/-- The content of a file. -/
def readContent (path : String) : IO FileContent := do
  let bytes ← IO.FS.readBinFile path
  let text := match String.fromUTF8? bytes with
    | some text => .ok text
    | none => Utf8.decode bytes.toList
  let document ← documentBeside? path
  return .ofDocuments bytes.size text document document

/-- The files and directories at a place and below it. Links are left out. -/
partial def placesAt (names : List String) : IO (List Place) := do
  let path ← IO.FS.realPath (FilePath.absolute names).text
  if ← path.isDir then
    let entries ← path.readDir
    let below ← entries.toList.mapM fun entry => do
      let kind := (← entry.path.symlinkMetadata).type
      if kind == .dir || kind == .file then placesAt (names ++ [entry.fileName]) else return []
    return (names, none) :: below.flatten
  else return [(names, some (← readContent path.toString))]

/-- The files and directories at a place, if there are any. -/
def placesIfAny (names : List String) : IO (List Place) := do
  try placesAt names catch _ => return []

/-- The files that a command may look at: those at its paths, and the configurations beside
them. -/
def filesFor (paths : List FilePath) : IO FileSystem := do
  let working := (FilePath.ofText (← IO.currentDir).toString).parts
  let named := paths.map (FilePath.resolve working)
  let beside := named.flatMap fun names => configNames.map (names.dropLast ++ [·])
  let places ← (named ++ beside).mapM placesIfAny
  return {
    top := .ofPlaces ((working, none) :: places.flatten)
    working := working
    strictOutput := true }

/-- A stamp for a run that begins now. -/
def freshStamp : IO RunStamp := do
  let bytes ← IO.getRandomBytes 16
  let time ← Std.Time.Timestamp.now
  return .fresh bytes.toList (time.toNanosecondsSinceUnixEpoch.val / 1000).toNat

/-- Does what a command asks for, and gives its exit code. -/
def deliver (outcome : CommandLine.Outcome) : IO UInt32 := do
  if let some (path, text) := outcome.report then
    IO.FS.createDirAll path.parent.text
    IO.FS.writeFile path.text text
  IO.print outcome.output
  for notice in outcome.notices do
    IO.eprintln notice.text
  return outcome.code.toNat.toUInt32

end DesignLint.Program

open DesignLint in
/-- Runs the program. -/
def main (arguments : List String) : IO UInt32 := do
  match CommandLine.Command.read arguments with
  | .error .shown =>
    IO.println Program.usage
    return 0
  | .error .misused =>
    IO.eprintln Program.usage
    return 2
  | .ok command =>
    let files ← Program.filesFor command.paths
    match command.run files (← Program.freshStamp) with
    | .ok outcome => Program.deliver outcome
    | .error (.stopped _) | .error (.noValue _) => return 2
    | .error (.scan error) =>
      IO.eprintln error.message
      return 1
