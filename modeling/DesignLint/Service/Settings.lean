import DesignLint.Config.Preset
import DesignLint.Files.Tree
import DesignLint.Number.Numeral
import DesignLint.Text.Search

/-!
# Settings of the service

The service is set up by variables of its environment. A variable that is not set
leaves the usual value. A list is written with commas between its items.
-/

namespace DesignLint

/-- How the service is set up. Without allowed roots, every path may be scanned. -/
structure ServiceSettings where
  host : String := "0.0.0.0"
  port : Int := 8000
  debug : Bool := false
  origins : List String := ["*"]
  preset : String := Preset.standard.name
  maxSourceBytes : Int := 1000000
  allowedRoots : List String := []
deriving DecidableEq, Repr

namespace ServiceSettings

/-- The settings when nothing is set. -/
def usual : ServiceSettings := {}

/-! ## Reading -/

/-- The texts that switch something on. -/
def affirmations : List String := ["true", "1", "yes", "on"]

/-- Whether a text switches something on. -/
def readFlag (text : String) : Bool :=
  affirmations.contains (Unicode.lower (Unicode.trim text))

/-- The items of a list. Blanks around items do not count, and neither do empty items. -/
def readList (text : String) : List String :=
  ((splitText ',' text).map Unicode.trim).filter fun item => !item.isEmpty

/-- The settings in an environment. -/
def read (environment : String → Option String) : Except NumeralError ServiceSettings := do
  let whole (name : String) (value : Int) : Except NumeralError Int :=
    match environment name with
    | some text => Numeral.whole text
    | none => .ok value
  return {
    host := (environment "HOST").getD usual.host
    port := ← whole "PORT" usual.port
    debug := ((environment "DEBUG").map readFlag).getD usual.debug
    origins := ((environment "CORS_ORIGINS").map readList).getD usual.origins
    preset := (environment "DEFAULT_PRESET").getD usual.preset
    maxSourceBytes := ← whole "MAX_SOURCE_BYTES" usual.maxSourceBytes
    allowedRoots := ((environment "ALLOWED_ROOTS").map readList).getD usual.allowedRoots }

/-- The settings that a document gives, if its entries have the right types. What it leaves
out is usual. -/
def ofJson? (document : Json) : Option ServiceSettings := do
  let texts : Json → Option (List String)
    | .array items => items.mapM Json.text?
    | _ => none
  let whole : Json → Option Int
    | .number (.int value) => some value
    | _ => none
  let entry {α : Type} (name : String) (value : α) (read : Json → Option α) : Option α :=
    ((document.field? name).map read).getD (some value)
  return {
    host := ← entry "HOST" usual.host Json.text?
    port := ← entry "PORT" usual.port whole
    debug := ← entry "DEBUG" usual.debug fun value => some value.isTruthy
    origins := ← entry "CORS_ORIGINS" usual.origins texts
    preset := ← entry "DEFAULT_PRESET" usual.preset Json.text?
    maxSourceBytes := ← entry "MAX_SOURCE_BYTES" usual.maxSourceBytes whole
    allowedRoots := ← entry "ALLOWED_ROOTS" usual.allowedRoots texts }

/-- Settings as a document. -/
def toJson (settings : ServiceSettings) : Json := .object [
  ("HOST", .string settings.host),
  ("PORT", .int settings.port),
  ("DEBUG", .bool settings.debug),
  ("CORS_ORIGINS", .strings settings.origins),
  ("DEFAULT_PRESET", .string settings.preset),
  ("MAX_SOURCE_BYTES", .int settings.maxSourceBytes),
  ("ALLOWED_ROOTS", .strings settings.allowedRoots)]

/-! ## Permission -/

/-- Whether a path may be scanned: it leads to an allowed root or below one, seen from a
working directory. -/
def allows (settings : ServiceSettings) (working : List String) (path : FilePath) : Bool :=
  settings.allowedRoots.isEmpty || settings.allowedRoots.any fun root =>
    ((FilePath.ofText root).resolve working).isPrefixOf (path.resolve working)

end ServiceSettings

end DesignLint
