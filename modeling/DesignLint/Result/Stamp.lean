import DesignLint.Digest.Sha256
import DesignLint.Report.Canonical
import DesignLint.Result.Basic
import DesignLint.Text.Quoted

/-!
# Stamps of runs

A run is known by an identifier and by the time it was made. Reproducible runs
take the identifier from what was scanned and how, and a fixed time, so that two
runs over the same files give the same result. The identifier of any other run is
random, and its time is the time of the clock. Both are written here from what is
drawn and what the clock shows: the identifier in groups of hexadecimal digits, the
time as a date of the Gregorian calendar.
-/

namespace DesignLint

/-- What tells one run from another. -/
structure RunStamp where
  runId : String
  createdAt : String
deriving DecidableEq, Repr

/-- The time that all reproducible runs give. -/
def reproducibleTime : String := "2000-01-01T00:00:00+00:00"

/-- What makes a reproducible run: its configuration and the paths of its files. -/
def runIdentityText (config : Json) (files : List String) : String :=
  Json.canonicalText (.object [("config", config), ("files", .strings files)]) true

/-- The identifier of a reproducible run: a digest of what makes it. -/
def reproducibleRunId (config : Json) (files : List String) : String :=
  let digest := Sha256.hex (runIdentityText config files)
  "ci-" ++ String.ofList (digest.toList.take 12)

/-- The stamp of a reproducible run. -/
def reproducibleStamp (config : Json) (files : List String) : RunStamp :=
  ⟨reproducibleRunId config files, reproducibleTime⟩

/-! ## Times -/

/-- A date. -/
structure CalendarDate where
  year : Nat
  month : Nat
  day : Nat
deriving DecidableEq, Repr

/-- The date some days after the first of January 1970. Years are counted from March, so
that a leap day is the last day of a year, and in eras of 400 years. -/
def CalendarDate.ofDays (days : Nat) : CalendarDate :=
  let shifted := days + 719468
  let era := shifted / 146097
  let dayOfEra := shifted % 146097
  let yearOfEra := (dayOfEra - dayOfEra / 1460 + dayOfEra / 36524 - dayOfEra / 146096) / 365
  let dayOfYear := dayOfEra - (365 * yearOfEra + yearOfEra / 4 - yearOfEra / 100)
  let monthFromMarch := (5 * dayOfYear + 2) / 153
  let month := if monthFromMarch < 10 then monthFromMarch + 3 else monthFromMarch - 9
  { year := yearOfEra + era * 400 + (if month ≤ 2 then 1 else 0)
    month := month
    day := dayOfYear - (153 * monthFromMarch + 2) / 5 + 1 }

/-- A number with leading zeros. -/
def padded (width value : Nat) : String :=
  let digits := Nat.toDigits 10 value
  String.ofList (List.replicate (width - digits.length) '0' ++ digits)

/-- The text of a time in microseconds since the start of 1970. A whole second is written
without a fraction. -/
def timeText (microseconds : Nat) : String :=
  let seconds := microseconds / 1000000
  let fraction := microseconds % 1000000
  let date := CalendarDate.ofDays (seconds / 86400)
  let clock := [seconds / 3600 % 24, seconds / 60 % 60, seconds % 60].map (padded 2)
  padded 4 date.year ++ "-" ++ padded 2 date.month ++ "-" ++ padded 2 date.day
    ++ "T" ++ ":".intercalate clock
    ++ (if fraction = 0 then "" else "." ++ padded 6 fraction) ++ "+00:00"

/-! ## Identifiers -/

/-- A random identifier from sixteen bytes, two of which tell its kind. -/
def identifierText (bytes : List UInt8) : String :=
  let marked := bytes.zipIdx.map fun (byte, index) =>
    if index = 6 then 0x40 + byte.toNat % 16
    else if index = 8 then 0x80 + byte.toNat % 64
    else byte.toNat
  let digits := (marked.map (hexDigits 2)).map String.toList
  let group (start count : Nat) : String :=
    String.ofList ((digits.drop start).take count).flatten
  "-".intercalate [group 0 4, group 4 2, group 6 2, group 8 2, group 10 6]

/-- The stamp of a run from random bytes and the time. -/
def RunStamp.fresh (bytes : List UInt8) (microseconds : Nat) : RunStamp :=
  ⟨identifierText bytes, timeText microseconds⟩

end DesignLint
