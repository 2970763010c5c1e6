import DesignLint.Digest.Sha256
import DesignLint.Finding.Family
import DesignLint.Finding.Severity
import DesignLint.Json.Basic

/-!
# Findings

A finding is one breach of a rule at one place. Its fingerprint depends on the
rule, the file, the symbol and the snippet, and not on line numbers, so it stays
the same when code above it moves.
-/

namespace DesignLint

/-! ## Places -/

/-- A range of lines of a file, and the column where it starts. -/
structure Location where
  path : String
  lineStart : Int
  lineEnd : Int
  column : Int
deriving DecidableEq, Repr

namespace Location

/-- The path with the first line, and with the last line where it is another. -/
def label (location : Location) : String :=
  location.path ++ ":" ++ toString location.lineStart
    ++ if location.lineStart < location.lineEnd then "-" ++ toString location.lineEnd else ""

/-- A place as a document. -/
def toJson (location : Location) : Json := .object [
  ("path", .string location.path),
  ("line_start", .int location.lineStart),
  ("line_end", .int location.lineEnd),
  ("column", .int location.column)]

end Location

/-! ## Fingerprints -/

/-- A path with forward slashes only. -/
def forwardSlashes (path : String) : String :=
  String.ofList (path.toList.map fun c => if c = Quoted.backslash then '/' else c)

/-- The text that a fingerprint stands for. Blanks around the snippet do not count. -/
def fingerprintText (ruleId path symbol snippet : String) : String :=
  "|".intercalate [ruleId, forwardSlashes path, symbol, Unicode.trim snippet]

/-- The fingerprint of a symbol of a file under a rule. -/
def fingerprint (ruleId path symbol snippet : String) : String :=
  "sha256:" ++ Sha256.hex (fingerprintText ruleId path symbol snippet)

/-! ## Findings -/

/-- One breach of a rule. -/
structure Finding where
  id : String
  family : Family
  severity : Severity
  confidence : Number
  message : String
  location : Location
  fingerprint : String
  snippet : String
  metadata : JsonObject

namespace Finding

/-- A value under a key of the metadata as a text; empty if there is none. -/
def metadataText (finding : Finding) (key : String) : String :=
  match finding.metadata.lookup key with
  | some (.string text) => text
  | some value => value.shown
  | none => ""

/-- The identifier of the rule. -/
def ruleId (finding : Finding) : String := finding.metadataText "rule_id"

/-- The name of the rule. -/
def rule (finding : Finding) : String := finding.metadataText "rule"

/-- Whether the metadata name a rule. -/
def namesRule (finding : Finding) : Bool := (finding.metadata.lookup "rule").any Json.isTruthy

/-- The report on a unit that lacks cohesion, if the finding has one. -/
def cohesion? (finding : Finding) : Option Json := finding.metadata.lookup "cohesion"

/-- A finding as a document. An empty snippet and empty metadata are left out. -/
def toJson (finding : Finding) : Json := .object (
  [("finding_id", .string finding.id),
   ("type", .string finding.family.label),
   ("severity", .string finding.severity.label),
   ("confidence", .number finding.confidence),
   ("message", .string finding.message),
   ("location", finding.location.toJson),
   ("fingerprint", .string finding.fingerprint)]
  ++ (if finding.snippet.isEmpty then [] else [("snippet", .string finding.snippet)])
  ++ (if finding.metadata.isEmpty then [] else [("metadata", .object finding.metadata)]))

end Finding

/-! ## The order of findings -/

/-- Where a finding stands among others: by file, line, column and rule. -/
structure FindingKey where
  path : String
  line : Int
  column : Int
  ruleId : String
deriving DecidableEq, Repr

namespace FindingKey

/-- Whether a key comes before another one in the same file. -/
def beforeInFile (a b : FindingKey) : Bool :=
  if a.line ≠ b.line then decide (a.line < b.line)
  else if a.column ≠ b.column then decide (a.column < b.column)
  else decide (a.ruleId < b.ruleId)

/-- Whether a key comes before another one. -/
def before (a b : FindingKey) : Bool :=
  if a.path ≠ b.path then decide (a.path < b.path) else a.beforeInFile b

end FindingKey

namespace Finding

/-- The place of a finding among others. -/
def key (finding : Finding) : FindingKey :=
  ⟨finding.location.path, finding.location.lineStart, finding.location.column, finding.ruleId⟩

/-- Whether a finding may stand before another one in source order. -/
def sourceOrder (a b : Finding) : Bool := !b.key.before a.key

/-- Whether a finding may stand before another one when the file does not
count. -/
def lineOrder (a b : Finding) : Bool := !b.key.beforeInFile a.key

/-- Whether a finding may stand before another one when identifiers settle
ties. -/
def scanOrder (a b : Finding) : Bool :=
  if a.key = b.key then decide (a.id ≤ b.id) else a.sourceOrder b

end Finding

/-- Findings in source order; ties keep their order. -/
def inSourceOrder (findings : List Finding) : List Finding :=
  findings.mergeSort Finding.sourceOrder

end DesignLint
