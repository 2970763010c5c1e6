import DesignLint.Finding.Severity
import DesignLint.Text.Unicode

/-!
# Exit codes

The exit code of a run depends on the numbers of findings by severity: findings
of high severity fail it, and so do too many warnings. Severities that nobody
knows count as critical.
-/

namespace DesignLint

/-! ## Ranks of severities -/

/-- A severity, or none at all. -/
abbrev SeverityRank := Option Severity

namespace SeverityRank

/-- All ranks, the lowest first. -/
def all : List SeverityRank := none :: Severity.all.map some

/-- The name of a rank. -/
def label : SeverityRank → String
  | none => "NONE"
  | some severity => severity.label.toUpper

/-- The rank with a name. -/
def ofLabel? (label : String) : Option SeverityRank :=
  all.find? fun rank => SeverityRank.label rank == label

/-- The height of a rank: zero for none. -/
def height : SeverityRank → Nat
  | none => 0
  | some severity => severity.rank + 1

/-- A letter in upper case, as far as names of ranks need it. -/
def upperLetter (c : Char) : Char := if c = 'ı' then 'I' else c.toUpper

/-- The rank that a text names, whatever the case and the blanks around it. The
empty text is no severity; a text that names none is critical. -/
def ofText (text : String) : SeverityRank :=
  if text.isEmpty then none
  else
    let name := String.ofList ((Unicode.trim text).toList.map upperLetter)
    (ofLabel? name).getD (some .critical)

end SeverityRank

/-! ## Policies -/

/-- When a run fails, and the exit codes. -/
structure ExitPolicy where
  ok : Int := 0
  fail : Int := 1
  warnAt : SeverityRank := some .medium
  failAt : SeverityRank := some .high
  maxWarnings : Option Int := none
deriving DecidableEq, Repr

/-- The numbers of findings by the names of their severities. -/
abbrev SeverityCounts := List (String × Int)

namespace SeverityCounts

/-- The higher of two ranks, the first one if they are equal. -/
def higher (a : Option SeverityRank) (b : SeverityRank) : Option SeverityRank :=
  match a with
  | none => some b
  | some a => if a.height < b.height then some b else some a

/-- The highest rank with findings. -/
def worst (counts : SeverityCounts) : Option SeverityRank :=
  (counts.filter fun entry => entry.2 != 0).foldl
    (fun highest entry => higher highest (.ofText entry.1)) none

/-- The number of findings from one rank on and below another one. -/
def between (low high : SeverityRank) : SeverityCounts → Int
  | [] => 0
  | (name, count) :: rest =>
    let height := (SeverityRank.ofText name).height
    if low.height ≤ height ∧ height < high.height then count + between low high rest
    else between low high rest

end SeverityCounts

namespace ExitPolicy

/-- The number of warnings. -/
def warnings (policy : ExitPolicy) (counts : SeverityCounts) : Int :=
  counts.between policy.warnAt policy.failAt

/-- Whether there are more warnings than allowed. -/
def exceedsWarnings (policy : ExitPolicy) (counts : SeverityCounts) : Bool :=
  match policy.maxWarnings with
  | none => false
  | some limit => decide (limit < policy.warnings counts)

/-- Whether a run fails. -/
def fails (policy : ExitPolicy) (counts : SeverityCounts) : Bool :=
  decide (policy.failAt.height ≤ (counts.worst.getD none).height) || policy.exceedsWarnings counts

/-- The exit code of a run. -/
def exitCode (policy : ExitPolicy) (counts : SeverityCounts) : Int :=
  if policy.fails counts then policy.fail else policy.ok

end ExitPolicy

end DesignLint
