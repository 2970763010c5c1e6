/-!
# Severities

How much a finding matters, from a remark to a defect that has to be repaired.
-/

namespace DesignLint

/-- How much a finding matters. -/
inductive Severity where
  | info | low | medium | high | critical
deriving DecidableEq, Repr

namespace Severity

/-- All severities, the mildest first. -/
def all : List Severity := [info, low, medium, high, critical]

/-- The name of a severity. -/
def label : Severity → String
  | info => "info"
  | low => "low"
  | medium => "medium"
  | high => "high"
  | critical => "critical"

/-- The severity with a name. -/
def ofLabel? (label : String) : Option Severity :=
  all.find? fun severity => severity.label == label

/-- The place of a severity among all, starting with zero for the mildest. -/
def rank : Severity → Nat
  | info => 0
  | low => 1
  | medium => 2
  | high => 3
  | critical => 4

end Severity

end DesignLint
