/-!
# Families of rules

Every finding belongs to the family of the rule that made it.
-/

namespace DesignLint

/-- The families of rules. -/
inductive Family where
  | cohesion | complexity | coupling | magicNumbers | booleanParams | naming | lateUsage
deriving DecidableEq, Repr

namespace Family

/-- All families. -/
def all : List Family :=
  [cohesion, complexity, coupling, magicNumbers, booleanParams, naming, lateUsage]

/-- The name of a family. -/
def label : Family → String
  | cohesion => "cohesion"
  | complexity => "complexity"
  | coupling => "coupling"
  | magicNumbers => "magic_numbers"
  | booleanParams => "boolean_params"
  | naming => "naming"
  | lateUsage => "late_usage"

/-- The family with a name. -/
def ofLabel? (label : String) : Option Family :=
  all.find? fun family => family.label == label

end Family

end DesignLint
