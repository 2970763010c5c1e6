/-!
# Sets of names

A set of names is a list without repetitions, in the order of first insertion.
Only membership, size and the sorted listing are ever observed.
-/

namespace DesignLint

/-- A finite set of names. -/
abbrev NameSet := List String

namespace NameSet

/-- The set with one more name. -/
def add (names : NameSet) (name : String) : NameSet :=
  if names.contains name then names else names ++ [name]

/-- The names of a list. -/
def ofNames (names : List String) : NameSet := names.foldl add []

/-- The names of either set. -/
def union (names others : NameSet) : NameSet := others.foldl add names

/-- The names of both sets. -/
def inter (names others : NameSet) : NameSet := names.filter others.contains

/-- The names in increasing order. -/
def sorted (names : NameSet) : List String := names.mergeSort fun a b => decide (a ≤ b)

end NameSet

end DesignLint
