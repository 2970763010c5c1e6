import DesignLint.Json.Printer

/-!
# Canonical JSON

Documents are written in one way only: with sorted keys, two blanks of
indentation and a line end. Where results must not depend on the machine,
doubles are rounded to four decimal places. Values without a JSON form become
texts.
-/

namespace DesignLint

/-- The number of decimal places where results must be reproducible. -/
def reproduciblePlaces : Nat := 4

/-- The decimal places that are kept. -/
def keptPlaces (reproducible : Bool) : Option Nat :=
  if reproducible then some reproduciblePlaces else none

/-- A number in canonical form. -/
def canonicalNumber (places : Option Nat) : Number → Json
  | .int value => .number (.int value)
  | .float (.infinite negative) => .string (Binary64.infinite negative).text
  | .float .nan => .string Binary64.nan.text
  | .float value =>
    match places with
    | none => .number (.float value)
    | some places => .number (.float (value.roundTo places))

namespace Json

mutual

/-- A document with canonical numbers. -/
def canonical (places : Option Nat) : Json → Json
  | .number value => canonicalNumber places value
  | .array items => .array (canonicalItems places items)
  | .object entries => .object (canonicalEntries places entries)
  | value => value

/-- Items with canonical numbers. -/
def canonicalItems (places : Option Nat) : List Json → List Json
  | [] => []
  | item :: items => canonical places item :: canonicalItems places items

/-- Entries with canonical numbers. -/
def canonicalEntries (places : Option Nat) : List (String × Json) → List (String × Json)
  | [] => []
  | (key, value) :: entries => (key, canonical places value) :: canonicalEntries places entries

end

/-- The canonical text of a document whose numbers can be written. -/
def canonicalText (document : Json) (reproducible : Bool) : String :=
  (canonical (keptPlaces reproducible) document).sortedText (some 2) ++ "\n"

end Json

end DesignLint
