import DesignLint.Number.Decimal

/-!
# Numbers as documents write them

A document distinguishes whole numbers, which have no bound, from doubles:
`30` and `30.0` are equal as numbers and different as texts. Comparison is by
exact value across the two kinds.
-/

namespace DesignLint

/-- A whole number or a double. -/
inductive Number where
  | int (value : Int)
  | float (value : Binary64)
deriving DecidableEq, Repr

namespace Number

instance : Inhabited Number := ⟨.int 0⟩

instance (n : Nat) : OfNat Number n := ⟨.int n⟩

/-- A point of the extended rational line: the side of an infinity, and the
rational in the middle. -/
structure Point where
  side : Int
  value : Rat
deriving DecidableEq, Repr

namespace Point

/-- The order of the extended line. -/
def le (a b : Point) : Bool :=
  decide (a.side < b.side) || (a.side == b.side && decide (a.value ≤ b.value))

/-- The strict order of the extended line. -/
def lt (a b : Point) : Bool :=
  decide (a.side < b.side) || (a.side == b.side && decide (a.value < b.value))

end Point

/-- Where a number stands on the extended line; not-a-number stands nowhere. -/
def point? : Number → Option Point
  | .int value => some ⟨0, Rat.ofInt value⟩
  | .float (.finite value) => some ⟨0, value⟩
  | .float .negativeZero => some ⟨0, 0⟩
  | .float (.infinite negative) => some ⟨if negative then -1 else 1, 0⟩
  | .float .nan => none

/-- Compares the places of two numbers; nothing holds of not-a-number. -/
def related (relation : Point → Point → Bool) (a b : Number) : Bool :=
  match a.point?, b.point? with
  | some p, some q => relation p q
  | _, _ => false

/-- `a ≤ b` by exact value. -/
def le (a b : Number) : Bool := related Point.le a b

/-- `a < b` by exact value. -/
def lt (a b : Number) : Bool := related Point.lt a b

/-- Equality by exact value. -/
def same (a b : Number) : Bool := related (fun p q => decide (p = q)) a b

/-- Whether the number has an integral value. -/
def isWhole : Number → Bool
  | .int _ => true
  | .float (.finite value) => value.den == 1
  | .float .negativeZero => true
  | .float _ => false

/-- Whether the number is neither infinite nor not-a-number. -/
def isFinite : Number → Bool
  | .float (.infinite _) | .float .nan => false
  | _ => true

/-- The text of a number: plain digits, or the shortest text of a double. -/
def text : Number → String
  | .int value => toString value
  | .float value => value.text

/-- The number with exactly `places` decimal places. Whole numbers are rounded
to a double first. -/
def fixed (places : Nat) : Number → String
  | .int value => (Binary64.nearest (Rat.ofInt value)).fixed places
  | .float value => value.fixed places

end Number

end DesignLint
