/-!
# Binary floating point in exact arithmetic

A finite double is the rational number it stands for. Every operation is the
exact rational operation followed by one rounding to the nearest representable
value, ties to the even significand, so the laws of `Rat` carry over and
nothing depends on the host's floating point.
-/

namespace DesignLint

/-! ## Rounding a rational to an integer -/

/-- The nearest integer; a half goes to the even neighbour. -/
def roundHalfEven (value : Rat) : Int :=
  let below := value.floor
  let excess := value - below
  if excess < mkRat 1 2 then below
  else if mkRat 1 2 < excess then below + 1
  else if below % 2 = 0 then below
  else below + 1

/-- A positive base raised to an integer exponent. -/
def integerPower (base : Nat) (exponent : Int) : Rat :=
  if 0 ≤ exponent then Rat.ofInt (Nat.pow base exponent.toNat)
  else mkRat 1 (Nat.pow base (-exponent).toNat)

/-- The power of two with an integer exponent. -/
def powerOfTwo (exponent : Int) : Rat := integerPower 2 exponent

/-- The power of ten with an integer exponent. -/
def powerOfTen (exponent : Int) : Rat := integerPower 10 exponent

/-! ## Doubles -/

/-- A double: a rational number on the binary grid, the negative zero, an
infinity, or not a number. -/
inductive Binary64 where
  | finite (value : Rat)
  | negativeZero
  | infinite (negative : Bool)
  | nan
deriving DecidableEq, Repr

namespace Binary64

instance : Inhabited Binary64 := ⟨.finite 0⟩

/-- The exponent `e` with `2 ^ e ≤ value < 2 ^ (e + 1)`, for a positive value. -/
def binaryExponent (value : Rat) : Int :=
  let guess : Int := (value.num.natAbs.log2 : Int) - (value.den.log2 : Int)
  if value < powerOfTwo guess then guess - 1 else guess

/-- The distance between the doubles around a positive value: 53 significant
bits, and never below the smallest subnormal. -/
def spacing (value : Rat) : Rat :=
  powerOfTwo (max (binaryExponent value - 52) (-1074))

/-- The magnitude of a positive rational rounded to the binary grid. -/
def nearestMagnitude (value : Rat) : Rat :=
  let step := spacing value
  Rat.ofInt (roundHalfEven (value / step)) * step

/-- The double nearest to a rational number, ties to the even significand. A
negative number too small to tell from zero becomes the negative zero. -/
def nearest (value : Rat) : Binary64 :=
  if value = 0 then .finite 0
  else
    let negative := decide (value < 0)
    let magnitude := nearestMagnitude (if negative then -value else value)
    if powerOfTwo 1024 ≤ magnitude then .infinite negative
    else if magnitude = 0 then if negative then .negativeZero else .finite 0
    else .finite (if negative then -magnitude else magnitude)

/-- The rational number a double stands for, if it is finite. -/
def value? : Binary64 → Option Rat
  | .finite value => some value
  | .negativeZero => some 0
  | .infinite _ => none
  | .nan => none

/-- Whether the sign of a double is set. -/
def isNegative : Binary64 → Bool
  | .finite value => decide (value < 0)
  | .negativeZero => true
  | .infinite negative => negative
  | .nan => false

/-- The double with the opposite sign. -/
def neg : Binary64 → Binary64
  | .finite value => if value = 0 then .negativeZero else .finite (-value)
  | .negativeZero => .finite 0
  | .infinite negative => .infinite (!negative)
  | .nan => .nan

instance : Neg Binary64 := ⟨neg⟩

/-- A finite double rounded to `places` decimal places, ties to even on its
exact value, and then to the nearest double. The sign of zero is kept. -/
def roundTo (places : Nat) (number : Binary64) : Binary64 :=
  match number with
  | .finite value =>
    let rounded := Rat.ofInt (roundHalfEven (value * powerOfTen places)) / powerOfTen places
    if rounded = 0 ∧ value < 0 then .negativeZero else nearest rounded
  | other => other

end Binary64

end DesignLint
