import DesignLint.Number.Binary64

/-!
# Decimal text of doubles

A double is written with the fewest decimal digits that read back as the same
double, the nearest such number when there are several. It is read by rounding
the decimal's exact value once. Fixed-place text rounds the exact value, ties
to even.
-/

namespace DesignLint

/-! ## Digits and places -/

/-- A positive decimal `digits * 10 ^ exponent`. -/
structure Decimal where
  digits : Nat
  exponent : Int
deriving DecidableEq, Repr

namespace Decimal

/-- The exact value. -/
def value (decimal : Decimal) : Rat :=
  Rat.ofInt decimal.digits * powerOfTen decimal.exponent

/-- The same number with up to `fuel` trailing zeros moved into the exponent. -/
def trimmed : Nat → Decimal → Decimal
  | 0, decimal => decimal
  | fuel + 1, decimal =>
    if decimal.digits ≠ 0 ∧ decimal.digits % 10 = 0 then
      trimmed fuel ⟨decimal.digits / 10, decimal.exponent + 1⟩
    else decimal

/-- The number `k` with `10 ^ (k - 1) ≤ value < 10 ^ k`, for a positive value.
The binary exponent gives it up to two places. -/
def pointPlace (value : Rat) : Int :=
  let guess := Int.fdiv (Binary64.binaryExponent value * 30103) 100000
  if value < powerOfTen (guess - 1) then guess - 1
  else if value < powerOfTen guess then guess
  else if value < powerOfTen (guess + 1) then guess + 1
  else guess + 2

/-- Of the two neighbours of `value` on the decimal grid with `count` digits,
the nearest one that reads back as `value`; an exact tie goes to the even
digit. -/
def onGrid? (value : Rat) (count : Nat) : Option Decimal :=
  let exponent := pointPlace value - count
  let below := (value / powerOfTen exponent).floor.toNat
  let lower : Decimal := ⟨below, exponent⟩
  let upper : Decimal := ⟨below + 1, exponent⟩
  let readsBack (decimal : Decimal) : Bool :=
    decide (Binary64.nearest decimal.value = .finite value)
  match readsBack lower, readsBack upper with
  | false, false => none
  | true, false => some lower
  | false, true => some upper
  | true, true =>
    let toLower := value - lower.value
    let toUpper := upper.value - value
    if toLower < toUpper then some lower
    else if toUpper < toLower then some upper
    else if below % 2 = 0 then some lower
    else some upper

/-- The decimal with the fewest digits, seventeen at most, that reads back as
the given positive double. -/
def shortest (value : Rat) : Decimal :=
  let found := (List.range' 1 17).findSome? (onGrid? value)
  trimmed 20 (found.getD ⟨0, 0⟩)

end Decimal

/-! ## Writing -/

namespace Binary64

/-- A text of zeros. -/
def zeros (count : Nat) : String := String.ofList (List.replicate count '0')

/-- Positional notation is used while the decimal point stands less than four
places before, and at most sixteen places after, the first digit. -/
def isPositional (point : Int) : Bool := decide (-4 < point) && decide (point ≤ 16)

/-- The text of a positive double. -/
def magnitudeText (value : Rat) : String :=
  let decimal := Decimal.shortest value
  let digits := toString decimal.digits
  let point : Int := digits.length + decimal.exponent
  if isPositional point then
    if point ≤ 0 then "0." ++ zeros (-point).toNat ++ digits
    else if digits.length ≤ point.toNat then
      digits ++ zeros (point.toNat - digits.length) ++ ".0"
    else
      String.ofList (digits.toList.take point.toNat) ++ "."
        ++ String.ofList (digits.toList.drop point.toNat)
  else
    let exponent := point - 1
    let mantissa := match digits.toList with
      | [] => ""
      | [digit] => String.ofList [digit]
      | digit :: rest => String.ofList (digit :: '.' :: rest)
    let size := toString exponent.natAbs
    mantissa ++ (if exponent < 0 then "e-" else "e+")
      ++ (if size.length < 2 then "0" ++ size else size)

/-- The shortest text that reads back as the same double. Whole numbers keep
`.0`; exponents have a sign and two digits at least. -/
def text : Binary64 → String
  | .finite value =>
    if value = 0 then "0.0"
    else if value < 0 then "-" ++ magnitudeText (-value)
    else magnitudeText value
  | .negativeZero => "-0.0"
  | .infinite false => "inf"
  | .infinite true => "-inf"
  | .nan => "nan"

/-- A text of a double without a final `.0`. -/
def withoutPoint (text : String) : String :=
  if text.endsWith ".0" then String.ofList (text.toList.take (text.length - 2)) else text

/-- The text of a complex number: only the imaginary part where the real part is
the positive zero, both parts in parentheses otherwise. -/
def complexText (real imaginary : Binary64) : String :=
  let second := withoutPoint imaginary.text
  if real = .finite 0 then second ++ "j"
  else
    "(" ++ withoutPoint real.text ++ (if second.startsWith "-" then "" else "+") ++ second ++ "j)"

/-- A nonnegative rational with exactly `places` decimal places. -/
def fixedMagnitude (places : Nat) (value : Rat) : String :=
  let scaled := (roundHalfEven (value * powerOfTen places)).toNat
  let digits := toString scaled
  let padded := zeros (places + 1 - digits.length) ++ digits
  let whole := padded.length - places
  if places = 0 then padded
  else String.ofList (padded.toList.take whole) ++ "."
    ++ String.ofList (padded.toList.drop whole)

/-- A double with exactly `places` decimal places, ties to even on its exact
value. -/
def fixed (places : Nat) : Binary64 → String
  | .finite value =>
    if value < 0 then "-" ++ fixedMagnitude places (-value) else fixedMagnitude places value
  | .negativeZero => "-" ++ fixedMagnitude places 0
  | other => other.text

/-! ## Reading -/

/-- The double nearest to `digits * 10 ^ exponent`. Magnitudes far outside the
range are settled by their size, so that a huge exponent costs nothing. -/
def ofDecimal (negative : Bool) (digits : Nat) (exponent : Int) : Binary64 :=
  let size : Int := (toString digits).length + exponent
  let magnitude : Binary64 :=
    if digits = 0 ∨ size < -400 then .finite 0
    else if 400 < size then .infinite false
    else nearest (Decimal.value ⟨digits, exponent⟩)
  if negative then -magnitude else magnitude

end Binary64

end DesignLint
