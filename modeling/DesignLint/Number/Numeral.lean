import DesignLint.Number.Basic
import DesignLint.Text.Quoted

/-!
# Numerals typed by people

Flags and settings hold numbers as text. Blanks around a numeral do not count,
its digits may be of any script, and single underscores may stand between
digits. A whole number has a sign and digits; other numbers may have a point, an
exponent, or be named. A whole number with too many digits is neither read nor
written.
-/

namespace DesignLint

/-- Why a text is not the number that was asked for, or a whole number has no text. -/
inductive NumeralError where
  | notWhole (text : String)
  | tooManyDigits (count : Nat)
  | notNumber (text : String)
  | unwritable
deriving DecidableEq, Repr

namespace Numeral

/-- The most digits that a whole number may have. -/
def digitLimit : Nat := 4300

/-- The most characters of a bad whole number that are shown. -/
def shownLimit : Nat := 200

end Numeral

/-- The message of an error. -/
def NumeralError.message : NumeralError → String
  | notWhole text =>
    "invalid literal for int() with base 10: "
      ++ String.ofList ((quoted text).toList.take Numeral.shownLimit)
  | tooManyDigits count =>
    "Exceeds the limit (" ++ toString Numeral.digitLimit
      ++ " digits) for integer string conversion: value has " ++ toString count
      ++ " digits; use sys.set_int_max_str_digits() to increase the limit"
  | notNumber text => "could not convert string to float: " ++ quoted text
  | unwritable =>
    "Exceeds the limit (" ++ toString Numeral.digitLimit
      ++ " digits) for integer string conversion; "
      ++ "use sys.set_int_max_str_digits() to increase the limit"

/-- Whether a number can be written: a whole number has no more digits than the limit. -/
def Number.isWritable : Number → Bool
  | .int value => decide (value.natAbs < Nat.pow 10 Numeral.digitLimit)
  | .float _ => true

namespace Numeral

/-! ## Parts of numerals -/

/-- Whether a character may stand around a numeral: the blanks, but not the four
separators of the ASCII controls. -/
def isMargin (c : Char) : Bool :=
  Unicode.isBlank c && !(decide (28 ≤ c.toNat) && decide (c.toNat ≤ 31))

/-- A text without the blanks around it. -/
def withoutMargins (text : String) : List Char :=
  ((text.toList.dropWhile isMargin).reverse.dropWhile isMargin).reverse

/-- A sign, and what stands behind it. -/
def splitSign : List Char → Bool × List Char
  | '-' :: rest => (true, rest)
  | '+' :: rest => (false, rest)
  | text => (false, text)

/-- The values of the digits at the start of a text, and the text behind them. An
underscore belongs to the digits where one stands on either side of it. -/
def splitDigits : List Char → List Nat × List Char
  | [] => ([], [])
  | c :: rest =>
    match Unicode.digit? c with
    | none => ([], c :: rest)
    | some value =>
      match rest with
      | '_' :: d :: more =>
        if (Unicode.digit? d).isSome then
          (value :: (splitDigits (d :: more)).1, (splitDigits (d :: more)).2)
        else ([value], rest)
      | rest => (value :: (splitDigits rest).1, (splitDigits rest).2)

/-- The number that decimal digits stand for. -/
def ofDigits (digits : List Nat) : Nat := digits.foldl (fun value digit => value * 10 + digit) 0

/-- A number with a sign. -/
def signed (negative : Bool) (size : Nat) : Int := if negative then -size else size

/-- The exponent that makes up a whole text; none at all counts as zero. -/
def exponent? : List Char → Option Int
  | [] => some 0
  | mark :: rest =>
    let (negative, rest) := splitSign rest
    let (digits, rest) := splitDigits rest
    if (mark = 'e' ∨ mark = 'E') ∧ digits ≠ [] ∧ rest = [] then
      some (signed negative (ofDigits digits))
    else none

/-- The digits behind a point, if one stands at the start, and the text behind them. -/
def splitPlaces : List Char → List Nat × List Char
  | '.' :: rest => splitDigits rest
  | text => ([], text)

/-- The double that a name without a sign stands for. -/
def named? (name : List Char) : Option Binary64 :=
  let name := String.ofList (name.map Char.toLower)
  if name = "inf" ∨ name = "infinity" then some (.infinite false)
  else if name = "nan" then some .nan
  else none

/-! ## Reading -/

/-- The whole number that a text stands for. -/
def whole (text : String) : Except NumeralError Int :=
  let (negative, rest) := splitSign (withoutMargins text)
  let (digits, rest) := splitDigits rest
  if digitLimit < digits.length ∧ rest.head? ≠ some '_' then .error (.tooManyDigits digits.length)
  else if digits.isEmpty || !rest.isEmpty then .error (.notWhole text)
  else .ok (signed negative (ofDigits digits))

/-- The double that an unsigned numeral stands for. -/
def unsigned? (negative : Bool) (text : List Char) : Option Binary64 :=
  let (whole, rest) := splitDigits text
  let (places, rest) := splitPlaces rest
  if whole.isEmpty && places.isEmpty then none
  else (exponent? rest).map fun exponent =>
    Binary64.ofDecimal negative (ofDigits (whole ++ places)) (exponent - places.length)

/-- The double that a text stands for. -/
def real (text : String) : Except NumeralError Binary64 :=
  let (negative, rest) := splitSign (withoutMargins text)
  match named? rest with
  | some value => .ok (if negative then -value else value)
  | none =>
    match unsigned? negative rest with
    | some value => .ok value
    | none => .error (.notNumber text)

end Numeral

end DesignLint
