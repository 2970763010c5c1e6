/-!
# Lone surrogates

A document may write a character as two code units, the surrogates of a pair. Half of
a pair is no character, so a text cannot hold it. In its place stands a character of
the last private plane, from which the half can be told again. In the order of texts
it comes after the characters of all other planes, while a half comes before U+E000.
-/

namespace DesignLint.Surrogate

/-- Whether a code unit is the first half of a pair. -/
def isHigh (unit : Nat) : Bool := decide (0xD800 ≤ unit) && decide (unit < 0xDC00)

/-- Whether a code unit is the second half of a pair. -/
def isLow (unit : Nat) : Bool := decide (0xDC00 ≤ unit) && decide (unit < 0xE000)

/-- The character of a pair. -/
def pair (high low : Nat) : Char :=
  Char.ofNat (0x10000 + (high - 0xD800) * 0x400 + (low - 0xDC00))

/-- How far a surrogate is from the character that stands in for it. -/
def standInOffset : Nat := 0x100000

/-- The character of a code unit that stands alone. -/
def ofUnit (unit : Nat) : Char :=
  Char.ofNat (if isHigh unit || isLow unit then standInOffset + unit else unit)

/-- Whether a character stands in for a surrogate. -/
def isStandIn (c : Char) : Bool :=
  isHigh (c.toNat - standInOffset) || isLow (c.toNat - standInOffset)

/-- The code point that a character shows: that of the surrogate it stands in for, or its
own. -/
def shownPoint (c : Char) : Nat := if isStandIn c then c.toNat - standInOffset else c.toNat

/-- Whether a character stands in for a surrogate that names of files use for a single
byte. -/
def isByteStandIn (c : Char) : Bool :=
  isStandIn c && decide (0xDC80 ≤ shownPoint c) && decide (shownPoint c < 0xDD00)

end DesignLint.Surrogate
