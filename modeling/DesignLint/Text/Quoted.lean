import DesignLint.Text.Surrogate
import DesignLint.Text.Unicode

/-!
# Quoted text and bytes

A quoted text stands between two quote marks: the apostrophe, unless the text
has an apostrophe and no double quote. Backslashes, the mark in use and
characters that do not print are written as escapes; everything else stands
for itself.
-/

namespace DesignLint

/-- The value of `count` lower-case hexadecimal digits at least. -/
def hexDigits (count value : Nat) : String :=
  let digits := Nat.toDigits 16 value
  String.ofList (List.replicate (count - digits.length) '0' ++ digits)

namespace Quoted

/-- The apostrophe. -/
def apostrophe : Char := '\x27'

/-- The double quote. -/
def doubleQuote : Char := '\x22'

/-- The backslash. -/
def backslash : Char := '\x5c'

/-- The quote mark for characters: the apostrophe, unless only the double quote
avoids escapes. -/
def mark (text : List Char) : Char :=
  if text.contains apostrophe && !text.contains doubleQuote then doubleQuote else apostrophe

/-- The escape of a code point in hexadecimal. -/
def escapeCode (point : Nat) : List Char :=
  if point < 0x100 then backslash :: 'x' :: (hexDigits 2 point).toList
  else if point < 0x10000 then backslash :: 'u' :: (hexDigits 4 point).toList
  else backslash :: 'U' :: (hexDigits 8 point).toList

/-- One character between quote marks. -/
def escape (quote c : Char) : List Char :=
  if c = quote ∨ c = backslash then [backslash, c]
  else if c = '\n' then [backslash, 'n']
  else if c = '\r' then [backslash, 'r']
  else if c = '\t' then [backslash, 't']
  else if Unicode.isPrintable c then [c]
  else escapeCode (Surrogate.shownPoint c)

/-- A text whose lone surrogates are written as escapes. -/
def withSurrogates (text : String) : String :=
  String.ofList (text.toList.flatMap fun c =>
    if Surrogate.isStandIn c then escapeCode (Surrogate.shownPoint c) else [c])

end Quoted

/-- A text in quotes. -/
def quoted (text : String) : String :=
  let quote := Quoted.mark text.toList
  String.ofList (quote :: text.toList.flatMap (Quoted.escape quote) ++ [quote])

/-- Bytes in quotes, with the letter `b` in front. Bytes outside printable ASCII
are escaped. -/
def quotedBytes (bytes : List UInt8) : String :=
  let quote := Quoted.mark (bytes.map fun byte => Char.ofNat byte.toNat)
  let escapeByte (byte : UInt8) : List Char :=
    if byte < 0x80 then Quoted.escape quote (Char.ofNat byte.toNat)
    else Quoted.escapeCode byte.toNat
  String.ofList ('b' :: quote :: bytes.flatMap escapeByte ++ [quote])

end DesignLint
