import DesignLint.Text.Search

/-!
# Sets of code points

A character property is a list of ranges. Tables are written as text, one
hexadecimal range after another, so that a property of several hundred ranges
stays readable; `CodePointSet.ofText` reads them.
-/

namespace DesignLint

/-- The code points `first`, `first + step`, … up to `last`, moved by `offset`
where the table is a mapping. -/
structure CodePointRange where
  first : Nat
  last : Nat
  step : Nat
  offset : Int
deriving Repr

namespace CodePointRange

/-- Whether the range holds the code point. -/
def holds (range : CodePointRange) (point : Nat) : Bool :=
  decide (range.first ≤ point) && decide (point ≤ range.last)
    && (point - range.first) % range.step == 0

end CodePointRange

/-- A set of code points, or a mapping that moves them. -/
abbrev CodePointSet := List CodePointRange

namespace CodePointSet

/-- The value of a hexadecimal numeral with capital letters. -/
def readHex (numeral : List Char) : Nat :=
  numeral.foldl (fun value digit =>
    value * 16 + (if digit.isDigit then digit.toNat - 48 else digit.toNat - 55)) 0

/-- One range: `FIRST`, `FIRST-LAST`, either with `/STEP` and then `+OFFSET` or
`~OFFSET` for a move upwards or downwards. -/
def readRange (entry : List Char) : CodePointRange :=
  let isHex (c : Char) : Bool := c.isDigit || (decide ('A' ≤ c) && decide (c ≤ 'F'))
  let number (mark : Char) (default : Nat) (text : List Char) : Nat × List Char :=
    match text with
    | c :: rest =>
      if c = mark then (readHex (rest.takeWhile isHex), rest.dropWhile isHex) else (default, text)
    | [] => (default, [])
  let first := readHex (entry.takeWhile isHex)
  let (last, text) := number '-' first (entry.dropWhile isHex)
  let (step, text) := number '/' 1 text
  let (up, text) := number '+' 0 text
  let (down, _) := number '~' 0 text
  ⟨first, last, step, Int.ofNat up - Int.ofNat down⟩

/-- The set written by lines of ranges separated by blanks. -/
def ofText (lines : List String) : CodePointSet :=
  lines.flatMap fun line => (pieces ' ' line.toList).map readRange

/-- Membership of a character. -/
def holds (set : CodePointSet) (c : Char) : Bool :=
  set.any fun range => range.holds c.toNat

/-- The image of a character under a mapping; characters outside stay. -/
def apply (set : CodePointSet) (c : Char) : Char :=
  match set.find? fun range => range.holds c.toNat with
  | some range => Char.ofNat (Int.ofNat c.toNat + range.offset).toNat
  | none => c

end CodePointSet

end DesignLint
