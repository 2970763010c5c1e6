import DesignLint.Json.Basic
import DesignLint.Text.Surrogate

/-!
# Reading JSON

The reader accepts one document with blanks around it, and the words `NaN`,
`Infinity` and `-Infinity` as numbers. A number with a fraction or an exponent
is a double, any other a whole number, which may be refused for its length. Of
two entries with one key the later value stays, in the place of the earlier.
-/

namespace DesignLint.Json

/-- Why a text is no document. -/
inductive ReadError where
  | malformed
  | tooManyDigits (count : Nat)
deriving DecidableEq, Repr

namespace Reader

/-- What a step of the reader leaves: a value and the text behind it. -/
abbrev Step (α : Type) := Except ReadError (α × List Char)

/-- The step that finds something, or nothing that it can read. -/
def found {α : Type} : Option (α × List Char) → Step α
  | some step => .ok step
  | none => .error .malformed

/-- The text behind leading blanks. -/
def skipBlanks (text : List Char) : List Char :=
  text.dropWhile fun c => c = ' ' || c = '\t' || c = '\n' || c = '\r'

/-! ## Texts -/

/-- The value of a hexadecimal digit. -/
def hexDigit? (c : Char) : Option Nat :=
  if c.isDigit then some (c.toNat - 48)
  else if 'a' ≤ c ∧ c ≤ 'f' then some (c.toNat - 87)
  else if 'A' ≤ c ∧ c ≤ 'F' then some (c.toNat - 55)
  else none

/-- The number written by four hexadecimal digits. -/
def fourHex? : List Char → Option (Nat × List Char)
  | a :: b :: c :: d :: rest => do
    let a ← hexDigit? a
    let b ← hexDigit? b
    let c ← hexDigit? c
    let d ← hexDigit? d
    some (((a * 16 + b) * 16 + c) * 16 + d, rest)
  | _ => none

/-- The character written by `\u` escapes: two surrogates make one character, and a
character stands in for a lone one. -/
def unicodeEscape? (text : List Char) : Option (Char × List Char) := do
  let (unit, rest) ← fourHex? text
  let lone := (Surrogate.ofUnit unit, rest)
  match rest with
  | '\x5c' :: 'u' :: more =>
    match fourHex? more with
    | some (second, after) =>
      if Surrogate.isHigh unit && Surrogate.isLow second then
        some (Surrogate.pair unit second, after)
      else some lone
    | none => some lone
  | _ => some lone

/-- The characters up to the closing quote, in reverse. -/
def stringFrom : Nat → List Char → List Char → Option (List Char × List Char)
  | 0, _, _ => none
  | fuel + 1, done, text =>
    match text with
    | [] => none
    | '\x22' :: rest => some (done, rest)
    | '\x5c' :: rest =>
      match rest with
      | '\x22' :: rest => stringFrom fuel ('\x22' :: done) rest
      | '\x5c' :: rest => stringFrom fuel ('\x5c' :: done) rest
      | '/' :: rest => stringFrom fuel ('/' :: done) rest
      | 'b' :: rest => stringFrom fuel ('\x08' :: done) rest
      | 'f' :: rest => stringFrom fuel ('\x0c' :: done) rest
      | 'n' :: rest => stringFrom fuel ('\n' :: done) rest
      | 'r' :: rest => stringFrom fuel ('\r' :: done) rest
      | 't' :: rest => stringFrom fuel ('\t' :: done) rest
      | 'u' :: rest =>
        match unicodeEscape? rest with
        | some (c, rest) => stringFrom fuel (c :: done) rest
        | none => none
      | _ => none
    | c :: rest => if c.toNat < 32 then none else stringFrom fuel (c :: done) rest

/-- A text after its opening quote. -/
def string (text : List Char) : Step String :=
  found <| (stringFrom (text.length + 1) [] text).map fun (reversed, rest) =>
    (String.ofList reversed.reverse, rest)

/-! ## Numbers -/

/-- The value of decimal digits. -/
def digitsValue (digits : List Char) : Nat :=
  digits.foldl (fun value digit => value * 10 + (digit.toNat - 48)) 0

/-- The digits at the start. A leading zero stands alone. -/
def wholePart (text : List Char) : List Char × List Char :=
  match text with
  | '0' :: rest => (['0'], rest)
  | other => (other.takeWhile Char.isDigit, other.dropWhile Char.isDigit)

/-- Digits behind a point, if a point and at least one digit stand there. -/
def fraction (text : List Char) : List Char × List Char :=
  match text with
  | '.' :: rest =>
    if (rest.takeWhile Char.isDigit).isEmpty then ([], text)
    else (rest.takeWhile Char.isDigit, rest.dropWhile Char.isDigit)
  | _ => ([], text)

/-- An exponent, if one stands there. -/
def exponent (text : List Char) : Option Int × List Char :=
  match text with
  | mark :: rest =>
    if mark = 'e' ∨ mark = 'E' then
      let (negative, digits) := match rest with
        | '-' :: more => (true, more)
        | '+' :: more => (false, more)
        | more => (false, more)
      let shown := digits.takeWhile Char.isDigit
      if shown.isEmpty then (none, text)
      else
        let size : Int := digitsValue shown
        (some (if negative then -size else size), digits.dropWhile Char.isDigit)
    else (none, text)
  | [] => (none, [])

/-- A number after its sign. Where there is a limit, a whole number has no more digits. -/
def number (limit : Option Nat) (negative : Bool) (text : List Char) : Step Number :=
  let (whole, rest) := wholePart text
  if whole.isEmpty then .error .malformed
  else
    let (places, rest) := fraction rest
    let (power, rest) := exponent rest
    if places.isEmpty && power.isNone then
      if limit.any fun limit => decide (limit < whole.length) then
        .error (.tooManyDigits whole.length)
      else
        let size : Int := digitsValue whole
        .ok (.int (if negative then -size else size), rest)
    else
      let digits := digitsValue (whole ++ places)
      .ok (.float (Binary64.ofDecimal negative digits (power.getD 0 - places.length)), rest)

/-- The document that a word stands for, and the text behind the word, which must stand
next. -/
def word (name : String) (document : Json) (text : List Char) : Step Json :=
  if name.toList.isPrefixOf text then .ok (document, text.drop name.length)
  else .error .malformed

/-! ## Documents -/

mutual

/-- A value at the start of the text. -/
def value (limit : Option Nat) : Nat → List Char → Step Json
  | 0, _ => .error .malformed
  | fuel + 1, text =>
    match text with
    | '\x22' :: rest => (string rest).map fun (value, rest) => (.string value, rest)
    | '\x7b' :: rest =>
      match skipBlanks rest with
      | '\x7d' :: rest => .ok (.object [], rest)
      | rest => entries limit fuel [] rest
    | '[' :: rest =>
      match skipBlanks rest with
      | ']' :: rest => .ok (.array [], rest)
      | rest => items limit fuel [] rest
    | 'n' :: _ => word "null" .null text
    | 't' :: _ => word "true" (.bool true) text
    | 'f' :: _ => word "false" (.bool false) text
    | 'N' :: _ => word "NaN" (.number (.float .nan)) text
    | 'I' :: _ => word "Infinity" (.number (.float (.infinite false))) text
    | '-' :: 'I' :: _ => word "-Infinity" (.number (.float (.infinite true))) text
    | '-' :: rest => (number limit true rest).map fun (value, rest) => (.number value, rest)
    | _ => (number limit false text).map fun (value, rest) => (.number value, rest)

/-- The items of an array after those already read, which are in reverse. -/
def items (limit : Option Nat) : Nat → List Json → List Char → Step Json
  | 0, _, _ => .error .malformed
  | fuel + 1, done, text =>
    match value limit fuel (skipBlanks text) with
    | .error error => .error error
    | .ok (item, rest) =>
      match skipBlanks rest with
      | ',' :: rest => items limit fuel (item :: done) rest
      | ']' :: rest => .ok (.array (item :: done).reverse, rest)
      | _ => .error .malformed

/-- The entries of an object after those already read. -/
def entries (limit : Option Nat) : Nat → JsonObject → List Char → Step Json
  | 0, _, _ => .error .malformed
  | fuel + 1, done, text =>
    match skipBlanks text with
    | '\x22' :: rest =>
      match string rest with
      | .error error => .error error
      | .ok (key, rest) =>
        match skipBlanks rest with
        | ':' :: rest =>
          match value limit fuel (skipBlanks rest) with
          | .error error => .error error
          | .ok (value, rest) =>
            match skipBlanks rest with
            | ',' :: rest => entries limit fuel (done.set key value) rest
            | '\x7d' :: rest => .ok (.object (done.set key value), rest)
            | _ => .error .malformed
        | _ => .error .malformed
    | _ => .error .malformed

end

end Reader

/-- The document that a text writes, or why it writes none. Where there is a limit, whole
numbers have no more digits. -/
def read (limit : Option Nat) (text : String) : Except ReadError Json := do
  let characters := text.toList
  let (document, rest) ←
    Reader.value limit (characters.length + 1) (Reader.skipBlanks characters)
  if (Reader.skipBlanks rest).isEmpty then .ok document else .error .malformed

/-- The document a text writes, if it writes exactly one. -/
def read? (text : String) : Option Json := (read none text).toOption

end DesignLint.Json
