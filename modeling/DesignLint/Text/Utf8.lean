import DesignLint.Text.Quoted

/-!
# UTF-8

Bytes are decoded strictly: every character has its shortest form, surrogates
and values beyond the last character have none. The first place where decoding
fails is reported, and so is the first place where a text cannot be encoded.
-/

namespace DesignLint

/-- Why bytes are not a text. -/
inductive Utf8Fault where
  | startByte | continuationByte | endOfData
deriving DecidableEq, Repr

/-- Where decoding fails: the first byte of the broken character, its value, the
number of bytes read of it, and what is wrong. -/
structure Utf8Error where
  position : Nat
  byte : UInt8
  length : Nat
  fault : Utf8Fault
deriving DecidableEq, Repr

/-- The words for a fault. -/
def Utf8Fault.text : Utf8Fault → String
  | startByte => "invalid start byte"
  | continuationByte => "invalid continuation byte"
  | endOfData => "unexpected end of data"

/-- The message of an error. -/
def Utf8Error.message (error : Utf8Error) : String :=
  "'utf-8' codec can't decode "
    ++ (if error.length = 1 then
        "byte 0x" ++ hexDigits 2 error.byte.toNat ++ " in position " ++ toString error.position
      else
        "bytes in position " ++ toString error.position ++ "-"
          ++ toString (error.position + error.length - 1))
    ++ ": " ++ error.fault.text

namespace Utf8

/-- The number of bytes behind a first byte, and the range of the second one; none
if no character begins so. -/
def expected? (first : UInt8) : Option (Nat × UInt8 × UInt8) :=
  if first < 0x80 then some (0, 0x80, 0xBF)
  else if first < 0xC2 then none
  else if first < 0xE0 then some (1, 0x80, 0xBF)
  else if first = 0xE0 then some (2, 0xA0, 0xBF)
  else if first = 0xED then some (2, 0x80, 0x9F)
  else if first < 0xF0 then some (2, 0x80, 0xBF)
  else if first = 0xF0 then some (3, 0x90, 0xBF)
  else if first < 0xF4 then some (3, 0x80, 0xBF)
  else if first = 0xF4 then some (3, 0x80, 0x8F)
  else none

/-- The bits of a first byte that belong to the character. -/
def leadBits (first : UInt8) (more : Nat) : Nat :=
  match more with
  | 0 => first.toNat
  | 1 => first.toNat % 32
  | 2 => first.toNat % 16
  | _ => first.toNat % 8

/-- The value and rest after some continuation bytes, or the number of bytes that
were read before a fault. -/
def continuation (low high : UInt8) : Nat → Nat → Nat → List UInt8 →
    Except (Nat × Utf8Fault) (Nat × List UInt8)
  | 0, _, value, bytes => .ok (value, bytes)
  | _ + 1, seen, _, [] => .error (seen, .endOfData)
  | more + 1, seen, value, byte :: bytes =>
    if low ≤ byte ∧ byte ≤ high then
      continuation 0x80 0xBF more (seen + 1) (value * 64 + byte.toNat % 64) bytes
    else .error (seen, .continuationByte)

/-- The first character of some bytes that begin with `first`, and the rest. -/
def character (position : Nat) (first : UInt8) (bytes : List UInt8) :
    Except Utf8Error (Char × List UInt8) :=
  match expected? first with
  | none => .error ⟨position, first, 1, .startByte⟩
  | some (more, low, high) =>
    match continuation low high more 1 (leadBits first more) bytes with
    | .ok (value, rest) => .ok (Char.ofNat value, rest)
    | .error (length, fault) => .error ⟨position, first, length, fault⟩

/-- The characters of some bytes. The first argument bounds their number. -/
def characters : Nat → Nat → List UInt8 → Except Utf8Error (List Char)
  | _, _, [] => .ok []
  | 0, _, _ :: _ => .ok []
  | fuel + 1, position, first :: bytes => do
    let (c, rest) ← character position first bytes
    return c :: (← characters fuel (position + c.utf8Size) rest)

/-- The text that some bytes stand for. -/
def decode (bytes : List UInt8) : Except Utf8Error String :=
  (characters bytes.length 0 bytes).map String.ofList

/-- The characters of some bytes, with a replacement character for each broken one. The
first argument bounds their number. -/
def repairedCharacters : Nat → List UInt8 → List Char
  | _, [] => []
  | 0, _ :: _ => []
  | fuel + 1, first :: bytes =>
    match character 0 first bytes with
    | .ok (c, rest) => c :: repairedCharacters fuel rest
    | .error error => '\ufffd' :: repairedCharacters fuel (bytes.drop (error.length - 1))

/-- The text that some bytes stand for, with a replacement character for each broken
one. -/
def repaired (bytes : List UInt8) : String :=
  String.ofList (repairedCharacters bytes.length bytes)

end Utf8

/-! ## Texts without bytes -/

/-- Why a text has no bytes: the lone surrogates that come first in it, by their place,
the code point of the first one, and their number. -/
structure EncodingError where
  position : Nat
  point : Nat
  length : Nat
deriving DecidableEq, Repr

/-- The message of an error. -/
def EncodingError.message (error : EncodingError) : String :=
  "'utf-8' codec can't encode "
    ++ (if error.length = 1 then
        "character '" ++ String.ofList (Quoted.escapeCode error.point) ++ "' in position "
          ++ toString error.position
      else
        "characters in position " ++ toString error.position ++ "-"
          ++ toString (error.position + error.length - 1))
    ++ ": surrogates not allowed"

/-- The error of encoding a text that has surrogates of a refused kind. Any other ones
right behind the first count with it. -/
def Utf8.refusal? (isRefused : Char → Bool) (text : String) : Option EncodingError :=
  let before := text.toList.takeWhile fun c => !isRefused c
  match text.toList.drop before.length with
  | [] => none
  | c :: rest =>
    some ⟨before.length, Surrogate.shownPoint c, (rest.takeWhile Surrogate.isStandIn).length + 1⟩

/-- The error of encoding a text, if it has lone surrogates. -/
def Utf8.encodingError? (text : String) : Option EncodingError :=
  Utf8.refusal? Surrogate.isStandIn text

end DesignLint
