import DesignLint.Json.Basic
import DesignLint.Syntax.Decode
import DesignLint.Text.Utf8

/-!
# What is in a file

Source code and configurations are not read from the text of a file. What their
readers make of the text comes with the file as a document.
-/

namespace DesignLint

/-- What can be seen of a file: its size in bytes, its text unless the bytes are no
text, the module in it, and the configuration in it. -/
structure FileContent where
  size : Nat
  text : Except Utf8Error String
  source : Syntax.ParseResult
  settings : Option Json

/-! ## Descriptions of configurations

The document that describes a configuration is the configuration itself, but for what JSON has no
form for, or no reader for its digits: mappings with keys that are no texts, and very large
numbers. Each is an object with a kind and a content. Values that JSON has no form for, such as
dates, are left out but for keys; in a configuration they are refused like any other wrong
value. -/

/-- The natural number that bytes in hexadecimal digits stand for, the first one for most. -/
def hexadecimalNumber? (digits : String) : Option Nat :=
  (Syntax.Decode.bytes? digits.toList).map fun bytes =>
    bytes.foldl (fun value byte => value * 256 + byte.toNat) 0

/-- The pairs in a list of arrays. -/
def pairsIn (items : List Json) : List (Json × Json) :=
  items.filterMap fun
    | .array [key, value] => some (key, value)
    | _ => none

/-- The part of a configuration that an object with described parts stands for: a natural number
by its digits, a mapping by the pairs of its keys and values, and an object by itself. -/
def describedPart (entries : JsonObject) : Json :=
  match entries with
  | [("$", .string "int"), ("v", .string digits)] => .nat ((hexadecimalNumber? digits).getD 0)
  | [("$", .string "mapping"), ("v", .array pairs)] => .mapping (pairsIn pairs)
  | entries => .object entries

mutual

/-- The configuration that a document describes. -/
def describedSettings : Json → Json
  | .array items => .array (describedItems items)
  | .object entries => describedPart (describedEntries entries)
  | value => value

/-- The items that a list of documents describes. -/
def describedItems : List Json → List Json
  | [] => []
  | item :: items => describedSettings item :: describedItems items

/-- The entries with the values that documents describe. -/
def describedEntries : List (String × Json) → List (String × Json)
  | [] => []
  | (key, value) :: entries => (key, describedSettings value) :: describedEntries entries

end

namespace FileContent

/-- What a parser makes of a text when no document says so: an empty text is an empty
module, and a text with a zero character is refused. -/
def plainSource (text : Except Utf8Error String) : Syntax.ParseResult :=
  match text with
  | .ok text =>
    if text.isEmpty then .ok ⟨[]⟩
    else if text.toList.contains '\x00' then
      .error (.refused "source code string cannot contain null bytes")
    else .error (.refused "no document describes the source code")
  | .error error => .error (.refused error.message)

/-- The content of a file of some size and text, with the documents that describe its
source code and its configuration. An empty configuration is null. -/
def ofDocuments (size : Nat) (text : Except Utf8Error String) (source settings : Option Json) :
    FileContent where
  size := size
  text := text
  source := (source.bind Syntax.ParseResult.ofJson?).getD (plainSource text)
  settings := (settings.map describedSettings).or (if size = 0 then some .null else none)

end FileContent

end DesignLint
