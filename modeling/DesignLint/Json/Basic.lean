import DesignLint.Number.Numeral
import DesignLint.Text.Search

/-!
# JSON values

Documents keep the order in which an object's entries were written, and each
key once. Whole numbers and doubles are told apart. The files of a configuration
have mappings with keys that are no texts, for which JSON has no form.
-/

namespace DesignLint

/-- A JSON document. -/
inductive Json where
  | null
  | bool (value : Bool)
  | number (value : Number)
  | string (value : String)
  | array (items : List Json)
  | object (entries : List (String × Json))

/-- The entries of an object. -/
abbrev JsonObject := List (String × Json)

namespace Json

instance : Inhabited Json := ⟨.null⟩

/-- The whole number. -/
def int (value : Int) : Json := .number (.int value)

/-- The natural number. -/
def nat (value : Nat) : Json := .number (.int value)

/-- The array of texts. -/
def strings (values : List String) : Json := .array (values.map .string)

/-- The text, or null. -/
def optionalString : Option String → Json
  | none => .null
  | some value => .string value

/-- The text that a document is. -/
def text? : Json → Option String
  | .string value => some value
  | _ => none

/-- The name of the kind of a value. -/
def kindName : Json → String
  | .null => "NoneType"
  | .bool _ => "bool"
  | .number (.int _) => "int"
  | .number (.float _) => "float"
  | .string _ => "str"
  | .array _ => "list"
  | .object _ => "dict"

/-- Whether a value counts as true: it is not null, false, zero or empty. -/
def isTruthy : Json → Bool
  | .null => false
  | .bool value => value
  | .number value => !value.same 0
  | .string value => !value.isEmpty
  | .array items => !items.isEmpty
  | .object entries => !entries.isEmpty

/-- The value under a key of an object. -/
def field? (name : String) : Json → Option Json
  | .object entries => entries.lookup name
  | _ => none

/-! ## Structural equality -/

mutual

/-- Equality of documents, the order of entries included. -/
def same : Json → Json → Bool
  | .null, .null => true
  | .bool a, .bool b => a == b
  | .number a, .number b => decide (a = b)
  | .string a, .string b => a == b
  | .array a, .array b => sameItems a b
  | .object a, .object b => sameEntries a b
  | _, _ => false

/-- Equality of lists of documents. -/
def sameItems : List Json → List Json → Bool
  | [], [] => true
  | a :: as, b :: bs => same a b && sameItems as bs
  | _, _ => false

/-- Equality of lists of entries. -/
def sameEntries : List (String × Json) → List (String × Json) → Bool
  | [], [] => true
  | (k, a) :: as, (l, b) :: bs => k == l && same a b && sameEntries as bs
  | _, _ => false

end

end Json

/-! ## Keys that are no texts

An object has texts as keys. A key of another kind has a name among them, which begins with a
mark that no decoded text has: the two halves of a pair of surrogates, which a decoder makes
one character. Behind it stand the kind of the key and its two texts, line by line. -/

/-- A key that is no text, such as a number or a date, with the text that it stands for and the
text that shows it. Keys of one kind have an order. -/
structure ForeignKey where
  kind : String
  text : String
  shown : String
deriving DecidableEq, Repr

namespace ForeignKey

/-- What the name of a key begins with that is no text. -/
def keyMark : List Char := [Surrogate.ofUnit 0xD800, Surrogate.ofUnit 0xDC00]

/-- The kind of the keys that are compared as numbers. -/
def numberKind : String := "number"

/-- The name of a key that is no text. -/
def keyName (key : ForeignKey) : String :=
  String.ofList (keyMark ++ key.kind.toList ++ '\n' :: key.text.toList ++ '\n' :: key.shown.toList)

/-- The key that a name stands for, if it is no text. -/
def ofKeyName? (name : String) : Option ForeignKey :=
  if keyMark.isPrefixOf name.toList then
    let (kind, rest) := splitAtFirst '\n' (String.ofList (name.toList.drop keyMark.length))
    let (text, shown) := splitAtFirst '\n' (rest.getD "")
    some ⟨kind, text, shown.getD ""⟩
  else none

/-- The number that a key is; truth values are zero and one. -/
def number? (key : ForeignKey) : Option Number :=
  if key.kind = numberKind then
    if key.text = "True" then some 1
    else if key.text = "False" then some 0
    else match Numeral.whole key.text with
      | .ok value => some (.int value)
      | .error _ => (Numeral.real key.text).toOption.map .float
  else none

/-- Whether a key can be written. -/
def isWritable (key : ForeignKey) : Bool :=
  !(decide (key.kind = numberKind) && match Numeral.whole key.text with
    | .error (.tooManyDigits _) => true
    | _ => false)

end ForeignKey

namespace JsonObject

/-- The text of a key. -/
def keyText (name : String) : String :=
  match ForeignKey.ofKeyName? name with
  | some key => key.text
  | none => name

/-- How a message shows a key. -/
def keyShown (name : String) : String :=
  match ForeignKey.ofKeyName? name with
  | some key => key.shown
  | none => quoted name

/-- Whether a key can be written. -/
def isWritableKey (name : String) : Bool :=
  match ForeignKey.ofKeyName? name with
  | some key => key.isWritable
  | none => true

/-- The kind of a key. -/
def keyKind (name : String) : String :=
  match ForeignKey.ofKeyName? name with
  | some key => key.kind
  | none => "str"

/-- The order of two keys of one kind: numbers by value, others by their texts. -/
def keyLe (a b : String) : Bool :=
  match (ForeignKey.ofKeyName? a).bind ForeignKey.number?,
      (ForeignKey.ofKeyName? b).bind ForeignKey.number? with
  | some x, some y => x.le y
  | _, _ => decide (keyText a ≤ keyText b)

/-- Whether keys can be put in order: they are of one kind. -/
def areOrdered (names : List String) : Bool :=
  names.all fun name => names.all fun other => keyKind name == keyKind other

end JsonObject

namespace Json

/-- The name of a value as a key. An object stands for a value that JSON has no form for, such as
a date, by its kind and its two texts. -/
def keyName : Json → String
  | .string value => value
  | .null => ForeignKey.keyName ⟨"NoneType", "None", "None"⟩
  | .bool value =>
    let text := if value then "True" else "False"
    ForeignKey.keyName ⟨ForeignKey.numberKind, text, text⟩
  | .number value => ForeignKey.keyName ⟨ForeignKey.numberKind, value.text, value.text⟩
  | .object [("$", .string kind), ("v", .array [.string text, .string shown])] =>
    ForeignKey.keyName ⟨kind, text, shown⟩
  | value => ForeignKey.keyName ⟨value.kindName, "", ""⟩

/-- The object with entries whose keys are any values. -/
def mapping (entries : List (Json × Json)) : Json :=
  .object (entries.map fun entry => (entry.1.keyName, entry.2))

/-! ## Values in messages -/

mutual

/-- How a message shows a value: texts in quotes, the constants `None`, `True`
and `False`, entries in their order. Only writable values are shown. -/
def shown : Json → String
  | .null => "None"
  | .bool true => "True"
  | .bool false => "False"
  | .number value => value.text
  | .string value => quoted value
  | .array items => "[" ++ ", ".intercalate (shownItems items) ++ "]"
  | .object entries => "\x7b" ++ ", ".intercalate (shownEntries entries) ++ "\x7d"

/-- The items of an array, each as a message shows it. -/
def shownItems : List Json → List String
  | [] => []
  | item :: items => shown item :: shownItems items

/-- The entries of an object, each as a message shows it. -/
def shownEntries : List (String × Json) → List String
  | [] => []
  | (key, value) :: entries =>
    (JsonObject.keyShown key ++ ": " ++ shown value) :: shownEntries entries

end

mutual

/-- Whether a value can be written: none of its numbers has too many digits. -/
def isWritable : Json → Bool
  | .number value => value.isWritable
  | .array items => areWritable items
  | .object entries => areWritableEntries entries
  | _ => true

/-- Whether all items of an array can be written. -/
def areWritable : List Json → Bool
  | [] => true
  | item :: items => isWritable item && areWritable items

/-- Whether all entries of an object can be written. -/
def areWritableEntries : List (String × Json) → Bool
  | [] => true
  | (key, value) :: entries =>
    JsonObject.isWritableKey key && isWritable value && areWritableEntries entries

end

end Json

/-! ## Entries as a mapping -/

namespace JsonObject

/-- Sets a key: in place if it is there, at the end otherwise. -/
def set (entries : JsonObject) (key : String) (value : Json) : JsonObject :=
  match entries with
  | [] => [(key, value)]
  | (name, old) :: rest =>
    if name = key then (key, value) :: rest else (name, old) :: set rest key value

/-- Sets all entries of the second object, in order. -/
def merge (entries more : JsonObject) : JsonObject :=
  more.foldl (fun merged entry => merged.set entry.1 entry.2) entries

/-- The entries in increasing order of their keys. -/
def sorted (entries : JsonObject) : JsonObject :=
  entries.mergeSort fun a b => decide (a.1 ≤ b.1)

/-- The entries in increasing order of the texts of their keys. -/
def sortedByText (entries : JsonObject) : JsonObject :=
  entries.mergeSort fun a b => decide (keyText a.1 ≤ keyText b.1)

end JsonObject

end DesignLint
