import DesignLint.Files.Path
import DesignLint.Report.Canonical

/-!
# Values and their canonical documents

Values that a program holds are richer than documents: sets, paths, records and
members of enumerations, and mappings with any keys. Each has one document; a
set becomes the sorted list of its elements, if they can be compared.
-/

namespace DesignLint

/-- A value. Mappings hold their entries in the order of insertion; sets hold their
elements in any order. -/
inductive Value where
  | null
  | bool (value : Bool)
  | number (value : Number)
  | complex (real imaginary : Binary64)
  | text (value : String)
  | bytes (value : List UInt8)
  | list (items : List Value)
  | set (items : List Value)
  | mapping (entries : List (Value × Value))
  | range (first last : Int)
  | path (path : FilePath)
  | member (type name value : String)
  | record (type : String) (fields : List (String × Value))
  | other (text : String)

namespace Value

instance : Inhabited Value := ⟨.null⟩

/-! ## Values as keys -/

mutual

/-- How a value reads inside another one. -/
def shown : Value → String
  | null => "None"
  | bool true => "True"
  | bool false => "False"
  | number value => value.text
  | complex real imaginary => Binary64.complexText real imaginary
  | text value => quoted value
  | bytes value => quotedBytes value
  | list [item] => "(" ++ shown item ++ ",)"
  | list items => "(" ++ ", ".intercalate (shownItems items) ++ ")"
  | set [] => "frozenset()"
  | set items => "frozenset(\x7b" ++ ", ".intercalate (shownItems items) ++ "\x7d)"
  | mapping entries => "\x7b" ++ ", ".intercalate (shownEntries entries) ++ "\x7d"
  | range first last => "range(" ++ toString first ++ ", " ++ toString last ++ ")"
  | path place => "PosixPath(" ++ quoted place.text ++ ")"
  | member type name value => "<" ++ type ++ "." ++ name ++ ": " ++ quoted value ++ ">"
  | record type fields => type ++ "(" ++ ", ".intercalate (shownFields fields) ++ ")"
  | other words => words

/-- How several values read. -/
def shownItems : List Value → List String
  | [] => []
  | item :: items => shown item :: shownItems items

/-- How the entries of a mapping read. -/
def shownEntries : List (Value × Value) → List String
  | [] => []
  | (key, value) :: entries => (shown key ++ ": " ++ shown value) :: shownEntries entries

/-- How the fields of a record read. -/
def shownFields : List (String × Value) → List String
  | [] => []
  | (name, value) :: fields => (name ++ "=" ++ shown value) :: shownFields fields

end

/-- A value as the key of an object. -/
def keyText : Value → String
  | text value => value
  | path place => place.text
  | member type name _ => type ++ "." ++ name
  | value => value.shown

/-! ## Equality -/

/-- The number that a value is; truth values are zero and one. -/
def number? : Value → Option Number
  | bool value => some (if value then 1 else 0)
  | number value => some value
  | _ => none

/-- Whether a value is a number equal to the given one. -/
def equalsNumber (value : Value) (expected : Number) : Bool :=
  value.number?.any expected.same

/-- The text that a value is; members of enumerations are their values. -/
def text? : Value → Option String
  | text value => some value
  | member _ _ value => some value
  | _ => none

mutual

/-- Equality of values: numbers by value, lists and records part by part. -/
def same : Value → Value → Bool
  | null, null => true
  | list items, list others => sameItems items others
  | set items, set others => items.length == others.length && includedIn others items
  | complex a b, complex c d => (Number.float a).same (.float c) && (Number.float b).same (.float d)
  | bytes a, bytes b => a == b
  | range a b, range c d => a == c && b == d
  | path a, path b => decide (a = b)
  | record type fields, record name others => type == name && sameFields fields others
  | other a, other b => a == b
  | bool value, second => second.equalsNumber (if value then 1 else 0)
  | number value, second => second.equalsNumber value
  | text value, second => second.text? == some value
  | member _ _ value, second => second.text? == some value
  | _, _ => false

/-- Equality of lists of values. -/
def sameItems : List Value → List Value → Bool
  | [], [] => true
  | a :: as, b :: bs => same a b && sameItems as bs
  | _, _ => false

/-- Whether every value equals one of the given ones. -/
def includedIn (others : List Value) : List Value → Bool
  | [] => true
  | item :: items => others.any (same item) && includedIn others items

/-- Equality of lists of fields. -/
def sameFields : List (String × Value) → List (String × Value) → Bool
  | [], [] => true
  | (name, a) :: as, (second, b) :: bs => name == second && same a b && sameFields as bs
  | _, _ => false

end

/-- The first of each group of equal values. -/
def distinct : List Value → List Value
  | [] => []
  | item :: items => item :: (distinct items).filter fun later => !item.same later

/-- The entries with one more: an equal key keeps its place and gets the value. -/
def insertEntry (entries : List (Value × Value)) (key value : Value) : List (Value × Value) :=
  if entries.any fun entry => entry.1.same key then
    entries.map fun entry => if entry.1.same key then (entry.1, value) else entry
  else entries ++ [(key, value)]

/-- The mapping with some entries, in order. -/
def ofPairs (pairs : List (Value × Value)) : Value :=
  .mapping (pairs.foldl (fun entries pair => insertEntry entries pair.1 pair.2) [])

end Value

/-! ## The order of documents -/

namespace Json

/-- The number that a document is; truth values are zero and one. -/
def comparable? : Json → Option Number
  | .bool value => some (if value then 1 else 0)
  | .number value => some value
  | _ => none

/-- The order of two numbers. -/
def orderNumbers (a b : Number) : Ordering := if a.lt b then .lt else if b.lt a then .gt else .eq

/-- The order of two texts. -/
def orderTexts (a b : String) : Ordering := if a < b then .lt else if b < a then .gt else .eq

mutual

/-- The order of two documents, where there is one: numbers by value, texts by
their characters, arrays by their first difference. -/
def order? : Json → Json → Option Ordering
  | .null, .null => some .eq
  | .string a, .string b => some (orderTexts a b)
  | .array a, .array b => orderItems? a b
  | .object a, .object b => if sameEntries a b then some .eq else none
  | .bool a, second => second.comparable?.map (orderNumbers (if a then 1 else 0))
  | .number a, second => second.comparable?.map (orderNumbers a)
  | _, _ => none

/-- The order of two lists of documents. -/
def orderItems? : List Json → List Json → Option Ordering
  | [], [] => some .eq
  | [], _ :: _ => some .lt
  | _ :: _, [] => some .gt
  | a :: as, b :: bs =>
    match order? a b with
    | some .eq => orderItems? as bs
    | result => result

end

/-- Whether any two documents of a list have an order. -/
def allComparable : List Json → Bool
  | [] => true
  | item :: items => items.all (fun other => (order? item other).isSome) && allComparable items

/-- The documents of a list in increasing order, if any two have one. -/
def increasing? (items : List Json) : Option (List Json) :=
  if allComparable items then
    some (items.mergeSort fun a b => order? a b != some .gt)
  else none

end Json

/-! ## Values as documents -/

namespace Value

mutual

/-- The document of a value. There is none when a set has elements that cannot be
compared. -/
def toJson? (places : Option Nat) : Value → Option Json
  | null => some .null
  | bool value => some (.bool value)
  | number value => some (canonicalNumber places value)
  | text value => some (.string value)
  | list items => (documents? places items).map .array
  | set items => do
    some (.array (← Json.increasing? (← documents? places items)))
  | mapping entries => (entriesFrom? places [] entries).map .object
  | path place => some (.string place.text)
  | complex real imaginary => some (.string (Binary64.complexText real imaginary))
  | bytes value => some (.string (quotedBytes value))
  | range first last => some (.string (shown (.range first last)))
  | member _ _ value => some (.string value)
  | record _ fields => (fieldsFrom? places [] fields).map .object
  | other words => some (.string words)

/-- The documents of several values. -/
def documents? (places : Option Nat) : List Value → Option (List Json)
  | [] => some []
  | item :: items => do
    let document ← toJson? places item
    some (document :: (← documents? places items))

/-- The entries of a mapping behind some others. Of two keys with one text the later
one counts. -/
def entriesFrom? (places : Option Nat) (before : JsonObject) :
    List (Value × Value) → Option JsonObject
  | [] => some before
  | (key, value) :: entries => do
    let document ← toJson? places value
    entriesFrom? places (before.set key.keyText document) entries

/-- The fields of a record behind some others. -/
def fieldsFrom? (places : Option Nat) (before : JsonObject) :
    List (String × Value) → Option JsonObject
  | [] => some before
  | (name, value) :: fields => do
    let document ← toJson? places value
    fieldsFrom? places (before.set name document) fields

end

/-- The canonical text of a value. There is none when it has no document, or one with a number
that has too many digits to be written. -/
def canonicalText? (value : Value) (reproducible : Bool) (indent : Option Nat) : Option String :=
  ((value.toJson? (keptPlaces reproducible)).filter Json.isWritable).map fun document =>
    document.sortedText indent ++ "\n"

end Value

end DesignLint
