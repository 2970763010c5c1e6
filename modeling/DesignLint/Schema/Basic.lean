import DesignLint.Json.Basic
import DesignLint.Text.Search

/-!
# Schemas

A schema is a list of constraints on a document and on its parts. The order of
the constraints is the order in which a check reports on them. References to
shared definitions hold the schema they stand for, so a schema is a finite
tree.
-/

namespace DesignLint

/-! ## Places in a document

The way from the root of a document to one of its parts is a list of steps:
the key of an entry or the number of an item. Messages write it with points and
brackets behind a dollar sign. -/

/-- One step into a document. -/
inductive PathStep where
  | key (name : String)
  | index (number : Nat)
deriving DecidableEq, Repr

/-- The way from the root of a document to a part. -/
abbrev DocumentPath := List PathStep

namespace PathStep

/-- A step without marks. -/
def text : PathStep → String
  | key name => name
  | index number => toString number

/-- Whether a key can follow a point: a letter, then letters, digits and
underscores. One line end may follow. -/
def isPlainKey (name : String) : Bool :=
  match withoutFinalLineEnd name.toList with
  | [] => false
  | first :: rest => first.isAlpha && rest.all fun c => c.isAlphanum || c == '_'

/-- A key between quote marks, with backslashes before backslashes and quote
marks. -/
def escapeKey (name : String) : String :=
  String.ofList (name.toList.flatMap fun c =>
    if c = Quoted.backslash ∨ c = Quoted.apostrophe then [Quoted.backslash, c] else [c])

/-- A step as a path in a message writes it. -/
def marked : PathStep → String
  | key name => if isPlainKey name then "." ++ name else "['" ++ escapeKey name ++ "']"
  | index number => "[" ++ toString number ++ "]"

/-- The order of steps into one document: keys by their characters, numbers by
their value. A document has only one kind of steps. -/
def before : PathStep → PathStep → Bool
  | key a, key b => decide (a < b)
  | index a, index b => decide (a < b)
  | key _, index _ => false
  | index _, key _ => true

end PathStep

namespace DocumentPath

/-- A path in a message. -/
def text (path : DocumentPath) : String :=
  "$" ++ String.join (path.map PathStep.marked)

/-- The lexicographic order of paths. -/
def before : DocumentPath → DocumentPath → Bool
  | [], [] => false
  | [], _ :: _ => true
  | _ :: _, [] => false
  | a :: as, b :: bs => if a = b then before as bs else a.before b

end DocumentPath

/-! ## Types of documents -/

/-- The types a schema can ask for. Every whole number is also a number, and a
double with an integral value is a whole number. -/
inductive JsonType where
  | string | integer | number | boolean | null | array | object
deriving DecidableEq, Repr

namespace JsonType

/-- The name of a type. -/
def label : JsonType → String
  | string => "string"
  | integer => "integer"
  | number => "number"
  | boolean => "boolean"
  | null => "null"
  | array => "array"
  | object => "object"

/-- Whether a document has the type. -/
def holds : Json → JsonType → Bool
  | .string _, string => true
  | .number value, integer => value.isWhole
  | .number _, number => true
  | .bool _, boolean => true
  | .null, null => true
  | .array _, array => true
  | .object _, object => true
  | _, _ => false

end JsonType

/-! ## Patterns -/

/-- The texts that begin with `lead` and go on with exactly `count` characters
from some ranges. One line end may follow. -/
structure TextPattern where
  lead : String
  ranges : List (Char × Char)
  count : Nat
deriving DecidableEq, Repr

namespace TextPattern

/-- A pattern in the notation of regular expressions. -/
def text (pattern : TextPattern) : String :=
  "^" ++ pattern.lead ++ "["
    ++ String.join (pattern.ranges.map fun (first, last) => String.ofList [first, '-', last])
    ++ "]\x7b" ++ toString pattern.count ++ "\x7d$"

/-- Whether a character lies in one of the ranges. -/
def allows (pattern : TextPattern) (c : Char) : Bool :=
  pattern.ranges.any fun (first, last) => decide (first ≤ c) && decide (c ≤ last)

/-- Whether a text matches. One line end may follow. -/
def accepts (pattern : TextPattern) (text : String) : Bool :=
  let text := withoutFinalLineEnd text.toList
  let lead := pattern.lead.toList
  let rest := text.drop lead.length
  text.take lead.length == lead && rest.length == pattern.count && rest.all pattern.allows

end TextPattern

/-! ## Constraints -/

mutual

/-- The constraints on one part of a document, in order. -/
inductive Schema where
  | mk (constraints : List Constraint)

/-- One constraint. Each one concerns documents of a certain kind and is silent on
all others. -/
inductive Constraint where
  | ofType (types : List JsonType)
  | required (names : List String)
  | closed
  | others (schema : Schema)
  | properties (entries : List (String × Schema))
  | items (schema : Schema)
  | minItems (count : Nat)
  | minLength (count : Nat)
  | minimum (bound : Nat)
  | maximum (bound : Nat)
  | exactly (text : String)
  | oneOf (texts : List String)
  | matching (pattern : TextPattern)
  | reference (name : String) (schema : Schema)
  | note (name : String) (value : Json)

end

namespace Schema

/-- The constraints of a schema. -/
def constraints : Schema → List Constraint
  | mk constraints => constraints

/-- The keys that constraints name. -/
def namedKeys : List Constraint → List String
  | [] => []
  | .properties entries :: rest => entries.map (·.1) ++ namedKeys rest
  | _ :: rest => namedKeys rest

end Schema

/-! ## Schemas as documents -/

mutual

/-- A schema as a document. -/
def Schema.toJson : Schema → Json
  | .mk constraints => .object (Constraint.toEntries constraints)

/-- Constraints as the entries of a document. -/
def Constraint.toEntries : List Constraint → JsonObject
  | [] => []
  | constraint :: rest => constraint.toEntry :: Constraint.toEntries rest

/-- A constraint as an entry of a document. -/
def Constraint.toEntry : Constraint → String × Json
  | .ofType [type] => ("type", .string type.label)
  | .ofType types => ("type", .strings (types.map JsonType.label))
  | .required names => ("required", .strings names)
  | .closed => ("additionalProperties", .bool false)
  | .others schema => ("additionalProperties", schema.toJson)
  | .properties entries => ("properties", .object (Schema.propertyEntries entries))
  | .items schema => ("items", schema.toJson)
  | .minItems count => ("minItems", .nat count)
  | .minLength count => ("minLength", .nat count)
  | .minimum bound => ("minimum", .nat bound)
  | .maximum bound => ("maximum", .nat bound)
  | .exactly text => ("const", .string text)
  | .oneOf texts => ("enum", .strings texts)
  | .matching pattern => ("pattern", .string pattern.text)
  | .reference name _ => ("$ref", .string ("#/definitions/" ++ name))
  | .note name value => (name, value)

/-- Named schemas as the entries of a document. -/
def Schema.propertyEntries : List (String × Schema) → JsonObject
  | [] => []
  | (name, schema) :: rest => (name, schema.toJson) :: Schema.propertyEntries rest

end

/-- Definitions that references name, for a document that writes them out. -/
def Constraint.definitions (entries : List (String × Schema)) : Constraint :=
  .note "definitions" (.object (Schema.propertyEntries entries))

end DesignLint
