import DesignLint.Json.Basic

/-!
# Writing JSON

A document is written on one line, or with one item per line and a fixed
indentation. Texts keep every character but the double quote, the backslash
and the control characters. Doubles have their shortest text.
-/

namespace DesignLint.Json

/-! ## Texts and numbers -/

/-- One character of a text between double quotes. -/
def escapeChar (c : Char) : List Char :=
  if c = Quoted.doubleQuote then [Quoted.backslash, c]
  else if c = Quoted.backslash then [Quoted.backslash, c]
  else if c = '\n' then [Quoted.backslash, 'n']
  else if c = '\r' then [Quoted.backslash, 'r']
  else if c = '\t' then [Quoted.backslash, 't']
  else if c = '\x08' then [Quoted.backslash, 'b']
  else if c = '\x0c' then [Quoted.backslash, 'f']
  else if c.toNat < 32 then Quoted.backslash :: 'u' :: (hexDigits 4 c.toNat).toList
  else [c]

/-- A text as a JSON string. -/
def stringText (value : String) : String :=
  String.ofList (Quoted.doubleQuote :: value.toList.flatMap escapeChar ++ [Quoted.doubleQuote])

/-- A number as JSON, with the usual words for the values JSON has no form
for. -/
def numberText : Number → String
  | .float (.infinite false) => "Infinity"
  | .float (.infinite true) => "-Infinity"
  | .float .nan => "NaN"
  | value => value.text

/-! ## Documents -/

/-- The line end and indentation at a depth; nothing on one line. -/
def lineBreak (indent : Option Nat) (depth : Nat) : String :=
  match indent with
  | none => ""
  | some width => "\n" ++ String.ofList (List.replicate (width * depth) ' ')

/-- Items between brackets. The separator is followed by a blank on one line and
by a line end otherwise. -/
def bracketed (indent : Option Nat) (depth : Nat) (first last : String) (items : List String) :
    String :=
  if items.isEmpty then first ++ last
  else
    let separator := if indent.isNone then ", " else "," ++ lineBreak indent (depth + 1)
    first ++ lineBreak indent (depth + 1) ++ separator.intercalate items
      ++ lineBreak indent depth ++ last

mutual

/-- The document with its entries in the order they have. -/
def render (indent : Option Nat) (depth : Nat) : Json → String
  | .null => "null"
  | .bool true => "true"
  | .bool false => "false"
  | .number value => numberText value
  | .string value => stringText value
  | .array items => bracketed indent depth "[" "]" (renderItems indent (depth + 1) items)
  | .object entries =>
    bracketed indent depth "\x7b" "\x7d" (renderEntries indent (depth + 1) entries)

/-- The items of an array. -/
def renderItems (indent : Option Nat) (depth : Nat) : List Json → List String
  | [] => []
  | item :: items => render indent depth item :: renderItems indent depth items

/-- The entries of an object. -/
def renderEntries (indent : Option Nat) (depth : Nat) : List (String × Json) → List String
  | [] => []
  | (key, value) :: entries =>
    (stringText key ++ ": " ++ render indent depth value) :: renderEntries indent depth entries

end

mutual

/-- The document without any blanks between its parts, if all its numbers are finite. -/
def tight? : Json → Option String
  | .number value => if value.isFinite then some (numberText value) else none
  | .array items => (tightItems? items).map fun parts => "[" ++ ",".intercalate parts ++ "]"
  | .object entries =>
    (tightEntries? entries).map fun parts => "\x7b" ++ ",".intercalate parts ++ "\x7d"
  | value => some (render none 0 value)

/-- The items of an array without blanks. -/
def tightItems? : List Json → Option (List String)
  | [] => some []
  | item :: items => do return (← tight? item) :: (← tightItems? items)

/-- The entries of an object without blanks. -/
def tightEntries? : List (String × Json) → Option (List String)
  | [] => some []
  | (key, value) :: entries => do
    return (stringText key ++ ":" ++ (← tight? value)) :: (← tightEntries? entries)

end

mutual

/-- The document with the entries of every object in increasing order of their
keys. -/
def sortedDeep : Json → Json
  | .array items => .array (sortedItems items)
  | .object entries => .object (JsonObject.sorted (sortedEntries entries))
  | value => value

/-- Every item with sorted entries. -/
def sortedItems : List Json → List Json
  | [] => []
  | item :: items => sortedDeep item :: sortedItems items

/-- Every entry's value with sorted entries. -/
def sortedEntries : List (String × Json) → List (String × Json)
  | [] => []
  | (key, value) :: entries => (key, sortedDeep value) :: sortedEntries entries

end

/-- The document on one line. -/
def compact (document : Json) : String := render none 0 document

/-- The document with sorted keys. -/
def sortedText (indent : Option Nat) (document : Json) : String :=
  render indent 0 (sortedDeep document)

end DesignLint.Json
