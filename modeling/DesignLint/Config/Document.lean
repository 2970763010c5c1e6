import DesignLint.Schema.Validation

/-!
# Configuration documents

A configuration document may choose a preset, patterns for the files to scan, and
settings of rules. Whatever it leaves out is decided elsewhere.
-/

namespace DesignLint

/-- What a configuration document says. Empty fields say nothing. -/
structure ConfigDocument where
  preset : String
  included : List String
  excluded : List String
  rules : JsonObject

namespace ConfigDocument

/-- The document that says nothing. -/
def silent : ConfigDocument := ⟨"", [], [], []⟩

/-- The schema for texts in a list. -/
def textListSchema : Schema := .mk [.ofType [.array], .items (.mk [.ofType [.string]])]

/-- The schema for configuration documents. -/
def schema : Schema := .mk [
  .ofType [.object],
  .properties [
    ("extends", .mk [.ofType [.string]]),
    ("include", textListSchema),
    ("exclude", textListSchema),
    ("rules", .mk [.ofType [.object]])],
  .closed]

/-- The texts in a list. -/
def textsOf : Option Json → List String
  | some (.array items) => items.filterMap fun
    | .string text => some text
    | _ => none
  | _ => []

/-- The document that a value stands for, when the schema accepts it. -/
def ofEntries (entries : JsonObject) : ConfigDocument where
  preset := match entries.lookup "extends" with
    | some (.string name) => name
    | _ => ""
  included := textsOf (entries.lookup "include")
  excluded := textsOf (entries.lookup "exclude")
  rules := match entries.lookup "rules" with
    | some (.object rules) => rules
    | _ => []

/-- The document that a value stands for. Nothing at all says nothing. -/
def read (value : Json) : Except SchemaError ConfigDocument :=
  match value with
  | .null => .ok silent
  | value =>
    match schema.endingError value with
    | some error => .error error
    | none => .ok (ofEntries value.entries)

end ConfigDocument

end DesignLint
