import DesignLint.Files.Path
import DesignLint.Schema.RunResult

/-!
# Schemas by name

Schemas come with the program in a directory of their own, and a name is a path in
that directory. A document is checked against the version of its schema first: a
document of another version is reported as such, and nothing else is said about it.
Only the plain name of a schema asks for a version.
-/

namespace DesignLint

/-! ## The directory of schemas -/

/-- A schema that comes with the program, and the version that its documents have to have,
if they are asked for one. -/
structure BundledSchema where
  name : String
  version : Option String
  schema : Schema

/-- All schemas that come with the program. -/
def bundledSchemas : List BundledSchema :=
  [⟨RunResultSchema.name, some RunResultSchema.version, RunResultSchema.schema⟩]

/-- The names from the top of the program to the directory of the schemas. -/
def schemaDirectory : List String := ["data", "schemas"]

/-- The schema at a place below the top of the program. -/
def schemaAt? (place : List String) : Option BundledSchema :=
  bundledSchemas.find? fun bundled => schemaDirectory ++ [bundled.name] == place

/-- One step of a path among the directories above the schemas, which ends at a schema. -/
def schemaStep? (place : List String) (name : String) : Option (List String) :=
  let next := FilePath.step place name
  if !place.isPrefixOf schemaDirectory || next == place then none
  else if next.isPrefixOf schemaDirectory || (schemaAt? next).isSome then some next
  else none

/-- The schema that a path leads to from the directory of the schemas. -/
def schemaByPath? (path : FilePath) : Option BundledSchema :=
  if path.slashes ≠ 0 then none
  else (path.parts.foldlM schemaStep? schemaDirectory).bind schemaAt?

/-- The schema with a name. -/
def bundledSchema? (name : String) : Option BundledSchema :=
  (bundledSchemas.find? fun bundled => bundled.name == name).or
    ((schemaByPath? (.ofText name)).map fun bundled => { bundled with version := none })

/-- What is said about a name that no schema has. -/
def unknownSchemaMessage (name : String) : String :=
  "unknown schema " ++ quoted name ++ " (available: "
    ++ ", ".intercalate (bundledSchemas.map (·.name)) ++ ")"

/-! ## Checking documents -/

namespace BundledSchema

/-- The violation by an object of another version. -/
def versionError? (bundled : BundledSchema) (document : Json) : Option SchemaError :=
  match bundled.version, document with
  | some version, .object entries =>
    let found := (entries.lookup "schema_version").getD .null
    if found.same (.string version) then none
    else some ⟨[], found, .wrongVersion version⟩
  | _, _ => none

/-- The violation that speaks for a document. -/
def firstError? (bundled : BundledSchema) (document : Json) : Option SchemaError :=
  match bundled.versionError? document with
  | some error => some error
  | none => bundled.schema.firstError document

/-- Whether a violation may be listed before another one: the steps of their paths
are compared as texts. -/
def listedBefore (a b : SchemaError) : Bool :=
  !DocumentPath.before (b.path.map fun step => .key step.text)
    (a.path.map fun step => .key step.text)

/-- All violations in the order of their paths. -/
def errors (bundled : BundledSchema) (document : Json) : List SchemaError :=
  match bundled.versionError? document with
  | some error => [{ error with path := [.key "schema_version"] }]
  | none => (bundled.schema.errors document).mergeSort listedBefore

end BundledSchema

end DesignLint
