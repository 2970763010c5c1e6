import DesignLint.Json.Basic

/-!
# Documents in requests

The fields of the document in a request have types. A request with a document
that does not fit is refused with all places that are wrong.
-/

namespace DesignLint.Service

/-- What is wrong in a place. -/
inductive BodyFault where
  | missing | stringType | dictType | boolType | boolParsing | attributesType
deriving DecidableEq, Repr

/-- The name of a fault. -/
def BodyFault.label : BodyFault → String
  | missing => "missing"
  | stringType => "string_type"
  | dictType => "dict_type"
  | boolType => "bool_type"
  | boolParsing => "bool_parsing"
  | attributesType => "model_attributes_type"

/-- A place in a document where something is wrong: in a field, or with the document as a
whole. -/
structure BodyError where
  field : Option String
  fault : BodyFault
deriving DecidableEq, Repr

/-- An error as a document. -/
def BodyError.toJson (error : BodyError) : Json := .object [
  ("type", .string error.fault.label),
  ("loc", .strings ("body" :: error.field.toList))]

/-! ## Fields -/

/-- A value, or what is wrong with it. -/
abbrev Field (α : Type) := Except BodyError α

/-- What is wrong with a field. -/
def Field.errors {α : Type} : Field α → List BodyError
  | .ok _ => []
  | .error error => [error]

/-- A text that has to be there. -/
def requiredText (entries : JsonObject) (name : String) : Field String :=
  match entries.lookup name with
  | none => .error ⟨some name, .missing⟩
  | some (.string text) => .ok text
  | some _ => .error ⟨some name, .stringType⟩

/-- A text with a usual value. -/
def textOr (entries : JsonObject) (name usual : String) : Field String :=
  match entries.lookup name with
  | none => .ok usual
  | some (.string text) => .ok text
  | some _ => .error ⟨some name, .stringType⟩

/-- A text that may be left out, or given as nothing. -/
def optionalText (entries : JsonObject) (name : String) : Field (Option String) :=
  match entries.lookup name with
  | none => .ok none
  | some .null => .ok none
  | some (.string text) => .ok (some text)
  | some _ => .error ⟨some name, .stringType⟩

/-- A mapping that may be left out. -/
def optionalMapping (entries : JsonObject) (name : String) : Field JsonObject :=
  match entries.lookup name with
  | none => .ok []
  | some (.object mapping) => .ok mapping
  | some _ => .error ⟨some name, .dictType⟩

/-- The texts for true. -/
def trueTexts : List String := ["1", "on", "t", "true", "y", "yes"]

/-- The texts for false. -/
def falseTexts : List String := ["0", "off", "f", "false", "n", "no"]

/-- The bound of the whole numbers that fit into 64 bits with a sign. -/
def wordBound : Int := 0x8000000000000000

/-- Whether a number is a whole one of 64 bits. A double has to lie between the bounds. -/
def fitsWord : Number → Bool
  | .int value => decide (-wordBound ≤ value) && decide (value < wordBound)
  | .float value => (Number.float value).isWhole
    && (Number.int (-wordBound)).lt (.float value) && (Number.float value).lt (.int wordBound)

/-- The truth value of a number: only 0 and 1 have one. -/
def numberFlag (number : Number) : Except BodyFault Bool :=
  if number.same 0 then .ok false
  else if number.same 1 then .ok true
  else if fitsWord number then .error .boolParsing
  else .error .boolType

/-- The truth value that a value stands for. -/
def readFlag : Json → Except BodyFault Bool
  | .bool value => .ok value
  | .string text =>
    let text := String.ofList (text.toList.map Char.toLower)
    if trueTexts.contains text then .ok true
    else if falseTexts.contains text then .ok false
    else .error .boolParsing
  | .number number => numberFlag number
  | _ => .error .boolType

/-- A truth value that may be left out, and is false then. -/
def optionalFlag (entries : JsonObject) (name : String) : Field Bool :=
  match entries.lookup name with
  | none => .ok false
  | some value => (readFlag value).mapError fun fault => ⟨some name, fault⟩

/-! ## Documents -/

/-- What a project scan is asked for. -/
structure ProjectBody where
  path : String
  projectId : Option String
  preset : Option String
  rules : JsonObject
  reproducible : Bool

/-- What a scan of a text is asked for. -/
structure SourceBody where
  source : String
  path : String
  preset : Option String
  rules : JsonObject

/-- The entries of the document in a request. -/
def bodyEntries : Option Json → Except (List BodyError) JsonObject
  | none => .error [⟨none, .missing⟩]
  | some .null => .error [⟨none, .missing⟩]
  | some (.object entries) => .ok entries
  | some _ => .error [⟨none, .attributesType⟩]

/-- The document of a project scan. -/
def readProjectBody (body : Option Json) : Except (List BodyError) ProjectBody := do
  let entries ← bodyEntries body
  let path := requiredText entries "repo_path"
  let projectId := optionalText entries "project_id"
  let preset := optionalText entries "preset"
  let rules := optionalMapping entries "rules"
  let reproducible := optionalFlag entries "ci_mode"
  match path, projectId, preset, rules, reproducible with
  | .ok path, .ok projectId, .ok preset, .ok rules, .ok reproducible =>
    return ⟨path, projectId, preset, rules, reproducible⟩
  | _, _, _, _, _ =>
    .error (path.errors ++ projectId.errors ++ preset.errors ++ rules.errors
      ++ reproducible.errors)

/-- The document of a scan of a text. -/
def readSourceBody (usualPath : String) (body : Option Json) :
    Except (List BodyError) SourceBody := do
  let entries ← bodyEntries body
  let source := requiredText entries "source"
  let path := textOr entries "path" usualPath
  let preset := optionalText entries "preset"
  let rules := optionalMapping entries "rules"
  match source, path, preset, rules with
  | .ok source, .ok path, .ok preset, .ok rules => return ⟨source, path, preset, rules⟩
  | _, _, _, _ => .error (source.errors ++ path.errors ++ preset.errors ++ rules.errors)

end DesignLint.Service
