import DesignLint.Finding.Basic

/-!
# Errors and warnings

Reports call a finding an error or a warning, by its severity. A finding about
cohesion is followed by its groups.
-/

namespace DesignLint

/-- What reports call a finding. -/
inductive Grade where
  | error | warning
deriving DecidableEq, Repr

namespace Grade

/-- The name of a grade. -/
def label : Grade → String
  | error => "error"
  | warning => "warning"

/-- The grade of a severity. -/
def ofSeverity : Severity → Grade
  | .critical | .high => error
  | .medium | .low | .info => warning

end Grade

/-- The grade of a finding. -/
def Finding.grade (finding : Finding) : Grade := .ofSeverity finding.severity

/-! ## Groups -/

/-- Why the groups of a finding cannot be listed: something that should be a mapping is of
another kind, or something that should list texts does not. -/
inductive GroupFault where
  | notMapping (kind : String)
  | notListing
deriving DecidableEq, Repr

/-- The values that a value lists: the items of an array, the characters of a text, or the
keys of an object. -/
def listedValues : Json → Except GroupFault (List Json)
  | .array items => .ok items
  | .string text => .ok (text.toList.map fun c => .string (String.singleton c))
  | .object entries => .ok (entries.map fun entry => .string entry.1)
  | _ => .error .notListing

/-- The values listed under a key; none if the key is missing. -/
def valuesAt (key : String) (entries : JsonObject) : Except GroupFault (List Json) :=
  match entries.lookup key with
  | none => .ok []
  | some value => listedValues value

/-- The texts listed under a key, with commas between them. -/
def joinedTexts (key : String) (group : JsonObject) : Except GroupFault String := do
  let texts ← (← valuesAt key group).mapM fun
    | .string text => .ok text
    | _ => .error GroupFault.notListing
  return ", ".intercalate texts

/-- A group as a line: its members and the names they use. -/
def groupLine : Json → Except GroupFault String
  | .object group => do
    let members ← joinedTexts "memberNames" group
    let names ← joinedTexts "sharedIdentifiers" group
    return "[" ++ members ++ "] uses \x7b" ++ (if names.isEmpty then "-" else names) ++ "\x7d"
  | other => .error (.notMapping other.kindName)

namespace Finding

/-- The groups of a finding about cohesion as lines, if they can be listed. -/
def readGroups (finding : Finding) : Except GroupFault (List String) :=
  match finding.cohesion?.filter Json.isTruthy with
  | none => .ok []
  | some (.object report) => do (← valuesAt "components" report).mapM groupLine
  | some other => .error (.notMapping other.kindName)

/-- Why the groups of a finding cannot be listed, if they cannot. -/
def groupFault? (finding : Finding) : Option GroupFault :=
  match finding.readGroups with
  | .ok _ => none
  | .error fault => some fault

/-- The groups of a finding about cohesion as lines; none if they cannot be listed. -/
def groupLines (finding : Finding) : List String := finding.readGroups.toOption.getD []

/-- The groups of a finding about cohesion as numbered lines. -/
def breakdown (finding : Finding) : List String :=
  finding.groupLines.zipIdx.map fun (line, index) => toString (index + 1) ++ ". " ++ line

end Finding

end DesignLint
