import DesignLint.Schema.Basic

/-!
# Checking documents against schemas

A check lists every violation of a schema, part by part in the order of the
constraints. Where a single violation has to speak for all, it is one nearest
to the root of the document.
-/

namespace DesignLint

/-! ## Violations -/

/-- What is wrong with a part of a document. -/
inductive SchemaFault where
  | notOfType (types : List JsonType)
  | missing (name : String)
  | unexpected (names : List String)
  | tooFewItems (bound : Nat)
  | tooShort (bound : Nat)
  | belowMinimum (bound : Nat)
  | aboveMaximum (bound : Nat)
  | notExactly (text : String)
  | notOneOf (texts : List String)
  | notMatching (pattern : TextPattern)
  | wrongVersion (expected : String)
deriving DecidableEq, Repr

/-- A violation: where, of which part, and what is wrong with it. -/
structure SchemaError where
  path : DocumentPath
  part : Json
  fault : SchemaFault

/-- The message for a fault of a part of a document. -/
def SchemaFault.message (part : Json) : SchemaFault → String
  | notOfType types =>
    part.shown ++ " is not of type " ++ ", ".intercalate (types.map fun type => quoted type.label)
  | missing name => quoted name ++ " is a required property"
  | unexpected names =>
    "Additional properties are not allowed (" ++ ", ".intercalate (names.map JsonObject.keyShown)
      ++ (if names.length = 1 then " was" else " were") ++ " unexpected)"
  | tooFewItems bound =>
    part.shown ++ (if bound = 1 then " should be non-empty" else " is too short")
  | tooShort bound => part.shown ++ (if bound = 1 then " should be non-empty" else " is too short")
  | belowMinimum bound => part.shown ++ " is less than the minimum of " ++ toString bound
  | aboveMaximum bound => part.shown ++ " is greater than the maximum of " ++ toString bound
  | notExactly text => quoted text ++ " was expected"
  | notOneOf texts => part.shown ++ " is not one of " ++ (Json.strings texts).shown
  | notMatching pattern => part.shown ++ " does not match " ++ quoted pattern.text
  | wrongVersion expected =>
    "expected schema_version=" ++ quoted expected ++ ", got " ++ part.shown

/-- Whether the message for a fault of a part of a document can be written. -/
def SchemaFault.isWritable (part : Json) : SchemaFault → Bool
  | missing _ | notExactly _ => true
  | unexpected names => names.all JsonObject.isWritableKey
  | _ => part.isWritable

namespace SchemaError

/-- The message of a violation. -/
def message (error : SchemaError) : String := error.fault.message error.part

/-- Whether the message of a violation can be written. -/
def isWritable (error : SchemaError) : Bool := error.fault.isWritable error.part

/-- A violation as one line. -/
def line (error : SchemaError) : String := DocumentPath.text error.path ++ ": " ++ error.message

end SchemaError

/-! ## The check -/

/-- The violation of a condition that a part must meet. -/
def violationUnless (condition : Bool) (path : DocumentPath) (part : Json) (fault : SchemaFault) :
    List SchemaError :=
  if condition then [] else [⟨path, part, fault⟩]

/-- The entries of a document that is an object. -/
def Json.entries : Json → JsonObject
  | .object entries => entries
  | _ => []

/-- The items of a document that is an array. -/
def Json.items : Json → List Json
  | .array items => items
  | _ => []

/-- The entries whose keys are not named. -/
def otherEntries (named : List String) (document : Json) : JsonObject :=
  document.entries.filter fun entry => !named.contains entry.1

/-- The violations of a constraint that concerns a document only as a whole. -/
def Constraint.ownErrors (named : List String) (path : DocumentPath) :
    Constraint → Json → List SchemaError
  | .ofType types, document =>
    violationUnless (types.any (JsonType.holds document)) path document (.notOfType types)
  | .required names, .object entries =>
    names.flatMap fun name =>
      violationUnless (entries.lookup name).isSome path (.object entries) (.missing name)
  | .closed, document =>
    let others := (JsonObject.sortedByText (otherEntries named document)).map (·.1)
    violationUnless others.isEmpty path document (.unexpected others)
  | .minItems count, .array parts =>
    violationUnless (decide (count ≤ parts.length)) path (.array parts) (.tooFewItems count)
  | .minLength count, .string text =>
    violationUnless (decide (count ≤ text.length)) path (.string text) (.tooShort count)
  | .minimum bound, .number value =>
    violationUnless (!value.lt (.int bound)) path (.number value) (.belowMinimum bound)
  | .maximum bound, .number value =>
    violationUnless (!(Number.int bound).lt value) path (.number value) (.aboveMaximum bound)
  | .exactly text, document =>
    violationUnless (document.same (.string text)) path document (.notExactly text)
  | .oneOf texts, document =>
    violationUnless (texts.any fun text => document.same (.string text)) path document
      (.notOneOf texts)
  | .matching pattern, .string text =>
    violationUnless (pattern.accepts text) path (.string text) (.notMatching pattern)
  | _, _ => []

mutual

/-- The violations of a schema by the part of a document at a path. -/
def Schema.errorsAt (path : DocumentPath) (document : Json) : Schema → List SchemaError
  | .mk constraints =>
    Constraint.errorsAll (Schema.namedKeys constraints) path document constraints

/-- The violations of constraints, next to which some keys are named. -/
def Constraint.errorsAll (named : List String) (path : DocumentPath) (document : Json) :
    List Constraint → List SchemaError
  | [] => []
  | constraint :: rest =>
    constraint.errorsAt named path document
      ++ Constraint.errorsAll named path document rest

/-- The violations of one constraint. -/
def Constraint.errorsAt (named : List String) (path : DocumentPath) (document : Json) :
    Constraint → List SchemaError
  | .others schema =>
    (otherEntries named document).flatMap fun (name, part) =>
      schema.errorsAt (path ++ [.key name]) part
  | .properties entries => Schema.propertyErrors path document.entries entries
  | .items schema =>
    document.items.zipIdx.flatMap fun (part, number) =>
      schema.errorsAt (path ++ [.index number]) part
  | .reference _ schema => schema.errorsAt path document
  | constraint => constraint.ownErrors named path document

/-- The violations by the entries that have a schema of their own. -/
def Schema.propertyErrors (path : DocumentPath) (entries : JsonObject) :
    List (String × Schema) → List SchemaError
  | [] => []
  | (name, schema) :: rest =>
    (match entries.lookup name with
      | some part => schema.errorsAt (path ++ [.key name]) part
      | none => [])
      ++ Schema.propertyErrors path entries rest

end

/-- The violations of a schema by a document. -/
def Schema.errors (schema : Schema) (document : Json) : List SchemaError :=
  schema.errorsAt [] document

/-! ## One violation for all -/

/-- Whether the second violation speaks for a document rather than the first: it
is nearer to the root, or as near with a later path. -/
def SchemaError.yields (error other : SchemaError) : Bool :=
  decide (other.path.length < error.path.length)
    || (other.path.length == error.path.length && DocumentPath.before error.path other.path)

/-- The violation that speaks for a list of them: the first one that yields to no
other. -/
def SchemaError.leading : List SchemaError → Option SchemaError
  | [] => none
  | error :: rest =>
    some (rest.foldl (fun best other => if best.yields other then other else best) error)

/-- The violation that speaks for a document, if there is any. -/
def Schema.firstError (schema : Schema) (document : Json) : Option SchemaError :=
  SchemaError.leading (schema.errors document)

/-- The violation that a check ends with, if there is any. All messages are written before one
of them is chosen, so the check ends with the first that cannot be written. -/
def Schema.endingError (schema : Schema) (document : Json) : Option SchemaError :=
  ((schema.errors document).find? fun error => !error.isWritable).or (schema.firstError document)

end DesignLint
