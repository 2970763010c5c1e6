import DesignLint.Check.BooleanParameters
import DesignLint.Check.Cohesion
import DesignLint.Check.Conditions
import DesignLint.Check.FanOut
import DesignLint.Check.Imports
import DesignLint.Check.LateUsage
import DesignLint.Check.Literals
import DesignLint.Check.Naming
import DesignLint.Check.Nesting
import DesignLint.Check.Parameters
import DesignLint.Schema.Validation

/-!
# Options of rules

Every rule has a fixed list of options, each with a kind of values and a
default. The list gives the schema for options in a configuration; options that
satisfy it are read into the record of the rule's check.
-/

namespace DesignLint

open Check Cohesion

/-! ## Lists of options -/

/-- The values that an option takes. -/
inductive OptionKind where
  | whole (least : Nat) (most : Option Nat)
  | flag
  | texts
  | numbers
deriving DecidableEq, Repr

/-- The constraints on the values of a kind. -/
def OptionKind.constraints : OptionKind → List Constraint
  | whole least most => [.ofType [.integer], .minimum least] ++ (most.map .maximum).toList
  | flag => [.ofType [.boolean]]
  | texts => [.ofType [.array], .items (.mk [.ofType [.string]])]
  | numbers => [.ofType [.array], .items (.mk [.ofType [.number]])]

/-- An option of a rule. -/
structure OptionSpec where
  name : String
  kind : OptionKind
  default : Json

/-- The schema for the values of an option. -/
def OptionSpec.schema (spec : OptionSpec) : Schema :=
  .mk (spec.kind.constraints ++ [.note "default" spec.default])

/-- Names that are fine although they are short. -/
def usualShortNames : List String :=
  ["i", "j", "k", "x", "y", "z", "id", "e", "_", "a", "b", "c",
   "db", "fs", "os", "ui", "io", "ip", "url", "uri", "api", "btn", "idx",
   "ctx", "req", "res", "err", "msg", "val", "str", "num", "obj", "arr", "fn"]

/-- Names that are never fine. -/
def placeholderNames : List String := ["foo", "bar", "baz"]

namespace Rule

/-- The options of a rule. -/
def optionSpecs : Rule → List OptionSpec
  | functionCohesion => [
      ⟨"minSharedVariablePercentage", .whole 0 (some 100), .nat 30⟩,
      ⟨"minFunctionLength", .whole 1 none, .nat 10⟩]
  | classCohesion => [
      ⟨"minSharedPropertyPercentage", .whole 0 (some 100), .nat 40⟩,
      ⟨"minClassLength", .whole 1 none, .nat 10⟩]
  | conditions => [⟨"maxOperators", .whole 0 none, .nat 2⟩]
  | nesting => [⟨"maxDepth", .whole 0 none, .nat 3⟩]
  | fanOut => [
      ⟨"maxFunctionFanOut", .whole 1 none, .nat 7⟩,
      ⟨"maxClassFanOut", .whole 1 none, .nat 15⟩,
      ⟨"ignoreBuiltIns", .flag, .bool true⟩,
      ⟨"ignoreSelfReferences", .flag, .bool true⟩,
      ⟨"minFunctionLength", .whole 1 none, .nat 5⟩]
  | parameters => [
      ⟨"maxParams", .whole 1 none, .nat 4⟩,
      ⟨"countVariadic", .flag, .bool false⟩]
  | imports => [
      ⟨"maxImports", .whole 1 none, .nat 10⟩,
      ⟨"ignoreTypeImports", .flag, .bool true⟩,
      ⟨"ignorePatterns", .texts, .array []⟩]
  | literals => [
      ⟨"ignore", .numbers, .array []⟩,
      ⟨"ignoreArrayIndexes", .flag, .bool true⟩,
      ⟨"ignoreDefaultValues", .flag, .bool true⟩]
  | booleans => [⟨"ignoreDefault", .flag, .bool false⟩]
  | naming => [
      ⟨"minLength", .whole 1 none, .nat 2⟩,
      ⟨"allowedNames", .texts, .strings usualShortNames⟩,
      ⟨"disallowedNames", .texts, .strings placeholderNames⟩,
      ⟨"checkProperties", .flag, .bool false⟩]
  | lateVariables => [⟨"maxLinesBetweenDeclarationAndUsage", .whole 0 none, .nat 5⟩]
  | lateArguments => [⟨"maxLinesBetweenDeclarationAndUsage", .whole 0 none, .nat 10⟩]

/-- The schema for the options of a rule. -/
def optionsSchema (rule : Rule) : Schema := .mk [
  .ofType [.object],
  .properties (rule.optionSpecs.map fun spec => (spec.name, spec.schema)),
  .closed]

/-- The defaults of all options of a rule. -/
def usualOptions (rule : Rule) : JsonObject :=
  rule.optionSpecs.map fun spec => (spec.name, spec.default)

end Rule

/-! ## Reading options -/

namespace OptionValues

/-- The number under a name. -/
def number (values : JsonObject) (name : String) : Number :=
  match values.lookup name with
  | some (.number value) => value
  | _ => 0

/-- The truth value under a name. -/
def flag (values : JsonObject) (name : String) : Bool :=
  match values.lookup name with
  | some (.bool value) => value
  | _ => false

/-- The items of the array under a name that have some form. -/
def items {α : Type} (read : Json → Option α) (values : JsonObject) (name : String) : List α :=
  match values.lookup name with
  | some (.array items) => items.filterMap read
  | _ => []

/-- The texts of the array under a name. -/
def texts : JsonObject → String → List String :=
  items fun
    | .string value => some value
    | _ => none

/-- The numbers of the array under a name. -/
def numbers : JsonObject → String → List Number :=
  items fun
    | .number value => some value
    | _ => none

end OptionValues

/-- A rule with a value for every option. -/
inductive RuleOptions where
  | functionCohesion (options : CohesionLimits)
  | classCohesion (options : CohesionLimits)
  | conditions (options : ConditionOptions)
  | nesting (options : NestingOptions)
  | fanOut (options : FanOutOptions)
  | parameters (options : ParameterOptions)
  | imports (options : ImportOptions)
  | literals (options : LiteralOptions)
  | booleans (options : BooleanOptions)
  | naming (options : NamingOptions)
  | lateVariables (options : LateUsageOptions)
  | lateArguments (options : LateUsageOptions)
deriving DecidableEq, Repr

namespace RuleOptions

open OptionValues

/-- The rule that options belong to. -/
def rule : RuleOptions → Rule
  | functionCohesion _ => .functionCohesion
  | classCohesion _ => .classCohesion
  | conditions _ => .conditions
  | nesting _ => .nesting
  | fanOut _ => .fanOut
  | parameters _ => .parameters
  | imports _ => .imports
  | literals _ => .literals
  | booleans _ => .booleans
  | naming _ => .naming
  | lateVariables _ => .lateVariables
  | lateArguments _ => .lateArguments

/-- The options of a rule with a value for every name. -/
def ofValues (values : JsonObject) : Rule → RuleOptions
  | .functionCohesion => functionCohesion {
      minSharedPercentage := number values "minSharedVariablePercentage"
      minUnitLength := number values "minFunctionLength" }
  | .classCohesion => classCohesion {
      minSharedPercentage := number values "minSharedPropertyPercentage"
      minUnitLength := number values "minClassLength" }
  | .conditions => conditions { maxOperators := number values "maxOperators" }
  | .nesting => nesting { maxDepth := number values "maxDepth" }
  | .fanOut => fanOut {
      maxFunctionFanOut := number values "maxFunctionFanOut"
      maxClassFanOut := number values "maxClassFanOut"
      ignoreBuiltIns := flag values "ignoreBuiltIns"
      ignoreSelfReferences := flag values "ignoreSelfReferences"
      minFunctionLength := number values "minFunctionLength" }
  | .parameters => parameters {
      maxParams := number values "maxParams"
      countVariadic := flag values "countVariadic" }
  | .imports => imports {
      maxImports := number values "maxImports"
      ignoreTypeImports := flag values "ignoreTypeImports"
      ignorePatterns := texts values "ignorePatterns" }
  | .literals => literals {
      ignore := numbers values "ignore"
      ignoreArrayIndexes := flag values "ignoreArrayIndexes"
      ignoreDefaultValues := flag values "ignoreDefaultValues" }
  | .booleans => booleans { ignoreDefault := flag values "ignoreDefault" }
  | .naming => naming {
      minLength := number values "minLength"
      allowedNames := texts values "allowedNames"
      disallowedNames := texts values "disallowedNames"
      checkProperties := flag values "checkProperties" }
  | .lateVariables => lateVariables {
      maxLines := number values "maxLinesBetweenDeclarationAndUsage" }
  | .lateArguments => lateArguments {
      maxLines := number values "maxLinesBetweenDeclarationAndUsage" }

/-- Options as the entries of a configuration. -/
def toValues : RuleOptions → JsonObject
  | functionCohesion options => [
      ("minSharedVariablePercentage", .number options.minSharedPercentage),
      ("minFunctionLength", .number options.minUnitLength)]
  | classCohesion options => [
      ("minSharedPropertyPercentage", .number options.minSharedPercentage),
      ("minClassLength", .number options.minUnitLength)]
  | conditions options => [("maxOperators", .number options.maxOperators)]
  | nesting options => [("maxDepth", .number options.maxDepth)]
  | fanOut options => [
      ("maxFunctionFanOut", .number options.maxFunctionFanOut),
      ("maxClassFanOut", .number options.maxClassFanOut),
      ("ignoreBuiltIns", .bool options.ignoreBuiltIns),
      ("ignoreSelfReferences", .bool options.ignoreSelfReferences),
      ("minFunctionLength", .number options.minFunctionLength)]
  | parameters options => [
      ("maxParams", .number options.maxParams),
      ("countVariadic", .bool options.countVariadic)]
  | imports options => [
      ("maxImports", .number options.maxImports),
      ("ignoreTypeImports", .bool options.ignoreTypeImports),
      ("ignorePatterns", .strings options.ignorePatterns)]
  | literals options => [
      ("ignore", .array (options.ignore.map .number)),
      ("ignoreArrayIndexes", .bool options.ignoreArrayIndexes),
      ("ignoreDefaultValues", .bool options.ignoreDefaultValues)]
  | booleans options => [("ignoreDefault", .bool options.ignoreDefault)]
  | naming options => [
      ("minLength", .number options.minLength),
      ("allowedNames", .strings options.allowedNames),
      ("disallowedNames", .strings options.disallowedNames),
      ("checkProperties", .bool options.checkProperties)]
  | lateVariables options => [
      ("maxLinesBetweenDeclarationAndUsage", .number options.maxLines)]
  | lateArguments options => [
      ("maxLinesBetweenDeclarationAndUsage", .number options.maxLines)]

end RuleOptions

namespace Rule

/-- The violation that the check of options ends with that do not satisfy the schema of a
rule. -/
def optionsError? (rule : Rule) (options : JsonObject) : Option SchemaError :=
  rule.optionsSchema.endingError (.object options)

/-- The options of a rule, with defaults where nothing is given. -/
def readOptions (rule : Rule) (options : JsonObject) : Except SchemaError RuleOptions :=
  match rule.optionsError? options with
  | some error => .error error
  | none => .ok (.ofValues (rule.usualOptions.merge options) rule)

end Rule

/-! ## Names of options -/

/-- The characters of a name with an underscore before every capital letter but
the first character. -/
def separateWords : List Char → List Char
  | [] => []
  | first :: rest => first :: rest.flatMap fun c => if c.isUpper then ['_', c] else [c]

/-- A name whose words begin with capital letters, in small letters with
underscores between the words. -/
def underscored (name : String) : String :=
  Unicode.lower (String.ofList (separateWords name.toList))

end DesignLint
