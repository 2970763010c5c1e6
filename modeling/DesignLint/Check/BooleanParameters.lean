import DesignLint.Check.Violation
import DesignLint.Syntax.Names
import DesignLint.Text.Search
import DesignLint.Text.Unicode

/-!
# Boolean parameters

A parameter that takes a truth value should be named as a question. Others are
reported when their type is `bool` or their own default is a truth value.
-/

namespace DesignLint.Check

open DesignLint.Syntax

/-! ## Names -/

/-- The words that begin a question. -/
def questionWords : List String := ["is", "has", "should", "can", "will", "did", "does"]

/-- Whether a name begins with a word: nothing, an underscore or a capital letter
follows it. -/
def beginsWithWord (name word : List Char) : Bool :=
  word.isPrefixOf name && match name.drop word.length with
    | [] => true
    | next :: _ => next == '_' || Unicode.isUpper next

/-- Whether a name reads as a question. -/
def readsAsQuestion (name : String) : Bool :=
  questionWords.any fun word => beginsWithWord name.toList word.toList

/-- What could stand in place of a boolean parameter. -/
def suggestedReplacement (name : String) : String :=
  let lowered := Unicode.lower name
  if ["enabled", "disable", "disabled", "enable"].contains lowered then
    "mode: Literal[\"enabled\", \"disabled\"]"
  else if ["visible", "hidden", "show", "hide"].contains lowered then
    "visibility: Literal[\"visible\", \"hidden\"]"
  else if occurs "flag".toList lowered.toList then "options: <dataclass>"
  else name ++ "_mode: <Enum>"

/-! ## Truth values -/

/-- Whether a type is that of truth values: the bare, dotted or quoted name. -/
def isBoolType : Expr → Bool
  | .name _ id _ => id == "bool"
  | .attr _ _ name _ => name == "bool"
  | .constant _ (.str text) _ => Unicode.trim text == "bool"
  | _ => false

/-- Whether an expression is a truth value. -/
def isTruthValue : Expr → Bool
  | .constant _ (.bool _) _ => true
  | _ => false

/-- The parameters with their defaults. Defaults belong to the last positional
parameters; keyword-only parameters have a slot each. -/
def parametersWithDefaults (parameters : Parameters) : List (Parameter × Option Expr) :=
  let positional := parameters.positional
  let padding := List.replicate (positional.length - parameters.defaults.length) none
  positional.zip (padding ++ parameters.defaults.map some)
    ++ parameters.keywordOnly.zip parameters.keywordDefaults

/-! ## The check -/

/-- Whether defaults do not count. -/
structure BooleanOptions where
  ignoreDefault : Bool
deriving DecidableEq, Repr

/-- Whether a parameter takes a truth value. -/
def BooleanOptions.marksBoolean (options : BooleanOptions) (parameter : Parameter)
    (default : Option Expr) : Bool :=
  parameter.hint.any isBoolType || (default.any isTruthValue && !options.ignoreDefault)

/-- The violation by a parameter of a function. -/
def booleanViolation (function : SyntaxTree) (parameter : Parameter) : Violation :=
  let name := parameter.name
  let bad := name ++ ": bool"
  { ruleId := .boolParam
    lineStart := parameter.position.line
    lineEnd := parameter.position.lastLine
    column := parameter.position.column
    symbol := (definedName function).getD "lambda" ++ "." ++ name
    message := "Boolean parameter \"" ++ name ++ "\" is discouraged. Consider using descriptive "
      ++ "objects or enums instead, e.g., replace \"" ++ bad ++ "\" with \""
      ++ suggestedReplacement name ++ "\"."
    snippet := bad
    details := [("parameter", .string name)] }

/-- The violations by the parameters of a function. -/
def functionBooleans (options : BooleanOptions) (tree : SyntaxTree) : List Violation :=
  match parametersOf tree with
  | none => []
  | some parameters =>
    ((parametersWithDefaults parameters).filter fun (parameter, default) =>
      !readsAsQuestion parameter.name && options.marksBoolean parameter default).map
        fun (parameter, _) => booleanViolation tree parameter

/-- The boolean parameters of a tree that are not named as questions. -/
def booleanParameters (options : BooleanOptions) (tree : SyntaxTree) : List Violation :=
  tree.levelOrder.flatMap (functionBooleans options)

end DesignLint.Check
