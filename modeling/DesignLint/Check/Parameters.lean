import DesignLint.Check.Violation
import DesignLint.Syntax.Names

/-!
# Numbers of parameters

The receiver of a method does not count; parameters that collect arguments
count if asked.
-/

namespace DesignLint.Check

open DesignLint.Syntax

/-- The limit on parameters, and whether collecting ones count. -/
structure ParameterOptions where
  maxParams : Number
  countVariadic : Bool
deriving DecidableEq, Repr

/-- The name of a function, or of a lambda. -/
def shownName (tree : SyntaxTree) : String := (definedName tree).getD anonymous

/-- The positional parameters without the receiver. -/
def withoutReceiver (receiver : Option String) (names : List String) : List String :=
  match names with
  | [] => []
  | first :: rest => if receiver = some first then rest else names

/-- The names of the parameters that count. -/
def countedParameters (options : ParameterOptions) (receiver : Option String)
    (parameters : Parameters) : List String :=
  withoutReceiver receiver (parameters.positional.map Parameter.name)
    ++ parameters.keywordOnly.map Parameter.name
    ++ if options.countVariadic then
        (parameters.variadic.map fun parameter => "*" ++ parameter.name).toList
          ++ (parameters.keywordVariadic.map fun parameter => "**" ++ parameter.name).toList
      else []

/-- The violation by a function with too many parameters. -/
def parameterViolation? (options : ParameterOptions)
    (visit : Visit Occurrence (List SyntaxTree)) : Option Violation := do
  let parameters ← parametersOf visit.tree
  let position ← visit.tree.label.node.position?
  let names := countedParameters options (selfNameOf visit.tree visit.context.head?) parameters
  if options.maxParams.lt (.int names.length) then
    let name := shownName visit.tree
    some {
      ruleId := .cplParams
      lineStart := position.line
      lineEnd := position.lastLine
      column := position.column
      symbol := name
      message := "Function \"" ++ name ++ "\" has " ++ toString names.length
        ++ " parameters (maximum allowed: " ++ options.maxParams.text
        ++ "). Consider grouping them into a dataclass or options object."
      snippet := "def " ++ name ++ "(" ++ ", ".intercalate names ++ ")"
      details := [("param_count", .nat names.length)] }
  else none

/-- The functions of a tree with too many parameters. -/
def longSignatures (options : ParameterOptions) (tree : SyntaxTree) : List Violation :=
  tree.withAncestors.filterMap (parameterViolation? options)

end DesignLint.Check
