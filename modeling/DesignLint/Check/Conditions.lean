import DesignLint.Check.Violation
import DesignLint.Syntax.Occurrence
import DesignLint.Syntax.SourceText

/-!
# Conditions

A condition is too complex when it joins too many operands with `and` and `or`.
Negation does not count, and what stands below any other operator is one
operand.
-/

namespace DesignLint.Check

open DesignLint.Syntax

/-! ## Counting operators -/

mutual

/-- The number of short-circuit operators in the skeleton of a condition. A chain
of one operator counts once less than it has operands. -/
def operatorCount : Expr → Nat
  | .boolOp _ _ operands => operands.length - 1 + operatorCountAll operands
  | .unaryOp _ .not operand => operatorCount operand
  | _ => 0

/-- The operators of several conditions together. -/
def operatorCountAll : List Expr → Nat
  | [] => 0
  | expr :: exprs => operatorCount expr + operatorCountAll exprs

end

/-! ## Where conditions stand -/

/-- The conditions that a construct evaluates. -/
def conditionsOf (tree : SyntaxTree) : List Expr :=
  match tree.label.node with
  | .stmt (.ifStmt _ test _ _) => [test]
  | .stmt (.whileStmt _ test _ _) => [test]
  | .expr (.ifExp _ test _ _) => [test]
  | .comprehension (.mk _ _ conditions _) => conditions
  | .matchCase (.mk _ (some guard) _) => [guard]
  | _ => []

/-- All conditions of a tree, level by level. -/
def allConditions (tree : SyntaxTree) : List Expr := tree.levelOrder.flatMap conditionsOf

/-! ## The check -/

/-- The limit on the operators of a condition. -/
structure ConditionOptions where
  maxOperators : Number
deriving DecidableEq, Repr

/-- Whether a condition has more operators than allowed. -/
def ConditionOptions.rejects (options : ConditionOptions) (test : Expr) : Bool :=
  options.maxOperators.lt (.int (operatorCount test))

/-- The violation by a condition. -/
def conditionViolation (options : ConditionOptions) (test : Expr) :
    Except SourceTextError Violation := do
  let text ← test.sourceText
  let count := operatorCount test
  return {
    ruleId := .cpxConditional
    lineStart := test.position.line
    lineEnd := test.position.lastLine
    column := test.position.column
    symbol := placeSymbol test.position
    message := "This condition is too complex (" ++ toString count
      ++ " operators). Maximum allowed is " ++ options.maxOperators.text
      ++ ". Consider extracting it to a function or variable."
    snippet := text
    details := [("operators", .nat count)] }

/-- The conditions of a tree with too many operators. -/
def complexConditions (options : ConditionOptions) (tree : SyntaxTree) :
    Except SourceTextError (List Violation) :=
  ((allConditions tree).filter options.rejects).mapM (conditionViolation options)

end DesignLint.Check
