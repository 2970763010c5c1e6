import DesignLint.Check.Violation
import DesignLint.Syntax.Occurrence
import DesignLint.Syntax.SourceText

/-!
# Unexplained numbers

A number in the code should have a name. Zero and one, numbers that define a
constant, and, if asked, indexes and default values need none. A sign in front
of a literal belongs to the number.
-/

namespace DesignLint.Check

open DesignLint.Syntax

/-! ## Numbers in the code -/

/-- The value of a numeric literal: a number, or an imaginary one. -/
inductive LiteralValue where
  | real (value : Number)
  | imaginary (value : Binary64)
deriving DecidableEq, Repr

namespace LiteralValue

/-- The value of a literal, if it is a number. -/
def ofConstant? : Constant → Option LiteralValue
  | .int value => some (.real (.int value))
  | .float value => some (.real (.float value))
  | .complex value => some (.imaginary value)
  | _ => none

/-- The value with the opposite sign. -/
def neg : LiteralValue → LiteralValue
  | real (.int value) => real (.int (-value))
  | real (.float value) => real (.float value.neg)
  | imaginary value => imaginary value.neg

/-- Whether the value equals a number. -/
def equals (literal : LiteralValue) (number : Number) : Bool :=
  match literal with
  | real value => value.same number
  | imaginary value => (Number.float value).same 0 && number.same 0

end LiteralValue

/-- A number in the code: the tree that is reported, its value, and what stands
right above. -/
structure Literal where
  target : SyntaxTree
  value : LiteralValue
  parent : Option SyntaxTree

/-- The sign that a tree puts in front of its operand: whether it negates. -/
def signOf (tree : SyntaxTree) : Option Bool :=
  match tree.label.node with
  | .expr (.unaryOp _ .uSub _) => some true
  | .expr (.unaryOp _ .uAdd _) => some false
  | _ => none

/-- The number of a literal among its ancestors, the nearest first. -/
def signedLiteral (tree : SyntaxTree) (value : LiteralValue) :
    List SyntaxTree → Literal
  | [] => ⟨tree, value, none⟩
  | parent :: ancestors =>
    match signOf parent with
    | some negates => ⟨parent, if negates then value.neg else value, ancestors.head?⟩
    | none => ⟨tree, value, some parent⟩

/-- The number that a subtree is. -/
def literal? (visit : Visit Occurrence (List SyntaxTree)) : Option Literal :=
  match visit.tree.label.node with
  | .expr (.constant _ value _) =>
    (LiteralValue.ofConstant? value).map fun value =>
      signedLiteral visit.tree value visit.context
  | _ => none

/-- The numbers of a tree from left to right. -/
def literalsOf (tree : SyntaxTree) : List Literal := tree.withAncestors.filterMap literal?

/-! ## Exemptions -/

/-- Whether a name is that of a constant: capital letters, digits and underscores, of
which the first that is no underscore is a letter. One line end may follow. -/
def isConstantName (name : String) : Bool :=
  match (withoutFinalLineEnd name.toList).dropWhile (· == '_') with
  | [] => false
  | first :: rest => first.isUpper && rest.all fun c => c.isUpper || c.isDigit || c == '_'

/-- Whether an expression is the name of a constant. -/
def isConstantTarget : Expr → Bool
  | .name _ id _ => isConstantName id
  | _ => false

/-- Whether a tree gives names to constants only. -/
def definesConstant (tree : SyntaxTree) : Bool :=
  match tree.label.node with
  | .stmt (.assign _ targets _) => targets.all isConstantTarget
  | .stmt (.annAssign _ target _ _) => isConstantTarget target
  | _ => false

/-- Which numbers need no name. -/
structure LiteralOptions where
  ignore : List Number
  ignoreArrayIndexes : Bool
  ignoreDefaultValues : Bool
deriving DecidableEq, Repr

/-- Whether a number is a whole index, or a bound or the step of a slice. -/
def Literal.isIndex (number : Literal) : Bool :=
  match nodeAbove number.parent with
  | some (.expr (.subscript ..)) => number.target.label.role == .index
  | some (.expr (.slice ..)) => true
  | _ => false

/-- Whether a number is the default of a parameter. -/
def Literal.isDefault (number : Literal) : Bool :=
  match nodeAbove number.parent with
  | some (.parameters _) => true
  | _ => false

/-- Whether a number needs no name. -/
def LiteralOptions.exempts (options : LiteralOptions) (number : Literal) : Bool :=
  number.value.equals 0 || number.value.equals 1 || options.ignore.any number.value.equals
    || number.parent.any definesConstant
    || (options.ignoreArrayIndexes && number.isIndex)
    || (options.ignoreDefaultValues && number.isDefault)

/-! ## The check -/

/-- The violation by a number. -/
def literalViolation (target : Expr) : Except SourceTextError Violation := do
  let text ← target.sourceText
  return {
    ruleId := .magNumber
    lineStart := target.position.line
    lineEnd := target.position.lastLine
    column := target.position.column
    symbol := placeSymbol target.position
    message := "Magic number \"" ++ text
      ++ "\" is discouraged. Consider using a named constant instead."
    snippet := text
    details := [("value", .string text)] }

/-- The expression that a number is. -/
def Literal.expr? (number : Literal) : Option Expr :=
  match number.target.label.node with
  | .expr expr => some expr
  | _ => none

/-- The numbers of a tree that need a name. -/
def unnamedNumbers (options : LiteralOptions) (tree : SyntaxTree) :
    Except SourceTextError (List Violation) :=
  (((literalsOf tree).filter fun number => !options.exempts number).filterMap
    Literal.expr?).mapM literalViolation

end DesignLint.Check
