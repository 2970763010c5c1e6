import DesignLint.Check.Violation
import DesignLint.Syntax.Occurrence

/-!
# Nesting of control statements

The depth of a control statement is the number of control statements around it
in the same function, itself included. A branch written as `elif` is on the
level of its `if`, and every function starts again at zero.
-/

namespace DesignLint.Check

open DesignLint.Syntax

/-! ## Depth -/

/-- Whether a tree is a statement that adds a level. -/
def isControl (tree : SyntaxTree) : Bool :=
  match tree.label.node with
  | .stmt (.ifStmt ..) | .stmt (.forStmt ..) | .stmt (.whileStmt ..) | .stmt (.withStmt ..)
  | .stmt (.tryStmt ..) | .stmt (.matchStmt ..) => true
  | _ => false

/-- Whether a tree starts a function body. -/
def startsFunction (tree : SyntaxTree) : Bool :=
  match tree.label.node with
  | .stmt (.functionDef ..) | .expr (.lambda ..) => true
  | _ => false

/-- Whether an `if` is the only alternative of the `if` right above it and stands
in the same column. -/
def continuesChain (tree : SyntaxTree) (parent : Option SyntaxTree) : Bool :=
  match tree.label.node, nodeAbove parent with
  | .stmt (.ifStmt position ..), some (.stmt (.ifStmt outer _ _ orElse)) =>
    tree.label.role == .orElse && orElse.length == 1 && position.column == outer.column
  | _, _ => false

/-- Whether a tree adds a level below its parent. -/
def deepens (tree : SyntaxTree) (parent : Option SyntaxTree) : Bool :=
  isControl tree && !continuesChain tree parent

/-- The depth of a node, from the parent and the depth there. -/
structure Nesting where
  depth : Nat
  parent : Option SyntaxTree

/-- The depth of a tree. -/
def Nesting.depthOf (around : Nesting) (tree : SyntaxTree) : Nat :=
  if startsFunction tree then 0
  else if deepens tree around.parent then around.depth + 1
  else around.depth

/-- All subtrees with their surroundings. -/
def nestingVisits (tree : SyntaxTree) : List (Visit Occurrence Nesting) :=
  tree.visits (fun around _ tree => ⟨around.depthOf tree, some tree⟩) ⟨0, none⟩ []

/-! ## The check -/

/-- The limit on the depth of control statements. -/
structure NestingOptions where
  maxDepth : Number
deriving DecidableEq, Repr

/-- The violation by a subtree that adds a level too many. -/
def nestingViolation? (options : NestingOptions) (visit : Visit Occurrence Nesting) :
    Option Violation :=
  let depth := visit.context.depthOf visit.tree
  match visit.tree.label.node with
  | .stmt stmt =>
    if deepens visit.tree visit.context.parent && options.maxDepth.lt (.int depth) then
      some {
        ruleId := .cpxNesting
        lineStart := stmt.position.line
        lineEnd := stmt.position.lastLine
        column := stmt.position.column
        symbol := placeSymbol stmt.position
        message := "Nesting depth of " ++ toString depth ++ " exceeds maximum allowed depth of "
          ++ options.maxDepth.text ++ ". Consider refactoring with guard clauses or extracting "
          ++ "to helper functions."
        snippet := stmt.kindName.toLower ++ "  # depth=" ++ toString depth
        details := [("depth", .nat depth)] }
    else none
  | _ => none

/-- The control statements of a tree that stand too deep. -/
def deepNesting (options : NestingOptions) (tree : SyntaxTree) : List Violation :=
  (nestingVisits tree).filterMap (nestingViolation? options)

end DesignLint.Check
