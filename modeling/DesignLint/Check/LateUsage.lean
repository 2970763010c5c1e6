import DesignLint.Check.Violation
import DesignLint.Syntax.Names

/-!
# Late usage

A variable should be read soon after it is bound, and a parameter soon after
the signature. For variables the names of a function are taken in the order of
the text; each binding is reported at most once, at its first late read.
-/

namespace DesignLint.Check

open DesignLint.Syntax

/-- The largest distance in lines between a binding and a read. -/
structure LateUsageOptions where
  maxLines : Number
deriving DecidableEq, Repr

/-- The number of lines from one to another. -/
def lineDistance (first last : Nat) : Int := Int.ofNat last - Int.ofNat first

/-- Whether a distance is too large. -/
def LateUsageOptions.isLate (options : LateUsageOptions) (distance : Int) : Bool :=
  options.maxLines.lt (.int distance)

/-! ## Functions and their names -/

/-- The function definitions of a tree with their parents, by the level of the
parent. -/
def functionsIn (tree : SyntaxTree) : List (SyntaxTree × SyntaxTree) :=
  tree.levelOrder.flatMap fun parent =>
    (parent.children.filter isFunctionDef).map fun function => (function, parent)

/-- A name with its place and context. -/
structure NameUse where
  name : String
  position : Position
  context : Context
deriving DecidableEq, Repr

/-- The name that a tree is. -/
def nameUse? (tree : SyntaxTree) : Option NameUse :=
  match tree.label.node with
  | .expr (.name position id context) => some ⟨id, position, context⟩
  | _ => none

/-- Whether a name may stand before another one in the text. At one place a
binding stands before a read. -/
def NameUse.textOrder (a b : NameUse) : Bool :=
  if a.position.line ≠ b.position.line then decide (a.position.line < b.position.line)
  else if a.position.column ≠ b.position.column then
    decide (a.position.column < b.position.column)
  else a.context != .load || b.context == .load

/-- The names in the own scope of a function, in the order of the text. -/
def ownNames (function : SyntaxTree) : List NameUse :=
  ((Tree.preorderRightAll hasOwnScope (childrenIn .body function)).filterMap
    nameUse?).mergeSort NameUse.textOrder

/-! ## Variables -/

/-- The latest binding of a name: its line, and whether it has been reported. -/
structure LatestBinding where
  name : String
  line : Nat
  reported : Bool
deriving DecidableEq, Repr

/-- A late read: the binding and the read. -/
structure LateRead where
  name : String
  boundLine : Nat
  position : Position
deriving DecidableEq, Repr

/-- The latest bindings with one more. -/
def rebind (bindings : List LatestBinding) (latest : LatestBinding) : List LatestBinding :=
  latest :: bindings.filter fun binding => binding.name != latest.name

/-- The late reads among names in the order of the text, after some bindings. -/
def lateReads (options : LateUsageOptions) (bindings : List LatestBinding) :
    List NameUse → List LateRead
  | [] => []
  | use :: uses =>
    if use.context != .load then
      lateReads options (rebind bindings ⟨use.name, use.position.line, false⟩) uses
    else
      match bindings.find? fun binding => binding.name == use.name with
      | none => lateReads options bindings uses
      | some binding =>
        if !binding.reported
            && options.isLate (lineDistance binding.line use.position.line) then
          ⟨use.name, binding.line, use.position⟩
            :: lateReads options (rebind bindings { binding with reported := true }) uses
        else lateReads options bindings uses

/-- The violation by a late read in a function. -/
def lateReadViolation (options : LateUsageOptions) (function : SyntaxTree) (read : LateRead) :
    Violation :=
  let line := read.position.line
  { ruleId := .lateVariable
    lineStart := line
    lineEnd := line
    column := read.position.column
    symbol := (definedName function).getD anonymous ++ "." ++ read.name ++ "@"
      ++ toString read.boundLine
    message := "Variable \"" ++ read.name ++ "\" is used too late: "
      ++ toString (lineDistance read.boundLine line) ++ " lines after declaration (max: "
      ++ options.maxLines.text ++ "). Declared on line " ++ toString read.boundLine
      ++ ", first used on line " ++ toString line ++ "."
    snippet := read.name
    details := [("declaration_line", .nat read.boundLine), ("usage_line", .nat line)] }

/-- The variables of a tree that are read late. -/
def lateVariables (options : LateUsageOptions) (tree : SyntaxTree) : List Violation :=
  (functionsIn tree).flatMap fun (function, _) =>
    (lateReads options [] (ownNames function)).map (lateReadViolation options function)

/-! ## Parameters -/

/-- The lines on which a name is read below some trees. -/
def readLines (name : String) (trees : List SyntaxTree) : List Nat :=
  (Tree.preorderAll trees).filterMap fun tree =>
    match tree.label.node with
    | .expr (.name position id .load) => if id = name then some position.line else none
    | _ => none

/-- The least of some lines. -/
def leastLine : List Nat → Option Nat
  | [] => none
  | line :: lines => some (lines.foldl min line)

/-- The violation by a parameter of a function that is read late. -/
def lateParameter? (options : LateUsageOptions) (function : SyntaxTree) (line column : Nat)
    (name : String) : Option Violation := do
  let used ← leastLine (readLines name (childrenIn .body function))
  let distance := lineDistance line used
  if options.isLate distance then
    let shownName := (definedName function).getD anonymous
    some {
      ruleId := .lateArgument
      lineStart := line
      lineEnd := used
      column := column
      symbol := shownName ++ "." ++ name
      message := "Argument \"" ++ name ++ "\" is used " ++ toString distance
        ++ " lines after its declaration (max: " ++ options.maxLines.text ++ ")."
      snippet := "def " ++ shownName ++ "(… " ++ name ++ " …)"
      details := [("usage_line", .nat used)] }
  else none

/-- The violations by the parameters of a method or function. The receiver does
not count, and neither do collecting parameters. -/
def lateParametersOf (options : LateUsageOptions) (function parent : SyntaxTree) :
    List Violation :=
  match function.label.node with
  | .stmt (.functionDef position _ _ parameters ..) =>
    let names := (parameters.positional ++ parameters.keywordOnly).map Parameter.name
    let receiver := selfNameOf function (some parent)
    (names.filter fun name => receiver != some name).filterMap
      (lateParameter? options function position.line position.column)
  | _ => []

/-- The parameters of a tree that are read late. -/
def lateArguments (options : LateUsageOptions) (tree : SyntaxTree) : List Violation :=
  (functionsIn tree).flatMap fun (function, parent) =>
    lateParametersOf options function parent

end DesignLint.Check
