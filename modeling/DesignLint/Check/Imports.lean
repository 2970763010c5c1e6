import DesignLint.Check.Violation
import DesignLint.Syntax.Occurrence
import DesignLint.Text.Wildcard

/-!
# Numbers of imports

The modules a file imports from are counted once each. Imports that only serve
type checking can be left out, and so can modules whose names match patterns.
-/

namespace DesignLint.Check

open DesignLint.Syntax

/-! ## The imports of a tree -/

/-- Whether a condition holds for type checkers only. -/
def isTypeOnlyTest : Expr → Bool
  | .name _ id _ => id == "TYPE_CHECKING"
  | .attr _ _ name _ => name == "TYPE_CHECKING"
  | _ => false

/-- Whether a tree is an `if` for type checkers. -/
def isTypeOnly (tree : SyntaxTree) : Bool :=
  match tree.label.node with
  | .stmt (.ifStmt _ test _ _) => isTypeOnlyTest test
  | _ => false

/-- The modules that an import names. -/
def importedModules : Stmt → List String
  | .importNames _ names => names.map (·.name)
  | .importFrom _ module _ level =>
    [String.ofList (List.replicate level '.') ++ module.getD ""]
  | _ => []

/-- The modules that a tree names if it is an import. -/
def modulesOf (tree : SyntaxTree) : List String :=
  match tree.label.node with
  | .stmt stmt => importedModules stmt
  | _ => []

/-- Whether a tree is an import. -/
def isImport (tree : SyntaxTree) : Bool :=
  match tree.label.node with
  | .stmt (.importNames ..) | .stmt (.importFrom ..) => true
  | _ => false

/-- The parts of a tree among which imports are looked for: of an `if` for type checkers the
alternative only, if asked. -/
def searchedParts (skipTypeOnly : Bool) (tree : SyntaxTree) : List SyntaxTree :=
  tree.children.filter fun part =>
    !(skipTypeOnly && isTypeOnly tree) || part.label.role == .orElse

/-- To search the parts of a tree is less than to search the tree. -/
theorem sizeAll_searchedParts_append_lt (skipTypeOnly : Bool) (tree : SyntaxTree)
    (stack : List SyntaxTree) :
    Tree.sizeAll (searchedParts skipTypeOnly tree ++ stack) < Tree.sizeAll (tree :: stack) := by
  have parts : Tree.sizeAll (searchedParts skipTypeOnly tree) < tree.size :=
    Nat.lt_of_le_of_lt (Tree.sizeAll_filter_le _ _) tree.sizeAll_children_lt
  rw [Tree.sizeAll_append, Tree.sizeAll]
  omega

/-- The imports in a stack of trees, the first tree on top. An import is taken; any other tree
leaves its searched parts on the stack, in their order. -/
def importsOn (skipTypeOnly : Bool) : List SyntaxTree → List SyntaxTree
  | [] => []
  | tree :: stack =>
    if isImport tree then tree :: importsOn skipTypeOnly stack
    else importsOn skipTypeOnly (searchedParts skipTypeOnly tree ++ stack)
termination_by stack => Tree.sizeAll stack
decreasing_by
  · have positive := tree.sizeAll_children_lt
    rw [Tree.sizeAll]
    omega
  · exact sizeAll_searchedParts_append_lt skipTypeOnly tree stack

/-- The modules named by the imports of a tree, from top to bottom. -/
def moduleNames (skipTypeOnly : Bool) (tree : SyntaxTree) : List String :=
  (importsOn skipTypeOnly [tree]).flatMap modulesOf

/-! ## The check -/

/-- The limit on imported modules, and which ones do not count. -/
structure ImportOptions where
  maxImports : Number
  ignoreTypeImports : Bool
  ignorePatterns : List String
deriving DecidableEq, Repr

/-- Whether a module does not count. -/
def isIgnoredModule (patterns : List String) (module : String) : Bool :=
  patterns.any fun pattern => wildcardMatches pattern module

/-- The distinct modules that count, in the order of their first import. -/
def countedModules (options : ImportOptions) (tree : SyntaxTree) : List String :=
  (moduleNames options.ignoreTypeImports tree).foldl (fun counted module =>
    if counted.contains module || isIgnoredModule options.ignorePatterns module then counted
    else counted ++ [module]) []

/-- The last line of the statements of a module; one if there are none. -/
def lastLineOf (module : Module) : Nat :=
  match module.body.map fun stmt => stmt.position.lastLine with
  | [] => 1
  | line :: lines => lines.foldl max line

/-- The violation by a module that imports from too many others. -/
def importViolations (options : ImportOptions) (module : Module) : List Violation :=
  let modules := countedModules options module.tree
  if options.maxImports.lt (.int modules.length) then
    [{ ruleId := .cplImports
       lineStart := 1
       lineEnd := lastLineOf module
       column := 0
       symbol := "<module>"
       message := "File has high import coupling: " ++ toString modules.length
        ++ " module imports (max: " ++ options.maxImports.text ++ ").\n\nImported modules:\n"
        ++ "\n".intercalate (modules.map fun name => "  - " ++ name)
        ++ "\n\nConsider splitting this module into smaller, focused modules."
       snippet := "# imports=" ++ toString modules.length
       details := [("modules", .strings modules)] }]
  else []

end DesignLint.Check
