import DesignLint.Check.Violation
import DesignLint.Syntax.Names

/-!
# Meaningful names

Names of functions, classes, parameters and variables are judged once in each
scope, at their first occurrence. The name of a definition belongs to the scope
around it, every other name to the nearest scope.
-/

namespace DesignLint.Check

open DesignLint.Syntax

/-! ## Scopes -/

/-- A scope: where it stands, and how symbols show it. -/
structure NameScope where
  address : Address
  label : String
deriving DecidableEq, Repr

/-- Whether a tree opens a scope. -/
def opensScope (tree : SyntaxTree) : Bool :=
  match tree.label.node with
  | .module _ | .stmt (.functionDef ..) | .stmt (.classDef ..) | .expr (.lambda ..) => true
  | _ => false

/-- The scope for the children of a tree. -/
def NameScope.below (scope : NameScope) (address : Address) (tree : SyntaxTree) : NameScope :=
  if opensScope tree then ⟨address, (definedName tree).getD "<module>"⟩ else scope

/-! ## Names -/

/-- A name with the place that gives it and its scope. -/
structure GivenName where
  name : String
  position : Position
  scope : NameScope
deriving DecidableEq, Repr

/-- The name that a construct gives, with its place. Attributes count if asked. -/
def nameGiven? (checkProperties : Bool) : Node → Option (String × Position)
  | .stmt (.functionDef position _ name ..) => some (name, position)
  | .stmt (.classDef position name ..) => some (name, position)
  | .parameter parameter => some (parameter.name, parameter.position)
  | .expr (.name position id .store) => some (id, position)
  | .expr (.attr position _ name .store) => if checkProperties then some (name, position) else none
  | _ => none

/-- The names given in a tree, from left to right. -/
def givenNames (checkProperties : Bool) (tree : SyntaxTree) : List GivenName :=
  (tree.visits NameScope.below ⟨[], "<module>"⟩ []).filterMap fun visit =>
    (nameGiven? checkProperties visit.tree.label.node).map fun (name, position) =>
      ⟨name, position, visit.context⟩

/-- Whether two occurrences are of one name in one scope. -/
def GivenName.sameName (a b : GivenName) : Bool :=
  a.name == b.name && a.scope.address == b.scope.address

/-- The first occurrences of the names that have not been met before. -/
def newOccurrences (met : List GivenName) : List GivenName → List GivenName
  | [] => []
  | given :: rest =>
    if met.any given.sameName then newOccurrences met rest
    else given :: newOccurrences (given :: met) rest

/-- The first occurrence of every name in every scope. -/
def firstOccurrences (names : List GivenName) : List GivenName := newOccurrences [] names

/-! ## The check -/

/-- Which names are short, which short ones are fine, and which ones never. -/
structure NamingOptions where
  minLength : Number
  allowedNames : List String
  disallowedNames : List String
  checkProperties : Bool
deriving DecidableEq, Repr

/-- What is wrong with a name. -/
def NamingOptions.objection? (options : NamingOptions) (name : String) :
    Option (RuleId × String) :=
  if options.allowedNames.contains name then none
  else if options.disallowedNames.contains name then
    some (.namDisallowed,
      "Name \"" ++ name ++ "\" is not allowed. Consider using a more descriptive name.")
  else if (Number.int name.length).lt options.minLength then
    some (.namTooShort,
      "Name \"" ++ name ++ "\" is too short (minimum " ++ options.minLength.text
        ++ " characters).")
  else none

/-- The violation by a name. -/
def namingViolation? (options : NamingOptions) (given : GivenName) : Option Violation :=
  (options.objection? given.name).map fun (ruleId, message) => {
    ruleId := ruleId
    lineStart := given.position.line
    lineEnd := given.position.line
    column := given.position.column
    symbol := given.scope.label ++ "." ++ given.name
    message := message
    snippet := given.name
    details := [("name", .string given.name)] }

/-- The names of a tree that mean nothing. -/
def meaninglessNames (options : NamingOptions) (tree : SyntaxTree) : List Violation :=
  (firstOccurrences (givenNames options.checkProperties tree)).filterMap
    (namingViolation? options)

end DesignLint.Check
