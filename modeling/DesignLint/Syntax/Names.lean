import DesignLint.Syntax.Occurrence

/-!
# Names in the syntax

Which name an import binds, how a lambda is called, and which name a method
gives to the object it is called on.
-/

namespace DesignLint.Syntax

/-- The name of a lambda. -/
def anonymous : String := "anonymous"

/-- The first component of a dotted name. -/
def firstComponent (dotted : String) : String :=
  String.ofList (dotted.toList.takeWhile (· != '.'))

/-- The name that an import binds in its scope. -/
def Alias.boundName (item : Alias) : String :=
  match item.asName with
  | some name => if name.isEmpty then firstComponent item.name else name
  | none => firstComponent item.name

/-! ## Receivers -/

/-- Whether a decorator makes a method static. -/
def isStaticDecorator : Expr → Bool
  | .name _ id _ => id == "staticmethod"
  | .attr _ _ name _ => name == "staticmethod"
  | _ => false

/-- The name that a method gives to the object it is called on: its first
positional parameter, unless it is static. -/
def selfName (parameters : Parameters) (decorators : List Expr) : Option String :=
  if decorators.any isStaticDecorator then none
  else parameters.positional.head?.map Parameter.name

/-- Whether a tree is a class definition. -/
def isClass (tree : SyntaxTree) : Bool :=
  tree.label.node matches .stmt (.classDef ..)

/-- The receiver of a tree that is a method of its parent. -/
def selfNameOf (tree : SyntaxTree) (parent : Option SyntaxTree) : Option String :=
  match tree.label.node with
  | .stmt (.functionDef _ _ _ parameters _ decorators _) =>
    if parent.any isClass then selfName parameters decorators else none
  | _ => none

/-! ## Functions -/

/-- Whether a tree is a function definition. -/
def isFunctionDef (tree : SyntaxTree) : Bool :=
  tree.label.node matches .stmt (.functionDef ..)

/-- The parameters of a function definition or a lambda. -/
def parametersOf (tree : SyntaxTree) : Option Parameters :=
  match tree.label.node with
  | .stmt (.functionDef _ _ _ parameters ..) => some parameters
  | .expr (.lambda _ parameters _) => some parameters
  | _ => none

/-- The name of a function or class definition. -/
def definedName (tree : SyntaxTree) : Option String :=
  match tree.label.node with
  | .stmt (.functionDef _ _ name ..) => some name
  | .stmt (.classDef _ name ..) => some name
  | _ => none

/-- Whether a construct has a scope of its own. -/
def hasOwnScope (occurrence : Occurrence) : Bool :=
  match occurrence.node with
  | .stmt (.functionDef ..) | .stmt (.classDef ..) | .expr (.lambda ..) => true
  | _ => false

/-- The children of a tree in one role. -/
def childrenIn (role : Role) (tree : SyntaxTree) : List SyntaxTree :=
  tree.children.filter fun child => child.label.role == role

end DesignLint.Syntax
