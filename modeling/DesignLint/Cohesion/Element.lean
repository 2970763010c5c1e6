import DesignLint.Syntax.Names

/-!
# What cohesion analysis sees in a tree

Of all constructs the analysis distinguishes six: functions, classes, control
blocks, bound or referenced names, accesses to a member of a named object, and
everything else. Decorators, parameter defaults, base classes and class
keywords are evaluated outside the unit they introduce; they form its header.
-/

namespace DesignLint

/-- A range of lines, both ends included. -/
structure Span where
  startLine : Int
  endLine : Int
deriving DecidableEq, Repr

/-- The number of lines covered. -/
def Span.length (span : Span) : Int := span.endLine - span.startLine + 1

namespace Cohesion

open DesignLint.Syntax

/-! ## Kinds -/

/-- What a unit of analysis is. -/
inductive UnitKind where
  | function | «class»
deriving DecidableEq, Repr

/-- The kinds of blocks: control statements of a function, and methods of a
class. -/
inductive BlockType where
  | «if» | «for» | «while» | «match» | «try» | method
deriving DecidableEq, Repr

/-- How an occurrence of a name uses it. -/
inductive Binding where
  | load | store | delete | parameter
deriving DecidableEq, Repr

/-- The name of a unit kind. -/
def UnitKind.label : UnitKind → String
  | .function => "function"
  | .class => "class"

/-- The name of a block kind. -/
def BlockType.label : BlockType → String
  | .if => "if"
  | .for => "for"
  | .while => "while"
  | .match => "match"
  | .try => "try"
  | .method => "method"

/-- The name of a binding. -/
def Binding.label : Binding → String
  | .load => "load"
  | .store => "store"
  | .delete => "delete"
  | .parameter => "parameter"

/-- The unit kind with a given name. -/
def UnitKind.ofLabel? (label : String) : Option UnitKind :=
  [UnitKind.function, .class].find? fun kind => kind.label == label

/-- The block kind with a given name. -/
def BlockType.ofLabel? (label : String) : Option BlockType :=
  [BlockType.if, .for, .while, .match, .try, .method].find? fun type => type.label == label

/-- The binding with a given name. -/
def Binding.ofLabel? (label : String) : Option Binding :=
  [Binding.load, .store, .delete, .parameter].find? fun binding => binding.label == label

/-! ## Elements -/

/-- A function defined directly in a class body. -/
structure Method where
  name : String
  receiver : Option String
  isConstructor : Bool
deriving DecidableEq, Repr

/-- The parts of a header: their addresses below the unit, and the parts. -/
abbrev Header := List (Address × SyntaxTree)

/-- One of the constructs that cohesion analysis distinguishes. -/
inductive Element where
  | function (name : String) (span : Span) (method : Option Method) (bindsName : Bool)
      (header : Header)
  | class (name : String) (span : Span) (header : Header)
  | controlBlock (type : BlockType) (span : Span)
  | identifier (name : String) (binding : Binding)
  | memberAccess (receiver member : String)

/-- Names of methods that set an object up. -/
def isConstructorName (name : String) : Bool := name == "__init__" || name == "__new__"

/-! ## Headers -/

/-- The children of a tree in one role, with their numbers. -/
def childrenAs (role : Role) (tree : SyntaxTree) : List (Nat × SyntaxTree) :=
  (tree.children.zipIdx.filter fun child => child.1.label.role == role).map fun child =>
    (child.2, child.1)

/-- The children in one role, as parts of a header. -/
def headerChildren (role : Role) (tree : SyntaxTree) : Header :=
  (childrenAs role tree).map fun (index, child) => ([index], child)

/-- The grandchildren in one role below the children in another. -/
def headerGrandchildren (outer inner : Role) (tree : SyntaxTree) : Header :=
  (childrenAs outer tree).flatMap fun (index, child) =>
    (childrenAs inner child).map fun (next, part) => ([index, next], part)

/-- The defaults of a function's parameters. -/
def defaultsOf (tree : SyntaxTree) : Header :=
  headerGrandchildren .parameters .default tree
    ++ headerGrandchildren .parameters .keywordDefault tree

/-- The header of a function definition: decorators and defaults. -/
def functionHeader (tree : SyntaxTree) : Header :=
  headerChildren .decorator tree ++ defaultsOf tree

/-- The header of a class definition: decorators, bases and keyword values. -/
def classHeader (tree : SyntaxTree) : Header :=
  headerChildren .decorator tree ++ headerChildren .base tree
    ++ headerGrandchildren .keyword .value tree

/-! ## Classification -/

/-- The lines of a construct. -/
def linesOf (position : Position) : Span := ⟨position.line, position.lastLine⟩

/-- The binding of a name with a context. -/
def bindingOf : Context → Binding
  | .load => .load
  | .store => .store
  | .del => .delete

/-- A name that is there and not empty. -/
def nonemptyName (name : Option String) : Option String := name.filter fun text => !text.isEmpty

/-- The element that a statement is. -/
def stmtElement (tree : SyntaxTree) (parent : Option SyntaxTree) : Stmt → Option Element
  | .functionDef position _ name parameters _ decorators _ =>
    let method := match parent.map (·.label.node) with
      | some (.stmt (.classDef ..)) =>
        some ⟨name, selfName parameters decorators, isConstructorName name⟩
      | _ => none
    some (.function name (linesOf position) method true (functionHeader tree))
  | .classDef position name .. => some (.class name (linesOf position) (classHeader tree))
  | .ifStmt position .. => some (.controlBlock .if (linesOf position))
  | .forStmt position .. => some (.controlBlock .for (linesOf position))
  | .whileStmt position .. => some (.controlBlock .while (linesOf position))
  | .matchStmt position .. => some (.controlBlock .match (linesOf position))
  | .tryStmt position .. => some (.controlBlock .try (linesOf position))
  | _ => none

/-- The element that an expression is. -/
def exprElement (tree : SyntaxTree) : Expr → Option Element
  | .lambda position .. =>
    some (.function anonymous (linesOf position) none false (defaultsOf tree))
  | .name _ id context => some (.identifier id (bindingOf context))
  | .attr _ (.name _ receiver _) member _ => some (.memberAccess receiver member)
  | _ => none

/-- The element that a pattern is. -/
def patternElement : Pattern → Option Element
  | .capture _ _ name => (nonemptyName name).map (.identifier · .store)
  | .star _ name => (nonemptyName name).map (.identifier · .store)
  | _ => none

/-- The element that the root of a tree is, below the given parent. -/
def elementOf? (tree : SyntaxTree) (parent : Option SyntaxTree) : Option Element :=
  match tree.label.node with
  | .stmt stmt => stmtElement tree parent stmt
  | .expr expr => exprElement tree expr
  | .pattern pattern => patternElement pattern
  | .parameter parameter => some (.identifier parameter.name .parameter)
  | .handler (.mk _ _ name _) => (nonemptyName name).map (.identifier · .store)
  | .importAlias item =>
    if item.boundName = "*" then none else some (.identifier item.boundName .store)
  | _ => none

end Cohesion

end DesignLint
