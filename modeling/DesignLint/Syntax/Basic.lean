import DesignLint.Number.Binary64

/-!
# Syntax of Python modules

The tree of a parsed module, with one type per syntactic category. Expressions
do not contain statements, so they come first; patterns and statements build on
them. Every construct that has a place in the text carries its position.
-/

namespace DesignLint.Syntax

/-! ## Positions -/

/-- Where a construct stands: its first line, counted from one, the byte column
on that line, and its last line if that is known. -/
structure Position where
  line : Nat
  column : Nat
  endLine : Option Nat
deriving DecidableEq, Repr

/-- The last line of a construct: the line it starts on if no other is known. -/
def Position.lastLine (position : Position) : Nat :=
  match position.endLine with
  | some 0 => position.line
  | some line => line
  | none => position.line

/-! ## Operators and contexts -/

/-- What an expression is there for: its value, to be bound, or to be
unbound. -/
inductive Context where
  | load | store | del
deriving DecidableEq, Repr

/-- Short-circuit operators. -/
inductive BoolOp where
  | and | or
deriving DecidableEq, Repr

/-- Binary operators. -/
inductive BinOp where
  | add | sub | mult | matMult | div | mod | pow
  | lShift | rShift | bitOr | bitXor | bitAnd | floorDiv
deriving DecidableEq, Repr

/-- Unary operators. -/
inductive UnaryOp where
  | invert | not | uAdd | uSub
deriving DecidableEq, Repr

/-- Comparison operators. -/
inductive CompareOp where
  | eq | notEq | lt | ltE | gt | gtE | is | isNot | isIn | notIn
deriving DecidableEq, Repr

/-- A literal. A complex literal has no real part. -/
inductive Constant where
  | none
  | ellipsis
  | bool (value : Bool)
  | int (value : Nat)
  | float (value : Binary64)
  | complex (imaginary : Binary64)
  | str (value : String)
  | bytes (value : List UInt8)
deriving DecidableEq, Repr

/-! ## Expressions -/

mutual

/-- An expression. -/
inductive Expr where
  | boolOp (position : Position) (op : BoolOp) (operands : List Expr)
  | namedExpr (position : Position) (target value : Expr)
  | binOp (position : Position) (left : Expr) (op : BinOp) (right : Expr)
  | unaryOp (position : Position) (op : UnaryOp) (operand : Expr)
  | lambda (position : Position) (parameters : Parameters) (body : Expr)
  | ifExp (position : Position) (test body orElse : Expr)
  | dict (position : Position) (keys : List (Option Expr)) (values : List Expr)
  | set (position : Position) (elements : List Expr)
  | listComp (position : Position) (element : Expr) (clauses : List Comprehension)
  | setComp (position : Position) (element : Expr) (clauses : List Comprehension)
  | dictComp (position : Position) (key value : Expr) (clauses : List Comprehension)
  | generatorExp (position : Position) (element : Expr) (clauses : List Comprehension)
  | await (position : Position) (value : Expr)
  | yieldOne (position : Position) (value : Option Expr)
  | yieldFrom (position : Position) (value : Expr)
  | compare (position : Position) (left : Expr) (ops : List CompareOp) (comparators : List Expr)
  | call (position : Position) (callee : Expr) (arguments : List Expr) (keywords : List Keyword)
  | formattedValue (position : Position) (value : Expr) (conversion : Int) (format : Option Expr)
  | joinedStr (position : Position) (parts : List Expr)
  | constant (position : Position) (value : Constant) (kind : Option String)
  | attr (position : Position) (value : Expr) (name : String) (context : Context)
  | subscript (position : Position) (value index : Expr) (context : Context)
  | starred (position : Position) (value : Expr) (context : Context)
  | name (position : Position) (id : String) (context : Context)
  | list (position : Position) (elements : List Expr) (context : Context)
  | tuple (position : Position) (elements : List Expr) (context : Context)
  | slice (position : Position) (lower upper step : Option Expr)

/-- A parameter of a function. -/
inductive Parameter where
  | mk (position : Position) (name : String) (hint : Option Expr)

/-- The parameters of a function. The defaults belong to the last of the
positional parameters; keyword-only parameters have one slot each. -/
inductive Parameters where
  | mk (positionalOnly regular : List Parameter) (variadic : Option Parameter)
      (keywordOnly : List Parameter) (keywordDefaults : List (Option Expr))
      (keywordVariadic : Option Parameter) (defaults : List Expr)

/-- A keyword argument, or a mapping spread into them. -/
inductive Keyword where
  | mk (position : Position) (name : Option String) (value : Expr)

/-- One `for` clause of a comprehension with its conditions. -/
inductive Comprehension where
  | mk (target iter : Expr) (conditions : List Expr) (isAsync : Bool)

end

/-! ## Patterns -/

/-- A pattern of a match statement. -/
inductive Pattern where
  | equals (position : Position) (value : Expr)
  | singleton (position : Position) (value : Option Bool)
  | sequence (position : Position) (patterns : List Pattern)
  | mapping (position : Position) (keys : List Expr) (patterns : List Pattern)
      (rest : Option String)
  | ofClass (position : Position) (cls : Expr) (patterns : List Pattern) (attrs : List String)
      (attrPatterns : List Pattern)
  | star (position : Position) (name : Option String)
  | capture (position : Position) (pattern : Option Pattern) (name : Option String)
  | or (position : Position) (patterns : List Pattern)

/-! ## Statements -/

/-- One imported name. -/
structure Alias where
  position : Position
  name : String
  asName : Option String
deriving DecidableEq, Repr

/-- One manager of a `with` statement. -/
structure WithItem where
  manager : Expr
  target : Option Expr

mutual

/-- A statement. -/
inductive Stmt where
  | functionDef (position : Position) (isAsync : Bool) (name : String) (parameters : Parameters)
      (body : List Stmt) (decorators : List Expr) (returns : Option Expr)
  | classDef (position : Position) (name : String) (bases : List Expr) (keywords : List Keyword)
      (body : List Stmt) (decorators : List Expr)
  | returnStmt (position : Position) (value : Option Expr)
  | deleteStmt (position : Position) (targets : List Expr)
  | assign (position : Position) (targets : List Expr) (value : Expr)
  | augAssign (position : Position) (target : Expr) (op : BinOp) (value : Expr)
  | annAssign (position : Position) (target hint : Expr) (value : Option Expr)
  | forStmt (position : Position) (isAsync : Bool) (target iter : Expr) (body orElse : List Stmt)
  | whileStmt (position : Position) (test : Expr) (body orElse : List Stmt)
  | ifStmt (position : Position) (test : Expr) (body orElse : List Stmt)
  | withStmt (position : Position) (isAsync : Bool) (items : List WithItem) (body : List Stmt)
  | matchStmt (position : Position) (subject : Expr) (cases : List MatchCase)
  | raiseStmt (position : Position) (exception cause : Option Expr)
  | tryStmt (position : Position) (isStar : Bool) (body : List Stmt) (handlers : List Handler)
      (orElse final : List Stmt)
  | assertStmt (position : Position) (test : Expr) (message : Option Expr)
  | importNames (position : Position) (names : List Alias)
  | importFrom (position : Position) (module : Option String) (names : List Alias) (level : Nat)
  | globalNames (position : Position) (names : List String)
  | nonlocalNames (position : Position) (names : List String)
  | expr (position : Position) (value : Expr)
  | passStmt (position : Position)
  | breakStmt (position : Position)
  | continueStmt (position : Position)

/-- One case of a match statement. -/
inductive MatchCase where
  | mk (pattern : Pattern) (guard : Option Expr) (body : List Stmt)

/-- One exception handler. -/
inductive Handler where
  | mk (position : Position) (type : Option Expr) (name : Option String) (body : List Stmt)

end

/-- A parsed module. -/
structure Module where
  body : List Stmt

/-! ## Parts of constructs -/

namespace Expr

/-- Where an expression stands. -/
def position : Expr → Position
  | boolOp p .. | namedExpr p .. | binOp p .. | unaryOp p .. | lambda p .. | ifExp p ..
  | dict p .. | set p .. | listComp p .. | setComp p .. | dictComp p .. | generatorExp p ..
  | await p .. | yieldOne p .. | yieldFrom p .. | compare p .. | call p .. | formattedValue p ..
  | joinedStr p .. | constant p .. | attr p .. | subscript p .. | starred p .. | name p ..
  | list p .. | tuple p .. | slice p .. => p

end Expr

namespace Stmt

/-- Where a statement stands. -/
def position : Stmt → Position
  | functionDef p .. | classDef p .. | returnStmt p .. | deleteStmt p .. | assign p ..
  | augAssign p .. | annAssign p .. | forStmt p .. | whileStmt p .. | ifStmt p .. | withStmt p ..
  | matchStmt p .. | raiseStmt p .. | tryStmt p .. | assertStmt p .. | importNames p ..
  | importFrom p .. | globalNames p .. | nonlocalNames p .. | expr p .. | passStmt p
  | breakStmt p | continueStmt p => p

end Stmt

namespace Pattern

/-- Where a pattern stands. -/
def position : Pattern → Position
  | equals p .. | singleton p .. | sequence p .. | mapping p .. | ofClass p .. | star p ..
  | capture p .. | or p .. => p

end Pattern

namespace Parameter

/-- Where a parameter stands. -/
def position : Parameter → Position
  | mk position _ _ => position

/-- The name a parameter binds. -/
def name : Parameter → String
  | mk _ name _ => name

/-- The type written behind a parameter. -/
def hint : Parameter → Option Expr
  | mk _ _ hint => hint

end Parameter

namespace Parameters

/-- The parameters before the bare or variadic star, in order. -/
def positional : Parameters → List Parameter
  | mk positionalOnly regular _ _ _ _ _ => positionalOnly ++ regular

/-- The parameters that are given by name only. -/
def keywordOnly : Parameters → List Parameter
  | mk _ _ _ keywordOnly _ _ _ => keywordOnly

/-- The slots for the defaults of the keyword-only parameters. -/
def keywordDefaults : Parameters → List (Option Expr)
  | mk _ _ _ _ keywordDefaults _ _ => keywordDefaults

/-- The defaults of the last positional parameters. -/
def defaults : Parameters → List Expr
  | mk _ _ _ _ _ _ defaults => defaults

/-- The parameter that collects positional arguments. -/
def variadic : Parameters → Option Parameter
  | mk _ _ variadic _ _ _ _ => variadic

/-- The parameter that collects keyword arguments. -/
def keywordVariadic : Parameters → Option Parameter
  | mk _ _ _ _ _ keywordVariadic _ => keywordVariadic

end Parameters

/-- The name of an expression's kind. -/
def Expr.kindName : Expr → String
  | .boolOp .. => "BoolOp"
  | .namedExpr .. => "NamedExpr"
  | .binOp .. => "BinOp"
  | .unaryOp .. => "UnaryOp"
  | .lambda .. => "Lambda"
  | .ifExp .. => "IfExp"
  | .dict .. => "Dict"
  | .set .. => "Set"
  | .listComp .. => "ListComp"
  | .setComp .. => "SetComp"
  | .dictComp .. => "DictComp"
  | .generatorExp .. => "GeneratorExp"
  | .await .. => "Await"
  | .yieldOne .. => "Yield"
  | .yieldFrom .. => "YieldFrom"
  | .compare .. => "Compare"
  | .call .. => "Call"
  | .formattedValue .. => "FormattedValue"
  | .joinedStr .. => "JoinedStr"
  | .constant .. => "Constant"
  | .attr .. => "Attribute"
  | .subscript .. => "Subscript"
  | .starred .. => "Starred"
  | .name .. => "Name"
  | .list .. => "List"
  | .tuple .. => "Tuple"
  | .slice .. => "Slice"

/-! ## Results of parsing

The text of a module is parsed elsewhere. A parser gives the module, finds a
syntax error on a line, or refuses a text that cannot be source code at all. -/

/-- Why a text has no module. -/
inductive ParseError where
  | syntaxError (line : Option Int) (message : String)
  | refused (message : String)
deriving DecidableEq, Repr

/-- What a parser makes of a text. -/
abbrev ParseResult := Except ParseError Module

/-- The character that ends texts elsewhere. No path has it. -/
def zeroCharacter : Char := '\x00'

/-- Whether a text can stand for a path. -/
def isUsablePath (path : String) : Bool := !path.toList.contains zeroCharacter

/-- What a parser makes of a text when it is told the path of the text. A path that cannot be one
is refused before the text is read. -/
def ParseResult.under (parsed : ParseResult) (path : String) : ParseResult :=
  if isUsablePath path then parsed else .error (.refused "embedded null character")

end DesignLint.Syntax
