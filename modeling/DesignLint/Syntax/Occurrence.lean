import DesignLint.Syntax.Basic
import DesignLint.Syntax.Tree

/-!
# The syntax tree as an ordered tree

Analyses walk one ordered tree whose nodes are all constructs of a module:
statements, expressions, parameters, clauses, and also the operators and
contexts. Each node knows the role it plays for the node above it. The order of
the children is the order in which the grammar names the parts of a construct;
for a function the decorators thus follow the body.
-/

namespace DesignLint.Syntax

/-! ## Nodes -/

/-- Operators and contexts, which have no parts and no position. -/
inductive Token where
  | context (context : Context)
  | boolOp (op : BoolOp)
  | binOp (op : BinOp)
  | unaryOp (op : UnaryOp)
  | compareOp (op : CompareOp)
deriving DecidableEq, Repr

/-- Any construct of a module. -/
inductive Node where
  | module (module : Module)
  | stmt (stmt : Stmt)
  | expr (expr : Expr)
  | pattern (pattern : Pattern)
  | parameters (parameters : Parameters)
  | parameter (parameter : Parameter)
  | keyword (keyword : Keyword)
  | comprehension (clause : Comprehension)
  | importAlias (item : Alias)
  | withItem (item : WithItem)
  | matchCase (matchCase : MatchCase)
  | handler (handler : Handler)
  | token (token : Token)

/-- The part of the construct above that a node is. -/
inductive Role where
  | root | target | iter | value | element | key | operand | operator | context
  | test | body | orElse | final | handler | message | exception | cause
  | decorator | returns | base | keyword | parameters | parameter | hint
  | default | keywordDefault | callee | argument | index | bound | format
  | clause | condition | item | manager | subject | matchCase | pattern | guard | name
deriving DecidableEq, Repr

/-- A node and the role it plays. -/
structure Occurrence where
  role : Role
  node : Node

/-- A module, or a part of one, as an ordered tree. -/
abbrev SyntaxTree := Tree Occurrence

namespace Tree

/-- The construct at the root. -/
def node (tree : SyntaxTree) : Node := tree.label.node

/-- The role of the root for what stands above it. -/
def role (tree : SyntaxTree) : Role := tree.label.role

end Tree

/-- The construct at the root of a tree that may be absent. -/
def nodeAbove (parent : Option SyntaxTree) : Option Node := parent.map fun tree => tree.label.node

/-! ## Building the tree -/

/-- The tree of an operator or a context. -/
def Token.tree (role : Role) (token : Token) : SyntaxTree := .node ⟨role, .token token⟩ []

/-- The tree of a context. -/
def Context.tree (context : Context) : SyntaxTree := (Token.context context).tree .context

/-- The tree of an imported name. -/
def Alias.tree (item : Alias) : SyntaxTree := .node ⟨.name, .importAlias item⟩ []

mutual

/-- The tree of an expression. -/
def Expr.tree (role : Role) : Expr → SyntaxTree
  | e@(.boolOp _ op operands) =>
    .node ⟨role, .expr e⟩ ((Token.boolOp op).tree .operator :: Expr.trees .operand operands)
  | e@(.namedExpr _ target value) =>
    .node ⟨role, .expr e⟩ [target.tree .target, value.tree .value]
  | e@(.binOp _ left op right) =>
    .node ⟨role, .expr e⟩
      [left.tree .operand, (Token.binOp op).tree .operator, right.tree .operand]
  | e@(.unaryOp _ op operand) =>
    .node ⟨role, .expr e⟩ [(Token.unaryOp op).tree .operator, operand.tree .operand]
  | e@(.lambda _ parameters body) => .node ⟨role, .expr e⟩ [parameters.tree, body.tree .body]
  | e@(.ifExp _ test body orElse) =>
    .node ⟨role, .expr e⟩ [test.tree .test, body.tree .body, orElse.tree .orElse]
  | e@(.dict _ keys values) =>
    .node ⟨role, .expr e⟩ (Expr.presentTrees .key keys ++ Expr.trees .value values)
  | e@(.set _ elements) => .node ⟨role, .expr e⟩ (Expr.trees .element elements)
  | e@(.listComp _ element clauses) =>
    .node ⟨role, .expr e⟩ (element.tree .element :: Comprehension.trees clauses)
  | e@(.setComp _ element clauses) =>
    .node ⟨role, .expr e⟩ (element.tree .element :: Comprehension.trees clauses)
  | e@(.dictComp _ key value clauses) =>
    .node ⟨role, .expr e⟩ (key.tree .key :: value.tree .value :: Comprehension.trees clauses)
  | e@(.generatorExp _ element clauses) =>
    .node ⟨role, .expr e⟩ (element.tree .element :: Comprehension.trees clauses)
  | e@(.await _ value) => .node ⟨role, .expr e⟩ [value.tree .value]
  | e@(.yieldOne _ value) => .node ⟨role, .expr e⟩ (Expr.optionTree .value value)
  | e@(.yieldFrom _ value) => .node ⟨role, .expr e⟩ [value.tree .value]
  | e@(.compare _ left ops comparators) =>
    .node ⟨role, .expr e⟩
      (left.tree .operand :: (ops.map fun op => (Token.compareOp op).tree .operator)
        ++ Expr.trees .operand comparators)
  | e@(.call _ callee arguments keywords) =>
    .node ⟨role, .expr e⟩
      (callee.tree .callee :: Expr.trees .argument arguments ++ Keyword.trees keywords)
  | e@(.formattedValue _ value _ format) =>
    .node ⟨role, .expr e⟩ (value.tree .value :: Expr.optionTree .format format)
  | e@(.joinedStr _ parts) => .node ⟨role, .expr e⟩ (Expr.trees .element parts)
  | e@(.constant _ _ _) => .node ⟨role, .expr e⟩ []
  | e@(.attr _ value _ context) => .node ⟨role, .expr e⟩ [value.tree .value, context.tree]
  | e@(.subscript _ value index context) =>
    .node ⟨role, .expr e⟩ [value.tree .value, index.tree .index, context.tree]
  | e@(.starred _ value context) => .node ⟨role, .expr e⟩ [value.tree .value, context.tree]
  | e@(.name _ _ context) => .node ⟨role, .expr e⟩ [context.tree]
  | e@(.list _ elements context) =>
    .node ⟨role, .expr e⟩ (Expr.trees .element elements ++ [context.tree])
  | e@(.tuple _ elements context) =>
    .node ⟨role, .expr e⟩ (Expr.trees .element elements ++ [context.tree])
  | e@(.slice _ lower upper step) =>
    .node ⟨role, .expr e⟩
      (Expr.optionTree .bound lower ++ Expr.optionTree .bound upper ++ Expr.optionTree .bound step)

/-- The trees of expressions in one role. -/
def Expr.trees (role : Role) : List Expr → List SyntaxTree
  | [] => []
  | expr :: exprs => expr.tree role :: Expr.trees role exprs

/-- The tree of an expression that may be absent. -/
def Expr.optionTree (role : Role) : Option Expr → List SyntaxTree
  | none => []
  | some expr => [expr.tree role]

/-- The trees of the expressions present in a list of slots. -/
def Expr.presentTrees (role : Role) : List (Option Expr) → List SyntaxTree
  | [] => []
  | none :: slots => Expr.presentTrees role slots
  | some expr :: slots => expr.tree role :: Expr.presentTrees role slots

/-- The tree of a parameter. -/
def Parameter.tree : Parameter → SyntaxTree
  | p@(.mk _ _ hint) => .node ⟨.parameter, .parameter p⟩ (Expr.optionTree .hint hint)

/-- The trees of parameters. -/
def Parameter.trees : List Parameter → List SyntaxTree
  | [] => []
  | parameter :: parameters => parameter.tree :: Parameter.trees parameters

/-- The tree of a parameter that may be absent. -/
def Parameter.optionTree : Option Parameter → List SyntaxTree
  | none => []
  | some parameter => [parameter.tree]

/-- The tree of the parameters of a function. -/
def Parameters.tree : Parameters → SyntaxTree
  | p@(.mk positionalOnly regular variadic keywordOnly keywordDefaults keywordVariadic defaults) =>
    .node ⟨.parameters, .parameters p⟩
      (Parameter.trees positionalOnly ++ Parameter.trees regular ++ Parameter.optionTree variadic
        ++ Parameter.trees keywordOnly ++ Expr.presentTrees .keywordDefault keywordDefaults
        ++ Parameter.optionTree keywordVariadic ++ Expr.trees .default defaults)

/-- The trees of keyword arguments. -/
def Keyword.trees : List Keyword → List SyntaxTree
  | [] => []
  | k@(.mk _ _ value) :: keywords =>
    .node ⟨.keyword, .keyword k⟩ [value.tree .value] :: Keyword.trees keywords

/-- The trees of the clauses of a comprehension. -/
def Comprehension.trees : List Comprehension → List SyntaxTree
  | [] => []
  | c@(.mk target iter conditions _) :: clauses =>
    .node ⟨.clause, .comprehension c⟩
      (target.tree .target :: iter.tree .iter :: Expr.trees .condition conditions)
      :: Comprehension.trees clauses

end

mutual

/-- The tree of a pattern. -/
def Pattern.tree : Pattern → SyntaxTree
  | p@(.equals _ value) => .node ⟨.pattern, .pattern p⟩ [value.tree .value]
  | p@(.singleton _ _) => .node ⟨.pattern, .pattern p⟩ []
  | p@(.sequence _ patterns) => .node ⟨.pattern, .pattern p⟩ (Pattern.trees patterns)
  | p@(.mapping _ keys patterns _) =>
    .node ⟨.pattern, .pattern p⟩ (Expr.trees .key keys ++ Pattern.trees patterns)
  | p@(.ofClass _ cls patterns _ attrPatterns) =>
    .node ⟨.pattern, .pattern p⟩
      (cls.tree .callee :: Pattern.trees patterns ++ Pattern.trees attrPatterns)
  | p@(.star _ _) => .node ⟨.pattern, .pattern p⟩ []
  | p@(.capture _ inner _) => .node ⟨.pattern, .pattern p⟩ (Pattern.optionTree inner)
  | p@(.or _ patterns) => .node ⟨.pattern, .pattern p⟩ (Pattern.trees patterns)

/-- The trees of patterns. -/
def Pattern.trees : List Pattern → List SyntaxTree
  | [] => []
  | pattern :: patterns => pattern.tree :: Pattern.trees patterns

/-- The tree of a pattern that may be absent. -/
def Pattern.optionTree : Option Pattern → List SyntaxTree
  | none => []
  | some pattern => [pattern.tree]

end

/-- The tree of a manager of a `with` statement. -/
def WithItem.tree (item : WithItem) : SyntaxTree :=
  .node ⟨.item, .withItem item⟩
    (item.manager.tree .manager :: Expr.optionTree .target item.target)

mutual

/-- The tree of a statement. -/
def Stmt.tree (role : Role) : Stmt → SyntaxTree
  | s@(.functionDef _ _ _ parameters body decorators returns) =>
    .node ⟨role, .stmt s⟩
      (parameters.tree :: Stmt.trees .body body ++ Expr.trees .decorator decorators
        ++ Expr.optionTree .returns returns)
  | s@(.classDef _ _ bases keywords body decorators) =>
    .node ⟨role, .stmt s⟩
      (Expr.trees .base bases ++ Keyword.trees keywords ++ Stmt.trees .body body
        ++ Expr.trees .decorator decorators)
  | s@(.returnStmt _ value) => .node ⟨role, .stmt s⟩ (Expr.optionTree .value value)
  | s@(.deleteStmt _ targets) => .node ⟨role, .stmt s⟩ (Expr.trees .target targets)
  | s@(.assign _ targets value) =>
    .node ⟨role, .stmt s⟩ (Expr.trees .target targets ++ [value.tree .value])
  | s@(.augAssign _ target op value) =>
    .node ⟨role, .stmt s⟩
      [target.tree .target, (Token.binOp op).tree .operator, value.tree .value]
  | s@(.annAssign _ target hint value) =>
    .node ⟨role, .stmt s⟩
      (target.tree .target :: hint.tree .hint :: Expr.optionTree .value value)
  | s@(.forStmt _ _ target iter body orElse) =>
    .node ⟨role, .stmt s⟩
      (target.tree .target :: iter.tree .iter :: Stmt.trees .body body
        ++ Stmt.trees .orElse orElse)
  | s@(.whileStmt _ test body orElse) =>
    .node ⟨role, .stmt s⟩
      (test.tree .test :: Stmt.trees .body body ++ Stmt.trees .orElse orElse)
  | s@(.ifStmt _ test body orElse) =>
    .node ⟨role, .stmt s⟩
      (test.tree .test :: Stmt.trees .body body ++ Stmt.trees .orElse orElse)
  | s@(.withStmt _ _ items body) =>
    .node ⟨role, .stmt s⟩ (items.map WithItem.tree ++ Stmt.trees .body body)
  | s@(.matchStmt _ subject cases) =>
    .node ⟨role, .stmt s⟩ (subject.tree .subject :: MatchCase.trees cases)
  | s@(.raiseStmt _ exception cause) =>
    .node ⟨role, .stmt s⟩ (Expr.optionTree .exception exception ++ Expr.optionTree .cause cause)
  | s@(.tryStmt _ _ body handlers orElse final) =>
    .node ⟨role, .stmt s⟩
      (Stmt.trees .body body ++ Handler.trees handlers ++ Stmt.trees .orElse orElse
        ++ Stmt.trees .final final)
  | s@(.assertStmt _ test message) =>
    .node ⟨role, .stmt s⟩ (test.tree .test :: Expr.optionTree .message message)
  | s@(.importNames _ names) => .node ⟨role, .stmt s⟩ (names.map Alias.tree)
  | s@(.importFrom _ _ names _) => .node ⟨role, .stmt s⟩ (names.map Alias.tree)
  | s@(.globalNames _ _) => .node ⟨role, .stmt s⟩ []
  | s@(.nonlocalNames _ _) => .node ⟨role, .stmt s⟩ []
  | s@(.expr _ value) => .node ⟨role, .stmt s⟩ [value.tree .value]
  | s@(.passStmt _) => .node ⟨role, .stmt s⟩ []
  | s@(.breakStmt _) => .node ⟨role, .stmt s⟩ []
  | s@(.continueStmt _) => .node ⟨role, .stmt s⟩ []

/-- The trees of statements in one role. -/
def Stmt.trees (role : Role) : List Stmt → List SyntaxTree
  | [] => []
  | stmt :: stmts => stmt.tree role :: Stmt.trees role stmts

/-- The trees of the cases of a match statement. -/
def MatchCase.trees : List MatchCase → List SyntaxTree
  | [] => []
  | c@(.mk pattern guard body) :: cases =>
    .node ⟨.matchCase, .matchCase c⟩
      (pattern.tree :: Expr.optionTree .guard guard ++ Stmt.trees .body body)
      :: MatchCase.trees cases

/-- The trees of exception handlers. -/
def Handler.trees : List Handler → List SyntaxTree
  | [] => []
  | h@(.mk _ type _ body) :: handlers =>
    .node ⟨.handler, .handler h⟩ (Expr.optionTree .exception type ++ Stmt.trees .body body)
      :: Handler.trees handlers

end

/-- The tree of a module. -/
def Module.tree (module : Module) : SyntaxTree :=
  .node ⟨.root, .module module⟩ (Stmt.trees .body module.body)

/-! ## Names of the kinds of constructs -/

/-- The name of an operator or context. -/
def Token.kindName : Token → String
  | .context .load => "Load"
  | .context .store => "Store"
  | .context .del => "Del"
  | .boolOp .and => "And"
  | .boolOp .or => "Or"
  | .binOp .add => "Add"
  | .binOp .sub => "Sub"
  | .binOp .mult => "Mult"
  | .binOp .matMult => "MatMult"
  | .binOp .div => "Div"
  | .binOp .mod => "Mod"
  | .binOp .pow => "Pow"
  | .binOp .lShift => "LShift"
  | .binOp .rShift => "RShift"
  | .binOp .bitOr => "BitOr"
  | .binOp .bitXor => "BitXor"
  | .binOp .bitAnd => "BitAnd"
  | .binOp .floorDiv => "FloorDiv"
  | .unaryOp .invert => "Invert"
  | .unaryOp .not => "Not"
  | .unaryOp .uAdd => "UAdd"
  | .unaryOp .uSub => "USub"
  | .compareOp .eq => "Eq"
  | .compareOp .notEq => "NotEq"
  | .compareOp .lt => "Lt"
  | .compareOp .ltE => "LtE"
  | .compareOp .gt => "Gt"
  | .compareOp .gtE => "GtE"
  | .compareOp .is => "Is"
  | .compareOp .isNot => "IsNot"
  | .compareOp .isIn => "In"
  | .compareOp .notIn => "NotIn"

/-- The name of a pattern's kind. -/
def Pattern.kindName : Pattern → String
  | .equals .. => "MatchValue"
  | .singleton .. => "MatchSingleton"
  | .sequence .. => "MatchSequence"
  | .mapping .. => "MatchMapping"
  | .ofClass .. => "MatchClass"
  | .star .. => "MatchStar"
  | .capture .. => "MatchAs"
  | .or .. => "MatchOr"

/-- The name of a statement's kind. -/
def Stmt.kindName : Stmt → String
  | .functionDef _ false .. => "FunctionDef"
  | .functionDef _ true .. => "AsyncFunctionDef"
  | .classDef .. => "ClassDef"
  | .returnStmt .. => "Return"
  | .deleteStmt .. => "Delete"
  | .assign .. => "Assign"
  | .augAssign .. => "AugAssign"
  | .annAssign .. => "AnnAssign"
  | .forStmt _ false .. => "For"
  | .forStmt _ true .. => "AsyncFor"
  | .whileStmt .. => "While"
  | .ifStmt .. => "If"
  | .withStmt _ false .. => "With"
  | .withStmt _ true .. => "AsyncWith"
  | .matchStmt .. => "Match"
  | .raiseStmt .. => "Raise"
  | .tryStmt _ false .. => "Try"
  | .tryStmt _ true .. => "TryStar"
  | .assertStmt .. => "Assert"
  | .importNames .. => "Import"
  | .importFrom .. => "ImportFrom"
  | .globalNames .. => "Global"
  | .nonlocalNames .. => "Nonlocal"
  | .expr .. => "Expr"
  | .passStmt .. => "Pass"
  | .breakStmt .. => "Break"
  | .continueStmt .. => "Continue"

/-- The name of a construct's kind. -/
def Node.kindName : Node → String
  | .module _ => "Module"
  | .stmt s => s.kindName
  | .expr e => e.kindName
  | .pattern p => p.kindName
  | .parameters _ => "arguments"
  | .parameter _ => "arg"
  | .keyword _ => "keyword"
  | .comprehension _ => "comprehension"
  | .importAlias _ => "alias"
  | .withItem _ => "withitem"
  | .matchCase _ => "match_case"
  | .handler _ => "ExceptHandler"
  | .token t => t.kindName

/-! ## Positions -/

/-- Where a construct stands, for the kinds that have a place of their own. -/
def Node.position? : Node → Option Position
  | .stmt s => some s.position
  | .expr e => some e.position
  | .pattern p => some p.position
  | .parameter p => some p.position
  | .keyword (.mk position _ _) => some position
  | .importAlias a => some a.position
  | .handler (.mk position _ _ _) => some position
  | .module _ | .parameters _ | .comprehension _ | .withItem _ | .matchCase _ | .token _ => none

end DesignLint.Syntax
