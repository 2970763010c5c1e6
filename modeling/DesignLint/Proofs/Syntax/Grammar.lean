import DesignLint.Syntax.Names
import Mathlib.Data.List.ReduceOption

/-!
# What can stand below a construct

The trees that stand for syntax, and the one law about them that cohesion analysis
relies on: the parts of a header are expressions, and statements stand only below
statements and their clauses.
-/

namespace DesignLint.Syntax

/-! ## Lists of parts -/

@[simp]
theorem Expr.trees_eq_map (role : Role) (exprs : List Expr) :
    Expr.trees role exprs = exprs.map (Expr.tree role) := by
  induction exprs with
  | nil => rfl
  | cons expr exprs inductionHypothesis => rw [Expr.trees, inductionHypothesis, List.map_cons]

@[simp]
theorem Expr.presentTrees_eq_map (role : Role) (slots : List (Option Expr)) :
    Expr.presentTrees role slots = slots.reduceOption.map (Expr.tree role) := by
  induction slots with
  | nil => rfl
  | cons slot slots inductionHypothesis =>
      cases slot <;> simp [Expr.presentTrees, inductionHypothesis]

@[simp]
theorem Expr.optionTree_eq_map (role : Role) (expr : Option Expr) :
    Expr.optionTree role expr = expr.toList.map (Expr.tree role) := by
  cases expr <;> rfl

@[simp]
theorem Parameter.trees_eq_map (parameters : List Parameter) :
    Parameter.trees parameters = parameters.map Parameter.tree := by
  induction parameters with
  | nil => rfl
  | cons parameter parameters inductionHypothesis =>
      rw [Parameter.trees, inductionHypothesis, List.map_cons]

@[simp]
theorem Parameter.optionTree_eq_map (parameter : Option Parameter) :
    Parameter.optionTree parameter = parameter.toList.map Parameter.tree := by
  cases parameter <;> rfl

/-- The tree of a keyword argument. -/
def Keyword.tree : Keyword → SyntaxTree
  | k@(.mk _ _ value) => .node ⟨.keyword, .keyword k⟩ [value.tree .value]

@[simp]
theorem Keyword.trees_eq_map (keywords : List Keyword) :
    Keyword.trees keywords = keywords.map Keyword.tree := by
  induction keywords with
  | nil => rfl
  | cons keyword keywords inductionHypothesis =>
      cases keyword
      rw [Keyword.trees, inductionHypothesis, List.map_cons, Keyword.tree]

/-- The tree of one clause of a comprehension. -/
def Comprehension.tree : Comprehension → SyntaxTree
  | c@(.mk target iter conditions _) =>
    .node ⟨.clause, .comprehension c⟩
      (target.tree .target :: iter.tree .iter :: Expr.trees .condition conditions)

@[simp]
theorem Comprehension.trees_eq_map (clauses : List Comprehension) :
    Comprehension.trees clauses = clauses.map Comprehension.tree := by
  induction clauses with
  | nil => rfl
  | cons clause clauses inductionHypothesis =>
      cases clause
      rw [Comprehension.trees, inductionHypothesis, List.map_cons, Comprehension.tree]

@[simp]
theorem Pattern.trees_eq_map (patterns : List Pattern) :
    Pattern.trees patterns = patterns.map Pattern.tree := by
  induction patterns with
  | nil => rfl
  | cons pattern patterns inductionHypothesis =>
      rw [Pattern.trees, inductionHypothesis, List.map_cons]

@[simp]
theorem Pattern.optionTree_eq_map (pattern : Option Pattern) :
    Pattern.optionTree pattern = pattern.toList.map Pattern.tree := by
  cases pattern <;> rfl

@[simp]
theorem Stmt.trees_eq_map (role : Role) (stmts : List Stmt) :
    Stmt.trees role stmts = stmts.map (Stmt.tree role) := by
  induction stmts with
  | nil => rfl
  | cons stmt stmts inductionHypothesis => rw [Stmt.trees, inductionHypothesis, List.map_cons]

/-- The tree of one case of a match statement. -/
def MatchCase.tree : MatchCase → SyntaxTree
  | c@(.mk pattern guard body) =>
    .node ⟨.matchCase, .matchCase c⟩
      (pattern.tree :: Expr.optionTree .guard guard ++ Stmt.trees .body body)

@[simp]
theorem MatchCase.trees_eq_map (cases : List MatchCase) :
    MatchCase.trees cases = cases.map MatchCase.tree := by
  induction cases with
  | nil => rfl
  | cons first rest inductionHypothesis =>
      cases first
      rw [MatchCase.trees, inductionHypothesis, List.map_cons, MatchCase.tree]

/-- The tree of one exception handler. -/
def Handler.tree : Handler → SyntaxTree
  | h@(.mk _ type _ body) =>
    .node ⟨.handler, .handler h⟩ (Expr.optionTree .exception type ++ Stmt.trees .body body)

@[simp]
theorem Handler.trees_eq_map (handlers : List Handler) :
    Handler.trees handlers = handlers.map Handler.tree := by
  induction handlers with
  | nil => rfl
  | cons handler handlers inductionHypothesis =>
      cases handler
      rw [Handler.trees, inductionHypothesis, List.map_cons, Handler.tree]

/-! ## Trees that stand for syntax -/

/-- The trees of the constructs of a module. -/
inductive StandsForSyntax : SyntaxTree → Prop where
  | module (module : Module) : StandsForSyntax module.tree
  | stmt (role : Role) (stmt : Stmt) : StandsForSyntax (stmt.tree role)
  | expr (role : Role) (expr : Expr) : StandsForSyntax (expr.tree role)
  | pattern (pattern : Pattern) : StandsForSyntax pattern.tree
  | parameters (parameters : Parameters) : StandsForSyntax parameters.tree
  | parameter (parameter : Parameter) : StandsForSyntax parameter.tree
  | keyword (keyword : Keyword) : StandsForSyntax keyword.tree
  | comprehension (clause : Comprehension) : StandsForSyntax clause.tree
  | importAlias (item : Alias) : StandsForSyntax item.tree
  | withItem (item : WithItem) : StandsForSyntax item.tree
  | matchCase (matchCase : MatchCase) : StandsForSyntax matchCase.tree
  | handler (handler : Handler) : StandsForSyntax handler.tree
  | token (role : Role) (token : Token) : StandsForSyntax (token.tree role)

/-- Whether statements can stand right below a construct. -/
def holdsStatements : Node → Bool
  | .module _ | .stmt _ | .matchCase _ | .handler _ => true
  | _ => false

@[simp]
theorem holdsStatements_module (module : Module) : holdsStatements (.module module) = true := by
  simp only [holdsStatements]

@[simp]
theorem holdsStatements_stmt (stmt : Stmt) : holdsStatements (.stmt stmt) = true := by
  simp only [holdsStatements]

@[simp]
theorem holdsStatements_matchCase (matchCase : MatchCase) :
    holdsStatements (.matchCase matchCase) = true := by
  simp only [holdsStatements]

@[simp]
theorem holdsStatements_handler (handler : Handler) :
    holdsStatements (.handler handler) = true := by
  simp only [holdsStatements]

/-- What the grammar says about a construct and a part of it: which roles belong
to parameter lists, keyword arguments and expressions, and that only statements
and their clauses contain statements. -/
structure Fits (above : Node) (below : Occurrence) : Prop where
  parameters : below.role = .parameters → ∃ parameters, below.node = .parameters parameters
  keyword : below.role = .keyword → ∃ keyword, below.node = .keyword keyword
  evaluated : below.role ∈ [.decorator, .base, .default, .keywordDefault, .value] →
    ∃ expr, below.node = .expr expr
  statements : holdsStatements below.node → holdsStatements above

@[simp]
theorem Expr.label_tree (role : Role) (expr : Expr) :
    (expr.tree role).label = ⟨role, .expr expr⟩ := by
  cases expr <;> rfl

@[simp]
theorem Stmt.label_tree (role : Role) (stmt : Stmt) :
    (stmt.tree role).label = ⟨role, .stmt stmt⟩ := by
  cases stmt <;> rfl

@[simp]
theorem Pattern.label_tree (pattern : Pattern) :
    pattern.tree.label = ⟨.pattern, .pattern pattern⟩ := by
  cases pattern <;> rfl

/-- A tree that can stand below a construct. -/
def IsPart (above : Node) (tree : SyntaxTree) : Prop :=
  StandsForSyntax tree ∧ Fits above tree.label

theorem isPart_expr (above : Node) {role : Role} (expr : Expr)
    (notParameters : role ≠ .parameters) (notKeyword : role ≠ .keyword) :
    IsPart above (expr.tree role) := by
  refine ⟨.expr role expr, ?_, ?_, ?_, ?_⟩ <;> simp [notParameters, notKeyword, holdsStatements]

/-- The roles of expressions that a unit evaluates outside, and of what holds
them. -/
def headerRoles : List Role :=
  [.parameters, .keyword, .decorator, .base, .default, .keywordDefault, .value]

theorem isPart_stmt {above : Node} {role : Role} (stmt : Stmt)
    (holds : holdsStatements above) (plain : role ∉ headerRoles) :
    IsPart above (stmt.tree role) := by
  simp only [headerRoles, List.mem_cons, List.not_mem_nil, or_false, not_or] at plain
  refine ⟨.stmt role stmt, ?_, ?_, ?_, ?_⟩ <;> simp [holds, plain]

theorem isPart_pattern (above : Node) (pattern : Pattern) : IsPart above pattern.tree := by
  refine ⟨.pattern pattern, ?_, ?_, ?_, ?_⟩ <;> simp [holdsStatements]

theorem isPart_parameters (above : Node) (parameters : Parameters) :
    IsPart above parameters.tree := by
  refine ⟨.parameters parameters, ?_, ?_, ?_, ?_⟩ <;>
    cases parameters <;> simp [Parameters.tree, Tree.label, holdsStatements]

theorem isPart_parameter (above : Node) (parameter : Parameter) :
    IsPart above parameter.tree := by
  refine ⟨.parameter parameter, ?_, ?_, ?_, ?_⟩ <;>
    cases parameter <;> simp [Parameter.tree, Tree.label, holdsStatements]

theorem isPart_keyword (above : Node) (keyword : Keyword) : IsPart above keyword.tree := by
  refine ⟨.keyword keyword, ?_, ?_, ?_, ?_⟩ <;>
    cases keyword <;> simp [Keyword.tree, Tree.label, holdsStatements]

theorem isPart_comprehension (above : Node) (clause : Comprehension) :
    IsPart above clause.tree := by
  refine ⟨.comprehension clause, ?_, ?_, ?_, ?_⟩ <;>
    cases clause <;> simp [Comprehension.tree, Tree.label, holdsStatements]

theorem isPart_importAlias (above : Node) (item : Alias) : IsPart above item.tree := by
  refine ⟨.importAlias item, ?_, ?_, ?_, ?_⟩ <;> simp [Alias.tree, Tree.label, holdsStatements]

theorem isPart_withItem (above : Node) (item : WithItem) : IsPart above item.tree := by
  refine ⟨.withItem item, ?_, ?_, ?_, ?_⟩ <;> simp [WithItem.tree, Tree.label, holdsStatements]

theorem isPart_matchCase {above : Node} (matchCase : MatchCase)
    (holds : holdsStatements above) : IsPart above matchCase.tree := by
  refine ⟨.matchCase matchCase, ?_, ?_, ?_, ?_⟩ <;>
    cases matchCase <;> simp [MatchCase.tree, Tree.label, holds]

theorem isPart_handler {above : Node} (handler : Handler)
    (holds : holdsStatements above) : IsPart above handler.tree := by
  refine ⟨.handler handler, ?_, ?_, ?_, ?_⟩ <;>
    cases handler <;> simp [Handler.tree, Tree.label, holds]

theorem isPart_token (above : Node) {role : Role} (token : Token)
    (plain : role ∉ headerRoles) : IsPart above (token.tree role) := by
  simp only [headerRoles, List.mem_cons, List.not_mem_nil, or_false, not_or] at plain
  refine ⟨.token role token, ?_, ?_, ?_, ?_⟩ <;>
    simp [Token.tree, Tree.label, plain, holdsStatements]

theorem Expr.isPart_of_mem_children (role : Role) (expr : Expr) :
    ∀ part ∈ (expr.tree role).children, IsPart (.expr expr) part := by
  cases expr <;>
    simp [Expr.tree, Tree.children, Context.tree, or_imp, forall_and, isPart_expr,
      isPart_token, isPart_parameters, isPart_comprehension, isPart_keyword, headerRoles]

theorem Pattern.isPart_of_mem_children (pattern : Pattern) :
    ∀ part ∈ pattern.tree.children, IsPart (.pattern pattern) part := by
  cases pattern <;>
    simp [Pattern.tree, Tree.children, or_imp, forall_and, isPart_expr, isPart_pattern]

theorem Stmt.isPart_of_mem_children (role : Role) (stmt : Stmt) :
    ∀ part ∈ (stmt.tree role).children, IsPart (.stmt stmt) part := by
  cases stmt <;>
    simp [Stmt.tree, Tree.children, or_imp, forall_and, isPart_expr, isPart_stmt,
      isPart_parameters, isPart_keyword, isPart_withItem, isPart_matchCase, isPart_handler,
      isPart_importAlias, isPart_token, headerRoles]

/-- The grammar law: what stands right below a construct is a construct that fits
there. -/
theorem StandsForSyntax.isPart_of_mem_children {tree : SyntaxTree}
    (syntaxTree : StandsForSyntax tree) :
    ∀ part ∈ tree.children, IsPart tree.label.node part := by
  cases syntaxTree with
  | module module =>
      simp [Module.tree, Tree.children, Tree.label, isPart_stmt, headerRoles]
  | stmt role stmt => simpa using stmt.isPart_of_mem_children role
  | expr role expr => simpa using expr.isPart_of_mem_children role
  | pattern pattern => simpa using pattern.isPart_of_mem_children
  | parameters parameters =>
      cases parameters
      simp [Parameters.tree, Tree.children, or_imp, forall_and, isPart_parameter, isPart_expr]
  | parameter parameter =>
      cases parameter
      simp [Parameter.tree, Tree.children, isPart_expr]
  | keyword keyword =>
      cases keyword
      simp [Keyword.tree, Tree.children, isPart_expr]
  | comprehension clause =>
      cases clause
      simp [Comprehension.tree, Tree.children, or_imp, forall_and, isPart_expr]
  | importAlias item => simp [Alias.tree, Tree.children]
  | withItem item =>
      simp [WithItem.tree, Tree.children, isPart_expr]
  | matchCase matchCase =>
      cases matchCase
      simp [MatchCase.tree, Tree.children, Tree.label, or_imp, forall_and, isPart_expr,
        isPart_pattern, isPart_stmt, headerRoles]
  | handler handler =>
      cases handler
      simp [Handler.tree, Tree.children, Tree.label, or_imp, forall_and, isPart_expr, isPart_stmt,
        headerRoles]
  | token role token => simp [Token.tree, Tree.children]

end DesignLint.Syntax
