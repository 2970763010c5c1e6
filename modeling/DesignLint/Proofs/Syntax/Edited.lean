import DesignLint.Proofs.Syntax.Grammar
import DesignLint.Proofs.Syntax.Relabel

/-!
# Edited code

An edit changes the positions and the names in a piece of syntax, each kind of text in its own
way, and keeps the constructs. The tree of edited syntax is the tree of the syntax with edited
nodes.
-/

namespace DesignLint.Syntax

/-- What becomes of positions, of identifiers, of the names of keyword arguments, and of the dotted
names of modules. -/
structure Edit where
  position : Position → Position
  name : String → String
  keyword : String → String
  dotted : String → String

/-! ## Expressions -/

mutual

/-- The expression after an edit. -/
def Expr.edited (edit : Edit) : Expr → Expr
  | .boolOp p op operands => .boolOp (edit.position p) op (Expr.editedAll edit operands)
  | .namedExpr p target value =>
    .namedExpr (edit.position p) (target.edited edit) (value.edited edit)
  | .binOp p left op right => .binOp (edit.position p) (left.edited edit) op (right.edited edit)
  | .unaryOp p op operand => .unaryOp (edit.position p) op (operand.edited edit)
  | .lambda p parameters body =>
    .lambda (edit.position p) (parameters.edited edit) (body.edited edit)
  | .ifExp p test body orElse =>
    .ifExp (edit.position p) (test.edited edit) (body.edited edit) (orElse.edited edit)
  | .dict p keys values =>
    .dict (edit.position p) (Expr.editedSlots edit keys) (Expr.editedAll edit values)
  | .set p elements => .set (edit.position p) (Expr.editedAll edit elements)
  | .listComp p element clauses =>
    .listComp (edit.position p) (element.edited edit) (Comprehension.editedAll edit clauses)
  | .setComp p element clauses =>
    .setComp (edit.position p) (element.edited edit) (Comprehension.editedAll edit clauses)
  | .dictComp p key value clauses =>
    .dictComp (edit.position p) (key.edited edit) (value.edited edit)
      (Comprehension.editedAll edit clauses)
  | .generatorExp p element clauses =>
    .generatorExp (edit.position p) (element.edited edit) (Comprehension.editedAll edit clauses)
  | .await p value => .await (edit.position p) (value.edited edit)
  | .yieldOne p value => .yieldOne (edit.position p) (Expr.editedOption edit value)
  | .yieldFrom p value => .yieldFrom (edit.position p) (value.edited edit)
  | .compare p left ops comparators =>
    .compare (edit.position p) (left.edited edit) ops (Expr.editedAll edit comparators)
  | .call p callee arguments keywords =>
    .call (edit.position p) (callee.edited edit) (Expr.editedAll edit arguments)
      (Keyword.editedAll edit keywords)
  | .formattedValue p value conversion format =>
    .formattedValue (edit.position p) (value.edited edit) conversion
      (Expr.editedOption edit format)
  | .joinedStr p parts => .joinedStr (edit.position p) (Expr.editedAll edit parts)
  | .constant p value kind => .constant (edit.position p) value kind
  | .attr p value name context =>
    .attr (edit.position p) (value.edited edit) (edit.name name) context
  | .subscript p value index context =>
    .subscript (edit.position p) (value.edited edit) (index.edited edit) context
  | .starred p value context => .starred (edit.position p) (value.edited edit) context
  | .name p id context => .name (edit.position p) (edit.name id) context
  | .list p elements context => .list (edit.position p) (Expr.editedAll edit elements) context
  | .tuple p elements context => .tuple (edit.position p) (Expr.editedAll edit elements) context
  | .slice p lower upper step =>
    .slice (edit.position p) (Expr.editedOption edit lower) (Expr.editedOption edit upper)
      (Expr.editedOption edit step)

/-- Expressions after an edit. -/
def Expr.editedAll (edit : Edit) : List Expr → List Expr
  | [] => []
  | expr :: exprs => expr.edited edit :: Expr.editedAll edit exprs

/-- An expression that may be absent, after an edit. -/
def Expr.editedOption (edit : Edit) : Option Expr → Option Expr
  | none => none
  | some expr => some (expr.edited edit)

/-- Slots for expressions, after an edit. -/
def Expr.editedSlots (edit : Edit) : List (Option Expr) → List (Option Expr)
  | [] => []
  | none :: slots => none :: Expr.editedSlots edit slots
  | some expr :: slots => some (expr.edited edit) :: Expr.editedSlots edit slots

/-- The parameter after an edit. -/
def Parameter.edited (edit : Edit) : Parameter → Parameter
  | .mk p name hint => .mk (edit.position p) (edit.name name) (Expr.editedOption edit hint)

/-- Parameters after an edit. -/
def Parameter.editedAll (edit : Edit) : List Parameter → List Parameter
  | [] => []
  | parameter :: parameters => parameter.edited edit :: Parameter.editedAll edit parameters

/-- A parameter that may be absent, after an edit. -/
def Parameter.editedOption (edit : Edit) : Option Parameter → Option Parameter
  | none => none
  | some parameter => some (parameter.edited edit)

/-- The parameters of a function, after an edit. -/
def Parameters.edited (edit : Edit) : Parameters → Parameters
  | .mk positionalOnly regular variadic keywordOnly keywordDefaults keywordVariadic defaults =>
    .mk (Parameter.editedAll edit positionalOnly) (Parameter.editedAll edit regular)
      (Parameter.editedOption edit variadic) (Parameter.editedAll edit keywordOnly)
      (Expr.editedSlots edit keywordDefaults) (Parameter.editedOption edit keywordVariadic)
      (Expr.editedAll edit defaults)

/-- The keyword argument after an edit. -/
def Keyword.edited (edit : Edit) : Keyword → Keyword
  | .mk p name value => .mk (edit.position p) (name.map edit.keyword) (value.edited edit)

/-- Keyword arguments after an edit. -/
def Keyword.editedAll (edit : Edit) : List Keyword → List Keyword
  | [] => []
  | keyword :: keywords => keyword.edited edit :: Keyword.editedAll edit keywords

/-- The clause of a comprehension after an edit. -/
def Comprehension.edited (edit : Edit) : Comprehension → Comprehension
  | .mk target iter conditions isAsync =>
    .mk (target.edited edit) (iter.edited edit) (Expr.editedAll edit conditions) isAsync

/-- The clauses of a comprehension after an edit. -/
def Comprehension.editedAll (edit : Edit) : List Comprehension → List Comprehension
  | [] => []
  | clause :: clauses => clause.edited edit :: Comprehension.editedAll edit clauses

end

/-! ## Patterns and statements -/

mutual

/-- The pattern after an edit. -/
def Pattern.edited (edit : Edit) : Pattern → Pattern
  | .equals p value => .equals (edit.position p) (value.edited edit)
  | .singleton p value => .singleton (edit.position p) value
  | .sequence p patterns => .sequence (edit.position p) (Pattern.editedAll edit patterns)
  | .mapping p keys patterns rest =>
    .mapping (edit.position p) (Expr.editedAll edit keys) (Pattern.editedAll edit patterns)
      (rest.map edit.name)
  | .ofClass p cls patterns attrs attrPatterns =>
    .ofClass (edit.position p) (cls.edited edit) (Pattern.editedAll edit patterns)
      (attrs.map edit.name) (Pattern.editedAll edit attrPatterns)
  | .star p name => .star (edit.position p) (name.map edit.name)
  | .capture p pattern name =>
    .capture (edit.position p) (Pattern.editedOption edit pattern) (name.map edit.name)
  | .or p patterns => .or (edit.position p) (Pattern.editedAll edit patterns)

/-- Patterns after an edit. -/
def Pattern.editedAll (edit : Edit) : List Pattern → List Pattern
  | [] => []
  | pattern :: patterns => pattern.edited edit :: Pattern.editedAll edit patterns

/-- A pattern that may be absent, after an edit. -/
def Pattern.editedOption (edit : Edit) : Option Pattern → Option Pattern
  | none => none
  | some pattern => some (pattern.edited edit)

end

/-- The imported name after an edit. -/
def Alias.edited (edit : Edit) (item : Alias) : Alias :=
  ⟨edit.position item.position, edit.dotted item.name, item.asName.map edit.name⟩

/-- The manager of a `with` statement after an edit. -/
def WithItem.edited (edit : Edit) (item : WithItem) : WithItem :=
  ⟨item.manager.edited edit, item.target.map (Expr.edited edit)⟩

mutual

/-- The statement after an edit. -/
def Stmt.edited (edit : Edit) : Stmt → Stmt
  | .functionDef p isAsync name parameters body decorators returns =>
    .functionDef (edit.position p) isAsync (edit.name name) (parameters.edited edit)
      (Stmt.editedAll edit body) (decorators.map (Expr.edited edit))
      (returns.map (Expr.edited edit))
  | .classDef p name bases keywords body decorators =>
    .classDef (edit.position p) (edit.name name) (bases.map (Expr.edited edit))
      (keywords.map (Keyword.edited edit)) (Stmt.editedAll edit body)
      (decorators.map (Expr.edited edit))
  | .returnStmt p value => .returnStmt (edit.position p) (value.map (Expr.edited edit))
  | .deleteStmt p targets => .deleteStmt (edit.position p) (targets.map (Expr.edited edit))
  | .assign p targets value =>
    .assign (edit.position p) (targets.map (Expr.edited edit)) (value.edited edit)
  | .augAssign p target op value =>
    .augAssign (edit.position p) (target.edited edit) op (value.edited edit)
  | .annAssign p target hint value =>
    .annAssign (edit.position p) (target.edited edit) (hint.edited edit)
      (value.map (Expr.edited edit))
  | .forStmt p isAsync target iter body orElse =>
    .forStmt (edit.position p) isAsync (target.edited edit) (iter.edited edit)
      (Stmt.editedAll edit body) (Stmt.editedAll edit orElse)
  | .whileStmt p test body orElse =>
    .whileStmt (edit.position p) (test.edited edit) (Stmt.editedAll edit body)
      (Stmt.editedAll edit orElse)
  | .ifStmt p test body orElse =>
    .ifStmt (edit.position p) (test.edited edit) (Stmt.editedAll edit body)
      (Stmt.editedAll edit orElse)
  | .withStmt p isAsync items body =>
    .withStmt (edit.position p) isAsync (items.map (WithItem.edited edit))
      (Stmt.editedAll edit body)
  | .matchStmt p subject cases =>
    .matchStmt (edit.position p) (subject.edited edit) (MatchCase.editedAll edit cases)
  | .raiseStmt p exception cause =>
    .raiseStmt (edit.position p) (exception.map (Expr.edited edit)) (cause.map (Expr.edited edit))
  | .tryStmt p isStar body handlers orElse final =>
    .tryStmt (edit.position p) isStar (Stmt.editedAll edit body) (Handler.editedAll edit handlers)
      (Stmt.editedAll edit orElse) (Stmt.editedAll edit final)
  | .assertStmt p test message =>
    .assertStmt (edit.position p) (test.edited edit) (message.map (Expr.edited edit))
  | .importNames p names => .importNames (edit.position p) (names.map (Alias.edited edit))
  | .importFrom p module names level =>
    .importFrom (edit.position p) (module.map edit.dotted) (names.map (Alias.edited edit)) level
  | .globalNames p names => .globalNames (edit.position p) (names.map edit.name)
  | .nonlocalNames p names => .nonlocalNames (edit.position p) (names.map edit.name)
  | .expr p value => .expr (edit.position p) (value.edited edit)
  | .passStmt p => .passStmt (edit.position p)
  | .breakStmt p => .breakStmt (edit.position p)
  | .continueStmt p => .continueStmt (edit.position p)

/-- Statements after an edit. -/
def Stmt.editedAll (edit : Edit) : List Stmt → List Stmt
  | [] => []
  | stmt :: stmts => stmt.edited edit :: Stmt.editedAll edit stmts

/-- The case of a match statement after an edit. -/
def MatchCase.edited (edit : Edit) : MatchCase → MatchCase
  | .mk pattern guard body =>
    .mk (pattern.edited edit) (guard.map (Expr.edited edit)) (Stmt.editedAll edit body)

/-- The cases of a match statement after an edit. -/
def MatchCase.editedAll (edit : Edit) : List MatchCase → List MatchCase
  | [] => []
  | first :: rest => first.edited edit :: MatchCase.editedAll edit rest

/-- The exception handler after an edit. -/
def Handler.edited (edit : Edit) : Handler → Handler
  | .mk p type name body =>
    .mk (edit.position p) (type.map (Expr.edited edit)) (name.map edit.name)
      (Stmt.editedAll edit body)

/-- Exception handlers after an edit. -/
def Handler.editedAll (edit : Edit) : List Handler → List Handler
  | [] => []
  | handler :: handlers => handler.edited edit :: Handler.editedAll edit handlers

end

/-- The module after an edit. -/
def Module.edited (edit : Edit) (module : Module) : Module :=
  ⟨module.body.map (Stmt.edited edit)⟩

/-! ## Nodes -/

/-- The construct after an edit. -/
def Node.edited (edit : Edit) : Node → Node
  | .module m => .module (m.edited edit)
  | .stmt s => .stmt (s.edited edit)
  | .expr e => .expr (e.edited edit)
  | .pattern p => .pattern (p.edited edit)
  | .parameters p => .parameters (p.edited edit)
  | .parameter p => .parameter (p.edited edit)
  | .keyword k => .keyword (k.edited edit)
  | .comprehension c => .comprehension (c.edited edit)
  | .importAlias a => .importAlias (a.edited edit)
  | .withItem w => .withItem (w.edited edit)
  | .matchCase c => .matchCase (c.edited edit)
  | .handler h => .handler (h.edited edit)
  | .token t => .token t

/-- The construct in its role, after an edit. -/
def Occurrence.edited (edit : Edit) (occurrence : Occurrence) : Occurrence :=
  { occurrence with node := occurrence.node.edited edit }

@[simp]
theorem Occurrence.role_edited (edit : Edit) (occurrence : Occurrence) :
    (occurrence.edited edit).role = occurrence.role :=
  rfl

@[simp]
theorem Occurrence.node_edited (edit : Edit) (occurrence : Occurrence) :
    (occurrence.edited edit).node = occurrence.node.edited edit :=
  rfl

/-! ## Parts -/

section Parts

variable (edit : Edit)

@[simp]
theorem Expr.editedAll_eq_map (exprs : List Expr) :
    Expr.editedAll edit exprs = exprs.map (Expr.edited edit) := by
  induction exprs with
  | nil => rfl
  | cons expr exprs inductionHypothesis => rw [Expr.editedAll, inductionHypothesis, List.map_cons]

@[simp]
theorem Expr.editedOption_eq_map (expr : Option Expr) :
    Expr.editedOption edit expr = expr.map (Expr.edited edit) := by
  cases expr <;> rfl

@[simp]
theorem Expr.editedSlots_eq_map (slots : List (Option Expr)) :
    Expr.editedSlots edit slots = slots.map (Option.map (Expr.edited edit)) := by
  induction slots with
  | nil => rfl
  | cons slot slots inductionHypothesis =>
      cases slot <;> rw [Expr.editedSlots, inductionHypothesis] <;> rfl

@[simp]
theorem Parameter.editedAll_eq_map (parameters : List Parameter) :
    Parameter.editedAll edit parameters = parameters.map (Parameter.edited edit) := by
  induction parameters with
  | nil => rfl
  | cons parameter parameters inductionHypothesis =>
      rw [Parameter.editedAll, inductionHypothesis, List.map_cons]

@[simp]
theorem Parameter.editedOption_eq_map (parameter : Option Parameter) :
    Parameter.editedOption edit parameter = parameter.map (Parameter.edited edit) := by
  cases parameter <;> rfl

@[simp]
theorem Keyword.editedAll_eq_map (keywords : List Keyword) :
    Keyword.editedAll edit keywords = keywords.map (Keyword.edited edit) := by
  induction keywords with
  | nil => rfl
  | cons keyword keywords inductionHypothesis =>
      rw [Keyword.editedAll, inductionHypothesis, List.map_cons]

@[simp]
theorem Comprehension.editedAll_eq_map (clauses : List Comprehension) :
    Comprehension.editedAll edit clauses = clauses.map (Comprehension.edited edit) := by
  induction clauses with
  | nil => rfl
  | cons clause clauses inductionHypothesis =>
      rw [Comprehension.editedAll, inductionHypothesis, List.map_cons]

@[simp]
theorem Pattern.editedAll_eq_map (patterns : List Pattern) :
    Pattern.editedAll edit patterns = patterns.map (Pattern.edited edit) := by
  induction patterns with
  | nil => rfl
  | cons pattern patterns inductionHypothesis =>
      rw [Pattern.editedAll, inductionHypothesis, List.map_cons]

@[simp]
theorem Pattern.editedOption_eq_map (pattern : Option Pattern) :
    Pattern.editedOption edit pattern = pattern.map (Pattern.edited edit) := by
  cases pattern <;> rfl

@[simp]
theorem Stmt.editedAll_eq_map (stmts : List Stmt) :
    Stmt.editedAll edit stmts = stmts.map (Stmt.edited edit) := by
  induction stmts with
  | nil => rfl
  | cons stmt stmts inductionHypothesis => rw [Stmt.editedAll, inductionHypothesis, List.map_cons]

@[simp]
theorem MatchCase.editedAll_eq_map (cases : List MatchCase) :
    MatchCase.editedAll edit cases = cases.map (MatchCase.edited edit) := by
  induction cases with
  | nil => rfl
  | cons first rest inductionHypothesis =>
      rw [MatchCase.editedAll, inductionHypothesis, List.map_cons]

@[simp]
theorem Handler.editedAll_eq_map (handlers : List Handler) :
    Handler.editedAll edit handlers = handlers.map (Handler.edited edit) := by
  induction handlers with
  | nil => rfl
  | cons handler handlers inductionHypothesis =>
      rw [Handler.editedAll, inductionHypothesis, List.map_cons]

@[simp]
theorem Parameter.name_edited (parameter : Parameter) :
    (parameter.edited edit).name = edit.name parameter.name := by
  cases parameter
  rfl

end Parts

/-! ## Trees -/

section Trees

variable (edit : Edit)

@[simp]
theorem Token.tree_edited (role : Role) (token : Token) :
    (token.tree role).map (Occurrence.edited edit) = token.tree role :=
  rfl

@[simp]
theorem Context.tree_edited (context : Context) :
    context.tree.map (Occurrence.edited edit) = context.tree :=
  rfl

mutual

theorem Expr.tree_edited (role : Role) :
    ∀ expr : Expr, (expr.edited edit).tree role = (expr.tree role).map (Occurrence.edited edit)
  | .boolOp _ _ operands => by
    simp only [Expr.edited, Expr.tree, Tree.map_node, List.map_cons,
      Token.tree_edited, Expr.trees_edited .operand operands]
    rfl
  | .namedExpr _ target value => by
    simp only [Expr.edited, Expr.tree, Tree.map_node, List.map_cons, List.map_nil,
      Expr.tree_edited .target target, Expr.tree_edited .value value]
    rfl
  | .binOp _ left _ right => by
    simp only [Expr.edited, Expr.tree, Tree.map_node, List.map_cons, List.map_nil,
      Token.tree_edited, Expr.tree_edited .operand left, Expr.tree_edited .operand right]
    rfl
  | .unaryOp _ _ operand => by
    simp only [Expr.edited, Expr.tree, Tree.map_node, List.map_cons, List.map_nil,
      Token.tree_edited, Expr.tree_edited .operand operand]
    rfl
  | .lambda _ parameters body => by
    simp only [Expr.edited, Expr.tree, Tree.map_node, List.map_cons, List.map_nil,
      Parameters.tree_edited parameters, Expr.tree_edited .body body]
    rfl
  | .ifExp _ test body orElse => by
    simp only [Expr.edited, Expr.tree, Tree.map_node, List.map_cons, List.map_nil,
      Expr.tree_edited .test test, Expr.tree_edited .body body, Expr.tree_edited .orElse orElse]
    rfl
  | .dict _ keys values => by
    simp only [Expr.edited, Expr.tree, Tree.map_node, List.map_append,
      Expr.presentTrees_edited .key keys, Expr.trees_edited .value values]
    rfl
  | .set _ elements => by
    simp only [Expr.edited, Expr.tree, Tree.map_node,
      Expr.trees_edited .element elements]
    rfl
  | .listComp _ element clauses => by
    simp only [Expr.edited, Expr.tree, Tree.map_node, List.map_cons,
      Expr.tree_edited .element element, Comprehension.trees_edited clauses]
    rfl
  | .setComp _ element clauses => by
    simp only [Expr.edited, Expr.tree, Tree.map_node, List.map_cons,
      Expr.tree_edited .element element, Comprehension.trees_edited clauses]
    rfl
  | .dictComp _ key value clauses => by
    simp only [Expr.edited, Expr.tree, Tree.map_node, List.map_cons,
      Expr.tree_edited .key key, Expr.tree_edited .value value, Comprehension.trees_edited clauses]
    rfl
  | .generatorExp _ element clauses => by
    simp only [Expr.edited, Expr.tree, Tree.map_node, List.map_cons,
      Expr.tree_edited .element element, Comprehension.trees_edited clauses]
    rfl
  | .await _ value => by
    simp only [Expr.edited, Expr.tree, Tree.map_node, List.map_cons, List.map_nil,
      Expr.tree_edited .value value]
    rfl
  | .yieldOne _ value => by
    simp only [Expr.edited, Expr.tree, Tree.map_node,
      Expr.optionTree_edited .value value]
    rfl
  | .yieldFrom _ value => by
    simp only [Expr.edited, Expr.tree, Tree.map_node, List.map_cons, List.map_nil,
      Expr.tree_edited .value value]
    rfl
  | .compare _ left _ comparators => by
    simp only [Expr.edited, Expr.tree, Tree.map_node, List.map_append, List.map_cons,
      List.map_map, Function.comp_def, Token.tree_edited, Expr.tree_edited .operand left,
      Expr.trees_edited .operand comparators]
    rfl
  | .call _ callee arguments keywords => by
    simp only [Expr.edited, Expr.tree, Tree.map_node, List.map_append, List.map_cons,
      Expr.tree_edited .callee callee, Expr.trees_edited .argument arguments,
      Keyword.trees_edited keywords]
    rfl
  | .formattedValue _ value _ format => by
    simp only [Expr.edited, Expr.tree, Tree.map_node, List.map_cons,
      Expr.tree_edited .value value, Expr.optionTree_edited .format format]
    rfl
  | .joinedStr _ parts => by
    simp only [Expr.edited, Expr.tree, Tree.map_node,
      Expr.trees_edited .element parts]
    rfl
  | .constant _ _ _ => rfl
  | .attr _ value _ _ => by
    simp only [Expr.edited, Expr.tree, Tree.map_node, List.map_cons, List.map_nil,
      Context.tree_edited, Expr.tree_edited .value value]
    rfl
  | .subscript _ value index _ => by
    simp only [Expr.edited, Expr.tree, Tree.map_node, List.map_cons, List.map_nil,
      Context.tree_edited, Expr.tree_edited .value value, Expr.tree_edited .index index]
    rfl
  | .starred _ value _ => by
    simp only [Expr.edited, Expr.tree, Tree.map_node, List.map_cons, List.map_nil,
      Context.tree_edited, Expr.tree_edited .value value]
    rfl
  | .name _ _ _ => rfl
  | .list _ elements _ => by
    simp only [Expr.edited, Expr.tree, Tree.map_node, List.map_append, List.map_cons, List.map_nil,
      Context.tree_edited, Expr.trees_edited .element elements]
    rfl
  | .tuple _ elements _ => by
    simp only [Expr.edited, Expr.tree, Tree.map_node, List.map_append, List.map_cons, List.map_nil,
      Context.tree_edited, Expr.trees_edited .element elements]
    rfl
  | .slice _ lower upper step => by
    simp only [Expr.edited, Expr.tree, Tree.map_node, List.map_append,
      Expr.optionTree_edited .bound lower, Expr.optionTree_edited .bound upper,
      Expr.optionTree_edited .bound step]
    rfl

theorem Expr.trees_edited (role : Role) : ∀ exprs : List Expr,
    Expr.trees role (Expr.editedAll edit exprs) =
      (Expr.trees role exprs).map (Tree.map (Occurrence.edited edit))
  | [] => rfl
  | expr :: exprs => by
    rw [Expr.editedAll, Expr.trees, Expr.tree_edited role expr, Expr.trees_edited role exprs,
      Expr.trees, List.map_cons]

theorem Expr.optionTree_edited (role : Role) : ∀ expr : Option Expr,
    Expr.optionTree role (Expr.editedOption edit expr) =
      (Expr.optionTree role expr).map (Tree.map (Occurrence.edited edit))
  | none => rfl
  | some expr => by
    rw [Expr.editedOption, Expr.optionTree, Expr.tree_edited role expr, Expr.optionTree,
      List.map_singleton]

theorem Expr.presentTrees_edited (role : Role) : ∀ slots : List (Option Expr),
    Expr.presentTrees role (Expr.editedSlots edit slots) =
      (Expr.presentTrees role slots).map (Tree.map (Occurrence.edited edit))
  | [] => rfl
  | none :: slots => by
    rw [Expr.editedSlots, Expr.presentTrees, Expr.presentTrees_edited role slots, Expr.presentTrees]
  | some expr :: slots => by
    rw [Expr.editedSlots, Expr.presentTrees, Expr.tree_edited role expr,
      Expr.presentTrees_edited role slots, Expr.presentTrees, List.map_cons]

theorem Parameter.tree_edited : ∀ parameter : Parameter,
    (parameter.edited edit).tree = parameter.tree.map (Occurrence.edited edit)
  | .mk _ _ hint => by
    simp only [Parameter.edited, Parameter.tree, Tree.map_node, Expr.optionTree_edited .hint hint]
    rfl

theorem Parameter.trees_edited : ∀ parameters : List Parameter,
    Parameter.trees (Parameter.editedAll edit parameters) =
      (Parameter.trees parameters).map (Tree.map (Occurrence.edited edit))
  | [] => rfl
  | parameter :: parameters => by
    rw [Parameter.editedAll, Parameter.trees, Parameter.tree_edited parameter,
      Parameter.trees_edited parameters, Parameter.trees, List.map_cons]

theorem Parameter.optionTree_edited : ∀ parameter : Option Parameter,
    Parameter.optionTree (Parameter.editedOption edit parameter) =
      (Parameter.optionTree parameter).map (Tree.map (Occurrence.edited edit))
  | none => rfl
  | some parameter => by
    rw [Parameter.editedOption, Parameter.optionTree, Parameter.tree_edited parameter,
      Parameter.optionTree, List.map_singleton]

theorem Parameters.tree_edited : ∀ parameters : Parameters,
    (parameters.edited edit).tree = parameters.tree.map (Occurrence.edited edit)
  | .mk positionalOnly regular variadic keywordOnly keywordDefaults keywordVariadic defaults => by
    simp only [Parameters.edited, Parameters.tree, Tree.map_node, List.map_append,
      Parameter.trees_edited positionalOnly, Parameter.trees_edited regular,
      Parameter.optionTree_edited variadic, Parameter.trees_edited keywordOnly,
      Expr.presentTrees_edited .keywordDefault keywordDefaults,
      Parameter.optionTree_edited keywordVariadic, Expr.trees_edited .default defaults]
    rfl

theorem Keyword.trees_edited : ∀ keywords : List Keyword,
    Keyword.trees (Keyword.editedAll edit keywords) =
      (Keyword.trees keywords).map (Tree.map (Occurrence.edited edit))
  | [] => rfl
  | .mk _ _ value :: keywords => by
    simp only [Keyword.editedAll, Keyword.edited, Keyword.trees, List.map_cons, Tree.map_node,
      Expr.tree_edited .value value, Keyword.trees_edited keywords]
    rfl

theorem Comprehension.trees_edited : ∀ clauses : List Comprehension,
    Comprehension.trees (Comprehension.editedAll edit clauses) =
      (Comprehension.trees clauses).map (Tree.map (Occurrence.edited edit))
  | [] => rfl
  | .mk target iter conditions _ :: clauses => by
    simp only [Comprehension.editedAll, Comprehension.edited, Comprehension.trees, List.map_cons,
      Tree.map_node, Expr.tree_edited .target target, Expr.tree_edited .iter iter,
      Expr.trees_edited .condition conditions, Comprehension.trees_edited clauses]
    rfl

end

mutual

theorem Pattern.tree_edited : ∀ pattern : Pattern,
    (pattern.edited edit).tree = pattern.tree.map (Occurrence.edited edit)
  | .equals _ value => by
    simp only [Pattern.edited, Pattern.tree, Tree.map_node, List.map_cons,
      List.map_nil, Expr.tree_edited edit .value value]
    rfl
  | .singleton _ _ => rfl
  | .sequence _ patterns => by
    simp only [Pattern.edited, Pattern.tree, Tree.map_node,
      Pattern.trees_edited patterns]
    rfl
  | .mapping _ keys patterns _ => by
    simp only [Pattern.edited, Pattern.tree, Tree.map_node, List.map_append,
      Expr.trees_edited edit .key keys, Pattern.trees_edited patterns]
    rfl
  | .ofClass _ cls patterns _ attrPatterns => by
    simp only [Pattern.edited, Pattern.tree, Tree.map_node, List.map_append, List.map_cons,
      Expr.tree_edited edit .callee cls, Pattern.trees_edited patterns,
      Pattern.trees_edited attrPatterns]
    rfl
  | .star _ _ => rfl
  | .capture _ inner _ => by
    simp only [Pattern.edited, Pattern.tree, Tree.map_node,
      Pattern.optionTree_edited inner]
    rfl
  | .or _ patterns => by
    simp only [Pattern.edited, Pattern.tree, Tree.map_node,
      Pattern.trees_edited patterns]
    rfl

theorem Pattern.trees_edited : ∀ patterns : List Pattern,
    Pattern.trees (Pattern.editedAll edit patterns) =
      (Pattern.trees patterns).map (Tree.map (Occurrence.edited edit))
  | [] => rfl
  | pattern :: patterns => by
    rw [Pattern.editedAll, Pattern.trees, Pattern.tree_edited pattern,
      Pattern.trees_edited patterns, Pattern.trees, List.map_cons]

theorem Pattern.optionTree_edited : ∀ pattern : Option Pattern,
    Pattern.optionTree (Pattern.editedOption edit pattern) =
      (Pattern.optionTree pattern).map (Tree.map (Occurrence.edited edit))
  | none => rfl
  | some pattern => by
    rw [Pattern.editedOption, Pattern.optionTree, Pattern.tree_edited pattern, Pattern.optionTree,
      List.map_singleton]

end

/-- The trees of edited expressions in one role. -/
theorem Expr.trees_map_edited (role : Role) (exprs : List Expr) :
    Expr.trees role (exprs.map (Expr.edited edit)) =
      (Expr.trees role exprs).map (Tree.map (Occurrence.edited edit)) := by
  rw [← Expr.editedAll_eq_map, Expr.trees_edited]

/-- The tree of an edited expression that may be absent. -/
theorem Expr.optionTree_map_edited (role : Role) (expr : Option Expr) :
    Expr.optionTree role (expr.map (Expr.edited edit)) =
      (Expr.optionTree role expr).map (Tree.map (Occurrence.edited edit)) := by
  rw [← Expr.editedOption_eq_map, Expr.optionTree_edited]

/-- The trees of edited keyword arguments. -/
theorem Keyword.trees_map_edited (keywords : List Keyword) :
    Keyword.trees (keywords.map (Keyword.edited edit)) =
      (Keyword.trees keywords).map (Tree.map (Occurrence.edited edit)) := by
  rw [← Keyword.editedAll_eq_map, Keyword.trees_edited]

theorem Alias.map_tree_edited (names : List Alias) :
    (names.map (Alias.edited edit)).map Alias.tree =
      (names.map Alias.tree).map (Tree.map (Occurrence.edited edit)) := by
  rw [List.map_map, List.map_map]
  rfl

theorem WithItem.tree_edited (item : WithItem) :
    (item.edited edit).tree = item.tree.map (Occurrence.edited edit) := by
  simp only [WithItem.edited, WithItem.tree, Tree.map_node, List.map_cons,
    Expr.tree_edited edit .manager item.manager, Expr.optionTree_map_edited]
  rfl

theorem WithItem.map_tree_edited (items : List WithItem) :
    (items.map (WithItem.edited edit)).map WithItem.tree =
      (items.map WithItem.tree).map (Tree.map (Occurrence.edited edit)) := by
  rw [List.map_map, List.map_map]
  exact List.map_congr_left fun item _ => WithItem.tree_edited edit item

mutual

theorem Stmt.tree_edited (role : Role) :
    ∀ stmt : Stmt, (stmt.edited edit).tree role = (stmt.tree role).map (Occurrence.edited edit)
  | .functionDef _ _ _ parameters body _ _ => by
    simp only [Stmt.edited, Stmt.tree, Tree.map_node, List.map_append, List.map_cons,
      Parameters.tree_edited edit parameters, Stmt.trees_edited .body body, Expr.trees_map_edited,
      Expr.optionTree_map_edited]
    rfl
  | .classDef _ _ _ _ body _ => by
    simp only [Stmt.edited, Stmt.tree, Tree.map_node, List.map_append,
      Stmt.trees_edited .body body, Expr.trees_map_edited, Keyword.trees_map_edited]
    rfl
  | .returnStmt _ _ => by
    simp only [Stmt.edited, Stmt.tree, Tree.map_node,
      Expr.optionTree_map_edited]
    rfl
  | .deleteStmt _ _ => by
    simp only [Stmt.edited, Stmt.tree, Tree.map_node,
      Expr.trees_map_edited]
    rfl
  | .assign _ _ value => by
    simp only [Stmt.edited, Stmt.tree, Tree.map_node, List.map_append, List.map_cons, List.map_nil,
      Expr.trees_map_edited, Expr.tree_edited edit .value value]
    rfl
  | .augAssign _ target _ value => by
    simp only [Stmt.edited, Stmt.tree, Tree.map_node, List.map_cons, List.map_nil,
      Token.tree_edited, Expr.tree_edited edit .target target, Expr.tree_edited edit .value value]
    rfl
  | .annAssign _ target hint _ => by
    simp only [Stmt.edited, Stmt.tree, Tree.map_node, List.map_cons,
      Expr.tree_edited edit .target target, Expr.tree_edited edit .hint hint,
      Expr.optionTree_map_edited]
    rfl
  | .forStmt _ _ target iter body orElse => by
    simp only [Stmt.edited, Stmt.tree, Tree.map_node, List.map_append, List.map_cons,
      Expr.tree_edited edit .target target, Expr.tree_edited edit .iter iter,
      Stmt.trees_edited .body body, Stmt.trees_edited .orElse orElse]
    rfl
  | .whileStmt _ test body orElse => by
    simp only [Stmt.edited, Stmt.tree, Tree.map_node, List.map_append, List.map_cons,
      Expr.tree_edited edit .test test, Stmt.trees_edited .body body,
      Stmt.trees_edited .orElse orElse]
    rfl
  | .ifStmt _ test body orElse => by
    simp only [Stmt.edited, Stmt.tree, Tree.map_node, List.map_append, List.map_cons,
      Expr.tree_edited edit .test test, Stmt.trees_edited .body body,
      Stmt.trees_edited .orElse orElse]
    rfl
  | .withStmt _ _ _ body => by
    simp only [Stmt.edited, Stmt.tree, Tree.map_node, List.map_append,
      WithItem.map_tree_edited, Stmt.trees_edited .body body]
    rfl
  | .matchStmt _ subject cases => by
    simp only [Stmt.edited, Stmt.tree, Tree.map_node, List.map_cons,
      Expr.tree_edited edit .subject subject, MatchCase.trees_edited cases]
    rfl
  | .raiseStmt _ _ _ => by
    simp only [Stmt.edited, Stmt.tree, Tree.map_node, List.map_append,
      Expr.optionTree_map_edited]
    rfl
  | .tryStmt _ _ body handlers orElse final => by
    simp only [Stmt.edited, Stmt.tree, Tree.map_node, List.map_append,
      Stmt.trees_edited .body body, Handler.trees_edited handlers, Stmt.trees_edited .orElse orElse,
      Stmt.trees_edited .final final]
    rfl
  | .assertStmt _ test _ => by
    simp only [Stmt.edited, Stmt.tree, Tree.map_node, List.map_cons,
      Expr.tree_edited edit .test test, Expr.optionTree_map_edited]
    rfl
  | .importNames _ _ => by
    simp only [Stmt.edited, Stmt.tree, Tree.map_node,
      Alias.map_tree_edited]
    rfl
  | .importFrom _ _ _ _ => by
    simp only [Stmt.edited, Stmt.tree, Tree.map_node,
      Alias.map_tree_edited]
    rfl
  | .globalNames _ _ => rfl
  | .nonlocalNames _ _ => rfl
  | .expr _ value => by
    simp only [Stmt.edited, Stmt.tree, Tree.map_node, List.map_cons, List.map_nil,
      Expr.tree_edited edit .value value]
    rfl
  | .passStmt _ => rfl
  | .breakStmt _ => rfl
  | .continueStmt _ => rfl

theorem Stmt.trees_edited (role : Role) : ∀ stmts : List Stmt,
    Stmt.trees role (Stmt.editedAll edit stmts) =
      (Stmt.trees role stmts).map (Tree.map (Occurrence.edited edit))
  | [] => rfl
  | stmt :: stmts => by
    rw [Stmt.editedAll, Stmt.trees, Stmt.tree_edited role stmt, Stmt.trees_edited role stmts,
      Stmt.trees, List.map_cons]

theorem MatchCase.trees_edited : ∀ cases : List MatchCase,
    MatchCase.trees (MatchCase.editedAll edit cases) =
      (MatchCase.trees cases).map (Tree.map (Occurrence.edited edit))
  | [] => rfl
  | .mk pattern _ body :: rest => by
    simp only [MatchCase.editedAll, MatchCase.edited, MatchCase.trees, List.map_cons,
      List.map_append, Tree.map_node, Pattern.tree_edited edit pattern, Expr.optionTree_map_edited,
      Stmt.trees_edited .body body, MatchCase.trees_edited rest]
    rfl

theorem Handler.trees_edited : ∀ handlers : List Handler,
    Handler.trees (Handler.editedAll edit handlers) =
      (Handler.trees handlers).map (Tree.map (Occurrence.edited edit))
  | [] => rfl
  | .mk _ _ _ body :: handlers => by
    simp only [Handler.editedAll, Handler.edited, Handler.trees, List.map_cons, List.map_append,
      Tree.map_node, Expr.optionTree_map_edited, Stmt.trees_edited .body body,
      Handler.trees_edited handlers]
    rfl

end

/-- The tree of an edited module is the edited tree of the module. -/
theorem Module.tree_edited (module : Module) :
    (module.edited edit).tree = module.tree.map (Occurrence.edited edit) := by
  rw [Module.tree, Module.edited, ← Stmt.editedAll_eq_map, Stmt.trees_edited edit .body,
    Module.tree, Tree.map_node]
  simp [Occurrence.edited, Node.edited, Module.edited]

end Trees

/-! ## Kinds -/

/-- An edit keeps the constructs, so their kinds too. -/
@[simp]
theorem Node.kindName_edited (edit : Edit) (node : Node) :
    (node.edited edit).kindName = node.kindName := by
  cases node with
  | stmt stmt =>
      cases stmt with
      | functionDef _ isAsync => cases isAsync <;> rfl
      | forStmt _ isAsync => cases isAsync <;> rfl
      | withStmt _ isAsync => cases isAsync <;> rfl
      | tryStmt _ isStar => cases isStar <;> rfl
      | _ => rfl
  | expr expr => cases expr <;> rfl
  | pattern pattern => cases pattern <;> rfl
  | _ => rfl

end DesignLint.Syntax
