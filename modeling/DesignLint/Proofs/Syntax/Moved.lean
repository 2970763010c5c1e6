import DesignLint.Proofs.Syntax.Edited

/-!
# Code that stands further down

When lines are inserted above a piece of code, every line number in its syntax
grows by the same number and nothing else changes. This is an edit of positions
alone, so the tree of moved syntax is the tree of the syntax with moved nodes.
-/

namespace DesignLint.Syntax

/-! ## Expressions -/

/-- The position some lines further down. -/
def Position.moved (lines : Nat) (position : Position) : Position where
  line := position.line + lines
  column := position.column
  endLine := position.endLine.map (· + lines)

mutual

/-- The expression some lines further down. -/
def Expr.moved (lines : Nat) : Expr → Expr
  | .boolOp p op operands => .boolOp (p.moved lines) op (Expr.movedAll lines operands)
  | .namedExpr p target value =>
    .namedExpr (p.moved lines) (target.moved lines) (value.moved lines)
  | .binOp p left op right => .binOp (p.moved lines) (left.moved lines) op (right.moved lines)
  | .unaryOp p op operand => .unaryOp (p.moved lines) op (operand.moved lines)
  | .lambda p parameters body =>
    .lambda (p.moved lines) (parameters.moved lines) (body.moved lines)
  | .ifExp p test body orElse =>
    .ifExp (p.moved lines) (test.moved lines) (body.moved lines) (orElse.moved lines)
  | .dict p keys values =>
    .dict (p.moved lines) (Expr.movedSlots lines keys) (Expr.movedAll lines values)
  | .set p elements => .set (p.moved lines) (Expr.movedAll lines elements)
  | .listComp p element clauses =>
    .listComp (p.moved lines) (element.moved lines) (Comprehension.movedAll lines clauses)
  | .setComp p element clauses =>
    .setComp (p.moved lines) (element.moved lines) (Comprehension.movedAll lines clauses)
  | .dictComp p key value clauses =>
    .dictComp (p.moved lines) (key.moved lines) (value.moved lines)
      (Comprehension.movedAll lines clauses)
  | .generatorExp p element clauses =>
    .generatorExp (p.moved lines) (element.moved lines) (Comprehension.movedAll lines clauses)
  | .await p value => .await (p.moved lines) (value.moved lines)
  | .yieldOne p value => .yieldOne (p.moved lines) (Expr.movedOption lines value)
  | .yieldFrom p value => .yieldFrom (p.moved lines) (value.moved lines)
  | .compare p left ops comparators =>
    .compare (p.moved lines) (left.moved lines) ops (Expr.movedAll lines comparators)
  | .call p callee arguments keywords =>
    .call (p.moved lines) (callee.moved lines) (Expr.movedAll lines arguments)
      (Keyword.movedAll lines keywords)
  | .formattedValue p value conversion format =>
    .formattedValue (p.moved lines) (value.moved lines) conversion
      (Expr.movedOption lines format)
  | .joinedStr p parts => .joinedStr (p.moved lines) (Expr.movedAll lines parts)
  | .constant p value kind => .constant (p.moved lines) value kind
  | .attr p value name context => .attr (p.moved lines) (value.moved lines) name context
  | .subscript p value index context =>
    .subscript (p.moved lines) (value.moved lines) (index.moved lines) context
  | .starred p value context => .starred (p.moved lines) (value.moved lines) context
  | .name p id context => .name (p.moved lines) id context
  | .list p elements context => .list (p.moved lines) (Expr.movedAll lines elements) context
  | .tuple p elements context => .tuple (p.moved lines) (Expr.movedAll lines elements) context
  | .slice p lower upper step =>
    .slice (p.moved lines) (Expr.movedOption lines lower) (Expr.movedOption lines upper)
      (Expr.movedOption lines step)

/-- Expressions some lines further down. -/
def Expr.movedAll (lines : Nat) : List Expr → List Expr
  | [] => []
  | expr :: exprs => expr.moved lines :: Expr.movedAll lines exprs

/-- An expression that may be absent, some lines further down. -/
def Expr.movedOption (lines : Nat) : Option Expr → Option Expr
  | none => none
  | some expr => some (expr.moved lines)

/-- Slots for expressions, some lines further down. -/
def Expr.movedSlots (lines : Nat) : List (Option Expr) → List (Option Expr)
  | [] => []
  | none :: slots => none :: Expr.movedSlots lines slots
  | some expr :: slots => some (expr.moved lines) :: Expr.movedSlots lines slots

/-- The parameter some lines further down. -/
def Parameter.moved (lines : Nat) : Parameter → Parameter
  | .mk p name hint => .mk (p.moved lines) name (Expr.movedOption lines hint)

/-- Parameters some lines further down. -/
def Parameter.movedAll (lines : Nat) : List Parameter → List Parameter
  | [] => []
  | parameter :: parameters => parameter.moved lines :: Parameter.movedAll lines parameters

/-- A parameter that may be absent, some lines further down. -/
def Parameter.movedOption (lines : Nat) : Option Parameter → Option Parameter
  | none => none
  | some parameter => some (parameter.moved lines)

/-- The parameters of a function, some lines further down. -/
def Parameters.moved (lines : Nat) : Parameters → Parameters
  | .mk positionalOnly regular variadic keywordOnly keywordDefaults keywordVariadic defaults =>
    .mk (Parameter.movedAll lines positionalOnly) (Parameter.movedAll lines regular)
      (Parameter.movedOption lines variadic) (Parameter.movedAll lines keywordOnly)
      (Expr.movedSlots lines keywordDefaults) (Parameter.movedOption lines keywordVariadic)
      (Expr.movedAll lines defaults)

/-- The keyword argument some lines further down. -/
def Keyword.moved (lines : Nat) : Keyword → Keyword
  | .mk p name value => .mk (p.moved lines) name (value.moved lines)

/-- Keyword arguments some lines further down. -/
def Keyword.movedAll (lines : Nat) : List Keyword → List Keyword
  | [] => []
  | keyword :: keywords => keyword.moved lines :: Keyword.movedAll lines keywords

/-- The clause of a comprehension some lines further down. -/
def Comprehension.moved (lines : Nat) : Comprehension → Comprehension
  | .mk target iter conditions isAsync =>
    .mk (target.moved lines) (iter.moved lines) (Expr.movedAll lines conditions) isAsync

/-- The clauses of a comprehension some lines further down. -/
def Comprehension.movedAll (lines : Nat) : List Comprehension → List Comprehension
  | [] => []
  | clause :: clauses => clause.moved lines :: Comprehension.movedAll lines clauses

end

/-! ## Patterns and statements -/

mutual

/-- The pattern some lines further down. -/
def Pattern.moved (lines : Nat) : Pattern → Pattern
  | .equals p value => .equals (p.moved lines) (value.moved lines)
  | .singleton p value => .singleton (p.moved lines) value
  | .sequence p patterns => .sequence (p.moved lines) (Pattern.movedAll lines patterns)
  | .mapping p keys patterns rest =>
    .mapping (p.moved lines) (Expr.movedAll lines keys) (Pattern.movedAll lines patterns) rest
  | .ofClass p cls patterns attrs attrPatterns =>
    .ofClass (p.moved lines) (cls.moved lines) (Pattern.movedAll lines patterns) attrs
      (Pattern.movedAll lines attrPatterns)
  | .star p name => .star (p.moved lines) name
  | .capture p pattern name => .capture (p.moved lines) (Pattern.movedOption lines pattern) name
  | .or p patterns => .or (p.moved lines) (Pattern.movedAll lines patterns)

/-- Patterns some lines further down. -/
def Pattern.movedAll (lines : Nat) : List Pattern → List Pattern
  | [] => []
  | pattern :: patterns => pattern.moved lines :: Pattern.movedAll lines patterns

/-- A pattern that may be absent, some lines further down. -/
def Pattern.movedOption (lines : Nat) : Option Pattern → Option Pattern
  | none => none
  | some pattern => some (pattern.moved lines)

end

/-- The imported name some lines further down. -/
def Alias.moved (lines : Nat) (item : Alias) : Alias :=
  { item with position := item.position.moved lines }

/-- The manager of a `with` statement some lines further down. -/
def WithItem.moved (lines : Nat) (item : WithItem) : WithItem :=
  ⟨item.manager.moved lines, item.target.map (Expr.moved lines)⟩

mutual

/-- The statement some lines further down. -/
def Stmt.moved (lines : Nat) : Stmt → Stmt
  | .functionDef p isAsync name parameters body decorators returns =>
    .functionDef (p.moved lines) isAsync name (parameters.moved lines)
      (Stmt.movedAll lines body) (decorators.map (Expr.moved lines))
      (returns.map (Expr.moved lines))
  | .classDef p name bases keywords body decorators =>
    .classDef (p.moved lines) name (bases.map (Expr.moved lines))
      (keywords.map (Keyword.moved lines)) (Stmt.movedAll lines body)
      (decorators.map (Expr.moved lines))
  | .returnStmt p value => .returnStmt (p.moved lines) (value.map (Expr.moved lines))
  | .deleteStmt p targets => .deleteStmt (p.moved lines) (targets.map (Expr.moved lines))
  | .assign p targets value =>
    .assign (p.moved lines) (targets.map (Expr.moved lines)) (value.moved lines)
  | .augAssign p target op value =>
    .augAssign (p.moved lines) (target.moved lines) op (value.moved lines)
  | .annAssign p target hint value =>
    .annAssign (p.moved lines) (target.moved lines) (hint.moved lines)
      (value.map (Expr.moved lines))
  | .forStmt p isAsync target iter body orElse =>
    .forStmt (p.moved lines) isAsync (target.moved lines) (iter.moved lines)
      (Stmt.movedAll lines body) (Stmt.movedAll lines orElse)
  | .whileStmt p test body orElse =>
    .whileStmt (p.moved lines) (test.moved lines) (Stmt.movedAll lines body)
      (Stmt.movedAll lines orElse)
  | .ifStmt p test body orElse =>
    .ifStmt (p.moved lines) (test.moved lines) (Stmt.movedAll lines body)
      (Stmt.movedAll lines orElse)
  | .withStmt p isAsync items body =>
    .withStmt (p.moved lines) isAsync (items.map (WithItem.moved lines))
      (Stmt.movedAll lines body)
  | .matchStmt p subject cases =>
    .matchStmt (p.moved lines) (subject.moved lines) (MatchCase.movedAll lines cases)
  | .raiseStmt p exception cause =>
    .raiseStmt (p.moved lines) (exception.map (Expr.moved lines)) (cause.map (Expr.moved lines))
  | .tryStmt p isStar body handlers orElse final =>
    .tryStmt (p.moved lines) isStar (Stmt.movedAll lines body) (Handler.movedAll lines handlers)
      (Stmt.movedAll lines orElse) (Stmt.movedAll lines final)
  | .assertStmt p test message =>
    .assertStmt (p.moved lines) (test.moved lines) (message.map (Expr.moved lines))
  | .importNames p names => .importNames (p.moved lines) (names.map (Alias.moved lines))
  | .importFrom p module names level =>
    .importFrom (p.moved lines) module (names.map (Alias.moved lines)) level
  | .globalNames p names => .globalNames (p.moved lines) names
  | .nonlocalNames p names => .nonlocalNames (p.moved lines) names
  | .expr p value => .expr (p.moved lines) (value.moved lines)
  | .passStmt p => .passStmt (p.moved lines)
  | .breakStmt p => .breakStmt (p.moved lines)
  | .continueStmt p => .continueStmt (p.moved lines)

/-- Statements some lines further down. -/
def Stmt.movedAll (lines : Nat) : List Stmt → List Stmt
  | [] => []
  | stmt :: stmts => stmt.moved lines :: Stmt.movedAll lines stmts

/-- The case of a match statement some lines further down. -/
def MatchCase.moved (lines : Nat) : MatchCase → MatchCase
  | .mk pattern guard body =>
    .mk (pattern.moved lines) (guard.map (Expr.moved lines)) (Stmt.movedAll lines body)

/-- The cases of a match statement some lines further down. -/
def MatchCase.movedAll (lines : Nat) : List MatchCase → List MatchCase
  | [] => []
  | first :: rest => first.moved lines :: MatchCase.movedAll lines rest

/-- The exception handler some lines further down. -/
def Handler.moved (lines : Nat) : Handler → Handler
  | .mk p type name body =>
    .mk (p.moved lines) (type.map (Expr.moved lines)) name (Stmt.movedAll lines body)

/-- Exception handlers some lines further down. -/
def Handler.movedAll (lines : Nat) : List Handler → List Handler
  | [] => []
  | handler :: handlers => handler.moved lines :: Handler.movedAll lines handlers

end

/-- The module some lines further down. -/
def Module.moved (lines : Nat) (module : Module) : Module :=
  ⟨module.body.map (Stmt.moved lines)⟩

/-! ## Nodes -/

/-- The construct some lines further down. -/
def Node.moved (lines : Nat) : Node → Node
  | .module m => .module (m.moved lines)
  | .stmt s => .stmt (s.moved lines)
  | .expr e => .expr (e.moved lines)
  | .pattern p => .pattern (p.moved lines)
  | .parameters p => .parameters (p.moved lines)
  | .parameter p => .parameter (p.moved lines)
  | .keyword k => .keyword (k.moved lines)
  | .comprehension c => .comprehension (c.moved lines)
  | .importAlias a => .importAlias (a.moved lines)
  | .withItem w => .withItem (w.moved lines)
  | .matchCase c => .matchCase (c.moved lines)
  | .handler h => .handler (h.moved lines)
  | .token t => .token t

/-- The construct in its role, some lines further down. -/
def Occurrence.moved (lines : Nat) (occurrence : Occurrence) : Occurrence :=
  { occurrence with node := occurrence.node.moved lines }

@[simp]
theorem Occurrence.role_moved (lines : Nat) (occurrence : Occurrence) :
    (occurrence.moved lines).role = occurrence.role :=
  rfl

@[simp]
theorem Occurrence.node_moved (lines : Nat) (occurrence : Occurrence) :
    (occurrence.moved lines).node = occurrence.node.moved lines :=
  rfl

/-! ## Parts -/

section Parts

variable (lines : Nat)

@[simp]
theorem Expr.movedAll_eq_map (exprs : List Expr) :
    Expr.movedAll lines exprs = exprs.map (Expr.moved lines) := by
  induction exprs with
  | nil => rfl
  | cons expr exprs inductionHypothesis => rw [Expr.movedAll, inductionHypothesis, List.map_cons]

@[simp]
theorem Expr.movedOption_eq_map (expr : Option Expr) :
    Expr.movedOption lines expr = expr.map (Expr.moved lines) := by
  cases expr <;> rfl

@[simp]
theorem Expr.movedSlots_eq_map (slots : List (Option Expr)) :
    Expr.movedSlots lines slots = slots.map (Option.map (Expr.moved lines)) := by
  induction slots with
  | nil => rfl
  | cons slot slots inductionHypothesis =>
      cases slot <;> rw [Expr.movedSlots, inductionHypothesis] <;> rfl

@[simp]
theorem Parameter.movedAll_eq_map (parameters : List Parameter) :
    Parameter.movedAll lines parameters = parameters.map (Parameter.moved lines) := by
  induction parameters with
  | nil => rfl
  | cons parameter parameters inductionHypothesis =>
      rw [Parameter.movedAll, inductionHypothesis, List.map_cons]

@[simp]
theorem Parameter.movedOption_eq_map (parameter : Option Parameter) :
    Parameter.movedOption lines parameter = parameter.map (Parameter.moved lines) := by
  cases parameter <;> rfl

@[simp]
theorem Keyword.movedAll_eq_map (keywords : List Keyword) :
    Keyword.movedAll lines keywords = keywords.map (Keyword.moved lines) := by
  induction keywords with
  | nil => rfl
  | cons keyword keywords inductionHypothesis =>
      rw [Keyword.movedAll, inductionHypothesis, List.map_cons]

@[simp]
theorem Comprehension.movedAll_eq_map (clauses : List Comprehension) :
    Comprehension.movedAll lines clauses = clauses.map (Comprehension.moved lines) := by
  induction clauses with
  | nil => rfl
  | cons clause clauses inductionHypothesis =>
      rw [Comprehension.movedAll, inductionHypothesis, List.map_cons]

@[simp]
theorem Pattern.movedAll_eq_map (patterns : List Pattern) :
    Pattern.movedAll lines patterns = patterns.map (Pattern.moved lines) := by
  induction patterns with
  | nil => rfl
  | cons pattern patterns inductionHypothesis =>
      rw [Pattern.movedAll, inductionHypothesis, List.map_cons]

@[simp]
theorem Pattern.movedOption_eq_map (pattern : Option Pattern) :
    Pattern.movedOption lines pattern = pattern.map (Pattern.moved lines) := by
  cases pattern <;> rfl

@[simp]
theorem Stmt.movedAll_eq_map (stmts : List Stmt) :
    Stmt.movedAll lines stmts = stmts.map (Stmt.moved lines) := by
  induction stmts with
  | nil => rfl
  | cons stmt stmts inductionHypothesis => rw [Stmt.movedAll, inductionHypothesis, List.map_cons]

@[simp]
theorem MatchCase.movedAll_eq_map (cases : List MatchCase) :
    MatchCase.movedAll lines cases = cases.map (MatchCase.moved lines) := by
  induction cases with
  | nil => rfl
  | cons first rest inductionHypothesis =>
      rw [MatchCase.movedAll, inductionHypothesis, List.map_cons]

@[simp]
theorem Handler.movedAll_eq_map (handlers : List Handler) :
    Handler.movedAll lines handlers = handlers.map (Handler.moved lines) := by
  induction handlers with
  | nil => rfl
  | cons handler handlers inductionHypothesis =>
      rw [Handler.movedAll, inductionHypothesis, List.map_cons]

@[simp]
theorem Expr.position_moved (expr : Expr) :
    (expr.moved lines).position = expr.position.moved lines := by
  cases expr <;> rfl

@[simp]
theorem Stmt.position_moved (stmt : Stmt) :
    (stmt.moved lines).position = stmt.position.moved lines := by
  cases stmt <;> rfl

@[simp]
theorem Pattern.position_moved (pattern : Pattern) :
    (pattern.moved lines).position = pattern.position.moved lines := by
  cases pattern <;> rfl

@[simp]
theorem Parameter.position_moved (parameter : Parameter) :
    (parameter.moved lines).position = parameter.position.moved lines := by
  cases parameter
  rfl

@[simp]
theorem Parameter.name_moved (parameter : Parameter) :
    (parameter.moved lines).name = parameter.name := by
  cases parameter
  rfl

end Parts

/-! ## Moving as an edit -/

section Edits

variable (lines : Nat)

/-- The edit that inserts lines above a piece of code. -/
def Edit.insertion : Edit where
  position := Position.moved lines
  name := id
  keyword := id
  dotted := id

@[simp]
theorem Edit.position_insertion (position : Position) :
    (Edit.insertion lines).position position = position.moved lines :=
  rfl

@[simp]
theorem Edit.name_insertion : (Edit.insertion lines).name = id :=
  rfl

@[simp]
theorem Edit.keyword_insertion : (Edit.insertion lines).keyword = id :=
  rfl

@[simp]
theorem Edit.dotted_insertion : (Edit.insertion lines).dotted = id :=
  rfl

mutual

theorem Expr.moved_eq_edited :
    ∀ expr : Expr, expr.moved lines = expr.edited (.insertion lines)
  | .boolOp _ _ operands => by simp [Expr.moved, Expr.edited, Expr.map_moved operands]
  | .namedExpr _ target value => by
    simp [Expr.moved, Expr.edited, Expr.moved_eq_edited target, Expr.moved_eq_edited value]
  | .binOp _ left _ right => by
    simp [Expr.moved, Expr.edited, Expr.moved_eq_edited left, Expr.moved_eq_edited right]
  | .unaryOp _ _ operand => by simp [Expr.moved, Expr.edited, Expr.moved_eq_edited operand]
  | .lambda _ parameters body => by
    simp [Expr.moved, Expr.edited, Parameters.moved_eq_edited parameters,
      Expr.moved_eq_edited body]
  | .ifExp _ test body orElse => by
    simp [Expr.moved, Expr.edited, Expr.moved_eq_edited test, Expr.moved_eq_edited body,
      Expr.moved_eq_edited orElse]
  | .dict _ keys values => by
    simp [Expr.moved, Expr.edited, Expr.map_map_moved keys, Expr.map_moved values]
  | .set _ elements => by simp [Expr.moved, Expr.edited, Expr.map_moved elements]
  | .listComp _ element clauses | .setComp _ element clauses
  | .generatorExp _ element clauses => by
    simp [Expr.moved, Expr.edited, Expr.moved_eq_edited element, Comprehension.map_moved clauses]
  | .dictComp _ key value clauses => by
    simp [Expr.moved, Expr.edited, Expr.moved_eq_edited key, Expr.moved_eq_edited value,
      Comprehension.map_moved clauses]
  | .await _ value | .yieldFrom _ value | .attr _ value _ _ | .starred _ value _ => by
    simp [Expr.moved, Expr.edited, Expr.moved_eq_edited value]
  | .yieldOne _ value => by simp [Expr.moved, Expr.edited, Expr.optionMap_moved value]
  | .compare _ left _ comparators => by
    simp [Expr.moved, Expr.edited, Expr.moved_eq_edited left, Expr.map_moved comparators]
  | .call _ callee arguments keywords => by
    simp [Expr.moved, Expr.edited, Expr.moved_eq_edited callee, Expr.map_moved arguments,
      Keyword.map_moved keywords]
  | .formattedValue _ value _ format => by
    simp [Expr.moved, Expr.edited, Expr.moved_eq_edited value, Expr.optionMap_moved format]
  | .joinedStr _ parts => by simp [Expr.moved, Expr.edited, Expr.map_moved parts]
  | .constant _ _ _ | .name _ _ _ => rfl
  | .subscript _ value index _ => by
    simp [Expr.moved, Expr.edited, Expr.moved_eq_edited value, Expr.moved_eq_edited index]
  | .list _ elements _ | .tuple _ elements _ => by
    simp [Expr.moved, Expr.edited, Expr.map_moved elements]
  | .slice _ lower upper step => by
    simp [Expr.moved, Expr.edited, Expr.optionMap_moved lower, Expr.optionMap_moved upper,
      Expr.optionMap_moved step]

theorem Expr.map_moved : ∀ exprs : List Expr,
    exprs.map (Expr.moved lines) = exprs.map (Expr.edited (.insertion lines))
  | [] => rfl
  | expr :: exprs => by
    rw [List.map_cons, List.map_cons, Expr.moved_eq_edited expr, Expr.map_moved exprs]

theorem Expr.optionMap_moved : ∀ expr : Option Expr,
    expr.map (Expr.moved lines) = expr.map (Expr.edited (.insertion lines))
  | none => rfl
  | some expr => by rw [Option.map_some, Option.map_some, Expr.moved_eq_edited expr]

theorem Expr.map_map_moved : ∀ slots : List (Option Expr),
    slots.map (Option.map (Expr.moved lines)) =
      slots.map (Option.map (Expr.edited (.insertion lines)))
  | [] => rfl
  | slot :: slots => by
    rw [List.map_cons, List.map_cons, Expr.optionMap_moved slot, Expr.map_map_moved slots]

theorem Parameter.moved_eq_edited : ∀ parameter : Parameter,
    parameter.moved lines = parameter.edited (.insertion lines)
  | .mk _ _ hint => by simp [Parameter.moved, Parameter.edited, Expr.optionMap_moved hint]

theorem Parameter.map_moved : ∀ parameters : List Parameter,
    parameters.map (Parameter.moved lines) = parameters.map (Parameter.edited (.insertion lines))
  | [] => rfl
  | parameter :: parameters => by
    rw [List.map_cons, List.map_cons, Parameter.moved_eq_edited parameter,
      Parameter.map_moved parameters]

theorem Parameter.optionMap_moved : ∀ parameter : Option Parameter,
    parameter.map (Parameter.moved lines) = parameter.map (Parameter.edited (.insertion lines))
  | none => rfl
  | some parameter => by
    rw [Option.map_some, Option.map_some, Parameter.moved_eq_edited parameter]

theorem Parameters.moved_eq_edited : ∀ parameters : Parameters,
    parameters.moved lines = parameters.edited (.insertion lines)
  | .mk positionalOnly regular variadic keywordOnly keywordDefaults keywordVariadic defaults => by
    simp [Parameters.moved, Parameters.edited, Parameter.map_moved positionalOnly,
      Parameter.map_moved regular, Parameter.optionMap_moved variadic,
      Parameter.map_moved keywordOnly, Expr.map_map_moved keywordDefaults,
      Parameter.optionMap_moved keywordVariadic, Expr.map_moved defaults]

theorem Keyword.moved_eq_edited : ∀ keyword : Keyword,
    keyword.moved lines = keyword.edited (.insertion lines)
  | .mk _ _ value => by simp [Keyword.moved, Keyword.edited, Expr.moved_eq_edited value]

theorem Keyword.map_moved : ∀ keywords : List Keyword,
    keywords.map (Keyword.moved lines) = keywords.map (Keyword.edited (.insertion lines))
  | [] => rfl
  | keyword :: keywords => by
    rw [List.map_cons, List.map_cons, Keyword.moved_eq_edited keyword, Keyword.map_moved keywords]

theorem Comprehension.moved_eq_edited : ∀ clause : Comprehension,
    clause.moved lines = clause.edited (.insertion lines)
  | .mk target iter conditions _ => by
    simp [Comprehension.moved, Comprehension.edited, Expr.moved_eq_edited target,
      Expr.moved_eq_edited iter, Expr.map_moved conditions]

theorem Comprehension.map_moved : ∀ clauses : List Comprehension,
    clauses.map (Comprehension.moved lines) =
      clauses.map (Comprehension.edited (.insertion lines))
  | [] => rfl
  | clause :: clauses => by
    rw [List.map_cons, List.map_cons, Comprehension.moved_eq_edited clause,
      Comprehension.map_moved clauses]

end

mutual

theorem Pattern.moved_eq_edited :
    ∀ pattern : Pattern, pattern.moved lines = pattern.edited (.insertion lines)
  | .equals _ value => by simp [Pattern.moved, Pattern.edited, Expr.moved_eq_edited lines value]
  | .singleton _ _ => rfl
  | .sequence _ patterns | .or _ patterns => by
    simp [Pattern.moved, Pattern.edited, Pattern.map_moved patterns]
  | .mapping _ keys patterns _ => by
    simp [Pattern.moved, Pattern.edited, Expr.map_moved lines keys, Pattern.map_moved patterns]
  | .ofClass _ cls patterns _ attrPatterns => by
    simp [Pattern.moved, Pattern.edited, Expr.moved_eq_edited lines cls,
      Pattern.map_moved patterns, Pattern.map_moved attrPatterns]
  | .star _ _ => by simp [Pattern.moved, Pattern.edited]
  | .capture _ inner _ => by
    simp [Pattern.moved, Pattern.edited, Pattern.optionMap_moved inner]

theorem Pattern.map_moved : ∀ patterns : List Pattern,
    patterns.map (Pattern.moved lines) = patterns.map (Pattern.edited (.insertion lines))
  | [] => rfl
  | pattern :: patterns => by
    rw [List.map_cons, List.map_cons, Pattern.moved_eq_edited pattern, Pattern.map_moved patterns]

theorem Pattern.optionMap_moved : ∀ pattern : Option Pattern,
    pattern.map (Pattern.moved lines) = pattern.map (Pattern.edited (.insertion lines))
  | none => rfl
  | some pattern => by rw [Option.map_some, Option.map_some, Pattern.moved_eq_edited pattern]

end

/-- Expressions move as they are edited. -/
theorem Expr.moved_eq : Expr.moved lines = Expr.edited (.insertion lines) :=
  funext (Expr.moved_eq_edited lines)

theorem Alias.moved_eq : Alias.moved lines = Alias.edited (.insertion lines) := by
  funext item
  simp [Alias.moved, Alias.edited]

theorem WithItem.moved_eq : WithItem.moved lines = WithItem.edited (.insertion lines) := by
  funext item
  rw [WithItem.moved, WithItem.edited, Expr.moved_eq]

mutual

theorem Stmt.moved_eq_edited :
    ∀ stmt : Stmt, stmt.moved lines = stmt.edited (.insertion lines)
  | .functionDef _ _ _ parameters body _ _ => by
    simp [Stmt.moved, Stmt.edited, Parameters.moved_eq_edited, Stmt.map_moved body, Expr.moved_eq]
  | .classDef _ _ _ keywords body _ => by
    simp [Stmt.moved, Stmt.edited, Keyword.map_moved, Stmt.map_moved body, Expr.moved_eq]
  | .returnStmt .. | .deleteStmt .. | .assign .. | .augAssign .. | .annAssign ..
  | .raiseStmt .. | .assertStmt .. | .expr .. => by
    simp [Stmt.moved, Stmt.edited, Expr.moved_eq]
  | .forStmt _ _ _ _ body orElse | .whileStmt _ _ body orElse | .ifStmt _ _ body orElse => by
    simp [Stmt.moved, Stmt.edited, Stmt.map_moved body, Stmt.map_moved orElse, Expr.moved_eq]
  | .withStmt _ _ _ body => by
    simp [Stmt.moved, Stmt.edited, Stmt.map_moved body, WithItem.moved_eq]
  | .matchStmt _ _ cases => by
    simp [Stmt.moved, Stmt.edited, MatchCase.map_moved cases, Expr.moved_eq]
  | .tryStmt _ _ body handlers orElse final => by
    simp [Stmt.moved, Stmt.edited, Stmt.map_moved body, Handler.map_moved handlers,
      Stmt.map_moved orElse, Stmt.map_moved final]
  | .importNames .. | .importFrom .. => by simp [Stmt.moved, Stmt.edited, Alias.moved_eq]
  | .globalNames .. | .nonlocalNames .. => by simp [Stmt.moved, Stmt.edited]
  | .passStmt _ | .breakStmt _ | .continueStmt _ => rfl

theorem Stmt.map_moved : ∀ stmts : List Stmt,
    stmts.map (Stmt.moved lines) = stmts.map (Stmt.edited (.insertion lines))
  | [] => rfl
  | stmt :: stmts => by
    rw [List.map_cons, List.map_cons, Stmt.moved_eq_edited stmt, Stmt.map_moved stmts]

theorem MatchCase.moved_eq_edited : ∀ matchCase : MatchCase,
    matchCase.moved lines = matchCase.edited (.insertion lines)
  | .mk _ _ body => by
    simp [MatchCase.moved, MatchCase.edited, Pattern.moved_eq_edited, Expr.moved_eq,
      Stmt.map_moved body]

theorem MatchCase.map_moved : ∀ cases : List MatchCase,
    cases.map (MatchCase.moved lines) = cases.map (MatchCase.edited (.insertion lines))
  | [] => rfl
  | first :: rest => by
    rw [List.map_cons, List.map_cons, MatchCase.moved_eq_edited first, MatchCase.map_moved rest]

theorem Handler.moved_eq_edited : ∀ handler : Handler,
    handler.moved lines = handler.edited (.insertion lines)
  | .mk _ _ _ body => by simp [Handler.moved, Handler.edited, Expr.moved_eq, Stmt.map_moved body]

theorem Handler.map_moved : ∀ handlers : List Handler,
    handlers.map (Handler.moved lines) = handlers.map (Handler.edited (.insertion lines))
  | [] => rfl
  | handler :: handlers => by
    rw [List.map_cons, List.map_cons, Handler.moved_eq_edited handler, Handler.map_moved handlers]

end

theorem Module.moved_eq_edited (module : Module) :
    module.moved lines = module.edited (.insertion lines) := by
  rw [Module.moved, Module.edited, Stmt.map_moved]

theorem Node.moved_eq_edited (node : Node) :
    node.moved lines = node.edited (.insertion lines) := by
  cases node <;>
    simp [Node.moved, Node.edited, Module.moved_eq_edited, Stmt.moved_eq_edited, Expr.moved_eq,
      Pattern.moved_eq_edited, Parameters.moved_eq_edited, Parameter.moved_eq_edited,
      Keyword.moved_eq_edited, Comprehension.moved_eq_edited, Alias.moved_eq, WithItem.moved_eq,
      MatchCase.moved_eq_edited, Handler.moved_eq_edited]

/-- To move a construct is to edit its positions. -/
theorem Occurrence.moved_eq : Occurrence.moved lines = Occurrence.edited (.insertion lines) := by
  funext occurrence
  rw [Occurrence.moved, Occurrence.edited, Node.moved_eq_edited]

/-- The tree of a moved module is the moved tree of the module. -/
theorem Module.tree_moved (module : Module) :
    (module.moved lines).tree = module.tree.map (Occurrence.moved lines) := by
  rw [Module.moved_eq_edited, Module.tree_edited, Occurrence.moved_eq]

end Edits

end DesignLint.Syntax
