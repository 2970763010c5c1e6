import DesignLint.Proofs.Syntax.Place
import DesignLint.Proofs.Syntax.Reached

/-!
# Targets and contexts

What a construct assigns to are its targets. A target is a name, or it nests in lists, tuples and
starred expressions. The parser marks every expression in a target as one to be bound, or to be
unbound, and all others as ones to be read. Targets stand in a role of their own, and so do
statements.
-/

namespace DesignLint.Syntax

/-! ## Targets -/

mutual

/-- The names in a target. Members and items of objects are no names. -/
def Expr.targetNames : Expr → List String
  | .name _ id _ => [id]
  | .starred _ value _ => value.targetNames
  | .list _ elements _ | .tuple _ elements _ => Expr.targetNamesAll elements
  | _ => []

/-- The names in some targets. -/
def Expr.targetNamesAll : List Expr → List String
  | [] => []
  | expr :: exprs => expr.targetNames ++ Expr.targetNamesAll exprs

end

/-- The parts of a target that are targets themselves. -/
def Expr.targetParts : Expr → List Expr
  | .starred _ value _ => [value]
  | .list _ elements _ | .tuple _ elements _ => elements
  | _ => []

/-- What a construct binds or unbinds by a target: an assignment of any kind, a deletion, a loop, a
manager, an assignment in an expression, or a clause of a comprehension. -/
def Node.targets : Node → List Expr
  | .stmt (.assign _ targets _) => targets
  | .stmt (.augAssign _ target _ _) => [target]
  | .stmt (.annAssign _ target _ _) => [target]
  | .stmt (.deleteStmt _ targets) => targets
  | .stmt (.forStmt _ _ target ..) => [target]
  | .withItem item => item.target.toList
  | .expr (.namedExpr _ target _) => [target]
  | .comprehension (.mk target ..) => [target]
  | _ => []

theorem Expr.targetNamesAll_eq_flatMap (exprs : List Expr) :
    Expr.targetNamesAll exprs = exprs.flatMap Expr.targetNames := by
  induction exprs with
  | nil => rfl
  | cons expr exprs inductionHypothesis =>
      rw [Expr.targetNamesAll, inductionHypothesis, List.flatMap_cons]

/-- A target is a name, or its names are those of its parts. -/
theorem Expr.mem_targetNames_iff {expr : Expr} {name : String} :
    name ∈ expr.targetNames ↔
      (∃ position context, expr = .name position name context) ∨
        ∃ part ∈ expr.targetParts, name ∈ part.targetNames := by
  cases expr <;>
    simp [targetNames, targetParts, Expr.targetNamesAll_eq_flatMap, eq_comm]

/-! ## Contexts -/

/-- The context of an expression, for the kinds that have one. -/
def Expr.context? : Expr → Option Context
  | .attr _ _ _ context | .subscript _ _ _ context | .starred _ _ context | .name _ _ context
  | .list _ _ context | .tuple _ _ context => some context
  | _ => none

/-- The context that an expression has in a role below a construct: a target is there to be bound or
to be unbound, a part of a target for what the target is there, and everything else to be read. -/
def contextBelow (above : Node) (role : Role) : Context :=
  match above, role with
  | .stmt (.deleteStmt ..), .target => .del
  | _, .target => .store
  | .expr (.starred _ _ context), .value => context
  | .expr (.list _ _ context), .element => context
  | .expr (.tuple _ _ context), .element => context
  | _, _ => .load

/-- No target is there to be read. -/
theorem contextBelow_target_ne_load (above : Node) : contextBelow above .target ≠ .load := by
  unfold contextBelow
  split <;> simp_all

/-- Only the targets of a deletion are there to be unbound. -/
theorem contextBelow_target_eq_store_iff {node : Node} :
    contextBelow node .target = .store ↔
      ∀ position targets, node ≠ .stmt (.deleteStmt position targets) := by
  cases node with
  | stmt stmt => cases stmt <;> simp [contextBelow]
  | _ => simp [contextBelow]

/-- Whether a part of a construct has the right context, if it has one. -/
def fitsContext (above : Node) (below : Occurrence) : Bool :=
  match below.node with
  | .expr expr => expr.context?.all fun context => context = contextBelow above below.role
  | _ => true

/-- All expressions in a tree have the contexts that the parser gives them. -/
def HasContexts (tree : SyntaxTree) : Prop :=
  ∀ outer ∈ tree.preorder, ∀ part ∈ outer.children,
    fitsContext outer.label.node part.label = true

instance (tree : SyntaxTree) : Decidable (HasContexts tree) :=
  inferInstanceAs (Decidable (∀ outer ∈ tree.preorder, ∀ part ∈ outer.children, _))

theorem HasContexts.context_eq {tree outer part : SyntaxTree} {expr : Expr} {context : Context}
    (contexts : HasContexts tree) (within : outer ∈ tree.preorder) (below : part ∈ outer.children)
    (node : part.label.node = .expr expr) (has : expr.context? = some context) :
    context = contextBelow outer.label.node part.label.role := by
  have fits := contexts outer within part below
  simpa [fitsContext, node, has] using fits

/-- The name of a target has a context, and so has all that it nests in. -/
theorem Expr.exists_context_of_mem_targetNames {expr : Expr} {name : String}
    (named : name ∈ expr.targetNames) : ∃ context, expr.context? = some context := by
  cases expr <;> simp [targetNames, context?] at named ⊢

/-! ## Targets as parts of constructs -/

@[simp]
theorem Parameters.label_tree (parameters : Parameters) :
    parameters.tree.label = ⟨.parameters, .parameters parameters⟩ := by
  cases parameters
  rfl

@[simp]
theorem Parameter.label_tree (parameter : Parameter) :
    parameter.tree.label = ⟨.parameter, .parameter parameter⟩ := by
  cases parameter
  rfl

@[simp]
theorem Keyword.label_tree (keyword : Keyword) :
    keyword.tree.label = ⟨.keyword, .keyword keyword⟩ := by
  cases keyword
  rfl

@[simp]
theorem Comprehension.label_tree (clause : Comprehension) :
    clause.tree.label = ⟨.clause, .comprehension clause⟩ := by
  cases clause
  rfl

@[simp]
theorem Alias.label_tree (item : Alias) : item.tree.label = ⟨.name, .importAlias item⟩ :=
  rfl

@[simp]
theorem WithItem.label_tree (item : WithItem) : item.tree.label = ⟨.item, .withItem item⟩ :=
  rfl

@[simp]
theorem MatchCase.label_tree (matchCase : MatchCase) :
    matchCase.tree.label = ⟨.matchCase, .matchCase matchCase⟩ := by
  cases matchCase
  rfl

@[simp]
theorem Handler.label_tree (handler : Handler) :
    handler.tree.label = ⟨.handler, .handler handler⟩ := by
  cases handler
  rfl

@[simp]
theorem Token.label_tree (role : Role) (token : Token) :
    (token.tree role).label = ⟨role, .token token⟩ :=
  rfl

theorem Expr.childrenIn_target (role : Role) (expr : Expr) :
    childrenIn .target (expr.tree role) = (Node.expr expr).targets.map (Expr.tree .target) := by
  cases expr <;> simp [childrenIn, Expr.tree, Tree.children, Node.targets, Context.tree]

theorem Stmt.childrenIn_target (role : Role) (stmt : Stmt) :
    childrenIn .target (stmt.tree role) = (Node.stmt stmt).targets.map (Expr.tree .target) := by
  cases stmt <;> simp [childrenIn, Stmt.tree, Tree.children, Node.targets]

theorem Node.childrenIn_target (role : Role) (node : Node) :
    childrenIn .target (node.tree role) = node.targets.map (Expr.tree .target) := by
  cases node with
  | stmt stmt => exact stmt.childrenIn_target role
  | expr expr => exact expr.childrenIn_target role
  | comprehension clause =>
      cases clause
      simp [childrenIn, Node.tree, Comprehension.tree, Tree.children, Node.targets]
  | withItem item => simp [childrenIn, Node.tree, WithItem.tree, Tree.children, Node.targets]
  | module module => simp [childrenIn, Node.tree, Module.tree, Tree.children, Node.targets]
  | pattern pattern =>
      cases pattern <;> simp [childrenIn, Node.tree, Pattern.tree, Tree.children, Node.targets]
  | parameters parameters =>
      cases parameters
      simp [childrenIn, Node.tree, Parameters.tree, Tree.children, Node.targets]
  | parameter parameter =>
      cases parameter
      simp [childrenIn, Node.tree, Parameter.tree, Tree.children, Node.targets]
  | keyword keyword =>
      cases keyword
      simp [childrenIn, Node.tree, Keyword.tree, Tree.children, Node.targets]
  | matchCase matchCase =>
      cases matchCase
      simp [childrenIn, Node.tree, MatchCase.tree, Tree.children, Node.targets]
  | handler handler =>
      cases handler
      simp [childrenIn, Node.tree, Handler.tree, Tree.children, Node.targets]
  | importAlias item => rfl
  | token token => rfl

/-- What stands below a construct in the role of a target are its targets. -/
theorem StandsForSyntax.childrenIn_target {tree : SyntaxTree} (stands : StandsForSyntax tree) :
    childrenIn .target tree = tree.label.node.targets.map (Expr.tree .target) := by
  have whole := tree.label.node.childrenIn_target tree.label.role
  rwa [← stands.eq_tree] at whole

variable {tree part : SyntaxTree} {expr inner : Expr} {context : Context}

/-- What a target nests in passes its context on. -/
theorem Expr.exists_mem_children_of_mem_targetParts (role : Role)
    (nested : inner ∈ expr.targetParts) (has : expr.context? = some context) :
    ∃ part, inner.tree part ∈ (expr.tree role).children ∧
      contextBelow (.expr expr) part = context := by
  cases expr with
  | starred position value own =>
      cases has
      obtain rfl := List.mem_singleton.mp nested
      exact ⟨.value, by simp [Expr.tree, Tree.children], rfl⟩
  | list position elements own | tuple position elements own =>
      cases has
      refine ⟨.element, ?_, rfl⟩
      rw [Expr.tree, Tree.children, Expr.trees_eq_map]
      exact List.mem_append_left _ (List.mem_map_of_mem nested)
  | _ => cases nested

theorem Expr.mem_of_mem_elements {elements : List Expr}
    (below : part ∈ Expr.trees .element elements ++ [context.tree])
    (node : part.label.node = .expr inner) : inner ∈ elements := by
  rw [Expr.trees_eq_map, List.mem_append, List.mem_map, List.mem_singleton] at below
  rcases below with ⟨element, member, rfl⟩ | rfl
  · rw [Expr.label_tree] at node
    cases node
    exact member
  · cases node

/-- A part of a construct that is not there to be read is a target of the construct, or a part of a
target that is there for the same. -/
theorem StandsForSyntax.target_or_part (stands : StandsForSyntax tree)
    (below : part ∈ tree.children) (node : part.label.node = .expr inner)
    (bound : contextBelow tree.label.node part.label.role ≠ .load) :
    (part.label.role = .target ∧ inner ∈ tree.label.node.targets) ∨
      ∃ expr, tree.label.node = .expr expr ∧ inner ∈ expr.targetParts ∧
        expr.context? = some (contextBelow tree.label.node part.label.role) := by
  by_cases isTarget : part.label.role = .target
  · have listed : part ∈ childrenIn .target tree := List.mem_filter.mpr ⟨below, by simp [isTarget]⟩
    rw [stands.childrenIn_target] at listed
    obtain ⟨target, member, rfl⟩ := List.mem_map.mp listed
    rw [Expr.label_tree] at node
    cases node
    exact .inl ⟨isTarget, member⟩
  · right
    rw [stands.eq_tree] at below
    unfold contextBelow at bound
    split at bound
    · exact absurd ‹_› isTarget
    · exact absurd ‹_› isTarget
    · rename_i position value context above role
      rw [above] at below
      refine ⟨_, above, ?_, by rw [above, role]; rfl⟩
      simp only [Node.tree, Expr.tree, Tree.children, List.mem_cons, List.not_mem_nil, or_false]
        at below
      rcases below with rfl | rfl
      · rw [Expr.label_tree] at node
        cases node
        exact List.mem_singleton_self _
      · cases node
    · rename_i position elements context above role
      rw [above] at below
      refine ⟨_, above, ?_, by rw [above, role]; rfl⟩
      exact Expr.mem_of_mem_elements below node
    · rename_i position elements context above role
      rw [above] at below
      refine ⟨_, above, ?_, by rw [above, role]; rfl⟩
      exact Expr.mem_of_mem_elements below node
    · exact absurd rfl bound

/-- A part of a target in a tree has the context of the target. -/
theorem HasContexts.context?_of_mem_children (contexts : HasContexts tree) {outer : SyntaxTree}
    (within : outer ∈ tree.preorder) (node : outer.label.node = .expr expr) {role : Role}
    (below : inner.tree role ∈ outer.children) (kept : contextBelow (.expr expr) role = context)
    {name : String} (named : name ∈ inner.targetNames) : inner.context? = some context := by
  obtain ⟨own, has⟩ := Expr.exists_context_of_mem_targetNames named
  have fits := contexts.context_eq within below (by rw [Expr.label_tree]) has
  rw [has, fits, Expr.label_tree, node, kept]

/-! ## Statements as parts of constructs -/

/-- The roles of statements and of their clauses. -/
def statementRoles : List Role := [.root, .body, .orElse, .final, .matchCase, .handler]

theorem Stmt.role_mem_statementRoles (role : Role) (stmt : Stmt) :
    ∀ part ∈ (stmt.tree role).children, holdsStatements part.label.node = true →
      part.label.role ∈ statementRoles := by
  cases stmt <;>
    simp [Stmt.tree, Tree.children, or_imp, forall_and, holdsStatements, statementRoles]

/-- No statements stand below an expression. -/
theorem Expr.holdsStatements_eq_false (role : Role) (expr : Expr) :
    ∀ part ∈ (expr.tree role).children, holdsStatements part.label.node = false := by
  cases expr <;>
    simp [Expr.tree, Tree.children, Context.tree, or_imp, forall_and, holdsStatements]

/-- Statements and their clauses stand in roles of their own. -/
theorem StandsForSyntax.role_mem_statementRoles {tree : SyntaxTree}
    (stands : StandsForSyntax tree) :
    ∀ part ∈ tree.children, holdsStatements part.label.node = true →
      part.label.role ∈ statementRoles := by
  cases stands with
  | stmt role stmt => exact stmt.role_mem_statementRoles role
  | expr role expr =>
      intro part member holds
      rw [expr.holdsStatements_eq_false role part member] at holds
      cases holds
  | matchCase matchCase =>
      cases matchCase
      simp [MatchCase.tree, Tree.children, or_imp, forall_and, holdsStatements, statementRoles]
  | handler handler =>
      cases handler
      simp [Handler.tree, Tree.children, or_imp, forall_and, holdsStatements, statementRoles]
  | module module => simp [Module.tree, Tree.children, statementRoles]
  | pattern pattern =>
      cases pattern <;>
        simp [Pattern.tree, Tree.children, or_imp, forall_and, holdsStatements]
  | parameters parameters =>
      cases parameters
      simp [Parameters.tree, Tree.children, or_imp, forall_and, holdsStatements]
  | parameter parameter =>
      cases parameter
      simp [Parameter.tree, Tree.children, holdsStatements]
  | keyword keyword =>
      cases keyword
      simp [Keyword.tree, Tree.children, holdsStatements]
  | comprehension clause =>
      cases clause
      simp [Comprehension.tree, Tree.children, or_imp, forall_and, holdsStatements]
  | withItem item => simp [WithItem.tree, Tree.children, holdsStatements]
  | importAlias item => simp [Alias.tree, Tree.children]
  | token role token => simp [Token.tree, Tree.children]

end DesignLint.Syntax
