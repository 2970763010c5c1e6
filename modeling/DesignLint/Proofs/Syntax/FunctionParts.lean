import DesignLint.Proofs.Syntax.Targets

/-!
# Parts of functions

What stands below a function definition or a lambda: the parameters with their defaults, the body,
and what is evaluated outside. Parameters stand nowhere else.
-/

namespace DesignLint.Syntax

theorem Parameter.tree_inj {parameter other : Parameter} :
    parameter.tree = other.tree ↔ parameter = other := by
  constructor
  · intro same
    simpa using congrArg (fun tree => tree.label.node) same
  · rintro rfl
    rfl

theorem Expr.tree_ne_parameterTree {role : Role} {expr : Expr} {parameter : Parameter} :
    expr.tree role ≠ parameter.tree := by
  intro same
  simpa using congrArg (fun tree => tree.label.node) same

theorem Parameters.tree_mem_children_iff {parameters : Parameters} {parameter : Parameter} :
    parameter.tree ∈ parameters.tree.children ↔
      parameter ∈ parameters.positional ++ parameters.keywordOnly ++ parameters.variadic.toList
        ++ parameters.keywordVariadic.toList := by
  cases parameters
  simp [Parameters.tree, Tree.children, positional, keywordOnly, variadic, keywordVariadic,
    Parameter.tree_inj, Expr.tree_ne_parameterTree]
  tauto

/-- Besides the parameters stand their defaults. -/
theorem Parameters.exists_parameter_or_default (parameters : Parameters) :
    ∀ part ∈ parameters.tree.children,
      (∃ parameter : Parameter, parameter.tree = part) ∨ part.label.role = .default ∨
        part.label.role = .keywordDefault := by
  cases parameters
  simp [Parameters.tree, Tree.children, or_imp, forall_and]

theorem Parameter.role_of_mem_children (parameter : Parameter) :
    ∀ part ∈ parameter.tree.children, part.label.role = .hint := by
  cases parameter
  simp [Parameter.tree, Tree.children]

/-- The parts of a function definition or a lambda: the parameters, the body, and what is evaluated
outside. -/
theorem exists_children_of_parametersOf {tree : SyntaxTree} (stands : StandsForSyntax tree)
    {parameters : Parameters} (isFunction : parametersOf tree = some parameters) :
    ∃ rest, tree.children = parameters.tree :: rest ∧ ∀ part ∈ rest,
      part.label.role = .body ∨ isFunctionDef tree = true ∧
        (part.label.role = .decorator ∨ part.label.role = .returns) := by
  cases stands with
  | stmt role stmt =>
      cases stmt with
      | functionDef =>
          cases isFunction
          refine ⟨Stmt.trees .body _ ++ Expr.trees .decorator _ ++ Expr.optionTree .returns _, rfl,
            fun part listed => ?_⟩
          simp only [Stmt.trees_eq_map, Expr.trees_eq_map, Expr.optionTree_eq_map, List.mem_append,
            List.mem_map] at listed
          rcases listed with (⟨stmt, -, rfl⟩ | ⟨expr, -, rfl⟩) | ⟨expr, -, rfl⟩
          · exact .inl (by rw [Stmt.label_tree])
          · exact .inr ⟨rfl, .inl (by rw [Expr.label_tree])⟩
          · exact .inr ⟨rfl, .inr (by rw [Expr.label_tree])⟩
      | _ => cases isFunction
  | expr role expr =>
      cases expr with
      | lambda =>
          cases isFunction
          refine ⟨_, rfl, fun part listed => .inl ?_⟩
          rw [List.mem_singleton.mp listed, Expr.label_tree]
      | _ => cases isFunction
  | parameters parameters => cases parameters; cases isFunction
  | parameter parameter => cases parameter; cases isFunction
  | keyword keyword => cases keyword; cases isFunction
  | comprehension clause => cases clause; cases isFunction
  | matchCase matchCase => cases matchCase; cases isFunction
  | handler handler => cases handler; cases isFunction
  | pattern pattern => cases pattern <;> cases isFunction
  | _ => cases isFunction

theorem Stmt.role_of_mem_children (role : Role) (stmt : Stmt) :
    ∀ part ∈ (stmt.tree role).children, part.label.role ≠ .parameter ∧
      (part.label.role = .parameters → hasOwnScope ⟨role, .stmt stmt⟩ = true) := by
  cases stmt <;> simp [Stmt.tree, Tree.children, or_imp, forall_and, hasOwnScope]

theorem Expr.role_of_mem_children (role : Role) (expr : Expr) :
    ∀ part ∈ (expr.tree role).children, part.label.role ≠ .parameter ∧
      (part.label.role = .parameters → hasOwnScope ⟨role, .expr expr⟩ = true) := by
  cases expr <;>
    simp [Expr.tree, Context.tree, Tree.children, or_imp, forall_and, hasOwnScope]

/-- Parameters stand below what holds the parameters of a function definition or a lambda. -/
theorem StandsForSyntax.role_of_mem_children {tree : SyntaxTree} (stands : StandsForSyntax tree) :
    ∀ part ∈ tree.children,
      (part.label.role = .parameter → tree.label.role = .parameters) ∧
      (part.label.role = .parameters → hasOwnScope tree.label = true) := by
  cases stands with
  | stmt role stmt =>
      intro part listed
      obtain ⟨notParameter, holds⟩ := stmt.role_of_mem_children role part listed
      rw [Stmt.label_tree]
      exact ⟨fun isParameter => absurd isParameter notParameter, holds⟩
  | expr role expr =>
      intro part listed
      obtain ⟨notParameter, holds⟩ := expr.role_of_mem_children role part listed
      rw [Expr.label_tree]
      exact ⟨fun isParameter => absurd isParameter notParameter, holds⟩
  | module module => simp [Module.tree, Tree.children]
  | pattern pattern => cases pattern <;> simp [Pattern.tree, Tree.children, or_imp, forall_and]
  | parameters parameters =>
      rw [Parameters.label_tree]
      cases parameters
      simp [Parameters.tree, Tree.children, or_imp, forall_and]
  | parameter parameter => cases parameter; simp [Parameter.tree, Tree.children]
  | keyword keyword => cases keyword; simp [Keyword.tree, Tree.children]
  | comprehension clause =>
      cases clause
      simp [Comprehension.tree, Tree.children, or_imp, forall_and]
  | importAlias item => simp [Alias.tree, Tree.children]
  | withItem item => simp [WithItem.tree, Tree.children]
  | matchCase matchCase =>
      cases matchCase
      simp [MatchCase.tree, Tree.children, or_imp, forall_and]
  | handler handler =>
      cases handler
      simp [Handler.tree, Tree.children, or_imp, forall_and]
  | token role token => simp [Token.tree, Tree.children]

end DesignLint.Syntax
