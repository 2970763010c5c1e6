import DesignLint.Proofs.Syntax.Moved

/-!
# Names and lines of moved code

What moved code names, and which parameters it has, is the same; its last lines
move with its first ones, as long as they are lines at all.
-/

namespace DesignLint.Syntax

/-! ## Names and parameters -/

section Names

variable (lines : Nat)

theorem parametersOf_moved (tree : SyntaxTree) :
    parametersOf (tree.map (Occurrence.moved lines)) =
      (parametersOf tree).map (Parameters.moved lines) := by
  obtain ⟨⟨role, node⟩, children⟩ := tree
  cases node with
  | stmt stmt => cases stmt <;> rfl
  | expr expr => cases expr <;> rfl
  | _ => rfl

@[simp]
theorem definedName_moved (tree : SyntaxTree) :
    definedName (tree.map (Occurrence.moved lines)) = definedName tree := by
  obtain ⟨⟨role, node⟩, children⟩ := tree
  cases node with
  | stmt stmt => cases stmt <;> rfl
  | _ => rfl

@[simp]
theorem isClass_moved (tree : SyntaxTree) :
    isClass (tree.map (Occurrence.moved lines)) = isClass tree := by
  obtain ⟨⟨role, node⟩, children⟩ := tree
  cases node with
  | stmt stmt => cases stmt <;> rfl
  | _ => rfl

@[simp]
theorem isFunctionDef_moved (tree : SyntaxTree) :
    isFunctionDef (tree.map (Occurrence.moved lines)) = isFunctionDef tree := by
  obtain ⟨⟨role, node⟩, children⟩ := tree
  cases node with
  | stmt stmt => cases stmt <;> rfl
  | _ => rfl

@[simp]
theorem hasOwnScope_moved (occurrence : Occurrence) :
    hasOwnScope (occurrence.moved lines) = hasOwnScope occurrence := by
  obtain ⟨role, node⟩ := occurrence
  cases node with
  | stmt stmt => cases stmt <;> rfl
  | expr expr => cases expr <;> rfl
  | _ => rfl

theorem childrenIn_moved (role : Role) (tree : SyntaxTree) :
    childrenIn role (tree.map (Occurrence.moved lines)) =
      (childrenIn role tree).map (Tree.map (Occurrence.moved lines)) := by
  simp only [childrenIn, Tree.children_map, List.filter_map]
  congr 2
  funext child
  simp

theorem Parameters.positional_moved (parameters : Parameters) :
    (parameters.moved lines).positional = parameters.positional.map (Parameter.moved lines) := by
  cases parameters
  simp [Parameters.moved, Parameters.positional]

theorem Parameters.keywordOnly_moved (parameters : Parameters) :
    (parameters.moved lines).keywordOnly = parameters.keywordOnly.map (Parameter.moved lines) := by
  cases parameters
  simp [Parameters.moved, Parameters.keywordOnly]

theorem Parameters.keywordDefaults_moved (parameters : Parameters) :
    (parameters.moved lines).keywordDefaults =
      parameters.keywordDefaults.map (Option.map (Expr.moved lines)) := by
  cases parameters
  simp [Parameters.moved, Parameters.keywordDefaults]

theorem Parameters.defaults_moved (parameters : Parameters) :
    (parameters.moved lines).defaults = parameters.defaults.map (Expr.moved lines) := by
  cases parameters
  simp [Parameters.moved, Parameters.defaults]

theorem Parameters.variadic_moved (parameters : Parameters) :
    (parameters.moved lines).variadic = parameters.variadic.map (Parameter.moved lines) := by
  cases parameters
  simp [Parameters.moved, Parameters.variadic]

theorem Parameters.keywordVariadic_moved (parameters : Parameters) :
    (parameters.moved lines).keywordVariadic =
      parameters.keywordVariadic.map (Parameter.moved lines) := by
  cases parameters
  simp [Parameters.moved, Parameters.keywordVariadic]

theorem map_name_moved (parameters : List Parameter) :
    (parameters.map (Parameter.moved lines)).map Parameter.name =
      parameters.map Parameter.name := by
  rw [List.map_map]
  exact List.map_congr_left fun parameter _ => Parameter.name_moved lines parameter

@[simp]
theorem isStaticDecorator_moved (decorator : Expr) :
    isStaticDecorator (decorator.moved lines) = isStaticDecorator decorator := by
  cases decorator <;> rfl

@[simp]
theorem selfName_moved (parameters : Parameters) (decorators : List Expr) :
    selfName (parameters.moved lines) (decorators.map (Expr.moved lines)) =
      selfName parameters decorators := by
  simp [selfName, Parameters.positional_moved, Function.comp_def]

@[simp]
theorem selfNameOf_moved (tree : SyntaxTree) (parent : Option SyntaxTree) :
    selfNameOf (tree.map (Occurrence.moved lines))
      (parent.map (Tree.map (Occurrence.moved lines))) = selfNameOf tree parent := by
  have inClass : (parent.map (Tree.map (Occurrence.moved lines))).any isClass =
      parent.any isClass := by
    cases parent <;> simp
  obtain ⟨⟨role, node⟩, children⟩ := tree
  cases node with
  | stmt stmt =>
      cases stmt with
      | functionDef _ _ _ parameters _ decorators _ =>
          change (if (parent.map _).any isClass then
              selfName (parameters.moved lines) (decorators.map (Expr.moved lines)) else none) =
            if parent.any isClass then selfName parameters decorators else none
          rw [inClass, selfName_moved]
      | _ => rfl
  | _ => rfl

end Names

/-! ## Lines -/

/-- Whether the last line is a line: lines are counted from one. -/
def Position.hasLines (position : Position) : Bool := position.endLine != some 0

theorem Position.lastLine_moved {position : Position} (hasLines : position.hasLines = true)
    (lines : Nat) : (position.moved lines).lastLine = position.lastLine + lines := by
  obtain ⟨line, column, _ | _ | last⟩ := position
  · rfl
  · simp [Position.hasLines] at hasLines
  · simp [Position.moved, Position.lastLine, Nat.add_right_comm]

theorem Node.position?_moved (lines : Nat) (node : Node) :
    (node.moved lines).position? = node.position?.map (Position.moved lines) := by
  cases node with
  | keyword keyword => cases keyword; rfl
  | handler handler => cases handler; rfl
  | _ => simp [Node.moved, Node.position?, Alias.moved]

/-- Whether a construct is one that a parser gives: its lines are lines, and a function has a
name. -/
def Node.isParsed (node : Node) : Bool :=
  node.position?.all Position.hasLines &&
    match node with
    | .stmt (.functionDef _ _ name ..) => !name.isEmpty
    | _ => true

/-- Whether all constructs of a module are such as a parser gives. -/
def Module.isParsed (module : Module) : Bool :=
  module.tree.preorder.all fun tree => tree.label.node.isParsed

end DesignLint.Syntax
