import DesignLint.Proofs.Check.Placed
import DesignLint.Proofs.Syntax.Lines

/-!
# The lines that violations show

A check takes the lines of a violation from constructs of the module: those of one construct, its
first line only, or the lines from a function to a name that is read in its body. Only the imports
are reported on the lines of the whole module. In a module whose constructs stand on its lines all
of these are ranges of its lines.
-/

namespace DesignLint

open Syntax Check

/-- Whether the constructs of a module stand on lines from one to the last line of the module, and
their parts on the lines of each. -/
def Syntax.Module.isWellPlaced (module : Module) : Bool :=
  standsOn 1 (lastLineOf module) module.tree

theorem one_le_lastLineOf {module : Module} (wellPlaced : module.isWellPlaced = true) :
    1 ≤ lastLineOf module := by
  cases body : module.body with
  | nil => simp [lastLineOf, body]
  | cons stmt stmts =>
      have listed : stmt.tree .body ∈ module.tree.preorder :=
        Tree.mem_preorder_of_mem_children module.tree.self_mem_preorder (by
          simp [Module.tree, Tree.children, body])
      have has : HasPosition module.tree stmt.position :=
        (hasPosition_self (by simp [Node.position?])).of_mem_preorder listed
      obtain ⟨begins, ordered, ends⟩ := has.on_lines wellPlaced
      exact Nat.le_trans begins (Nat.le_trans ordered ends)

theorem lastLine_le_lastLineOf {module : Module} {stmt : Stmt} (listed : stmt ∈ module.body) :
    stmt.position.lastLine ≤ lastLineOf module := by
  have member : stmt.position.lastLine ∈ module.body.map fun stmt => stmt.position.lastLine :=
    List.mem_map_of_mem listed
  unfold lastLineOf
  cases lines : module.body.map fun stmt => stmt.position.lastLine with
  | nil =>
      rw [lines] at member
      cases member
  | cons line others =>
      rw [lines] at member
      have greatest : (line :: others).max? = some (others.foldl max line) := rfl
      exact (List.max?_le_iff greatest).mp (Nat.le_refl _) _ member

/-- A module whose constructs are nested in each other by their lines is well placed. -/
theorem isWellPlaced_of_isNested {module : Module} (nested : IsNested module.tree) :
    module.isWellPlaced = true := by
  apply nested.standsOn
  rintro position ⟨inner, listed, own⟩
  refine ⟨(nested.ordered position ⟨inner, listed, own⟩).1, ?_⟩
  rcases Tree.mem_preorder_iff.mp listed with rfl | ⟨child, member, below⟩
  · cases own
  · have inBody : child ∈ module.body.map (Stmt.tree .body) := by
      simpa [Module.tree, Tree.children] using member
    obtain ⟨stmt, inModule, rfl⟩ := List.mem_map.mp inBody
    have reached := Tree.mem_preorder_of_mem_children module.tree.self_mem_preorder member
    have within := nested.inside _ reached stmt.position position (by simp [Node.position?])
      ⟨inner, below, own⟩
    exact Nat.le_trans within.2 (lastLine_le_lastLineOf inModule)

/-- Where a violation in a module has its lines from. -/
inductive Violation.ShowsLines (module : Module) (violation : Violation) : Prop
  | construct {position : Position} (has : HasPosition module.tree position)
      (first : violation.lineStart = position.line)
      (last : violation.lineEnd = position.lastLine)
  | beginning {position : Position} (has : HasPosition module.tree position)
      (first : violation.lineStart = position.line) (last : violation.lineEnd = position.line)
  | untilRead {function part : SyntaxTree} {position used : Position}
      (listed : function ∈ module.tree.preorder)
      (own : function.label.node.position? = some position)
      (member : part ∈ childrenIn .body function) (has : HasPosition part used)
      (first : violation.lineStart = position.line) (last : violation.lineEnd = used.line)
  | wholeModule (first : violation.lineStart = 1) (last : violation.lineEnd = lastLineOf module)

/-- A violation is on lines of a module, the first of which is no later than the last. -/
structure Violation.IsOnLinesOf (module : Module) (violation : Violation) : Prop where
  begins : 1 ≤ violation.lineStart
  ordered : violation.lineStart ≤ violation.lineEnd
  ends : violation.lineEnd ≤ lastLineOf module

theorem Violation.ShowsLines.isOnLinesOf {module : Module} {violation : Violation}
    (shows : violation.ShowsLines module) (wellPlaced : module.isWellPlaced = true) :
    violation.IsOnLinesOf module := by
  cases shows with
  | construct has first last =>
      obtain ⟨begins, ordered, ends⟩ := has.on_lines wellPlaced
      constructor <;> omega
  | beginning has first last =>
      obtain ⟨begins, ordered, ends⟩ := has.on_lines wellPlaced
      constructor <;> omega
  | untilRead listed own member has first last =>
      obtain ⟨member, role⟩ := List.mem_filter.mp member
      -- what stands in a body is in no decorator, so it begins below the first line
      have after := line_le_line_of_part wellPlaced listed own member
        (by rw [beq_iff_eq.mp role]; decide) has
      have within := Tree.mem_preorder_of_mem_children listed member
      obtain ⟨begins, -, -⟩ := ((hasPosition_self own).of_mem_preorder listed).on_lines wellPlaced
      obtain ⟨-, ordered, ends⟩ := (has.of_mem_preorder within).on_lines wellPlaced
      constructor <;> omega
  | wholeModule first last =>
      have := one_le_lastLineOf wellPlaced
      constructor <;> omega

/-! ## Cohesion -/

namespace Cohesion

theorem exists_hasPosition_of_mem_closedUnits (module : Module) :
    ∀ unit ∈ closedUnits module.tree, ∃ position, HasPosition module.tree position ∧
      unit.span = linesOf position := by
  intro unit listed
  rw [closedUnits_eq (.module module)] at listed
  obtain ⟨place, unitPlace, rfl⟩ := List.mem_map.mp listed
  obtain ⟨late, isUnit⟩ := List.mem_filter.mp unitPlace
  have has := Tree.hasPlace_of_mem_places (Visit.mem_latePlaces.mp late)
  change ∃ position, HasPosition module.tree position ∧ spanAt place = linesOf position
  unfold kindAt? at isUnit
  unfold spanAt
  cases found : elementAt? place with
  | none =>
      rw [found] at isUnit
      cases isUnit
  | some element =>
      rw [found] at isUnit
      have shown := showsLinesOf_of_elementOf? found
      cases element with
      | function name span method bindsName header =>
          obtain ⟨position, own, same⟩ := shown
          exact ⟨position, ⟨place.tree, has.mem_preorder.1, own⟩, same⟩
      | «class» name span header =>
          obtain ⟨position, own, same⟩ := shown
          exact ⟨position, ⟨place.tree, has.mem_preorder.1, own⟩, same⟩
      | controlBlock type span => cases isUnit
      | identifier name binding => cases isUnit
      | memberAccess receiver member => cases isUnit

end Cohesion

namespace Check

open Cohesion

variable {module : Module}

theorem showsLines_cohesionViolation (ruleId : RuleId) (analysis : CohesionAnalysis) :
    ∀ violation ∈ (analysis.reportsOn module.tree).map (cohesionViolation ruleId),
      violation.ShowsLines module := by
  intro violation found
  obtain ⟨report, reported, rfl⟩ := List.mem_map.mp found
  obtain ⟨unit, closed, judged⟩ := List.mem_filterMap.mp reported
  obtain ⟨limits, -, judged⟩ := Option.bind_eq_some_iff.mp judged
  obtain ⟨position, has, span⟩ := exists_hasPosition_of_mem_closedUnits module unit closed
  rw [← (showsGroups_of_judge judged).span] at span
  exact .construct has (congrArg Span.startLine span) (congrArg Span.endLine span)

/-! ## Conditions and numbers -/

/-- A condition stands right below the construct that evaluates it. -/
theorem exists_mem_children_of_mem_conditionsOf {tree : SyntaxTree} (stands : StandsForSyntax tree)
    {test : Expr} (listed : test ∈ conditionsOf tree) : ∃ role, test.tree role ∈ tree.children := by
  rw [stands.eq_tree]
  unfold conditionsOf at listed
  split at listed <;> rename_i node
  · obtain rfl := List.mem_singleton.mp listed
    exact ⟨.test, by simp [node, Node.tree, Stmt.tree, Tree.children]⟩
  · obtain rfl := List.mem_singleton.mp listed
    exact ⟨.test, by simp [node, Node.tree, Stmt.tree, Tree.children]⟩
  · obtain rfl := List.mem_singleton.mp listed
    exact ⟨.test, by simp [node, Node.tree, Expr.tree, Tree.children]⟩
  · refine ⟨.condition, ?_⟩
    rw [node, Node.tree, Comprehension.tree, Tree.children, Expr.trees_eq_map]
    exact List.mem_cons_of_mem _ (List.mem_cons_of_mem _ (List.mem_map_of_mem listed))
  · obtain rfl := List.mem_singleton.mp listed
    exact ⟨.guard, by simp [node, Node.tree, MatchCase.tree, Tree.children]⟩
  · cases listed

theorem showsLines_complexConditions {options : ConditionOptions} {violations : List Violation}
    (found : complexConditions options module.tree = .ok violations) :
    ∀ violation ∈ violations, violation.ShowsLines module := by
  intro violation listed
  obtain ⟨test, rejected, made⟩ := exists_of_mapM_eq_ok found violation listed
  obtain ⟨tree, reached, evaluated⟩ := List.mem_flatMap.mp (List.mem_of_mem_filter rejected)
  have inModule := Tree.mem_levelOrder_iff.mp reached
  obtain ⟨role, member⟩ := exists_mem_children_of_mem_conditionsOf
    ((StandsForSyntax.module module).of_mem_preorder inModule) evaluated
  have has : HasPosition module.tree test.position :=
    (hasPosition_self (by simp [Node.position?])).of_mem_preorder
      (Tree.mem_preorder_of_mem_children inModule member)
  obtain ⟨text, -, shown⟩ := bind_eq_ok_iff.mp made
  cases shown
  exact .construct has rfl rfl

/-- A number is shown by the literal or by the sign in front of it. -/
theorem target_mem_preorder_of_mem_literalsOf {tree : SyntaxTree} {number : Literal}
    (listed : number ∈ literalsOf tree) : number.target ∈ tree.preorder := by
  obtain ⟨visit, reached, made⟩ := List.mem_filterMap.mp listed
  obtain ⟨own, around⟩ := (Tree.hasPlace_of_mem_places reached).mem_preorder
  unfold literal? at made
  split at made
  · obtain ⟨value, -, rfl⟩ := Option.map_eq_some_iff.mp made
    cases context : visit.context with
    | nil => exact own
    | cons parent ancestors =>
        rw [context] at around
        unfold signedLiteral
        dsimp only
        split
        · exact around parent List.mem_cons_self
        · exact own
  · cases made

theorem showsLines_unnamedNumbers {options : LiteralOptions} {violations : List Violation}
    (found : unnamedNumbers options module.tree = .ok violations) :
    ∀ violation ∈ violations, violation.ShowsLines module := by
  intro violation listed
  obtain ⟨target, shown, made⟩ := exists_of_mapM_eq_ok found violation listed
  obtain ⟨number, kept, isExpr⟩ := List.mem_filterMap.mp shown
  have reached := target_mem_preorder_of_mem_literalsOf (List.mem_of_mem_filter kept)
  have node : number.target.label.node = .expr target := by
    unfold Literal.expr? at isExpr
    split at isExpr
    · cases isExpr
      assumption
    · cases isExpr
  have has : HasPosition module.tree target.position :=
    ⟨number.target, reached, by rw [node, Node.position?]⟩
  obtain ⟨text, -, made⟩ := bind_eq_ok_iff.mp made
  cases made
  exact .construct has rfl rfl

/-! ## Statements and definitions -/

theorem showsLines_deepNesting (options : NestingOptions) :
    ∀ violation ∈ deepNesting options module.tree, violation.ShowsLines module := by
  intro violation found
  obtain ⟨visit, reached, made⟩ := List.mem_filterMap.mp found
  unfold nestingViolation? at made
  dsimp only at made
  split at made
  · rename_i stmt node
    have has : HasPosition module.tree stmt.position :=
      ⟨visit.tree, Tree.mem_preorder_of_mem_visits reached, by rw [node, Node.position?]⟩
    split at made
    · obtain rfl := Option.some.inj made
      exact .construct has rfl rfl
    · cases made
  · cases made

theorem showsLines_highFanOut (options : FanOutOptions) :
    ∀ violation ∈ highFanOut options module.tree, violation.ShowsLines module := by
  intro violation found
  obtain ⟨visit, reached, made⟩ := List.mem_filterMap.mp found
  split at made
  · obtain ⟨position, own, made⟩ := Option.bind_eq_some_iff.mp made
    have has : HasPosition module.tree position :=
      ⟨visit.tree, Tree.mem_preorder_of_mem_lateVisits reached, own⟩
    dsimp only at made
    split at made
    · split at made
      · obtain rfl := Option.some.inj made
        exact .construct has rfl rfl
      · cases made
    · split at made
      · obtain rfl := Option.some.inj made
        exact .construct has rfl rfl
      · cases made
  · cases made

theorem showsLines_longSignatures (options : ParameterOptions) :
    ∀ violation ∈ longSignatures options module.tree, violation.ShowsLines module := by
  intro violation found
  obtain ⟨visit, reached, made⟩ := List.mem_filterMap.mp found
  obtain ⟨parameters, -, made⟩ := Option.bind_eq_some_iff.mp made
  obtain ⟨position, own, made⟩ := Option.bind_eq_some_iff.mp made
  have has : HasPosition module.tree position :=
    ⟨visit.tree, Tree.mem_preorder_of_mem_visits reached, own⟩
  dsimp only at made
  split at made
  · obtain rfl := Option.some.inj made
    exact .construct has rfl rfl
  · cases made

theorem showsLines_importViolations (options : ImportOptions) :
    ∀ violation ∈ importViolations options module, violation.ShowsLines module := by
  intro violation found
  unfold importViolations at found
  dsimp only at found
  split at found
  · obtain rfl := List.mem_singleton.mp found
    exact .wholeModule rfl rfl
  · simp at found

/-! ## Names -/

theorem tree_mem_children_of_parametersOf {tree : SyntaxTree} (stands : StandsForSyntax tree)
    {parameters : Parameters} (own : parametersOf tree = some parameters) :
    parameters.tree ∈ tree.children := by
  rw [stands.eq_tree]
  unfold parametersOf at own
  split at own <;> rename_i node
  · cases own
    simp [node, Node.tree, Stmt.tree, Tree.children]
  · cases own
    simp [node, Node.tree, Expr.tree, Tree.children]
  · cases own

theorem tree_mem_children_of_mem_parametersWithDefaults {parameters : Parameters}
    {parameter : Parameter} {value : Option Expr}
    (listed : (parameter, value) ∈ parametersWithDefaults parameters) :
    parameter.tree ∈ parameters.tree.children := by
  have member : parameter ∈ parameters.positional ∨ parameter ∈ parameters.keywordOnly := by
    rcases List.mem_append.mp listed with positional | keywordOnly
    · exact .inl (List.of_mem_zip positional).1
    · exact .inr (List.of_mem_zip keywordOnly).1
  cases parameters with
  | mk positionalOnly regular variadic keywordOnly keywordDefaults keywordVariadic defaults =>
      simp only [Parameters.positional, List.mem_append, Parameters.keywordOnly] at member
      simp only [Parameters.tree, Tree.children, Parameter.trees_eq_map, List.mem_append]
      rcases member with (member | member) | member <;>
        simp [List.mem_map_of_mem (f := Parameter.tree) member]

/-- The parameters of a function stand below it. -/
theorem hasPosition_of_mem_parametersWithDefaults {tree : SyntaxTree}
    (stands : StandsForSyntax tree) {parameters : Parameters}
    (own : parametersOf tree = some parameters) {parameter : Parameter} {value : Option Expr}
    (listed : (parameter, value) ∈ parametersWithDefaults parameters) :
    HasPosition tree parameter.position := by
  have here : HasPosition parameter.tree parameter.position :=
    hasPosition_self (by cases parameter; rfl)
  apply here.of_mem_preorder
  apply Tree.mem_preorder_of_mem_children _ (tree_mem_children_of_mem_parametersWithDefaults listed)
  exact Tree.mem_preorder_of_mem_children tree.self_mem_preorder
    (tree_mem_children_of_parametersOf stands own)

theorem showsLines_booleanParameters (options : BooleanOptions) :
    ∀ violation ∈ booleanParameters options module.tree, violation.ShowsLines module := by
  intro violation found
  obtain ⟨function, reached, listed⟩ := List.mem_flatMap.mp found
  have inModule := Tree.mem_levelOrder_iff.mp reached
  unfold functionBooleans at listed
  split at listed
  · cases listed
  · rename_i parameters own
    obtain ⟨⟨parameter, value⟩, kept, rfl⟩ := List.mem_map.mp listed
    have has := hasPosition_of_mem_parametersWithDefaults
      ((StandsForSyntax.module module).of_mem_preorder inModule) own (List.mem_of_mem_filter kept)
    exact .construct (has.of_mem_preorder inModule) rfl rfl

theorem position?_of_nameGiven? {checkProperties : Bool} {node : Node} {name : String}
    {position : Position} (given : nameGiven? checkProperties node = some (name, position)) :
    node.position? = some position := by
  unfold nameGiven? at given
  split at given
  · cases given
    rfl
  · cases given
    rfl
  · cases given
    rfl
  · cases given
    rfl
  · split at given
    · cases given
      rfl
    · cases given
  · cases given

theorem newOccurrences_subset (met names : List GivenName) :
    newOccurrences met names ⊆ names := by
  induction names generalizing met with
  | nil => exact List.Subset.refl _
  | cons given rest inductionHypothesis =>
      rw [newOccurrences]
      split
      · exact List.subset_cons_of_subset given (inductionHypothesis met)
      · exact List.cons_subset_cons given (inductionHypothesis (given :: met))

theorem showsLines_meaninglessNames (options : NamingOptions) :
    ∀ violation ∈ meaninglessNames options module.tree, violation.ShowsLines module := by
  intro violation found
  obtain ⟨given, first, made⟩ := List.mem_filterMap.mp found
  obtain ⟨⟨ruleId, message⟩, -, rfl⟩ := Option.map_eq_some_iff.mp made
  obtain ⟨visit, reached, named⟩ := List.mem_filterMap.mp (newOccurrences_subset _ _ first)
  obtain ⟨⟨name, position⟩, isGiven, rfl⟩ := Option.map_eq_some_iff.mp named
  have has : HasPosition module.tree position :=
    ⟨visit.tree, Tree.mem_preorder_of_mem_visits reached, position?_of_nameGiven? isGiven⟩
  exact .beginning has rfl rfl

/-! ## Late usage -/

theorem mem_preorder_of_mem_functionsIn {tree function parent : SyntaxTree}
    (listed : (function, parent) ∈ functionsIn tree) : function ∈ tree.preorder := by
  obtain ⟨outer, reached, made⟩ := List.mem_flatMap.mp listed
  obtain ⟨inner, member, same⟩ := List.mem_map.mp made
  cases same
  exact Tree.mem_preorder_of_mem_children (Tree.mem_levelOrder_iff.mp reached)
    (List.mem_of_mem_filter member)

/-- A late read is one of the names. -/
theorem exists_use_of_mem_lateReads {options : LateUsageOptions} {uses : List NameUse}
    {read : LateRead} {bindings : List LatestBinding}
    (listed : read ∈ lateReads options bindings uses) :
    ∃ use ∈ uses, use.position = read.position := by
  induction uses generalizing bindings with
  | nil => cases listed
  | cons use uses inductionHypothesis =>
      have later {bindings : List LatestBinding} (inRest : read ∈ lateReads options bindings uses) :
          ∃ other ∈ use :: uses, other.position = read.position := by
        obtain ⟨other, member, same⟩ := inductionHypothesis inRest
        exact ⟨other, List.mem_cons_of_mem use member, same⟩
      rw [lateReads] at listed
      split at listed
      · exact later listed
      · split at listed
        · exact later listed
        · split at listed
          · rcases List.mem_cons.mp listed with rfl | inRest
            · exact ⟨use, List.mem_cons_self, rfl⟩
            · exact later inRest
          · exact later listed

theorem node_eq_of_nameUse? {tree : SyntaxTree} {use : NameUse} (named : nameUse? tree = some use) :
    tree.label.node = .expr (.name use.position use.name use.context) := by
  unfold nameUse? at named
  split at named
  · rename_i node
    obtain rfl := Option.some.inj named
    exact node
  · cases named

/-- The names of a function stand in its body. -/
theorem hasPosition_of_mem_ownNames {function : SyntaxTree} {use : NameUse}
    (listed : use ∈ ownNames function) : HasPosition function use.position := by
  obtain ⟨tree, reached, named⟩ :=
    List.mem_filterMap.mp ((List.mergeSort_perm _ _).mem_iff.mp listed)
  obtain ⟨part, member, below⟩ := Tree.mem_preorderRightAll_iff.mp reached
  have inPart := Tree.mem_preorder_of_mem_preorderRight below
  have inFunction := Tree.mem_preorder_of_mem_children function.self_mem_preorder
    (List.mem_of_mem_filter member)
  refine ⟨tree, Tree.mem_preorder_trans inFunction inPart, ?_⟩
  rw [node_eq_of_nameUse? named]
  rfl

theorem showsLines_lateVariables (options : LateUsageOptions) :
    ∀ violation ∈ lateVariables options module.tree, violation.ShowsLines module := by
  intro violation found
  obtain ⟨⟨function, parent⟩, isFunction, listed⟩ := List.mem_flatMap.mp found
  obtain ⟨read, late, rfl⟩ := List.mem_map.mp listed
  obtain ⟨use, own, same⟩ := exists_use_of_mem_lateReads late
  have has := (hasPosition_of_mem_ownNames own).of_mem_preorder
    (mem_preorder_of_mem_functionsIn isFunction)
  rw [same] at has
  exact .beginning has rfl rfl

theorem leastLine_eq_min? (lines : List Nat) : leastLine lines = lines.min? := by
  cases lines <;> rfl

/-- A name is read where something stands. -/
theorem exists_hasPosition_of_mem_readLines {name : String} {trees : List SyntaxTree} {line : Nat}
    (listed : line ∈ readLines name trees) :
    ∃ part ∈ trees, ∃ used, HasPosition part used ∧ line = used.line := by
  obtain ⟨tree, reached, read⟩ := List.mem_filterMap.mp listed
  obtain ⟨part, member, below⟩ := Tree.mem_preorderAll_iff.mp reached
  split at read
  · rename_i position id node
    split at read
    · cases read
      exact ⟨part, member, position, ⟨tree, below, by rw [node]; rfl⟩, rfl⟩
    · cases read
  · cases read

theorem showsLines_lateArguments (options : LateUsageOptions) :
    ∀ violation ∈ lateArguments options module.tree, violation.ShowsLines module := by
  intro violation found
  obtain ⟨⟨function, parent⟩, isFunction, listed⟩ := List.mem_flatMap.mp found
  have reached := mem_preorder_of_mem_functionsIn isFunction
  dsimp only [lateParametersOf] at listed
  split at listed
  · rename_i node
    obtain ⟨name, -, made⟩ := List.mem_filterMap.mp listed
    obtain ⟨used, least, made⟩ := Option.bind_eq_some_iff.mp made
    obtain ⟨part, member, standing, has, same⟩ :=
      exists_hasPosition_of_mem_readLines (List.min?_mem (leastLine_eq_min? _ ▸ least))
    dsimp only at made
    split at made
    · obtain rfl := Option.some.inj made
      exact .untilRead reached (by rw [node]; rfl) member has rfl (congrArg Nat.cast same)
    · cases made
  · cases listed

end Check

/-- The violations that a rule reports have their lines from the module. -/
theorem RuleOptions.showsLines_of_violations {options : RuleOptions} {module : Module}
    {rounding : Cohesion.Rounding} {violations : List Violation}
    (found : options.violations module rounding = .ok violations) :
    ∀ violation ∈ violations, violation.ShowsLines module := by
  cases options with
  | functionCohesion options =>
      cases found
      exact showsLines_cohesionViolation _ _
  | classCohesion options =>
      cases found
      exact showsLines_cohesionViolation _ _
  | conditions options => exact showsLines_complexConditions found
  | nesting options =>
      cases found
      exact showsLines_deepNesting options
  | fanOut options =>
      cases found
      exact showsLines_highFanOut options
  | parameters options =>
      cases found
      exact showsLines_longSignatures options
  | imports options =>
      cases found
      exact showsLines_importViolations options
  | literals options => exact showsLines_unnamedNumbers found
  | booleans options =>
      cases found
      exact showsLines_booleanParameters options
  | naming options =>
      cases found
      exact showsLines_meaninglessNames options
  | lateVariables options =>
      cases found
      exact showsLines_lateVariables options
  | lateArguments options =>
      cases found
      exact showsLines_lateArguments options

end DesignLint
