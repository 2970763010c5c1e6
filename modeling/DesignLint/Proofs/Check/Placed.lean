import DesignLint.Proofs.Cohesion.Threshold
import DesignLint.Proofs.Outcome
import DesignLint.Rule.Analyzer

/-!
# What the violations of a rule have in common

A check reports under the identifiers of its rule, at lines and columns that are
not negative, and with details under keys that depend on the rule only.
-/

namespace DesignLint

open Syntax

/-- The keys of the details of a rule's violations. -/
def Rule.detailKeys : Rule → List String
  | .functionCohesion | .classCohesion => ["cohesion"]
  | .conditions => ["operators"]
  | .nesting => ["depth"]
  | .fanOut => ["fan_out", "calls"]
  | .parameters => ["param_count"]
  | .imports => ["modules"]
  | .literals => ["value"]
  | .booleans => ["parameter"]
  | .naming => ["name"]
  | .lateVariables => ["declaration_line", "usage_line"]
  | .lateArguments => ["usage_line"]

/-- A violation such as the check of a rule reports it. -/
structure Violation.IsOf (rule : Rule) (violation : Violation) : Prop where
  ruleId : violation.ruleId ∈ rule.ids
  keys : violation.details.map Prod.fst = rule.detailKeys
  lineStart : 0 ≤ violation.lineStart
  lineEnd : 0 ≤ violation.lineEnd
  column : 0 ≤ violation.column

/-! ## Cohesion -/

namespace Cohesion

/-- Whether the lines of a unit are not negative. -/
def Element.HasLines : Element → Prop
  | .function _ span _ _ _ | .class _ span _ => 0 ≤ span.startLine ∧ 0 ≤ span.endLine
  | _ => True

/-- Whether the lines of a unit are those of a construct. -/
def Element.ShowsLinesOf (node : Node) : Element → Prop
  | .function _ span _ _ _ | .class _ span _ =>
    ∃ position, node.position? = some position ∧ span = linesOf position
  | _ => True

theorem linesOf_nonneg (position : Position) :
    0 ≤ (linesOf position).startLine ∧ 0 ≤ (linesOf position).endLine :=
  ⟨Int.natCast_nonneg _, Int.natCast_nonneg _⟩

/-- A unit has the lines of the construct that it is. -/
theorem showsLinesOf_of_elementOf? {tree : SyntaxTree} {parent : Option SyntaxTree}
    {element : Element} (found : elementOf? tree parent = some element) :
    element.ShowsLinesOf tree.label.node := by
  cases isAt_of_elementOf? found with
  | lambda node | function node | «class» node =>
      rw [node]
      exact ⟨_, rfl, rfl⟩
  | identifier | memberAccess | control => trivial

theorem hasLines_of_elementOf? {tree : SyntaxTree} {parent : Option SyntaxTree}
    {element : Element} (found : elementOf? tree parent = some element) : element.HasLines := by
  have shown := showsLinesOf_of_elementOf? found
  cases element with
  | function name span method bindsName header =>
      obtain ⟨position, -, rfl⟩ := shown
      exact linesOf_nonneg position
  | «class» name span header =>
      obtain ⟨position, -, rfl⟩ := shown
      exact linesOf_nonneg position
  | controlBlock type span => trivial
  | identifier name binding => trivial
  | memberAccess receiver member => trivial

theorem spanAt_nonneg (place : SyntaxPlace) :
    0 ≤ (spanAt place).startLine ∧ 0 ≤ (spanAt place).endLine := by
  unfold spanAt
  split
  · rename_i found
    exact hasLines_of_elementOf? found
  · rename_i found
    exact hasLines_of_elementOf? found
  · exact ⟨Int.le_refl 0, Int.le_refl 0⟩

theorem span_nonneg_of_mem_closedUnits (module : Module) :
    ∀ unit ∈ closedUnits module.tree, 0 ≤ unit.span.startLine ∧ 0 ≤ unit.span.endLine := by
  intro unit listed
  rw [closedUnits_eq (.module module)] at listed
  obtain ⟨place, -, rfl⟩ := List.mem_map.mp listed
  exact spanAt_nonneg place

end Cohesion

namespace Check

open Cohesion

theorem isOf_cohesionViolation {rule : Rule} {ruleId : RuleId} (listed : ruleId ∈ rule.ids)
    (keys : rule.detailKeys = ["cohesion"]) {analysis : CohesionAnalysis} {module : Module} :
    ∀ violation ∈ (analysis.reportsOn module.tree).map (cohesionViolation ruleId),
      violation.IsOf rule := by
  intro violation found
  obtain ⟨report, reported, rfl⟩ := List.mem_map.mp found
  obtain ⟨unit, closed, judged⟩ := List.mem_filterMap.mp reported
  obtain ⟨limits, -, judged⟩ := Option.bind_eq_some_iff.mp judged
  have lines := span_nonneg_of_mem_closedUnits module unit closed
  rw [← (showsGroups_of_judge judged).span] at lines
  exact ⟨listed, keys.symm, lines.1, lines.2, Int.le_refl 0⟩

/-! ## The other checks -/

theorem isOf_complexConditions {options : ConditionOptions} {tree : SyntaxTree}
    {violations : List Violation} (found : complexConditions options tree = .ok violations) :
    ∀ violation ∈ violations, violation.IsOf .conditions := by
  intro violation listed
  obtain ⟨test, -, made⟩ := exists_of_mapM_eq_ok found violation listed
  obtain ⟨text, -, made⟩ := bind_eq_ok_iff.mp made
  cases made
  constructor <;> simp [Rule.ids, Rule.detailKeys]

theorem isOf_deepNesting (options : NestingOptions) (tree : SyntaxTree) :
    ∀ violation ∈ deepNesting options tree, violation.IsOf .nesting := by
  intro violation found
  obtain ⟨visit, -, made⟩ := List.mem_filterMap.mp found
  unfold nestingViolation? at made
  dsimp only at made
  split at made
  · split at made
    · obtain rfl := Option.some.inj made
      constructor <;> simp [Rule.ids, Rule.detailKeys]
    · simp at made
  · simp at made

theorem isOf_highFanOut (options : FanOutOptions) (tree : SyntaxTree) :
    ∀ violation ∈ highFanOut options tree, violation.IsOf .fanOut := by
  intro violation found
  obtain ⟨visit, -, made⟩ := List.mem_filterMap.mp found
  split at made
  · obtain ⟨position, -, made⟩ := Option.bind_eq_some_iff.mp made
    dsimp only at made
    split at made
    · split at made
      · obtain rfl := Option.some.inj made
        constructor <;> simp [Rule.ids, Rule.detailKeys]
      · simp at made
    · split at made
      · obtain rfl := Option.some.inj made
        constructor <;> simp [Rule.ids, Rule.detailKeys]
      · simp at made
  · simp at made

theorem isOf_longSignatures (options : ParameterOptions) (tree : SyntaxTree) :
    ∀ violation ∈ longSignatures options tree, violation.IsOf .parameters := by
  intro violation found
  obtain ⟨visit, -, made⟩ := List.mem_filterMap.mp found
  obtain ⟨parameters, -, made⟩ := Option.bind_eq_some_iff.mp made
  obtain ⟨position, -, made⟩ := Option.bind_eq_some_iff.mp made
  dsimp only at made
  split at made
  · obtain rfl := Option.some.inj made
    constructor <;> simp [Rule.ids, Rule.detailKeys]
  · simp at made

theorem isOf_importViolations (options : ImportOptions) (module : Module) :
    ∀ violation ∈ importViolations options module, violation.IsOf .imports := by
  intro violation found
  unfold importViolations at found
  dsimp only at found
  split at found
  · obtain rfl := List.mem_singleton.mp found
    constructor <;> simp [Rule.ids, Rule.detailKeys]
  · simp at found

theorem isOf_unnamedNumbers {options : LiteralOptions} {tree : SyntaxTree}
    {violations : List Violation} (found : unnamedNumbers options tree = .ok violations) :
    ∀ violation ∈ violations, violation.IsOf .literals := by
  intro violation listed
  obtain ⟨target, -, made⟩ := exists_of_mapM_eq_ok found violation listed
  obtain ⟨text, -, made⟩ := bind_eq_ok_iff.mp made
  cases made
  constructor <;> simp [Rule.ids, Rule.detailKeys]

theorem isOf_booleanParameters (options : BooleanOptions) (tree : SyntaxTree) :
    ∀ violation ∈ booleanParameters options tree, violation.IsOf .booleans := by
  intro violation found
  obtain ⟨function, -, listed⟩ := List.mem_flatMap.mp found
  unfold functionBooleans at listed
  split at listed
  · simp at listed
  · obtain ⟨⟨parameter, value⟩, -, rfl⟩ := List.mem_map.mp listed
    constructor <;> simp [booleanViolation, Rule.ids, Rule.detailKeys]

theorem isOf_meaninglessNames (options : NamingOptions) (tree : SyntaxTree) :
    ∀ violation ∈ meaninglessNames options tree, violation.IsOf .naming := by
  intro violation found
  obtain ⟨given, -, made⟩ := List.mem_filterMap.mp found
  obtain ⟨⟨ruleId, message⟩, objected, rfl⟩ := Option.map_eq_some_iff.mp made
  have listed : ruleId ∈ Rule.naming.ids := by
    unfold NamingOptions.objection? at objected
    split at objected
    · simp at objected
    · split at objected
      · cases objected
        decide
      · split at objected
        · cases objected
          decide
        · simp at objected
  exact ⟨listed, rfl, by simp, by simp, by simp⟩

theorem isOf_lateVariables (options : LateUsageOptions) (tree : SyntaxTree) :
    ∀ violation ∈ lateVariables options tree, violation.IsOf .lateVariables := by
  intro violation found
  obtain ⟨⟨function, parent⟩, -, listed⟩ := List.mem_flatMap.mp found
  obtain ⟨read, -, rfl⟩ := List.mem_map.mp listed
  constructor <;> simp [lateReadViolation, Rule.ids, Rule.detailKeys]

theorem isOf_lateArguments (options : LateUsageOptions) (tree : SyntaxTree) :
    ∀ violation ∈ lateArguments options tree, violation.IsOf .lateArguments := by
  intro violation found
  obtain ⟨⟨function, parent⟩, -, listed⟩ := List.mem_flatMap.mp found
  dsimp only [lateParametersOf] at listed
  split at listed
  · obtain ⟨name, -, made⟩ := List.mem_filterMap.mp listed
    obtain ⟨used, -, made⟩ := Option.bind_eq_some_iff.mp made
    dsimp only at made
    split at made
    · obtain rfl := Option.some.inj made
      constructor <;> simp [Rule.ids, Rule.detailKeys]
    · simp at made
  · simp at listed

end Check

/-- The violations that a rule reports are of that rule. -/
theorem RuleOptions.isOf_of_violations {options : RuleOptions} {module : Module}
    {rounding : Cohesion.Rounding} {violations : List Violation}
    (found : options.violations module rounding = .ok violations) :
    ∀ violation ∈ violations, violation.IsOf options.rule := by
  cases options with
  | functionCohesion options =>
      cases found
      exact Check.isOf_cohesionViolation List.mem_cons_self rfl
  | classCohesion options =>
      cases found
      exact Check.isOf_cohesionViolation List.mem_cons_self rfl
  | conditions options => exact Check.isOf_complexConditions found
  | nesting options =>
      cases found
      exact Check.isOf_deepNesting options module.tree
  | fanOut options =>
      cases found
      exact Check.isOf_highFanOut options module.tree
  | parameters options =>
      cases found
      exact Check.isOf_longSignatures options module.tree
  | imports options =>
      cases found
      exact Check.isOf_importViolations options module
  | literals options => exact Check.isOf_unnamedNumbers found
  | booleans options =>
      cases found
      exact Check.isOf_booleanParameters options module.tree
  | naming options =>
      cases found
      exact Check.isOf_meaninglessNames options module.tree
  | lateVariables options =>
      cases found
      exact Check.isOf_lateVariables options module.tree
  | lateArguments options =>
      cases found
      exact Check.isOf_lateArguments options module.tree

end DesignLint
