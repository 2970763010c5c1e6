import DesignLint.Check.Conditions
import DesignLint.Proofs.Check.Related
import DesignLint.Proofs.Cohesion.Enclosure
import DesignLint.Proofs.Number.Order
import DesignLint.Proofs.Outcome
import DesignLint.Proofs.Syntax.OwnScope
import DesignLint.Proofs.Syntax.Reached

/-!
# Operands of conditions

The operators of a condition are one less than its atomic operands, however these are grouped
and negated. The check looks at every condition once. It reports those with too many operands
if all of them have a source text, and fails otherwise.
-/

namespace DesignLint.Check

open Syntax Cohesion

/-! ## Atomic operands -/

mutual

/-- The atomic operands of a condition: what its `and`, `or` and `not` join in the end. -/
def operandsOf : Expr → List Expr
  | .boolOp _ _ operands => operandsOfAll operands
  | .unaryOp _ .not operand => operandsOf operand
  | expr => [expr]

/-- The atomic operands of several conditions, one after the other. -/
def operandsOfAll : List Expr → List Expr
  | [] => []
  | expr :: exprs => operandsOf expr ++ operandsOfAll exprs

end

@[simp]
theorem operandsOfAll_eq_flatMap (exprs : List Expr) :
    operandsOfAll exprs = exprs.flatMap operandsOf := by
  induction exprs with
  | nil => rfl
  | cons expr exprs inductionHypothesis =>
      rw [operandsOfAll, inductionHypothesis, List.flatMap_cons]

/-- Whether a chain of `and` or `or` has two operands at least. -/
def joinsTwo : Node → Bool
  | .expr (.boolOp _ _ operands) => decide (2 ≤ operands.length)
  | _ => true

/-- Whether every chain in a tree has two operands at least. -/
def isJoined (tree : SyntaxTree) : Bool := tree.preorder.all fun inner => joinsTwo inner.label.node

variable {tree : SyntaxTree} {place : SyntaxPlace}

theorem isJoined_iff :
    isJoined tree = true ↔
      joinsTwo tree.label.node = true ∧ ∀ child ∈ tree.children, isJoined child = true := by
  simp only [isJoined, List.all_eq_true]
  constructor
  · intro joined
    refine ⟨joined tree tree.self_mem_preorder, fun child member inner listed => ?_⟩
    exact joined inner (Tree.mem_preorder_iff.mpr (.inr ⟨child, member, listed⟩))
  · rintro ⟨own, below⟩ inner listed
    rcases Tree.mem_preorder_iff.mp listed with rfl | ⟨child, member, inChild⟩
    · exact own
    · exact below child member inner inChild

theorem isJoined_of_mem_preorder {inner : SyntaxTree} (joined : isJoined tree = true)
    (listed : inner ∈ tree.preorder) : isJoined inner = true := by
  rw [isJoined, List.all_eq_true] at joined ⊢
  exact fun deeper below => joined deeper (Tree.mem_preorder_trans listed below)

mutual

/-- A condition has one operator less than operands. -/
theorem operatorCount_add_one : ∀ {role : Role} (expr : Expr),
    isJoined (expr.tree role) = true → operatorCount expr + 1 = (operandsOf expr).length
  | _, .boolOp _ _ operands, joined => by
    obtain ⟨own, below⟩ := isJoined_iff.mp joined
    have two : 2 ≤ operands.length := of_decide_eq_true own
    have all := operatorCountAll_add_length operands fun operand member =>
      below (operand.tree .operand) (by
        simpa [Expr.tree, Tree.children] using .inr ⟨operand, member, rfl⟩)
    rw [operatorCount, operandsOf, ← all]
    omega
  | _, .unaryOp _ .not operand, joined => by
    rw [operatorCount, operandsOf]
    exact operatorCount_add_one operand
      ((isJoined_iff.mp joined).2 (operand.tree .operand) (by simp [Expr.tree, Tree.children]))
  | _, .unaryOp _ .invert _, _ | _, .unaryOp _ .uAdd _, _ | _, .unaryOp _ .uSub _, _ => rfl
  | _, .namedExpr .., _ | _, .binOp .., _ | _, .lambda .., _ | _, .ifExp .., _ | _, .dict .., _
  | _, .set .., _ | _, .listComp .., _ | _, .setComp .., _ | _, .dictComp .., _
  | _, .generatorExp .., _ | _, .await .., _ | _, .yieldOne .., _ | _, .yieldFrom .., _
  | _, .compare .., _ | _, .call .., _ | _, .formattedValue .., _ | _, .joinedStr .., _
  | _, .constant .., _ | _, .attr .., _ | _, .subscript .., _ | _, .starred .., _ | _, .name .., _
  | _, .list .., _ | _, .tuple .., _ | _, .slice .., _ => rfl

theorem operatorCountAll_add_length : ∀ exprs : List Expr,
    (∀ expr ∈ exprs, isJoined (expr.tree .operand) = true) →
      operatorCountAll exprs + exprs.length = (operandsOfAll exprs).length
  | [], _ => rfl
  | expr :: exprs, joined => by
    have first := operatorCount_add_one expr (joined expr List.mem_cons_self)
    have rest := operatorCountAll_add_length exprs fun other member =>
      joined other (List.mem_cons_of_mem expr member)
    rw [operatorCountAll, operandsOfAll, List.length_append, List.length_cons]
    omega

end

/-! ## Regrouping -/

/-- The other short-circuit operator. -/
def dual : BoolOp → BoolOp
  | .and => .or
  | .or => .and

/-- Conditions that differ in parentheses, in how far negations are pushed inwards, and in what
the single operands are and where they stand. -/
inductive Regroups : Expr → Expr → Prop where
  | operand {before after : Expr} (first : operandsOf before = [before])
      (second : operandsOf after = [after]) : Regroups before after
  | symm {before after : Expr} (same : Regroups before after) : Regroups after before
  | trans {before middle after : Expr} (first : Regroups before middle)
      (second : Regroups middle after) : Regroups before after
  | negated {before after : Expr} (p q : Position) (same : Regroups before after) :
      Regroups (.unaryOp p .not before) (.unaryOp q .not after)
  | joined {before after : Expr} (p q : Position) (op : BoolOp) (front back : List Expr)
      (same : Regroups before after) :
      Regroups (.boolOp p op (front ++ before :: back)) (.boolOp q op (front ++ after :: back))
  | associated (p q r : Position) (op : BoolOp) (front inner back : List Expr) :
      Regroups (.boolOp p op (front ++ .boolOp q op inner :: back))
        (.boolOp r op (front ++ inner ++ back))
  | doubleNegation (p q : Position) (expr : Expr) :
      Regroups (.unaryOp p .not (.unaryOp q .not expr)) expr
  | deMorgan {operands negations : List Expr} (p q r : Position) (op : BoolOp)
      (each : List.Forall₂ (fun operand negation => ∃ position,
        negation = .unaryOp position .not operand) operands negations) :
      Regroups (.unaryOp p .not (.boolOp q op operands)) (.boolOp r (dual op) negations)

/-- Negating every operand keeps the atomic operands. -/
theorem flatMap_operandsOf_negations {operands negations : List Expr}
    (each : List.Forall₂ (fun operand negation => ∃ position,
      negation = Expr.unaryOp position .not operand) operands negations) :
    negations.flatMap operandsOf = operands.flatMap operandsOf := by
  induction each with
  | nil => rfl
  | cons first _ inductionHypothesis =>
      obtain ⟨position, rfl⟩ := first
      rw [List.flatMap_cons, List.flatMap_cons, inductionHypothesis, operandsOf]

/-- Regrouping keeps the number of operands. -/
theorem Regroups.length_operandsOf {before after : Expr} (same : Regroups before after) :
    (operandsOf before).length = (operandsOf after).length := by
  induction same with
  | operand first second => rw [first, second, List.length_singleton, List.length_singleton]
  | symm _ inductionHypothesis => exact inductionHypothesis.symm
  | trans _ _ first second => exact first.trans second
  | negated p q _ inductionHypothesis => simpa [operandsOf] using inductionHypothesis
  | joined p q op front back _ inductionHypothesis => simp [operandsOf, inductionHypothesis]
  | associated p q r op front inner back => simp [operandsOf]
  | doubleNegation p q expr => simp [operandsOf]
  | deMorgan p q r op each => simp [operandsOf, flatMap_operandsOf_negations each]

/-- So a regrouped condition is rejected when the condition was. -/
theorem Regroups.rejects_eq {before after : Expr} (options : ConditionOptions)
    (same : Regroups before after) (first : isJoined (before.tree .test) = true)
    (second : isJoined (after.tree .test) = true) :
    options.rejects before = options.rejects after := by
  have count : operatorCount before = operatorCount after := by
    have counted := operatorCount_add_one before first
    rw [same.length_operandsOf, ← operatorCount_add_one after second] at counted
    omega
  rw [ConditionOptions.rejects, ConditionOptions.rejects, count]

/-! ## Places of conditions -/

/-- Whether a construct evaluates what stands below it in a role as a condition. -/
def evaluates (above : Node) (role : Role) : Bool :=
  match above, role with
  | .stmt (.ifStmt ..), .test | .stmt (.whileStmt ..), .test | .expr (.ifExp ..), .test
  | .comprehension _, .condition | .matchCase _, .guard => true
  | _, _ => false

/-- Whether a condition stands at a place. -/
def isCondition (place : SyntaxPlace) : Bool :=
  (nodeAbove place.context.head?).any fun above => evaluates above place.tree.label.role

/-- The expression at the root of a tree. -/
def exprOf? (tree : SyntaxTree) : Option Expr :=
  match tree.label.node with
  | .expr expr => some expr
  | _ => none

@[simp]
theorem exprOf?_tree (role : Role) (expr : Expr) : exprOf? (expr.tree role) = some expr := by
  rw [exprOf?, Expr.label_tree]

theorem exprOf?_eq_some_iff {expr : Expr} :
    exprOf? tree = some expr ↔ tree.label.node = .expr expr := by
  cases node : tree.label.node <;> simp [exprOf?, node]

@[simp]
theorem filterMap_exprOf?_trees (role : Role) (exprs : List Expr) :
    (exprs.map (Expr.tree role)).filterMap exprOf? = exprs := by
  have each : exprOf? ∘ Expr.tree role = some := funext (exprOf?_tree role)
  rw [List.filterMap_map, each, List.filterMap_some]

/-- The parts of a construct that it evaluates as conditions. -/
def evaluatedParts (tree : SyntaxTree) : List SyntaxTree :=
  tree.children.filter fun part => evaluates tree.label.node part.label.role

/-- What the check takes from a construct are the parts that the construct evaluates. -/
theorem exists_evaluatedParts_eq (stands : StandsForSyntax tree) :
    ∃ role, evaluatedParts tree = (conditionsOf tree).map (Expr.tree role) := by
  have nothing (never : ∀ role, evaluates tree.label.node role = false)
      (empty : conditionsOf tree = []) :
      ∃ role, evaluatedParts tree = (conditionsOf tree).map (Expr.tree role) := by
    refine ⟨.root, ?_⟩
    rw [empty, evaluatedParts, List.map_nil]
    exact List.filter_eq_nil_iff.mpr fun part _ => by simp [never]
  cases node : tree.label.node with
  | stmt stmt =>
      cases stmt with
      | ifStmt position test body orElse =>
          refine ⟨.test, ?_⟩
          rw [conditionsOf, evaluatedParts, node, stands.eq_tree, node, Node.tree]
          simp [Stmt.tree, Tree.children, List.filter_map, Function.comp_def, evaluates]
      | whileStmt position test body orElse =>
          refine ⟨.test, ?_⟩
          rw [conditionsOf, evaluatedParts, node, stands.eq_tree, node, Node.tree]
          simp [Stmt.tree, Tree.children, List.filter_map, Function.comp_def, evaluates]
      | _ => exact nothing (fun _ => by rw [node]; rfl) (by rw [conditionsOf, node])
  | expr expr =>
      cases expr with
      | ifExp position test body orElse =>
          refine ⟨.test, ?_⟩
          rw [conditionsOf, evaluatedParts, node, stands.eq_tree, node, Node.tree]
          simp [Expr.tree, Tree.children, evaluates]
      | _ => exact nothing (fun _ => by rw [node]; rfl) (by rw [conditionsOf, node])
  | comprehension clause =>
      obtain ⟨target, iter, conditions, isAsync⟩ := clause
      refine ⟨.condition, ?_⟩
      rw [conditionsOf, evaluatedParts, node, stands.eq_tree, node, Node.tree]
      simp [Comprehension.tree, Tree.children, List.filter_map, Function.comp_def, evaluates]
  | matchCase matchCase =>
      obtain ⟨pattern, guard, body⟩ := matchCase
      refine ⟨.guard, ?_⟩
      rw [conditionsOf, evaluatedParts, node, stands.eq_tree, node, Node.tree]
      cases guard <;>
        simp [MatchCase.tree, Tree.children, List.filter_map, Function.comp_def, evaluates]
  | _ => exact nothing (fun _ => by rw [node]; rfl) (by rw [conditionsOf, node])

/-- The expression at a place. -/
def exprAt? (place : SyntaxPlace) : Option Expr := exprOf? place.tree

/-- The conditions of a construct are the expressions at the places right below it. -/
theorem conditionsOf_eq_children (stands : StandsForSyntax place.tree) :
    conditionsOf place.tree = (place.children.filter isCondition).filterMap exprAt? := by
  have told : place.children.filter isCondition = place.children.filter
      ((fun part => evaluates place.tree.label.node part.label.role) ∘ Visit.tree) := by
    refine List.filter_congr fun child member => ?_
    obtain ⟨index, subtree, -, rfl⟩ := Visit.mem_children_iff.mp member
    rfl
  obtain ⟨role, parts⟩ := exists_evaluatedParts_eq stands
  rw [← filterMap_exprOf?_trees role (conditionsOf place.tree), ← parts, evaluatedParts,
    ← Visit.map_tree_children, List.filter_map, ← told, List.filterMap_map]
  rfl

/-- An expression stands at every place of a condition. -/
theorem exists_exprAt?_of_isCondition (stands : StandsForSyntax tree) (has : tree.HasPlace place)
    (condition : isCondition place = true) : ∃ test, exprAt? place = some test := by
  cases has with
  | whole => simp [isCondition, Visit.whole, nodeAbove] at condition
  | @child above index subtree aboveHas found =>
      obtain ⟨role, parts⟩ :=
        exists_evaluatedParts_eq (standsForSyntax_of_hasPlace stands aboveHas)
      have member : subtree ∈ evaluatedParts above.tree :=
        List.mem_filter.mpr ⟨List.mem_of_getElem? found, condition⟩
      rw [parts] at member
      obtain ⟨test, -, rfl⟩ := List.mem_map.mp member
      exact ⟨test, exprOf?_tree role test⟩

/-- The places of the conditions of a tree, in the order of the text. -/
def conditionPlaces (tree : SyntaxTree) : List SyntaxPlace := tree.places.filter isCondition

/-- The check takes the expression at the place of every condition once. -/
theorem allConditions_perm (stands : StandsForSyntax tree) :
    ((conditionPlaces tree).filterMap exprAt?).Perm (allConditions tree) := by
  have below : ((Visit.whole tree).places.flatMap Visit.children).filter isCondition =
      (tree.places.flatMap fun place => place.children.filter isCondition) := by
    rw [List.filter_flatMap]
    rfl
  have places : (conditionPlaces tree).Perm
      (tree.places.flatMap fun place => place.children.filter isCondition) := by
    have perm := (Visit.whole tree).cons_flatMap_children_perm.filter isCondition
    rw [List.filter_cons_of_neg (by simp [isCondition, Visit.whole, nodeAbove]), below] at perm
    exact perm.symm
  have each : (tree.places.flatMap fun place => place.children.filter isCondition).filterMap
      exprAt? = tree.preorder.flatMap conditionsOf := by
    rw [← Tree.map_tree_places, List.flatMap_map, List.filterMap_flatMap]
    refine List.flatMap_congr fun place listed => (conditionsOf_eq_children ?_).symm
    exact standsForSyntax_of_hasPlace stands (Tree.hasPlace_of_mem_places listed)
  refine (places.filterMap exprAt?).trans ?_
  rw [each]
  exact (Tree.flatten_levels_perm tree).symm.flatMap_right conditionsOf

/-! ## The verdict -/

/-- Whether a place holds an expression with more operands than the limit allows. -/
def isComplex (options : ConditionOptions) (place : SyntaxPlace) : Bool :=
  (exprAt? place).any fun test => options.maxOperators.lt (.int ((operandsOf test).length - 1))

/-- The places of the conditions with too many operands, in the order of the text. -/
def complexPlaces (options : ConditionOptions) (tree : SyntaxTree) : List SyntaxPlace :=
  (conditionPlaces tree).filter (isComplex options)

theorem mem_complexPlaces_iff {options : ConditionOptions} :
    place ∈ complexPlaces options tree ↔
      tree.HasPlace place ∧ isCondition place = true ∧ ∃ test, exprAt? place = some test ∧
        options.maxOperators.lt (.int ((operandsOf test).length - 1)) = true := by
  rw [complexPlaces, List.mem_filter, conditionPlaces, List.mem_filter, Tree.mem_places_iff,
    and_assoc, isComplex, Option.any_eq_true]

/-- In a module the verdict counts operands. -/
theorem rejects_eq_of_isJoined (options : ConditionOptions) {role : Role} {test : Expr}
    (joined : isJoined (test.tree role) = true) :
    options.rejects test = options.maxOperators.lt (.int ((operandsOf test).length - 1)) := by
  have count : (operatorCount test : Int) = (operandsOf test).length - 1 := by
    have counted := operatorCount_add_one test joined
    omega
  rw [ConditionOptions.rejects, count]

theorem isJoined_of_exprAt? (stands : StandsForSyntax tree) (joined : isJoined tree = true)
    (has : tree.HasPlace place) {test : Expr} (shown : exprAt? place = some test) :
    isJoined (test.tree place.tree.label.role) = true := by
  have there := (standsForSyntax_of_hasPlace stands has).eq_tree
  rw [exprOf?_eq_some_iff.mp shown, Node.tree] at there
  exact there ▸ isJoined_of_mem_preorder joined has.mem_preorder.1

/-- The expressions that the check rejects are those at the places with too many operands. -/
theorem rejected_perm (options : ConditionOptions) (stands : StandsForSyntax tree)
    (joined : isJoined tree = true) :
    ((complexPlaces options tree).filterMap exprAt?).Perm
      ((allConditions tree).filter options.rejects) := by
  have same : (conditionPlaces tree).filter (isComplex options) =
      (conditionPlaces tree).filter fun place => (exprAt? place).any options.rejects := by
    refine List.filter_congr fun place listed => ?_
    have has := Tree.hasPlace_of_mem_places (List.mem_of_mem_filter listed)
    obtain ⟨test, shown⟩ := exists_exprAt?_of_isCondition stands has (List.mem_filter.mp listed).2
    rw [isComplex, shown, Option.any_some, Option.any_some,
      rejects_eq_of_isJoined options (isJoined_of_exprAt? stands joined has shown)]
  have kept : (complexPlaces options tree).filterMap exprAt? =
      ((conditionPlaces tree).filterMap exprAt?).filter options.rejects := by
    rw [complexPlaces, same, List.filter_filterMap, List.filterMap_filter]
    refine List.filterMap_congr fun place _ => ?_
    cases exprAt? place <;> simp [Option.filter]
  rw [kept]
  exact (allConditions_perm stands).filter options.rejects

/-! ## What the check reports -/

/-- The violation by a condition. -/
structure ShowsCondition (options : ConditionOptions) (test : Expr) (violation : Violation) :
    Prop where
  ruleId : violation.ruleId = .cpxConditional
  lineStart : violation.lineStart = test.position.line
  lineEnd : violation.lineEnd = test.position.lastLine
  column : violation.column = test.position.column
  symbol : violation.symbol = placeSymbol test.position
  message : violation.message = "This condition is too complex (" ++
    toString ((operandsOf test).length - 1) ++ " operators). Maximum allowed is " ++
    options.maxOperators.text ++ ". Consider extracting it to a function or variable."
  snippet : test.sourceText = .ok violation.snippet
  details : violation.details = [("operators", .nat ((operandsOf test).length - 1))]

/-- The violation by the condition at a place. -/
def ReportsCondition (options : ConditionOptions) (place : SyntaxPlace) (violation : Violation) :
    Prop :=
  ∃ test, exprAt? place = some test ∧ ShowsCondition options test violation

theorem showsCondition_of_conditionViolation {options : ConditionOptions} {role : Role}
    {test : Expr} {violation : Violation} (joined : isJoined (test.tree role) = true)
    (made : conditionViolation options test = .ok violation) :
    ShowsCondition options test violation := by
  have count : operatorCount test = (operandsOf test).length - 1 := by
    have counted := operatorCount_add_one test joined
    omega
  obtain ⟨text, written, made⟩ := bind_eq_ok_iff.mp made
  cases made
  constructor <;> simp [written, count, String.append_assoc]

/-- What it means that the check reports the conditions with too many operands: it can do so
exactly if all of them have a source text. -/
structure ReportsComplexPlaces (options : ConditionOptions) (module : Module) : Prop where
  listed : ∀ place, place ∈ complexPlaces options module.tree ↔
    module.tree.HasPlace place ∧ isCondition place = true ∧ ∃ test, exprAt? place = some test ∧
      options.maxOperators.lt (.int ((operandsOf test).length - 1)) = true
  once : ((complexPlaces options module.tree).map (·.address)).Nodup
  exceeds : ∀ limit : Int, options.maxOperators = .int limit →
    ∀ operands : Nat, options.maxOperators.lt (.int (operands - 1)) = true ↔ limit + 1 < operands
  succeeds : (∃ violations, complexConditions options module.tree = .ok violations) ↔
    ∀ place ∈ complexPlaces options module.tree, ∀ test, exprAt? place = some test →
      ∃ text, test.sourceText = .ok text
  reports : ∀ violations, complexConditions options module.tree = .ok violations →
    ReportsEach (ReportsCondition options) (complexPlaces options module.tree) violations
  regrouped : ∀ before after, Regroups before after → isJoined (before.tree .test) = true →
    isJoined (after.tree .test) = true → options.rejects before = options.rejects after

theorem exists_conditionViolation_iff {options : ConditionOptions} {test : Expr} :
    (∃ violation, conditionViolation options test = .ok violation) ↔
      ∃ text, test.sourceText = .ok text :=
  exists_bind_pure_eq_ok_iff

theorem exists_complexConditions_iff (options : ConditionOptions) (stands : StandsForSyntax tree)
    (joined : isJoined tree = true) :
    (∃ violations, complexConditions options tree = .ok violations) ↔
      ∀ place ∈ complexPlaces options tree, ∀ test, exprAt? place = some test →
        ∃ text, test.sourceText = .ok text := by
  simp only [complexConditions, exists_mapM_eq_ok_iff, exists_conditionViolation_iff,
    ← (rejected_perm options stands joined).mem_iff, List.mem_filterMap]
  constructor
  · intro written place member test shown
    exact written test ⟨place, member, shown⟩
  · rintro written test ⟨place, member, shown⟩
    exact written place member test shown

theorem complexConditions_reportsEach {options : ConditionOptions} (stands : StandsForSyntax tree)
    (joined : isJoined tree = true) {violations : List Violation}
    (found : complexConditions options tree = .ok violations) :
    ReportsEach (ReportsCondition options) (complexPlaces options tree) violations := by
  obtain ⟨listed, made, perm⟩ :=
    ReportsEach.of_perm (rejected_perm options stands joined) (forall₂_of_mapM_eq_ok found)
  have has : ∀ place ∈ complexPlaces options tree, tree.HasPlace place :=
    fun place member => (mem_complexPlaces_iff.mp member).1
  have shown : ∀ place ∈ complexPlaces options tree, ∃ test, exprAt? place = some test :=
    fun place member => (mem_complexPlaces_iff.mp member).2.2.imp fun test => And.left
  refine ⟨listed, ?_, perm⟩
  refine ((List.forall₂_and_left _ _).mpr ⟨has, forall₂_of_filterMap shown made⟩).imp ?_
  rintro place violation ⟨placeHas, test, isTest, ofTest⟩
  exact ⟨test, isTest, showsCondition_of_conditionViolation
    (isJoined_of_exprAt? stands joined placeHas isTest) ofTest⟩

/-- The check reports every condition with too many operands once, or fails because one of them
has no source text. -/
theorem complexConditions_reportsComplexPlaces (options : ConditionOptions) (module : Module)
    (joined : isJoined module.tree = true) : ReportsComplexPlaces options module where
  listed _ := mem_complexPlaces_iff
  once :=
    (module.tree.nodup_map_address_filter_places isCondition).sublist (List.filter_sublist.map _)
  exceeds limit same operands := by
    rw [same, Number.int_lt_int_iff]
    omega
  succeeds := exists_complexConditions_iff options (.module module) joined
  reports _ found := complexConditions_reportsEach (.module module) joined found
  regrouped _ _ same first second := same.rejects_eq options first second

/-- Three names and a formatted string that shows a tab in bytes, joined by `and`: a replacement
field cannot hold the escape that the tab is written with. -/
def fieldCondition : Expr :=
  .boolOp ⟨1, 3, some 1⟩ .and
    [.name ⟨1, 3, some 1⟩ "a" .load, .name ⟨1, 9, some 1⟩ "b" .load,
      .name ⟨1, 15, some 1⟩ "c" .load,
      .joinedStr ⟨1, 21, some 1⟩
        [.formattedValue ⟨1, 21, some 1⟩ (.constant ⟨1, 24, some 1⟩ (.bytes [9]) none) (-1) none]]

/-- An `if` with that condition. -/
def fieldModule : Module :=
  ⟨[.ifStmt ⟨1, 0, some 2⟩ fieldCondition [.passStmt ⟨2, 4, some 2⟩] []]⟩

/-- The condition has an operand too many, and the check fails on it. -/
theorem complexConditions_fieldModule :
    isJoined fieldModule.tree = true ∧ ReportsComplexPlaces ⟨2⟩ fieldModule ∧
      (operandsOf fieldCondition).length = 4 ∧
      complexConditions ⟨2⟩ fieldModule.tree = .error .backslashInField := by
  have joined : isJoined fieldModule.tree = true := by decide
  exact ⟨joined, complexConditions_reportsComplexPlaces ⟨2⟩ fieldModule joined, by decide, rfl⟩

end DesignLint.Check
