import DesignLint.Proofs.Check.Related
import DesignLint.Proofs.Syntax.MovedNames
import DesignLint.Proofs.Syntax.MovedText
import DesignLint.Rule.Options

/-!
# Violations in moved code

Checks of moved code find the same violations some lines further down. Fan-out and
cohesion are treated on their own.
-/

namespace DesignLint

open Syntax

namespace Check

variable (lines : Nat)

/-! ## Boolean parameters -/

theorem parametersWithDefaults_moved (parameters : Parameters) :
    parametersWithDefaults (parameters.moved lines) =
      (parametersWithDefaults parameters).map
        (Prod.map (Parameter.moved lines) (Option.map (Expr.moved lines))) := by
  simp only [parametersWithDefaults, Parameters.positional_moved, Parameters.defaults_moved,
    Parameters.keywordOnly_moved, Parameters.keywordDefaults_moved, List.map_append,
    ← List.zip_map, List.length_map, List.map_map, List.map_replicate, Option.map_none]
  rfl

theorem isBoolType_moved (expr : Expr) : isBoolType (expr.moved lines) = isBoolType expr := by
  cases expr with
  | constant _ value _ => cases value <;> rfl
  | _ => rfl

theorem isTruthValue_moved (expr : Expr) : isTruthValue (expr.moved lines) = isTruthValue expr := by
  cases expr with
  | constant _ value _ => cases value <;> rfl
  | _ => rfl

theorem marksBoolean_moved (options : BooleanOptions) (parameter : Parameter)
    (default : Option Expr) :
    options.marksBoolean (parameter.moved lines) (default.map (Expr.moved lines)) =
      options.marksBoolean parameter default := by
  obtain ⟨position, name, hint⟩ := parameter
  cases hint <;> cases default <;>
    simp [BooleanOptions.marksBoolean, Parameter.moved, Parameter.hint, isBoolType_moved,
      isTruthValue_moved]

theorem booleanViolation_moves (function : SyntaxTree) (parameter : Parameter) :
    (booleanViolation function parameter).Moves lines
      (booleanViolation (function.map (Occurrence.moved lines)) (parameter.moved lines)) := by
  constructor <;> simp [booleanViolation, Position.moved, RuleId.namesLine]

theorem booleanParameters_moved (options : BooleanOptions) (tree : SyntaxTree) :
    List.Forall₂ (Violation.Moves lines) (booleanParameters options tree)
      (booleanParameters options (tree.map (Occurrence.moved lines))) := by
  rw [booleanParameters, booleanParameters, Tree.levelOrder_map, List.flatMap_map]
  refine forall₂_flatMap fun function _ => ?_
  simp only [functionBooleans, parametersOf_moved]
  cases parametersOf function with
  | none => exact .nil
  | some parameters =>
      simp only [Option.map_some, parametersWithDefaults_moved, List.filter_map, List.map_map,
        Function.comp_def, Prod.map_fst, Prod.map_snd, Parameter.name_moved, marksBoolean_moved]
      exact forall₂_map fun entry _ => booleanViolation_moves lines function entry.1

/-! ## Conditions -/

mutual

theorem operatorCount_moved : ∀ expr : Expr,
    operatorCount (expr.moved lines) = operatorCount expr
  | .boolOp _ _ operands => by
    rw [Expr.moved, operatorCount, operatorCount, operatorCountAll_moved operands,
      Expr.movedAll_eq_map, List.length_map]
  | .unaryOp _ .not operand => by
    rw [Expr.moved, operatorCount, operatorCount, operatorCount_moved operand]
  | .unaryOp _ .invert _ | .unaryOp _ .uAdd _ | .unaryOp _ .uSub _ => rfl
  | .namedExpr .. | .binOp .. | .lambda .. | .ifExp .. | .dict .. | .set .. | .listComp ..
  | .setComp .. | .dictComp .. | .generatorExp .. | .await .. | .yieldOne .. | .yieldFrom ..
  | .compare .. | .call .. | .formattedValue .. | .joinedStr .. | .constant .. | .attr ..
  | .subscript .. | .starred .. | .name .. | .list .. | .tuple .. | .slice .. => rfl

theorem operatorCountAll_moved : ∀ exprs : List Expr,
    operatorCountAll (Expr.movedAll lines exprs) = operatorCountAll exprs
  | [] => rfl
  | expr :: exprs => by
    rw [Expr.movedAll, operatorCountAll, operatorCountAll, operatorCount_moved expr,
      operatorCountAll_moved exprs]

end

theorem conditionsOf_moved (tree : SyntaxTree) :
    conditionsOf (tree.map (Occurrence.moved lines)) =
      (conditionsOf tree).map (Expr.moved lines) := by
  obtain ⟨⟨role, node⟩, children⟩ := tree
  cases node with
  | stmt stmt => cases stmt <;> rfl
  | expr expr => cases expr <;> rfl
  | comprehension clause =>
      obtain ⟨target, iter, conditions, isAsync⟩ := clause
      exact Expr.movedAll_eq_map lines conditions
  | matchCase matchCase =>
      obtain ⟨pattern, guard, body⟩ := matchCase
      cases guard <;> rfl
  | _ => rfl

theorem allConditions_moved (tree : SyntaxTree) :
    allConditions (tree.map (Occurrence.moved lines)) =
      (allConditions tree).map (Expr.moved lines) := by
  rw [allConditions, allConditions, Tree.levelOrder_map, List.flatMap_map, List.map_flatMap]
  congr 1
  funext construct
  exact conditionsOf_moved lines construct

theorem conditionViolation_moves (options : ConditionOptions) (test : Expr) :
    Corresponds (Violation.Moves lines) (conditionViolation options test)
      (conditionViolation options (test.moved lines)) := by
  rw [conditionViolation, conditionViolation, Expr.sourceText_moved]
  cases test.sourceText with
  | error error => exact .error error
  | ok text =>
      refine .ok ?_
      constructor <;> simp [Position.moved, RuleId.namesLine]
      exact placeSymbol_moved lines test.position

theorem complexConditions_moved (options : ConditionOptions) (tree : SyntaxTree) :
    Corresponds (List.Forall₂ (Violation.Moves lines)) (complexConditions options tree)
      (complexConditions options (tree.map (Occurrence.moved lines))) := by
  have sameRejected : options.rejects ∘ Expr.moved lines = options.rejects := by
    funext test
    simp [ConditionOptions.rejects, operatorCount_moved]
  rw [complexConditions, complexConditions, allConditions_moved, List.filter_map, sameRejected,
    List.mapM_map]
  exact corresponds_mapM fun test _ => conditionViolation_moves lines options test

/-! ## Nesting -/

@[simp]
theorem isControl_moved (tree : SyntaxTree) :
    isControl (tree.map (Occurrence.moved lines)) = isControl tree := by
  obtain ⟨⟨role, node⟩, children⟩ := tree
  cases node with
  | stmt stmt => cases stmt <;> rfl
  | _ => rfl

@[simp]
theorem startsFunction_moved (tree : SyntaxTree) :
    startsFunction (tree.map (Occurrence.moved lines)) = startsFunction tree := by
  obtain ⟨⟨role, node⟩, children⟩ := tree
  cases node with
  | stmt stmt => cases stmt <;> rfl
  | expr expr => cases expr <;> rfl
  | _ => rfl

theorem continuesChain_moved (tree : SyntaxTree) (parent : Option SyntaxTree) :
    continuesChain (tree.map (Occurrence.moved lines))
      (parent.map (Tree.map (Occurrence.moved lines))) = continuesChain tree parent := by
  obtain ⟨⟨role, node⟩, children⟩ := tree
  cases node with
  | stmt stmt =>
      cases stmt with
      | ifStmt position test body orElse =>
          cases parent with
          | none => rfl
          | some parent =>
              obtain ⟨⟨outerRole, outer⟩, siblings⟩ := parent
              cases outer with
              | stmt outer =>
                  cases outer with
                  | ifStmt outer _ _ alternative =>
                      change (role == Role.orElse &&
                          (Stmt.movedAll lines alternative).length == 1 &&
                          position.column == outer.column) =
                        (role == Role.orElse && alternative.length == 1 &&
                          position.column == outer.column)
                      rw [Stmt.movedAll_eq_map, List.length_map]
                  | _ => rfl
              | _ => rfl
      | _ => rfl
  | _ => rfl

theorem deepens_moved (tree : SyntaxTree) (parent : Option SyntaxTree) :
    deepens (tree.map (Occurrence.moved lines))
      (parent.map (Tree.map (Occurrence.moved lines))) = deepens tree parent := by
  rw [deepens, deepens, isControl_moved, continuesChain_moved]

/-- The surroundings of a tree, some lines further down. -/
def Nesting.moved (around : Nesting) : Nesting :=
  ⟨around.depth, around.parent.map (Tree.map (Occurrence.moved lines))⟩

theorem depthOf_moved (around : Nesting) (tree : SyntaxTree) :
    (around.moved lines).depthOf (tree.map (Occurrence.moved lines)) = around.depthOf tree := by
  simp only [Nesting.depthOf, Nesting.moved, startsFunction_moved, deepens_moved]

theorem nestingVisits_moved (tree : SyntaxTree) :
    nestingVisits (tree.map (Occurrence.moved lines)) =
      (nestingVisits tree).map (Visit.map (Occurrence.moved lines) (Nesting.moved lines)) := by
  refine Tree.visits_map _ (Nesting.moved lines) (fun around _ tree => ?_) tree ⟨0, none⟩ []
  rw [depthOf_moved]
  rfl

@[simp]
theorem Stmt.kindName_moved (stmt : Stmt) : (stmt.moved lines).kindName = stmt.kindName := by
  cases stmt with
  | functionDef _ isAsync => cases isAsync <;> rfl
  | forStmt _ isAsync => cases isAsync <;> rfl
  | withStmt _ isAsync => cases isAsync <;> rfl
  | tryStmt _ isStar => cases isStar <;> rfl
  | _ => rfl

theorem nestingViolation?_moves (options : NestingOptions) (visit : Visit Occurrence Nesting) :
    Option.Rel (Violation.Moves lines) (nestingViolation? options visit)
      (nestingViolation? options (visit.map (Occurrence.moved lines) (Nesting.moved lines))) := by
  obtain ⟨tree, address, around⟩ := visit
  simp only [nestingViolation?, Visit.map, depthOf_moved, Tree.label_map, Occurrence.node_moved]
  cases node : tree.label.node with
  | stmt stmt =>
      simp only [Node.moved, Nesting.moved, deepens_moved]
      split
      · refine .some ?_
        constructor <;> simp [Position.moved, RuleId.namesLine]
        exact placeSymbol_moved lines stmt.position
      · exact .none
  | _ => exact .none

theorem deepNesting_moved (options : NestingOptions) (tree : SyntaxTree) :
    List.Forall₂ (Violation.Moves lines) (deepNesting options tree)
      (deepNesting options (tree.map (Occurrence.moved lines))) := by
  rw [deepNesting, deepNesting, nestingVisits_moved, List.filterMap_map]
  exact forall₂_filterMap fun visit _ => nestingViolation?_moves lines options visit

/-! ## Parameters -/

theorem countedParameters_moved (options : ParameterOptions) (receiver : Option String)
    (parameters : Parameters) :
    countedParameters options receiver (parameters.moved lines) =
      countedParameters options receiver parameters := by
  simp only [countedParameters, Parameters.positional_moved, Parameters.keywordOnly_moved,
    Parameters.variadic_moved, Parameters.keywordVariadic_moved, map_name_moved, Option.map_map,
    Function.comp_def, Parameter.name_moved]

theorem parameterViolation?_moves (options : ParameterOptions)
    (visit : Visit Occurrence (List SyntaxTree)) :
    Option.Rel (Violation.Moves lines) (parameterViolation? options visit)
      (parameterViolation? options (visit.map (Occurrence.moved lines)
        (List.map (Tree.map (Occurrence.moved lines))))) := by
  obtain ⟨tree, address, around⟩ := visit
  simp only [parameterViolation?, Visit.map, parametersOf_moved, Tree.label_map,
    Occurrence.node_moved, Node.position?_moved, List.head?_map, selfNameOf_moved, shownName,
    definedName_moved]
  cases parametersOf tree with
  | none => exact .none
  | some parameters =>
      cases tree.label.node.position? with
      | none => exact .none
      | some position =>
          simp only [Option.map_some, Option.bind_eq_bind, Option.bind_some,
            countedParameters_moved]
          split
          · refine .some ?_
            constructor <;> simp [Position.moved, RuleId.namesLine]
          · exact .none

theorem longSignatures_moved (options : ParameterOptions) (tree : SyntaxTree) :
    List.Forall₂ (Violation.Moves lines) (longSignatures options tree)
      (longSignatures options (tree.map (Occurrence.moved lines))) := by
  rw [longSignatures, longSignatures, Tree.withAncestors_map, List.filterMap_map]
  exact forall₂_filterMap fun visit _ => parameterViolation?_moves lines options visit

/-! ## Imports -/

theorem isTypeOnlyTest_moved (test : Expr) :
    isTypeOnlyTest (test.moved lines) = isTypeOnlyTest test := by
  cases test <;> rfl

theorem isTypeOnly_moved (tree : SyntaxTree) :
    isTypeOnly (tree.map (Occurrence.moved lines)) = isTypeOnly tree := by
  rw [isTypeOnly, isTypeOnly, Tree.label_map]
  obtain ⟨⟨role, node⟩, children⟩ := tree
  cases node with
  | stmt stmt =>
      cases stmt with
      | ifStmt position test => exact isTypeOnlyTest_moved lines test
      | _ => rfl
  | _ => rfl

theorem isImport_moved (tree : SyntaxTree) :
    isImport (tree.map (Occurrence.moved lines)) = isImport tree := by
  rw [isImport, isImport, Tree.label_map]
  obtain ⟨⟨role, node⟩, children⟩ := tree
  cases node with
  | stmt stmt => cases stmt <;> rfl
  | _ => rfl

theorem modulesOf_moved (tree : SyntaxTree) :
    modulesOf (tree.map (Occurrence.moved lines)) = modulesOf tree := by
  rw [modulesOf, modulesOf, Tree.label_map]
  obtain ⟨⟨role, node⟩, children⟩ := tree
  cases node with
  | stmt stmt =>
      cases stmt with
      | importNames position names =>
          change (names.map (Alias.moved lines)).map (·.name) = names.map (·.name)
          rw [List.map_map]
          rfl
      | _ => rfl
  | _ => rfl

theorem searchedParts_moved (skipTypeOnly : Bool) (tree : SyntaxTree) :
    searchedParts skipTypeOnly (tree.map (Occurrence.moved lines)) =
      (searchedParts skipTypeOnly tree).map (Tree.map (Occurrence.moved lines)) := by
  rw [searchedParts, searchedParts, Tree.children_map, List.filter_map, isTypeOnly_moved]
  refine congrArg (List.map _) (List.filter_congr fun part _ => ?_)
  rw [Function.comp_apply, Tree.label_map, Occurrence.role_moved]

theorem importsOn_moved (skipTypeOnly : Bool) (stack : List SyntaxTree) :
    importsOn skipTypeOnly (stack.map (Tree.map (Occurrence.moved lines))) =
      (importsOn skipTypeOnly stack).map (Tree.map (Occurrence.moved lines)) := by
  induction stack using importsOn.induct skipTypeOnly with
  | case1 => simp [importsOn]
  | case2 tree stack found inductionHypothesis =>
      rw [List.map_cons, importsOn, isImport_moved, if_pos found, inductionHypothesis, importsOn,
        if_pos found, List.map_cons]
  | case3 tree stack other inductionHypothesis =>
      rw [List.map_cons, importsOn, isImport_moved, if_neg other, searchedParts_moved,
        ← List.map_append, inductionHypothesis, importsOn, if_neg other]

theorem moduleNames_moved (skipTypeOnly : Bool) (tree : SyntaxTree) :
    moduleNames skipTypeOnly (tree.map (Occurrence.moved lines)) =
      moduleNames skipTypeOnly tree := by
  have moved := importsOn_moved lines skipTypeOnly [tree]
  rw [List.map_singleton] at moved
  rw [moduleNames, moved, List.flatMap_map, moduleNames]
  exact List.flatMap_congr fun inner _ => modulesOf_moved lines inner

theorem importViolations_moved (options : ImportOptions) (module : Module) :
    List.Forall₂ (Violation.Moves 0) (importViolations options module)
      (importViolations options (module.moved lines)) := by
  have modules : countedModules options (module.moved lines).tree =
      countedModules options module.tree := by
    rw [countedModules, Module.tree_moved, moduleNames_moved, countedModules]
  rw [importViolations, importViolations, modules]
  split
  · refine .cons ?_ .nil
    constructor <;> simp [RuleId.namesLine]
  · exact .nil

/-! ## Literals -/

/-- The number some lines further down. -/
def Literal.moved (number : Literal) : Literal :=
  ⟨number.target.map (Occurrence.moved lines), number.value,
    number.parent.map (Tree.map (Occurrence.moved lines))⟩

theorem signOf_moved (tree : SyntaxTree) :
    signOf (tree.map (Occurrence.moved lines)) = signOf tree := by
  obtain ⟨⟨role, node⟩, children⟩ := tree
  cases node with
  | expr expr =>
      cases expr with
      | unaryOp _ op _ => cases op <;> rfl
      | _ => rfl
  | _ => rfl

theorem signedLiteral_moved (tree : SyntaxTree) (value : LiteralValue)
    (ancestors : List SyntaxTree) :
    signedLiteral (tree.map (Occurrence.moved lines)) value
        (ancestors.map (Tree.map (Occurrence.moved lines))) =
      (signedLiteral tree value ancestors).moved lines := by
  cases ancestors with
  | nil => rfl
  | cons parent ancestors =>
      rw [List.map_cons, signedLiteral, signedLiteral, signOf_moved]
      split
      · rw [List.head?_map]
        rfl
      · rfl

theorem literal?_moved (visit : Visit Occurrence (List SyntaxTree)) :
    literal? (visit.map (Occurrence.moved lines) (List.map (Tree.map (Occurrence.moved lines)))) =
      (literal? visit).map (Literal.moved lines) := by
  obtain ⟨⟨⟨role, node⟩, children⟩, address, around⟩ := visit
  cases node with
  | expr expr =>
      cases expr with
      | constant position value kind =>
          change (LiteralValue.ofConstant? value).map _ =
            ((LiteralValue.ofConstant? value).map _).map _
          rw [Option.map_map]
          congr 1
          funext value
          exact signedLiteral_moved lines _ value around
      | _ => rfl
  | _ => rfl

theorem literalsOf_moved (tree : SyntaxTree) :
    literalsOf (tree.map (Occurrence.moved lines)) =
      (literalsOf tree).map (Literal.moved lines) := by
  rw [literalsOf, literalsOf, Tree.withAncestors_map, List.filterMap_map, List.map_filterMap]
  congr 1
  funext visit
  exact literal?_moved lines visit

theorem isConstantTarget_moved (target : Expr) :
    isConstantTarget (target.moved lines) = isConstantTarget target := by
  cases target <;> rfl

theorem definesConstant_moved (tree : SyntaxTree) :
    definesConstant (tree.map (Occurrence.moved lines)) = definesConstant tree := by
  obtain ⟨⟨role, node⟩, children⟩ := tree
  cases node with
  | stmt stmt =>
      cases stmt with
      | assign _ targets _ =>
          change ((targets.map (Expr.moved lines)).all isConstantTarget) =
            targets.all isConstantTarget
          rw [List.all_map]
          congr 1
          funext target
          exact isConstantTarget_moved lines target
      | annAssign _ target _ _ => exact isConstantTarget_moved lines target
      | _ => rfl
  | _ => rfl

theorem isIndex_moved (number : Literal) : (number.moved lines).isIndex = number.isIndex := by
  obtain ⟨target, value, parent⟩ := number
  cases parent with
  | none => rfl
  | some parent =>
      obtain ⟨⟨role, node⟩, siblings⟩ := parent
      cases node with
      | expr expr =>
          cases expr with
          | subscript =>
              change ((target.map (Occurrence.moved lines)).label.role == Role.index) =
                (target.label.role == Role.index)
              rw [Tree.label_map, Occurrence.role_moved]
          | _ => rfl
      | _ => rfl

theorem isDefault_moved (number : Literal) :
    (number.moved lines).isDefault = number.isDefault := by
  obtain ⟨target, value, parent⟩ := number
  cases parent with
  | none => rfl
  | some parent =>
      obtain ⟨⟨role, node⟩, siblings⟩ := parent
      cases node <;> rfl

theorem exempts_moved (options : LiteralOptions) (number : Literal) :
    options.exempts (number.moved lines) = options.exempts number := by
  have parent : (number.moved lines).parent.any definesConstant =
      number.parent.any definesConstant := by
    obtain ⟨target, value, parent⟩ := number
    cases parent <;> simp [Literal.moved, definesConstant_moved]
  simp only [LiteralOptions.exempts, isIndex_moved, isDefault_moved, parent]
  rfl

theorem expr?_moved (number : Literal) :
    (number.moved lines).expr? = number.expr?.map (Expr.moved lines) := by
  obtain ⟨⟨⟨role, node⟩, children⟩, value, parent⟩ := number
  cases node <;> rfl

theorem literalViolation_moves (target : Expr) :
    Corresponds (Violation.Moves lines) (literalViolation target)
      (literalViolation (target.moved lines)) := by
  rw [literalViolation, literalViolation, Expr.sourceText_moved]
  cases target.sourceText with
  | error error => exact .error error
  | ok text =>
      refine .ok ?_
      constructor <;> simp [Position.moved, RuleId.namesLine]
      exact placeSymbol_moved lines target.position

theorem unnamedNumbers_moved (options : LiteralOptions) (tree : SyntaxTree) :
    Corresponds (List.Forall₂ (Violation.Moves lines)) (unnamedNumbers options tree)
      (unnamedNumbers options (tree.map (Occurrence.moved lines))) := by
  have targets : (((literalsOf (tree.map (Occurrence.moved lines))).filter fun number =>
        !options.exempts number).filterMap Literal.expr?) =
      (((literalsOf tree).filter fun number =>
        !options.exempts number).filterMap Literal.expr?).map (Expr.moved lines) := by
    simp only [literalsOf_moved, List.filter_map, Function.comp_def, exempts_moved,
      List.filterMap_map, expr?_moved, List.map_filterMap]
  rw [unnamedNumbers, unnamedNumbers, targets, List.mapM_map]
  exact corresponds_mapM fun target _ => literalViolation_moves lines target

/-! ## Names -/

theorem opensScope_moved (tree : SyntaxTree) :
    opensScope (tree.map (Occurrence.moved lines)) = opensScope tree := by
  obtain ⟨⟨role, node⟩, children⟩ := tree
  cases node with
  | stmt stmt => cases stmt <;> rfl
  | expr expr => cases expr <;> rfl
  | _ => rfl

/-- The name that a place gives, some lines further down. -/
def GivenName.moved (given : GivenName) : GivenName :=
  { given with position := given.position.moved lines }

theorem nameGiven?_moved (checkProperties : Bool) (node : Node) :
    nameGiven? checkProperties (node.moved lines) =
      (nameGiven? checkProperties node).map (Prod.map id (Position.moved lines)) := by
  cases node with
  | stmt stmt => cases stmt <;> rfl
  | expr expr =>
      cases expr with
      | name _ _ context => cases context <;> rfl
      | attr _ _ _ context => cases context <;> cases checkProperties <;> rfl
      | _ => rfl
  | parameter parameter => cases parameter; rfl
  | _ => rfl

theorem givenNames_moved (checkProperties : Bool) (tree : SyntaxTree) :
    givenNames checkProperties (tree.map (Occurrence.moved lines)) =
      (givenNames checkProperties tree).map (GivenName.moved lines) := by
  have visits : (tree.map (Occurrence.moved lines)).visits NameScope.below ⟨[], "<module>"⟩ [] =
      (tree.visits NameScope.below ⟨[], "<module>"⟩ []).map
        (Visit.map (Occurrence.moved lines) id) := by
    refine Tree.visits_map _ id (fun scope address tree => ?_) tree
      (⟨[], "<module>"⟩ : NameScope) []
    rw [NameScope.below, NameScope.below, opensScope_moved, definedName_moved]
    rfl
  rw [givenNames, visits, givenNames, List.filterMap_map, List.map_filterMap]
  congr 1
  funext visit
  simp only [Function.comp_apply, Visit.map, Tree.label_map, Occurrence.node_moved,
    nameGiven?_moved, Option.map_map]
  rfl

theorem newOccurrences_moved (met names : List GivenName) :
    newOccurrences (met.map (GivenName.moved lines)) (names.map (GivenName.moved lines)) =
      (newOccurrences met names).map (GivenName.moved lines) := by
  induction names generalizing met with
  | nil => rfl
  | cons given rest inductionHypothesis =>
      have known : (met.map (GivenName.moved lines)).any (given.moved lines).sameName =
          met.any given.sameName := by
        rw [List.any_map]
        rfl
      rw [List.map_cons, newOccurrences, known, newOccurrences]
      split
      · exact inductionHypothesis met
      · rw [← List.map_cons, inductionHypothesis, List.map_cons]

theorem firstOccurrences_moved (names : List GivenName) :
    firstOccurrences (names.map (GivenName.moved lines)) =
      (firstOccurrences names).map (GivenName.moved lines) :=
  newOccurrences_moved lines [] names

theorem namesLine_of_objection? {options : NamingOptions} {name : String} {ruleId : RuleId}
    {message : String} (raised : options.objection? name = some (ruleId, message)) :
    ruleId.namesLine = false := by
  unfold NamingOptions.objection? at raised
  split at raised
  · cases raised
  · split at raised
    · cases raised
      rfl
    · split at raised
      · cases raised
        rfl
      · cases raised

theorem namingViolation?_moves (options : NamingOptions) (given : GivenName) :
    Option.Rel (Violation.Moves lines) (namingViolation? options given)
      (namingViolation? options (given.moved lines)) := by
  rw [namingViolation?, namingViolation?]
  cases raised : options.objection? given.name with
  | none =>
      rw [show (given.moved lines).name = given.name from rfl, raised]
      exact .none
  | some objection =>
      obtain ⟨ruleId, message⟩ := objection
      rw [show (given.moved lines).name = given.name from rfl, raised]
      refine .some ?_
      constructor <;>
        simp [GivenName.moved, Position.moved, namesLine_of_objection? raised]

theorem meaninglessNames_moved (options : NamingOptions) (tree : SyntaxTree) :
    List.Forall₂ (Violation.Moves lines) (meaninglessNames options tree)
      (meaninglessNames options (tree.map (Occurrence.moved lines))) := by
  rw [meaninglessNames, meaninglessNames, givenNames_moved, firstOccurrences_moved,
    List.filterMap_map]
  exact forall₂_filterMap fun given _ => namingViolation?_moves lines options given

/-! ## Late usage -/

theorem functionsIn_moved (tree : SyntaxTree) :
    functionsIn (tree.map (Occurrence.moved lines)) =
      (functionsIn tree).map (Prod.map (Tree.map (Occurrence.moved lines))
        (Tree.map (Occurrence.moved lines))) := by
  rw [functionsIn, functionsIn, Tree.levelOrder_map, List.flatMap_map, List.map_flatMap]
  congr 1
  funext parent
  simp only [Tree.children_map, List.filter_map, List.map_map]
  have same : isFunctionDef ∘ Tree.map (Occurrence.moved lines) = isFunctionDef := by
    funext tree
    exact isFunctionDef_moved lines tree
  rw [same]
  rfl

/-- The name that is used, some lines further down. -/
def NameUse.moved (use : NameUse) : NameUse :=
  { use with position := use.position.moved lines }

theorem nameUse?_moved (tree : SyntaxTree) :
    nameUse? (tree.map (Occurrence.moved lines)) = (nameUse? tree).map (NameUse.moved lines) := by
  obtain ⟨⟨role, node⟩, children⟩ := tree
  cases node with
  | expr expr => cases expr <;> rfl
  | _ => rfl

theorem textOrder_moved (first second : NameUse) :
    (first.moved lines).textOrder (second.moved lines) = first.textOrder second := by
  by_cases sameLine : first.position.line = second.position.line
  · by_cases sameColumn : first.position.column = second.position.column <;>
      simp [NameUse.textOrder, NameUse.moved, Position.moved, sameLine, sameColumn]
  · simp [NameUse.textOrder, NameUse.moved, Position.moved, sameLine]

theorem ownNames_moved (function : SyntaxTree) :
    ownNames (function.map (Occurrence.moved lines)) =
      (ownNames function).map (NameUse.moved lines) := by
  have found : (Tree.preorderRightAll hasOwnScope
        (childrenIn .body (function.map (Occurrence.moved lines)))).filterMap nameUse? =
      ((Tree.preorderRightAll hasOwnScope
        (childrenIn .body function)).filterMap nameUse?).map (NameUse.moved lines) := by
    rw [childrenIn_moved, ← Tree.mapAll_eq_map,
      Tree.preorderRightAll_mapAll (Occurrence.moved lines) (hasOwnScope_moved lines),
      List.filterMap_map, List.map_filterMap]
    congr 1
    funext tree
    exact nameUse?_moved lines tree
  rw [ownNames, found, ownNames, List.map_mergeSort]
  intro first _ second _
  exact (textOrder_moved lines first second).symm

/-- The binding some lines further down. -/
def LatestBinding.moved (binding : LatestBinding) : LatestBinding :=
  { binding with line := binding.line + lines }

/-- The late read some lines further down. -/
def LateRead.moved (read : LateRead) : LateRead :=
  ⟨read.name, read.boundLine + lines, read.position.moved lines⟩

theorem lineDistance_moved (first last : Nat) :
    lineDistance (first + lines) (last + lines) = lineDistance first last := by
  simp only [lineDistance, Int.ofNat_eq_natCast]
  omega

theorem rebind_moved (bindings : List LatestBinding) (latest : LatestBinding) :
    rebind (bindings.map (LatestBinding.moved lines)) (latest.moved lines) =
      (rebind bindings latest).map (LatestBinding.moved lines) := by
  rw [rebind, rebind, List.map_cons, List.filter_map]
  rfl

theorem lateReads_moved (options : LateUsageOptions) (bindings : List LatestBinding)
    (uses : List NameUse) :
    lateReads options (bindings.map (LatestBinding.moved lines))
        (uses.map (NameUse.moved lines)) =
      (lateReads options bindings uses).map (LateRead.moved lines) := by
  induction uses generalizing bindings with
  | nil => rfl
  | cons use uses inductionHypothesis =>
      rw [List.map_cons, lateReads, lateReads]
      have sameContext : (use.moved lines).context = use.context := rfl
      have sameName : (fun binding : LatestBinding => binding.name == (use.moved lines).name) ∘
          LatestBinding.moved lines = fun binding => binding.name == use.name := rfl
      rw [sameContext, List.find?_map, sameName]
      by_cases bound : (use.context != .load) = true
      · rw [if_pos bound, if_pos bound, ← inductionHypothesis, ← rebind_moved]
        rfl
      · rw [if_neg bound, if_neg bound]
        cases bindings.find? fun binding => binding.name == use.name with
        | none => exact inductionHypothesis bindings
        | some binding =>
            simp only [Option.map_some, LatestBinding.moved, NameUse.moved, Position.moved,
              lineDistance_moved]
            split
            · rw [List.map_cons, ← inductionHypothesis, ← rebind_moved]
              rfl
            · exact inductionHypothesis bindings

theorem lateReadViolation_moves (options : LateUsageOptions) (function : SyntaxTree)
    (read : LateRead) :
    (lateReadViolation options function read).Moves lines
      (lateReadViolation options (function.map (Occurrence.moved lines)) (read.moved lines)) := by
  constructor <;> simp [lateReadViolation, LateRead.moved, Position.moved, RuleId.namesLine]
  exact ⟨_, read.boundLine, "", by simp; rfl, by simp⟩

theorem lateVariables_moved (options : LateUsageOptions) (tree : SyntaxTree) :
    List.Forall₂ (Violation.Moves lines) (lateVariables options tree)
      (lateVariables options (tree.map (Occurrence.moved lines))) := by
  rw [lateVariables, lateVariables, functionsIn_moved, List.flatMap_map]
  refine forall₂_flatMap fun (function, parent) _ => ?_
  have reads := lateReads_moved lines options [] (ownNames function)
  rw [List.map_nil] at reads
  simp only [Prod.map_apply, ownNames_moved, reads, List.map_map]
  exact forall₂_map fun read _ => lateReadViolation_moves lines options function read

theorem readLines_moved (name : String) (trees : List SyntaxTree) :
    readLines name (trees.map (Tree.map (Occurrence.moved lines))) =
      (readLines name trees).map (· + lines) := by
  rw [readLines, ← Tree.mapAll_eq_map, Tree.preorderAll_mapAll, List.filterMap_map, readLines,
    List.map_filterMap]
  congr 1
  funext tree
  obtain ⟨⟨role, node⟩, children⟩ := tree
  cases node with
  | expr expr =>
      cases expr with
      | name position id context =>
          cases context with
          | load =>
              by_cases same : id = name
              · simp [Tree.map, Tree.label, Occurrence.moved, Node.moved, Expr.moved, same,
                  Position.moved]
              · simp [Tree.map, Tree.label, Occurrence.moved, Node.moved, Expr.moved, same]
          | _ => rfl
      | _ => rfl
  | _ => rfl

theorem foldl_min_moved (least : Nat) (others : List Nat) :
    (others.map (· + lines)).foldl min (least + lines) = others.foldl min least + lines := by
  induction others generalizing least with
  | nil => rfl
  | cons line others inductionHypothesis =>
      rw [List.map_cons, List.foldl_cons, List.foldl_cons, Nat.add_min_add_right,
        inductionHypothesis]

theorem leastLine_moved (read : List Nat) :
    leastLine (read.map (· + lines)) = (leastLine read).map (· + lines) := by
  cases read with
  | nil => rfl
  | cons line others => exact congrArg some (foldl_min_moved lines line others)

theorem lateParameter?_moves (options : LateUsageOptions) (function : SyntaxTree)
    (line column : Nat) (name : String) :
    Option.Rel (Violation.Moves lines) (lateParameter? options function line column name)
      (lateParameter? options (function.map (Occurrence.moved lines)) (line + lines) column
        name) := by
  simp only [lateParameter?, childrenIn_moved, readLines_moved, leastLine_moved, definedName_moved]
  cases leastLine (readLines name (childrenIn .body function)) with
  | none => exact .none
  | some used =>
      simp only [Option.map_some, Option.bind_eq_bind, Option.bind_some, lineDistance_moved]
      split
      · refine .some ?_
        constructor <;> simp [RuleId.namesLine]
      · exact .none

theorem lateParametersOf_moves (options : LateUsageOptions) (function parent : SyntaxTree) :
    List.Forall₂ (Violation.Moves lines) (lateParametersOf options function parent)
      (lateParametersOf options (function.map (Occurrence.moved lines))
        (parent.map (Occurrence.moved lines))) := by
  have receiver := selfNameOf_moved lines function (some parent)
  rw [Option.map_some] at receiver
  unfold lateParametersOf
  rw [receiver, Tree.label_map, Occurrence.node_moved]
  cases function.label.node with
  | stmt stmt =>
      cases stmt with
      | functionDef position _ _ parameters _ _ _ =>
          simp only [Node.moved, Stmt.moved, Parameters.positional_moved,
            Parameters.keywordOnly_moved, ← List.map_append, map_name_moved]
          exact forall₂_filterMap fun name _ =>
            lateParameter?_moves lines options function position.line position.column name
      | _ => exact .nil
  | _ => exact .nil

theorem lateArguments_moved (options : LateUsageOptions) (tree : SyntaxTree) :
    List.Forall₂ (Violation.Moves lines) (lateArguments options tree)
      (lateArguments options (tree.map (Occurrence.moved lines))) := by
  rw [lateArguments, lateArguments, functionsIn_moved, List.flatMap_map]
  exact forall₂_flatMap fun (function, parent) _ =>
    lateParametersOf_moves lines options function parent

end Check

end DesignLint
