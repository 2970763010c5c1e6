import DesignLint.Check.Cohesion
import DesignLint.Proofs.Check.Related
import DesignLint.Proofs.Cohesion.Moved

/-!
# Cohesion reports on moved code

The blocks of a moved unit share the same names, so its overlap graph is the same
and it is reported in the same cases. A report says where the unit stands and
summarizes groups by lines; what identifies it does not depend on them.
-/

namespace DesignLint.Cohesion

open DesignLint.Syntax

variable (lines : Nat)

/-- The report some lines further down, but for the names and lines of the groups. -/
structure CohesionReport.Moves (before after : CohesionReport) : Prop where
  kind : after.kind = before.kind
  name : after.name = before.name
  startLine : after.span.startLine = before.span.startLine + lines
  componentCount : after.componentCount = before.componentCount

section Judging

variable {lines} {kind : UnitKind} {rule : OverlapRule}

@[simp]
theorem score_moved (a b : Block) :
    rule.score (Block.moved lines kind a) (Block.moved lines kind b) = rule.score a b := rfl

theorem connects_moved (callEdges : rule.callEdges = (kind == .class)) (a b : Block) :
    rule.connects (Block.moved lines kind a) (Block.moved lines kind b) = rule.connects a b := by
  cases kind with
  | function =>
      have noCalls : rule.callEdges = false := callEdges
      simp only [OverlapRule.connects, score_moved, noCalls, Bool.false_and]
  | «class» => rfl

section Change

variable {change : Block → Block}
  (scores : ∀ a b, rule.score (change a) (change b) = rule.score a b)
  (connections : ∀ a b, rule.connects (change a) (change b) = rule.connects a b)

include scores connections

theorem compareAll_map (graph : BlockGraph) (numbered : List (Block × Nat)) :
    graph.compareAll rule (numbered.map (Prod.map change id)) = graph.compareAll rule numbered := by
  induction numbered generalizing graph with
  | nil => rfl
  | cons first later inductionHypothesis =>
      have samePair (graph : BlockGraph) (second : Block × Nat) :
          graph.comparePair rule (first.map change id) (second.map change id) =
            graph.comparePair rule first second := by
        simp only [BlockGraph.comparePair, Prod.map, scores, connections, id_eq]
      rw [List.map_cons, BlockGraph.compareAll, BlockGraph.compareAll, inductionHypothesis,
        List.foldl_map]
      simp only [samePair]

/-- A change of blocks that keeps all scores and connections keeps the graph. -/
theorem blockGraph_map (blocks : List Block) :
    blockGraph rule (blocks.map change) = blockGraph rule blocks := by
  rw [blockGraph, List.length_map, List.zipIdx_map]
  exact compareAll_map scores connections _ _

end Change

theorem blockGraph_moved (callEdges : rule.callEdges = (kind == .class)) (blocks : List Block) :
    blockGraph rule (blocks.map (Block.moved lines kind)) = blockGraph rule blocks :=
  blockGraph_map score_moved (connects_moved callEdges) blocks

/-- A unit is judged alike on all lines. -/
theorem judge_moves (rounding : Rounding) (limits : CohesionLimits) (unit : CodeUnit) :
    Option.Rel (CohesionReport.Moves lines) (judge rounding limits unit)
      (judge rounding limits (CodeUnit.moved lines unit)) := by
  have sameGraph := @blockGraph_moved lines unit.kind
    (limits.overlapRule rounding unit.kind) rfl unit.blocks
  have sameLength : (CodeUnit.moved lines unit).span.length = unit.span.length :=
    Span.length_moved lines unit.span
  have sameCount : (CodeUnit.moved lines unit).blocks.length = unit.blocks.length :=
    List.length_map _
  unfold judge
  rw [sameLength, sameCount]
  dsimp only [CodeUnit.moved]
  rw [sameGraph]
  split
  · exact .none
  · split
    · exact .some ⟨rfl, rfl, rfl, rfl⟩
    · exact .none

end Judging

end DesignLint.Cohesion

namespace DesignLint.Check

open Cohesion Syntax

variable (lines : Nat)

theorem cohesionViolation_moves {ruleId : RuleId} (noLine : ruleId.namesLine = false)
    {before after : CohesionReport} (moves : CohesionReport.Moves lines before after) :
    Violation.Moves lines (cohesionViolation ruleId before) (cohesionViolation ruleId after) := by
  constructor <;>
    simp [cohesionViolation, moves.kind, moves.name, moves.startLine, moves.componentCount, noLine]

theorem reportsOn_moved (analysis : CohesionAnalysis) {tree : SyntaxTree}
    (parsed : ∀ part ∈ tree.preorder, part.label.node.isParsed = true) :
    List.Forall₂ (CohesionReport.Moves lines) (analysis.reportsOn tree)
      (analysis.reportsOn (tree.map (Occurrence.moved lines))) := by
  rw [CohesionAnalysis.reportsOn, CohesionAnalysis.reportsOn, closedUnits_moved lines parsed,
    List.filterMap_map]
  refine forall₂_filterMap fun unit _ => ?_
  have sameLimits : analysis.limitsFor (CodeUnit.moved lines unit).kind =
      analysis.limitsFor unit.kind := rfl
  simp only [Function.comp_apply, CohesionAnalysis.report?, sameLimits]
  cases analysis.limitsFor unit.kind with
  | none => exact .none
  | some limits => exact judge_moves analysis.rounding limits unit

theorem looseFunctions_moved (options : CohesionLimits) {tree : SyntaxTree}
    (parsed : ∀ part ∈ tree.preorder, part.label.node.isParsed = true) (rounding : Rounding) :
    List.Forall₂ (Violation.Moves lines) (looseFunctions options tree rounding)
      (looseFunctions options (tree.map (Occurrence.moved lines)) rounding) := by
  rw [looseFunctions, looseFunctions, List.forall₂_map_left_iff, List.forall₂_map_right_iff]
  exact (reportsOn_moved lines _ parsed).imp fun _ _ => cohesionViolation_moves lines rfl

theorem looseClasses_moved (options : CohesionLimits) {tree : SyntaxTree}
    (parsed : ∀ part ∈ tree.preorder, part.label.node.isParsed = true) (rounding : Rounding) :
    List.Forall₂ (Violation.Moves lines) (looseClasses options tree rounding)
      (looseClasses options (tree.map (Occurrence.moved lines)) rounding) := by
  rw [looseClasses, looseClasses, List.forall₂_map_left_iff, List.forall₂_map_right_iff]
  exact (reportsOn_moved lines _ parsed).imp fun _ _ => cohesionViolation_moves lines rfl

end DesignLint.Check
