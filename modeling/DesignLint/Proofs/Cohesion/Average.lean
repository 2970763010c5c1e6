import DesignLint.Proofs.Cohesion.Threshold
import DesignLint.Proofs.Cohesion.Traversal
import DesignLint.Proofs.Number.Rounding
import DesignLint.Proofs.Result.Document
import DesignLint.Proofs.Syntax.Relabel

/-!
# Percentages in reports

Rounding keeps a number between zero and a whole number that is itself representable. So
every score is a percentage, and the mean of the scores is one as long as their sum is not too
large to be added up one by one. Rounding the mean to tenths and then to a double keeps it in
range. A report with a percentage as its threshold therefore fits the schema for results.

Every block is a statement, so a unit has no more blocks than its module has statements, and a
module has no more statements than its text has characters. With as many blocks as fit into a file
that is scanned, the sums of the scores stay far below the numbers that doubles cannot count to.
-/

namespace DesignLint

namespace NameSet

variable {names others : NameSet}

theorem length_le_length_add {name : String} : names.length ≤ (names.add name).length := by
  unfold add
  split
  · exact Nat.le_refl _
  · rw [List.length_append]
    exact Nat.le_add_right _ _

theorem length_le_length_union : names.length ≤ (names.union others).length := by
  unfold union
  induction others generalizing names with
  | nil => exact Nat.le_refl _
  | cons name others inductionHypothesis =>
      exact Nat.le_trans length_le_length_add inductionHypothesis

theorem length_inter_le_length : (names.inter others).length ≤ names.length :=
  List.length_filter_le _ _

end NameSet

namespace Cohesion

/-! ## Roundings -/

/-- A rounding that keeps numbers between zero and any whole number below a limit. -/
def Rounding.KeepsBelow (rounding : Rounding) (limit : Nat) : Prop :=
  ∀ (value : Rat) (number : Nat), number < limit → 0 ≤ value → value ≤ number →
    0 ≤ rounding value ∧ rounding value ≤ number

theorem Rounding.keepsBelow_exact (limit : Nat) : exact.KeepsBelow limit :=
  fun _ _ _ nonneg le => ⟨nonneg, le⟩

theorem Rounding.keepsBelow_binary64 : binary64.KeepsBelow (2 ^ 53) := by
  intro value number small nonneg le
  obtain ⟨rounded, equal, above, below⟩ := Binary64.exists_nearest_eq nonneg le small
  unfold binary64
  rw [equal]
  exact ⟨above, below⟩

/-! ## Scores -/

section Scores

variable {rounding : Rounding} {limit : Nat} (keeps : rounding.KeepsBelow limit)

include keeps

theorem sharedPercentage_mem_range (large : 100 < limit) (a b : NameSet) :
    0 ≤ sharedPercentage rounding a b ∧ sharedPercentage rounding a b ≤ 100 := by
  unfold sharedPercentage
  split
  · norm_num
  · have fewer : (a.inter b).length ≤ (a.union b).length :=
      NameSet.length_inter_le_length.trans NameSet.length_le_length_union
    apply keeps _ 100 large
    · rw [Rat.mkRat_eq_div]
      push_cast
      positivity
    · rw [Rat.mkRat_eq_div]
      push_cast
      refine div_le_of_le_mul₀ (by positivity) (by norm_num) ?_
      rw [mul_comm]
      gcongr

/-- Every pair of blocks adds a percentage to the sum of the scores. -/
theorem scoreTotal_mem_range (rule : OverlapRule) (own : rule.rounding = rounding)
    (pairs : List (Block × Block)) {total : Rat} {number : Nat}
    (small : number + 100 * pairs.length < limit) (nonneg : 0 ≤ total) (le : total ≤ number) :
    0 ≤ pairs.foldl (fun total (a, b) => rule.rounding (total + rule.score a b)) total ∧
      pairs.foldl (fun total (a, b) => rule.rounding (total + rule.score a b)) total ≤
        number + 100 * pairs.length := by
  induction pairs generalizing total number with
  | nil => simpa using ⟨nonneg, le⟩
  | cons pair pairs inductionHypothesis =>
      obtain ⟨a, b⟩ := pair
      rw [List.length_cons, Nat.mul_succ] at small
      have score : 0 ≤ rule.score a b ∧ rule.score a b ≤ 100 := by
        rw [OverlapRule.score, own]
        exact sharedPercentage_mem_range keeps (by omega) _ _
      have next : 0 ≤ rule.rounding (total + rule.score a b) ∧
          rule.rounding (total + rule.score a b) ≤ (number + 100 : Nat) := by
        rw [own]
        apply keeps _ _ (by omega) (add_nonneg nonneg score.1)
        push_cast
        exact add_le_add le score.2
      have rest := inductionHypothesis (by omega) next.1 next.2
      rw [List.foldl_cons, List.length_cons]
      refine ⟨rest.1, rest.2.trans_eq ?_⟩
      push_cast
      ring

theorem meanScore_mem_range (rule : OverlapRule) (own : rule.rounding = rounding)
    (blocks : List Block) (few : 100 * (pairsOf blocks).length < limit) :
    0 ≤ (blockGraph rule blocks).meanScore rounding ∧
      (blockGraph rule blocks).meanScore rounding ≤ 100 := by
  have total := scoreTotal_mem_range keeps rule own (pairsOf blocks) (by rwa [Nat.zero_add])
    le_rfl (le_of_eq Nat.cast_zero.symm)
  rw [Nat.cast_zero, zero_add, ← scoreTotal_blockGraph] at total
  rw [BlockGraph.meanScore, pairCount_blockGraph]
  split
  · norm_num
  · rename_i nonempty
    have positive : 0 < (pairsOf blocks).length := Nat.pos_of_ne_zero nonempty
    have pairs : (0 : Rat) < (pairsOf blocks).length := by exact_mod_cast positive
    rw [Rat.ofInt_eq_cast]
    have mean := keeps ((blockGraph rule blocks).scoreTotal / (pairsOf blocks).length) 100
      (by omega) (div_nonneg total.1 pairs.le) ((div_le_iff₀ pairs).mpr total.2)
    exact Rounding.toTenths_mem_range mean.1 mean.2

/-- A report fits the schema if its scores can be added up and the threshold is a whole
percentage. -/
theorem fits_of_judge {limits : CohesionLimits} {unit : CodeUnit} {report : CohesionReport}
    (few : 100 * (pairsOf unit.blocks).length < limit)
    (threshold : limits.minSharedPercentage.Within 100)
    (whole : limits.minSharedPercentage.isWhole = true)
    (judged : judge rounding limits unit = some report) : report.Fits := by
  obtain ⟨⟨-, -, apart⟩, rfl⟩ := judge_eq_some_iff.mp judged
  have mean :=
    meanScore_mem_range keeps (limits.overlapRule rounding unit.kind) rfl unit.blocks few
  exact {
    componentCount := Int.ofNat_le.mpr apart
    components := by
      rw [List.length_map]
      exact apart
    average := Number.within_float_iff.mpr
      (Binary64.within_nearest (by decide) mean.1 (by exact_mod_cast mean.2))
    threshold := threshold
    whole := whole }

end Scores

/-- A rounding that keeps the sums of the scores in every unit of a tree. -/
def Rounding.KeepsScores (rounding : Rounding) (tree : Syntax.SyntaxTree) : Prop :=
  ∀ unit ∈ closedUnits tree,
    ∃ limit, rounding.KeepsBelow limit ∧ 100 * (pairsOf unit.blocks).length < limit

theorem Rounding.keepsScores_exact (tree : Syntax.SyntaxTree) : exact.KeepsScores tree :=
  fun unit _ => ⟨100 * (pairsOf unit.blocks).length + 1, keepsBelow_exact _, Nat.lt_succ_self _⟩

/-! ## How many blocks a unit has -/

section Counts

open DesignLint.Syntax

/-- Whether a statement stands at the root of a tree. -/
def isStatement (tree : SyntaxTree) : Bool := tree.label.node matches .stmt _

/-- The number of statements in a tree. -/
def statementCount (tree : SyntaxTree) : Nat := tree.preorder.countP isStatement

theorem isStatement_of_isBlockOf {unit block : SyntaxPlace}
    (isBlock : isBlockOf unit block = true) : isStatement block.tree = true := by
  obtain ⟨stmt, node⟩ : ∃ stmt, block.tree.label.node = .stmt stmt := by
    unfold isBlockOf at isBlock
    obtain ⟨kind, -⟩ := Bool.and_eq_true_iff.mp isBlock
    split at kind
    · exact exists_stmt_of_isControl kind
    · exact exists_stmt_of_methodAt? kind
    · cases kind
  rw [isStatement, node]

theorem length_numberedBlocks_le (frames : List OpenBlock) :
    (numberedBlocks frames).length ≤ frames.length := by
  have onTop : ∀ blocks : List Block,
      (frames.foldl (fun blocks frame => blocks ++ (frame.extract? blocks.length).toList)
        blocks).length ≤ blocks.length + frames.length := by
    induction frames with
    | nil => exact fun _ => Nat.le_refl _
    | cons frame frames inductionHypothesis =>
        intro blocks
        have one : (frame.extract? blocks.length).toList.length ≤ 1 := by
          cases frame.extract? blocks.length <;> simp
        have later := inductionHypothesis (blocks ++ (frame.extract? blocks.length).toList)
        rw [List.length_append] at later
        rw [List.foldl_cons, List.length_cons]
        omega
  have whole := onTop []
  rw [List.length_nil, Nat.zero_add] at whole
  exact whole

/-- A unit has no more blocks than there are statements. -/
theorem length_blocks_le {tree : SyntaxTree} (syntaxTree : StandsForSyntax tree) :
    ∀ unit ∈ closedUnits tree, unit.blocks.length ≤ statementCount tree := by
  intro unit closed
  rw [closedUnits_eq syntaxTree] at closed
  obtain ⟨place, -, rfl⟩ := List.mem_map.mp closed
  calc (unitAt tree.places tree.latePlaces place).blocks.length
    _ ≤ ((tree.latePlaces.filter (isBlockOf place)).map (usageOf tree.places)).length :=
        length_numberedBlocks_le _
    _ = tree.latePlaces.countP (isBlockOf place) := by
        rw [List.length_map, List.countP_eq_length_filter]
    _ ≤ tree.latePlaces.countP (isStatement ∘ Visit.tree) :=
        List.countP_mono_left fun block _ => isStatement_of_isBlockOf
    _ = statementCount tree := by
        rw [← List.countP_map]
        exact (Tree.map_tree_lateVisits_perm tree _ _).countP_eq isStatement

theorem length_pairsOf {α : Type} (items : List α) :
    2 * (pairsOf items).length + items.length = items.length * items.length := by
  induction items with
  | nil => rfl
  | cons item items inductionHypothesis =>
      rw [pairsOf, List.length_append, List.length_map, List.length_cons]
      linarith

/-- With two million statements at most, doubles keep the sums of the scores. -/
theorem Rounding.keepsScores_binary64 {tree : SyntaxTree} (syntaxTree : StandsForSyntax tree)
    (few : statementCount tree ≤ 2000000) : binary64.KeepsScores tree := by
  intro unit closed
  refine ⟨2 ^ 53, keepsBelow_binary64, ?_⟩
  have blocks := (length_blocks_le syntaxTree unit closed).trans few
  have pairs := length_pairsOf unit.blocks
  have product : unit.blocks.length * unit.blocks.length ≤ 2000000 * 2000000 :=
    Nat.mul_le_mul blocks blocks
  omega

end Counts

end Cohesion

end DesignLint
