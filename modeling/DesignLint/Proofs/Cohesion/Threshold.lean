import DesignLint.Proofs.Cohesion.Connectivity
import DesignLint.Proofs.Number.Order
import Mathlib.Data.List.Forall2

/-!
# Raising the threshold

The blocks of a unit do not depend on the limits, and a higher threshold links
fewer of them. So the groups of a unit only split, and every report stays.
-/

namespace DesignLint.Cohesion

open DesignLint.Syntax Relation

/-! ## Finer classes -/

section Classes

variable {wide narrow : Nat → Nat → Prop} {size : Nat} {coarse fine : List Component}

theorem ListsClasses.nodup (classes : ListsClasses wide size coarse) : coarse.Nodup := by
  refine classes.ordered.imp ?_
  rintro first _ ⟨i, inFirst, before⟩ rfl
  exact Nat.lt_irrefl i (before i inFirst)

variable (before : ListsClasses wide size coarse) (after : ListsClasses narrow size fine)
  (fewer : ∀ i j, narrow i j → wide i j)

include before after fewer

/-- Where fewer numbers are linked, every class is part of a class from before. -/
theorem ListsClasses.refines : ∀ part ∈ fine, ∃ whole ∈ coarse, part ⊆ whole := by
  intro part member
  obtain ⟨start, less, class_iff⟩ := after.classes part member
  obtain ⟨whole, wholeMember, whole_iff⟩ := before.complete start less
  refine ⟨whole, wholeMember, fun i inside => ?_⟩
  exact (whole_iff i).mpr (ReflTransGen.mono fewer start i ((class_iff i).mp inside))

/-- Where fewer numbers are linked, there are no fewer classes: different classes from before have
different parts. -/
theorem ListsClasses.length_le : coarse.length ≤ fine.length := by
  have meets : ∀ whole ∈ coarse, ∃ part ∈ fine, ∃ i, i ∈ part ∧ i ∈ whole := by
    intro whole member
    obtain ⟨start, less, whole_iff⟩ := before.classes whole member
    obtain ⟨part, partMember, part_iff⟩ := after.complete start less
    exact ⟨part, partMember, start, (part_iff start).mpr .refl, (whole_iff start).mpr .refl⟩
  choose! part partMember shared inPart inWhole using meets
  have around {whole other : Component} (member : whole ∈ coarse) (otherMember : other ∈ coarse)
      (subset : part whole ⊆ other) : whole = other :=
    before.eq_of_mem member otherMember (inWhole whole member) (subset (inPart whole member))
  have injective : ∀ first ∈ coarse, ∀ second ∈ coarse, part first = part second →
      first = second := by
    intro first firstMember second secondMember same
    obtain ⟨whole, member, subset⟩ := before.refines after fewer _ (partMember first firstMember)
    exact (around firstMember member subset).trans
      (around secondMember member (same ▸ subset)).symm
  have within : coarse.map part ⊆ fine := by
    intro component listed
    obtain ⟨whole, member, rfl⟩ := List.mem_map.mp listed
    exact partMember whole member
  have distinct : (coarse.map part).Nodup := before.nodup.map_on injective
  simpa using (distinct.subperm within).length_le

end Classes

/-! ## Fewer links -/

/-- A higher threshold links fewer blocks; calls link them as before. -/
theorem Linked.of_threshold_le {rounding : Rounding} {low high : Number} {callEdges : Bool}
    {blocks : List Block} {i j : Nat} (raised : low.le high = true)
    (linked : Linked ⟨rounding, high, callEdges⟩ blocks i j) :
    Linked ⟨rounding, low, callEdges⟩ blocks i j := by
  obtain ⟨a, b, first, second, reaches | calls⟩ := linked
  · exact ⟨a, b, first, second, .inl (Number.le_trans raised reaches)⟩
  · exact ⟨a, b, first, second, .inr calls⟩

/-! ## Reports -/

/-- Limits that differ in the threshold only, which is no lower. -/
def CohesionLimits.RaisedTo (low high : CohesionLimits) : Prop :=
  low.minSharedPercentage.le high.minSharedPercentage = true ∧
    low.minUnitLength = high.minUnitLength

/-- Analyses that differ in their thresholds only, which are no lower. -/
structure CohesionAnalysis.RaisedTo (low high : CohesionAnalysis) : Prop where
  rounding : low.rounding = high.rounding
  functionLimits : Option.Rel CohesionLimits.RaisedTo low.functionLimits high.functionLimits
  classLimits : Option.Rel CohesionLimits.RaisedTo low.classLimits high.classLimits

/-- The groups into which limits divide the blocks of a unit. -/
def CohesionLimits.groupsOf (limits : CohesionLimits) (rounding : Rounding) (unit : CodeUnit) :
    List Component :=
  (blockGraph (limits.overlapRule rounding unit.kind) unit.blocks).components

/-- What a report shows of a unit that is divided into groups. -/
structure ShowsGroups (unit : CodeUnit) (groups : List Component) (report : CohesionReport) :
    Prop where
  kind : report.kind = unit.kind
  name : report.name = unit.name
  span : report.span = unit.span
  componentCount : report.componentCount = groups.length
  components : report.components = groups.map (summarize unit.blocks)

section Judging

variable {rounding : Rounding} {unit : CodeUnit} {report : CohesionReport}

/-- A unit is reported exactly if it is long enough, has two blocks, and falls into two groups.
The report shows the groups and what they were told apart by. -/
theorem judge_eq_some_iff {limits : CohesionLimits} :
    judge rounding limits unit = some report ↔
      ((Number.int unit.span.length).lt limits.minUnitLength = false ∧ 2 ≤ unit.blocks.length ∧
        1 < (limits.groupsOf rounding unit).length) ∧
      report = {
        kind := unit.kind
        name := unit.name
        span := unit.span
        componentCount := (limits.groupsOf rounding unit).length
        average := .float (Binary64.nearest
          ((blockGraph (limits.overlapRule rounding unit.kind) unit.blocks).meanScore rounding))
        threshold := limits.minSharedPercentage
        components := (limits.groupsOf rounding unit).map (summarize unit.blocks) } := by
  unfold judge
  split
  · rename_i short
    simp only [Bool.or_eq_true, decide_eq_true_eq] at short
    simp only [reduceCtorEq, false_iff]
    rintro ⟨⟨long, blocks, -⟩, -⟩
    rcases short with short | few
    · rw [long] at short
      exact Bool.false_ne_true short
    · omega
  · rename_i long
    simp only [Bool.or_eq_true, decide_eq_true_eq, not_or, Bool.not_eq_true, Nat.not_lt] at long
    dsimp only
    split
    · rename_i apart
      have groups : 1 < (limits.groupsOf rounding unit).length := of_decide_eq_true apart
      simp only [long.1, long.2, groups, true_and, Option.some.injEq, eq_comm (a := report)]
      rfl
    · rename_i together
      have groups : ¬1 < (limits.groupsOf rounding unit).length :=
        fun apart => together (decide_eq_true apart)
      simp [groups]

theorem isSome_judge_iff {limits : CohesionLimits} :
    (judge rounding limits unit).isSome = true ↔
      (Number.int unit.span.length).lt limits.minUnitLength = false ∧ 2 ≤ unit.blocks.length ∧
        1 < (limits.groupsOf rounding unit).length := by
  simp only [Option.isSome_iff_exists, judge_eq_some_iff, exists_and_left, exists_eq, and_true]

theorem showsGroups_of_judge {limits : CohesionLimits}
    (judged : judge rounding limits unit = some report) :
    ShowsGroups unit (limits.groupsOf rounding unit) report := by
  obtain ⟨-, rfl⟩ := judge_eq_some_iff.mp judged
  exact ⟨rfl, rfl, rfl, rfl, rfl⟩

/-- A report on a unit and the report under other limits, which divide the unit further: every
group after is part of a group before. -/
structure SplitsFurther (rounding : Rounding) (low high : CohesionLimits) (unit : CodeUnit)
    (before after : CohesionReport) : Prop where
  reported : judge rounding low unit = some before
  stillReported : judge rounding high unit = some after
  shown : ShowsGroups unit (low.groupsOf rounding unit) before
  shownAfter : ShowsGroups unit (high.groupsOf rounding unit) after
  componentCount_le : before.componentCount ≤ after.componentCount
  contained : ∀ part ∈ high.groupsOf rounding unit, ∃ whole ∈ low.groupsOf rounding unit,
    part ⊆ whole

/-- A unit that is reported is still reported once the threshold is raised. -/
theorem judge_of_raised {low high : CohesionLimits} (raised : low.RaisedTo high)
    (sets : ∀ block ∈ unit.blocks, block.HasNameSets)
    (reported : judge rounding low unit = some report) :
    ∃ after, SplitsFurther rounding low high unit report after := by
  have classes (limits : CohesionLimits) :
      ListsClasses (Linked (limits.overlapRule rounding unit.kind) unit.blocks)
        unit.blocks.length (limits.groupsOf rounding unit) :=
    listsClasses_components sets
  have fewer : ∀ i j, Linked (high.overlapRule rounding unit.kind) unit.blocks i j →
      Linked (low.overlapRule rounding unit.kind) unit.blocks i j :=
    fun _ _ => Linked.of_threshold_le raised.1
  have counts := (classes low).length_le (classes high) fewer
  obtain ⟨long, blocks, apart⟩ := isSome_judge_iff.mp (Option.isSome_of_mem reported)
  obtain ⟨after, stillReported⟩ := Option.isSome_iff_exists.mp
    (isSome_judge_iff.mpr ⟨raised.2 ▸ long, blocks, Nat.lt_of_lt_of_le apart counts⟩)
  have shown := showsGroups_of_judge reported
  have shownAfter := showsGroups_of_judge stillReported
  refine ⟨after, reported, stillReported, shown, shownAfter, ?_,
    (classes low).refines (classes high) fewer⟩
  rw [shown.componentCount, shownAfter.componentCount]
  exact Int.ofNat_le.mpr counts

end Judging

/-! ## Whole modules -/

/-- Where a partial function keeps every result that another one gives, up to a relation, so do
the lists of the results. -/
theorem sublistForall₂_filterMap {α β : Type} {R : α → α → Prop} {f g : β → Option α}
    {items : List β} (keeps : ∀ item ∈ items, ∀ a, f item = some a → ∃ b, g item = some b ∧ R a b) :
    List.SublistForall₂ R (items.filterMap f) (items.filterMap g) := by
  induction items with
  | nil => exact .nil
  | cons item items inductionHypothesis =>
      have rest := inductionHypothesis fun other member =>
        keeps other (List.mem_cons_of_mem item member)
      cases before : f item with
      | some a =>
          obtain ⟨b, after, related⟩ := keeps item List.mem_cons_self a before
          rw [List.filterMap_cons_some before, List.filterMap_cons_some after]
          exact .cons related rest
      | none =>
          rw [List.filterMap_cons_none before]
          cases after : g item with
          | some b =>
              rw [List.filterMap_cons_some after]
              exact .cons_right rest
          | none =>
              rw [List.filterMap_cons_none after]
              exact rest

theorem CohesionAnalysis.RaisedTo.limitsFor {low high : CohesionAnalysis}
    (raised : low.RaisedTo high) (kind : UnitKind) :
    Option.Rel CohesionLimits.RaisedTo (low.limitsFor kind) (high.limitsFor kind) := by
  cases kind with
  | function => exact raised.functionLimits
  | «class» => exact raised.classLimits

/-- The reports that two analyses give on one unit of a tree, the second of which divides the unit
further. -/
def CohesionAnalysis.SplitsUnit (low high : CohesionAnalysis) (tree : SyntaxTree)
    (before after : CohesionReport) : Prop :=
  ∃ unit ∈ closedUnits tree, ∃ lower higher,
    low.limitsFor unit.kind = some lower ∧ high.limitsFor unit.kind = some higher ∧
      SplitsFurther low.rounding lower higher unit before after

/-- Raising the thresholds of an analysis hides no report and merges no groups: in order, every
report is still there, with at least as many groups, each of them part of a group before. -/
theorem reportsOn_of_raised {low high : CohesionAnalysis} (raised : low.RaisedTo high)
    (module : Syntax.Module) :
    List.SublistForall₂ (low.SplitsUnit high module.tree) (low.reportsOn module.tree)
      (high.reportsOn module.tree) := by
  refine sublistForall₂_filterMap fun unit listed before reported => ?_
  obtain ⟨lower, limited, judged⟩ := Option.bind_eq_some_iff.mp reported
  obtain ⟨higher, limitedAfter, raisedLimits⟩ : ∃ higher,
      high.limitsFor unit.kind = some higher ∧ lower.RaisedTo higher := by
    have related := limited ▸ raised.limitsFor unit.kind
    cases limitedAfter : high.limitsFor unit.kind with
    | none =>
        rw [limitedAfter] at related
        cases related
    | some higher =>
        rw [limitedAfter] at related
        cases related with
        | some raisedLimits => exact ⟨higher, rfl, raisedLimits⟩
  obtain ⟨after, split⟩ :=
    judge_of_raised raisedLimits (hasNameSets_of_mem_closedUnits module unit listed) judged
  refine ⟨after, ?_, unit, listed, lower, higher, limited, limitedAfter, split⟩
  rw [CohesionAnalysis.report?, limitedAfter, Option.bind_some, ← raised.rounding]
  exact split.stillReported

/-- A function of three branches: the first two share a name, the last one shares none. -/
def threeBranches : Syntax.Module :=
  let branch (line : Nat) (test used : String) : Stmt :=
    .ifStmt ⟨line, 4, some (line + 1)⟩ (.name ⟨line, 7, none⟩ test .load)
      [.expr ⟨line + 1, 8, none⟩ (.name ⟨line + 1, 8, none⟩ used .load)] []
  ⟨[.functionDef ⟨1, 0, some 7⟩ false "run" (.mk [] [] none [] [] none [])
    [branch 2 "a" "b", branch 4 "b" "c", branch 6 "d" "e"] [] none]⟩

/-- The analysis of functions of any length at a threshold, in exact arithmetic. -/
def functionsAt (threshold : Number) : CohesionAnalysis :=
  ⟨some ⟨threshold, 1⟩, none, Rounding.exact⟩

/-- Raising the threshold divides the two groups of the function into three. -/
theorem reportsOn_threeBranches :
    (functionsAt 30).RaisedTo (functionsAt 40) ∧
      List.SublistForall₂ ((functionsAt 30).SplitsUnit (functionsAt 40) threeBranches.tree)
        ((functionsAt 30).reportsOn threeBranches.tree)
        ((functionsAt 40).reportsOn threeBranches.tree) ∧
      ((functionsAt 30).reportsOn threeBranches.tree).map (·.componentCount) = [2] ∧
      ((functionsAt 40).reportsOn threeBranches.tree).map (·.componentCount) = [3] := by
  have raised : (functionsAt 30).RaisedTo (functionsAt 40) := by
    constructor
    · rfl
    · exact .some ⟨rfl, rfl⟩
    · exact .none
  exact ⟨raised, reportsOn_of_raised raised threeBranches, by decide +kernel, by decide +kernel⟩

end DesignLint.Cohesion
