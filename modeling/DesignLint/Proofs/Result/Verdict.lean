import DesignLint.Result.Verdict
import Mathlib.Algebra.BigOperators.Group.List.Basic
import Mathlib.Algebra.Order.BigOperators.Group.List
import Mathlib.Tactic.Linarith

/-!
# Exit codes and numbers of findings

The verdict on a run is told by the numbers of findings of a rank or of a higher one: the worst
rank by which of them are positive, the warnings by the difference of two of them. So more
findings, or worse ones, never lower the exit code.
-/

namespace DesignLint

theorem SeverityRank.mem_all (rank : SeverityRank) : rank ∈ SeverityRank.all := by
  rcases rank with _ | severity
  · decide
  · cases severity <;> decide

namespace SeverityCounts

/-! ## Findings of a rank or of a higher one -/

/-- The number of findings of a rank or of a higher one. -/
def atLeast (counts : SeverityCounts) (rank : SeverityRank) : Int :=
  ((counts.filter fun entry => rank.height ≤ (SeverityRank.ofText entry.1).height).map
    Prod.snd).sum

@[simp] theorem atLeast_nil (rank : SeverityRank) : atLeast [] rank = 0 := rfl

theorem atLeast_cons (name : String) (count : Int) (counts : SeverityCounts)
    (rank : SeverityRank) :
    atLeast ((name, count) :: counts) rank
      = (if rank.height ≤ (SeverityRank.ofText name).height then count else 0)
        + atLeast counts rank := by
  by_cases reaches : rank.height ≤ (SeverityRank.ofText name).height
  · simp [atLeast, reaches]
  · simp [atLeast, reaches]

/-- Whether no number of findings is negative. -/
def NonNegative (counts : SeverityCounts) : Prop := ∀ entry ∈ counts, 0 ≤ entry.2

instance (counts : SeverityCounts) : Decidable counts.NonNegative :=
  inferInstanceAs (Decidable (∀ entry ∈ counts, 0 ≤ entry.2))

variable {counts : SeverityCounts}

theorem NonNegative.zero_le_atLeast (counted : counts.NonNegative) (rank : SeverityRank) :
    0 ≤ counts.atLeast rank := by
  apply List.sum_nonneg
  intro count inCounts
  obtain ⟨entry, inFiltered, rfl⟩ := List.mem_map.mp inCounts
  exact counted entry (List.mem_of_mem_filter inFiltered)

theorem NonNegative.atLeast_pos_iff (counted : counts.NonNegative) (rank : SeverityRank) :
    0 < counts.atLeast rank
      ↔ ∃ entry ∈ counts, entry.2 ≠ 0 ∧ rank.height ≤ (SeverityRank.ofText entry.1).height := by
  induction counts with
  | nil => simp
  | cons entry counts inductionHypothesis =>
      obtain ⟨name, count⟩ := entry
      have first : 0 ≤ count := counted (name, count) List.mem_cons_self
      have later : NonNegative counts := fun other inRest =>
        counted other (List.mem_cons_of_mem _ inRest)
      have rest := later.zero_le_atLeast rank
      rw [atLeast_cons, List.exists_mem_cons_iff, ← inductionHypothesis later]
      by_cases reaches : rank.height ≤ (SeverityRank.ofText name).height
      · rw [if_pos reaches, and_iff_left reaches]
        omega
      · simp [reaches]

/-- Warnings are what lies between two ranks; an inverted window holds none. -/
theorem between_eq (low high : SeverityRank) (counts : SeverityCounts) :
    counts.between low high
      = if low.height < high.height then counts.atLeast low - counts.atLeast high else 0 := by
  induction counts with
  | nil => simp [between]
  | cons entry counts inductionHypothesis =>
      obtain ⟨name, count⟩ := entry
      rw [between, inductionHypothesis, atLeast_cons, atLeast_cons]
      split_ifs <;> omega

/-! ## The worst rank -/

theorem height_higher (highest : Option SeverityRank) (rank : SeverityRank) :
    ((higher highest rank).getD none).height
      = max ((highest.getD none).height) rank.height := by
  cases highest with
  | none => simp [higher, SeverityRank.height]
  | some other =>
      simp only [higher, Option.getD_some]
      split <;> simp only [Option.getD_some] <;> omega

theorem le_height_foldl_higher_iff (height : Nat) (entries : List (String × Int))
    (highest : Option SeverityRank) :
    height ≤ ((entries.foldl (fun highest entry => higher highest (.ofText entry.1))
        highest).getD none).height
      ↔ height ≤ (highest.getD none).height
        ∨ ∃ entry ∈ entries, height ≤ (SeverityRank.ofText entry.1).height := by
  induction entries generalizing highest with
  | nil => simp
  | cons entry entries inductionHypothesis =>
      rw [List.foldl_cons, inductionHypothesis, height_higher, List.exists_mem_cons_iff, le_max_iff,
        or_assoc]

/-- The worst rank reaches another one if there are findings of it, or if it is the lowest. -/
theorem NonNegative.le_height_worst_iff (counted : counts.NonNegative) (rank : SeverityRank) :
    rank.height ≤ (counts.worst.getD none).height
      ↔ rank.height = 0 ∨ 0 < counts.atLeast rank := by
  rw [counted.atLeast_pos_iff, worst, le_height_foldl_higher_iff]
  simp [SeverityRank.height, and_assoc]

end SeverityCounts

/-! ## The verdict -/

namespace ExitPolicy

variable {policy : ExitPolicy} {counts others : SeverityCounts}

theorem fails_iff :
    policy.fails counts = true
      ↔ policy.failAt.height ≤ (counts.worst.getD none).height
        ∨ ∃ limit, policy.maxWarnings = some limit ∧ limit < policy.warnings counts := by
  rw [fails, Bool.or_eq_true, decide_eq_true_iff, exceedsWarnings]
  cases policy.maxWarnings <;> simp

/-- Without findings that fail a run, whatever reaches the rank of warnings is one. -/
theorem warnings_eq_atLeast (none_fails : counts.atLeast policy.failAt = 0)
    (window : policy.warnAt.height < policy.failAt.height) :
    policy.warnings counts = counts.atLeast policy.warnAt := by
  rw [warnings, SeverityCounts.between_eq, if_pos window, none_fails, sub_zero]

theorem warnings_eq_zero (inverted : ¬policy.warnAt.height < policy.failAt.height) :
    policy.warnings counts = 0 := by
  rw [warnings, SeverityCounts.between_eq, if_neg inverted]

/-- A run with more findings, or worse ones, fails if the other one does: it fails by its worst
finding, or none of its findings leaves the window of warnings. -/
theorem fails_of_atLeast_le (counted : counts.NonNegative) (othersCounted : others.NonNegative)
    (fewer : ∀ rank, counts.atLeast rank ≤ others.atLeast rank)
    (failed : policy.fails counts = true) : policy.fails others = true := by
  rw [fails_iff, othersCounted.le_height_worst_iff]
  rw [fails_iff, counted.le_height_worst_iff] at failed
  have atFail := fewer policy.failAt
  rcases failed with (lowest | failing) | ⟨limit, allowed, exceeded⟩
  · exact .inl (.inl lowest)
  · exact .inl (.inr (failing.trans_le atFail))
  · by_cases failing : 0 < others.atLeast policy.failAt
    · exact .inl (.inr failing)
    · have othersNone : others.atLeast policy.failAt = 0 :=
        le_antisymm (not_lt.mp failing) (othersCounted.zero_le_atLeast policy.failAt)
      have none_fails : counts.atLeast policy.failAt = 0 :=
        le_antisymm (othersNone ▸ atFail) (counted.zero_le_atLeast policy.failAt)
      right
      refine ⟨limit, allowed, ?_⟩
      by_cases window : policy.warnAt.height < policy.failAt.height
      · rw [warnings_eq_atLeast none_fails window] at exceeded
        rw [warnings_eq_atLeast othersNone window]
        exact exceeded.trans_le (fewer policy.warnAt)
      · rw [warnings_eq_zero window] at exceeded ⊢
        exact exceeded

/-- More findings, or the same ones made worse, never lower the exit code. -/
theorem exitCode_le_exitCode (ordered : policy.ok ≤ policy.fail) (counted : counts.NonNegative)
    (othersCounted : others.NonNegative)
    (fewer : ∀ rank, counts.atLeast rank ≤ others.atLeast rank) :
    policy.exitCode counts ≤ policy.exitCode others := by
  by_cases failed : policy.fails counts = true
  · have othersFailed := fails_of_atLeast_le counted othersCounted fewer failed
    simp [exitCode, failed, othersFailed]
  · rw [exitCode, if_neg failed, exitCode]
    split
    · exact ordered
    · exact le_rfl

/-- Two warnings are too many, and the run still fails when one of them gets a severity that
nobody knows. -/
theorem exitCode_le_exitCode_of_one_made_worse :
    let policy : ExitPolicy := { maxWarnings := some 1 }
    let counts : SeverityCounts := [(" Medium", 2), ("low", 1), ("medium", 0)]
    let others : SeverityCounts := [("medium", 1), ("severe", 1), ("LOW", 1)]
    policy.exitCode counts = 1 ∧ policy.ok ≤ policy.fail ∧ counts.NonNegative
      ∧ others.NonNegative ∧ (∀ rank, counts.atLeast rank ≤ others.atLeast rank)
      ∧ policy.exitCode counts ≤ policy.exitCode others := by
  intro policy counts others
  have failed : policy.exitCode counts = 1 := by decide +kernel
  have ordered : policy.ok ≤ policy.fail := by decide
  have counted : counts.NonNegative := by decide
  have othersCounted : others.NonNegative := by decide
  have fewer : ∀ rank ∈ SeverityRank.all, counts.atLeast rank ≤ others.atLeast rank := by
    decide +kernel
  have fewer : ∀ rank, counts.atLeast rank ≤ others.atLeast rank := fun rank =>
    fewer rank rank.mem_all
  exact ⟨failed, ordered, counted, othersCounted, fewer,
    exitCode_le_exitCode ordered counted othersCounted fewer⟩

end ExitPolicy

end DesignLint
