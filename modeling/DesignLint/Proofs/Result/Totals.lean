import DesignLint.CommandLine.Run
import DesignLint.Proofs.Result.Document
import DesignLint.Proofs.Result.Verdict
import Mathlib.Data.List.Induction

/-!
# The numbers that a result tells

A result tells its findings by severity, by family and by rule, and it tells the highest severity.
All of them count the same findings: each tally adds up to their number, and the counts by severity
that settle the exit code have the same highest severity and, for findings of rules, the errors and
warnings that the report for a terminal shows.
-/

namespace DesignLint

open CommandLine

/-! ## Tallies -/

namespace Tally

/-- The number of all occurrences in a tally. -/
def total (tally : Tally) : Nat := (tally.map Prod.snd).sum

theorem total_add (tally : Tally) (name : String) : (tally.add name).total = tally.total + 1 := by
  induction tally with
  | nil => rfl
  | cons entry tally inductionHypothesis =>
      obtain ⟨other, count⟩ := entry
      unfold total at inductionHypothesis ⊢
      rw [add]
      split
      · simp only [List.map_cons, List.sum_cons]
        omega
      · simp only [List.map_cons, List.sum_cons, inductionHypothesis]
        omega

theorem ofNames_append_singleton (names : List String) (name : String) :
    ofNames (names ++ [name]) = (ofNames names).add name := by
  rw [ofNames, List.foldl_append]
  rfl

/-- Nothing gets lost in a tally, and nothing counts twice. -/
theorem total_ofNames (names : List String) : (ofNames names).total = names.length := by
  induction names using List.reverseRecOn with
  | nil => rfl
  | append_singleton names name inductionHypothesis =>
      rw [ofNames_append_singleton, total_add, inductionHypothesis, List.length_append,
        List.length_singleton]

/-- A tally of names of severities, as it settles exit codes. -/
def counts (tally : Tally) : SeverityCounts :=
  tally.map fun (name, count) => (name, Int.ofNat count)

theorem nonNegative_counts (tally : Tally) : tally.counts.NonNegative := by
  intro entry listed
  obtain ⟨own, -, rfl⟩ := List.mem_map.mp listed
  exact Int.natCast_nonneg own.2

theorem atLeast_add (tally : Tally) (name : String) (rank : SeverityRank) :
    (tally.add name).counts.atLeast rank = tally.counts.atLeast rank
      + if rank.height ≤ (SeverityRank.ofText name).height then 1 else 0 := by
  induction tally with
  | nil => simp [add, counts, SeverityCounts.atLeast_cons]
  | cons entry tally inductionHypothesis =>
      obtain ⟨other, count⟩ := entry
      unfold counts at inductionHypothesis ⊢
      rw [add]
      split
      · rename_i same
        subst same
        simp only [List.map_cons, SeverityCounts.atLeast_cons, Int.ofNat_eq_natCast]
        split <;> omega
      · simp only [List.map_cons, SeverityCounts.atLeast_cons, inductionHypothesis]
        omega

theorem atLeast_ofNames (names : List String) (rank : SeverityRank) :
    (ofNames names).counts.atLeast rank
      = names.countP fun name => rank.height ≤ (SeverityRank.ofText name).height := by
  induction names using List.reverseRecOn with
  | nil => rfl
  | append_singleton names name inductionHypothesis =>
      rw [ofNames_append_singleton, atLeast_add, inductionHypothesis, List.countP_append,
        List.countP_singleton]
      simp only [Nat.cast_add, Nat.cast_ite, Nat.cast_one, Nat.cast_zero, decide_eq_true_eq]

end Tally

/-! ## Severities -/

theorem SeverityRank.ofText_label (severity : Severity) :
    SeverityRank.ofText severity.label = some severity := by
  cases severity <;> decide +kernel

theorem SeverityRank.height_le_height_iff (severity other : Severity) :
    SeverityRank.height (some severity) ≤ SeverityRank.height (some other)
      ↔ severity.rank ≤ other.rank := by
  simp only [SeverityRank.height]
  omega

theorem SeverityRank.height_injective : Function.Injective SeverityRank.height := by
  intro rank other equal
  rcases rank with _ | severity <;> rcases other with _ | otherSeverity
  · rfl
  · simp [SeverityRank.height] at equal
  · simp [SeverityRank.height] at equal
  · cases severity <;> cases otherSeverity <;> first | rfl | exact absurd equal (by decide)

/-- The highest severity is one of the findings, and no finding has a higher one. -/
theorem of_highestSeverity_eq_some {findings : List Finding} {severity : Severity}
    (found : highestSeverity findings = some severity) :
    (∃ finding ∈ findings, finding.severity = severity) ∧
      ∀ finding ∈ findings, finding.severity.rank ≤ severity.rank := by
  obtain ⟨holds, higher, lower, order, passed⟩ := List.find?_eq_some_iff_append.mp found
  have falling : (higher ++ severity :: lower).Pairwise fun a b => b.rank < a.rank := by
    rw [← order]
    decide
  refine ⟨by simpa using holds, ?_⟩
  intro finding listed
  have ranked : finding.severity ∈ higher ++ severity :: lower := by
    rw [← order, List.mem_reverse]
    exact finding.severity.mem_all
  rcases List.mem_append.mp ranked with above | here
  · have absent := passed _ above
    simp only [Bool.not_eq_true', List.any_eq_false, beq_iff_eq] at absent
    exact absurd rfl (absent finding listed)
  · rcases List.mem_cons.mp here with same | below
    · rw [same]
    · have tail := (List.pairwise_append.mp falling).2.1
      exact ((List.pairwise_cons.mp tail).1 _ below).le

theorem highestSeverity_eq_none_iff {findings : List Finding} :
    highestSeverity findings = none ↔ findings = [] := by
  constructor
  · intro none
    cases findings with
    | nil => rfl
    | cons finding findings =>
        have passed := List.find?_eq_none.mp none finding.severity
          (List.mem_reverse.mpr finding.severity.mem_all)
        simp at passed
  · rintro rfl
    rfl

/-- What the highest severity reaches, some finding reaches. -/
theorem le_height_highestSeverity_iff (findings : List Finding) (rank : SeverityRank) :
    rank.height ≤ SeverityRank.height (highestSeverity findings)
      ↔ rank.height = 0
        ∨ ∃ finding ∈ findings, rank.height ≤ SeverityRank.height (some finding.severity) := by
  cases found : highestSeverity findings with
  | none =>
      rw [highestSeverity_eq_none_iff.mp found]
      simp [SeverityRank.height]
  | some severity =>
      obtain ⟨⟨own, inFindings, rfl⟩, highest⟩ := of_highestSeverity_eq_some found
      constructor
      · intro reached
        exact .inr ⟨own, inFindings, reached⟩
      · rintro (lowest | ⟨finding, listed, reached⟩)
        · rw [lowest]
          exact Nat.zero_le _
        · exact reached.trans
            ((SeverityRank.height_le_height_iff _ _).mpr (highest finding listed))

namespace RunResult

variable (result : RunResult)

theorem severityCounts_eq :
    severityCounts result
      = (Tally.ofNames (result.findings.map fun finding => finding.severity.label)).counts :=
  rfl

theorem nonNegative_severityCounts : (severityCounts result).NonNegative :=
  result.bySeverity.nonNegative_counts

/-- The counts by severity tell the findings of each severity or of a higher one. -/
theorem atLeast_severityCounts (rank : SeverityRank) :
    (severityCounts result).atLeast rank
      = result.findings.countP fun finding =>
          rank.height ≤ SeverityRank.height (some finding.severity) := by
  rw [severityCounts_eq, Tally.atLeast_ofNames, List.countP_map]
  simp only [Function.comp_def, SeverityRank.ofText_label]

/-- The counts by severity have the highest severity of the findings. -/
theorem worst_severityCounts : (severityCounts result).worst = result.worst.map some := by
  have same : (severityCounts result).worst.getD none = result.worst := by
    apply SeverityRank.height_injective
    have reaches (rank : SeverityRank) :
        rank.height ≤ ((severityCounts result).worst.getD none).height
          ↔ rank.height ≤ SeverityRank.height result.worst := by
      rw [result.nonNegative_severityCounts.le_height_worst_iff, worst,
        le_height_highestSeverity_iff, atLeast_severityCounts]
      simp [List.countP_pos_iff]
    exact le_antisymm ((reaches _).mp le_rfl) ((reaches _).mpr le_rfl)
  cases worst : result.worst with
  | none =>
      have empty := highestSeverity_eq_none_iff.mp worst
      rw [severityCounts_eq, empty]
      rfl
  | some severity =>
      rw [worst] at same
      cases counted : (severityCounts result).worst with
      | none => simp [counted] at same
      | some rank =>
          rw [counted, Option.getD_some] at same
          rw [same, Option.map_some]

/-! ## Errors and warnings -/

/-- The number of findings of a grade. -/
def number (grade : Grade) : Nat :=
  (result.findings.filter fun finding => finding.grade == grade).length

/-- Every finding is an error or a warning. -/
theorem number_error_add_number_warning :
    result.number .error + result.number .warning = result.findings.length := by
  have other (finding : Finding) : (finding.grade == .warning) = !(finding.grade == .error) := by
    cases finding.grade <;> decide
  rw [List.length_eq_length_filter_add (fun finding => finding.grade == .error), number, number]
  simp only [other]

/-- The last line of a report for a terminal tells the numbers of errors and warnings, unless
there are no findings. -/
theorem getLast?_lines :
    (TextReport.lines result).getLast? = some
      (if result.findings.isEmpty then "No problems found."
      else toString result.findings.length
        ++ (if result.findings.length = 1 then " problem (" else " problems (")
        ++ toString (result.number .error) ++ " errors, "
        ++ toString (result.number .warning) ++ " warnings) in "
        ++ toString result.filesScanned ++ " files") := by
  rw [TextReport.lines, List.getLast?_append, List.getLast?_singleton, Option.some_or]
  rfl

theorem atLeast_high : (severityCounts result).atLeast (some .high) = result.number .error := by
  have same (finding : Finding) :
      decide (SeverityRank.height (some .high) ≤ SeverityRank.height (some finding.severity))
        = (finding.grade == .error) := by
    unfold Finding.grade
    cases finding.severity <;> decide
  rw [atLeast_severityCounts, number, ← List.countP_eq_length_filter]
  simp only [same]

variable {result}

/-- Findings on the levels of rules count as warnings for the exit code exactly where the report
calls them warnings. -/
theorem warnings_severityCounts
    (plain : ∀ finding ∈ result.findings, finding.severity = .medium ∨ finding.severity = .high)
    (policy : ExitPolicy) (warnAt : policy.warnAt = some .medium)
    (failAt : policy.failAt = some .high) :
    policy.warnings (severityCounts result) = result.number .warning := by
  have reached : result.findings.countP (fun finding =>
      SeverityRank.height (some .medium) ≤ SeverityRank.height (some finding.severity))
        = result.findings.length := by
    rw [List.countP_eq_length]
    intro finding listed
    rcases plain finding listed with same | same <;> rw [same] <;> decide
  have graded := result.number_error_add_number_warning
  rw [ExitPolicy.warnings, SeverityCounts.between_eq, warnAt, failAt, if_pos (by decide),
    atLeast_high, atLeast_severityCounts, reached]
  omega

/-- A run fails for an error, or for more warnings than allowed, as the report counts them. -/
theorem fails_severityCounts_iff
    (plain : ∀ finding ∈ result.findings, finding.severity = .medium ∨ finding.severity = .high)
    (maxWarnings : Option Int) :
    ExitPolicy.fails { maxWarnings := maxWarnings } (severityCounts result) = true
      ↔ 0 < result.number .error
        ∨ ∃ limit, maxWarnings = some limit ∧ limit < result.number .warning := by
  rw [ExitPolicy.fails_iff, result.nonNegative_severityCounts.le_height_worst_iff,
    warnings_severityCounts plain _ rfl rfl, atLeast_high]
  simp [SeverityRank.height]

end RunResult

end DesignLint
