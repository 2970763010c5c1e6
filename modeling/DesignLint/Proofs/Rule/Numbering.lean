import DesignLint.Proofs.Check.Placed
import DesignLint.Proofs.Finding.Fingerprint
import DesignLint.Proofs.Finding.Order
import DesignLint.Proofs.Json.Numbers

/-!
# Numbered findings

A finding belongs to the rule of its analyzer, and no identifier of a rule belongs to another
one. The identifier of a finding ends in its number, so within one run no identifier comes
twice.
-/

namespace DesignLint

/-! ## Identifiers of rules -/

theorem RuleId.text_injective : Function.Injective RuleId.text := by
  intro a b equal
  cases a <;> cases b <;> first | rfl | exact absurd equal (by decide)

theorem Rule.eq_of_mem_ids {rule other : Rule} {ruleId : RuleId} (listed : ruleId ∈ rule.ids)
    (listedToo : ruleId ∈ other.ids) : rule = other := by
  cases rule <;> simp [Rule.ids] at listed <;> rcases listed with rfl | rfl <;>
    cases other <;> simp [Rule.ids] at listedToo <;> rfl

/-! ## Identifiers of findings -/

open Json.Reader in
theorem fourDigits_injective : Function.Injective fourDigits := by
  have value (number : Nat) : digitsValue (fourDigits number).toList = number := by
    have digits : (toString number).toList = Nat.toDigits 10 number := Nat.toList_repr
    rw [fourDigits, String.toList_append, String.toList_ofList, digitsValue_zeros_append, digits,
      digitsValue_toDigits]
  intro number other equal
  rw [← value number, ← value other, equal]

theorem length_fingerprint (ruleId path symbol snippet : String) :
    (fingerprint ruleId path symbol snippet).toList.length = 71 := by
  rw [fingerprint, String.toList_append, List.length_append, Sha256.length_hex]
  rfl

/-- Identifiers with the same stem differ if their numbers do, whatever the fingerprints. -/
theorem eq_of_findingId_eq {stem digest other : String} {number otherNumber : Nat}
    (lengths : digest.toList.length = other.toList.length)
    (equal : findingId stem digest number = findingId stem other otherNumber) :
    number = otherNumber := by
  have characters := congrArg String.toList equal
  simp only [findingId, String.toList_append, String.toList_ofList, List.append_assoc] at characters
  have sameLength :
      ((digest.toList.drop 7).take 8).length = ((other.toList.drop 7).take 8).length := by
    simp only [List.length_take, List.length_drop, lengths]
  have tails := (List.append_inj (List.append_cancel_left (List.append_cancel_left characters))
    sameLength).2
  exact fourDigits_injective (String.toList_inj.mp (List.append_cancel_left tails))

/-! ## Findings of an analyzer -/

/-- A finding such as an analyzer reports it in a file. -/
structure Analyzer.Reports (analyzer : Analyzer) (path : String) (finding : Finding) : Prop where
  ruleId : ∃ ruleId ∈ analyzer.rule.ids, finding.ruleId = ruleId.text
  path : finding.location.path = path
  fingerprint : finding.fingerprint.toList.length = 71

namespace Analyzer

variable {analyzer : Analyzer} {findings : List Finding}

theorem reports_findingOf {path : String} {violation : Violation}
    (isOf : violation.IsOf analyzer.rule) :
    analyzer.Reports path (analyzer.findingOf path violation) where
  ruleId := ⟨violation.ruleId, isOf.ruleId, rfl⟩
  path := rfl
  fingerprint := length_fingerprint _ _ _ _

theorem reports_of_rawFindings {module : Syntax.Module} {path : String}
    {rounding : Cohesion.Rounding}
    (found : analyzer.rawFindings module path rounding = .ok findings) :
    ∀ finding ∈ findings, analyzer.Reports path finding := by
  obtain ⟨violations, violationsEq, made⟩ := bind_eq_ok_iff.mp found
  split at made
  · cases made
  · cases made
    intro finding listed
    obtain ⟨violation, member, rfl⟩ := List.mem_map.mp listed
    exact reports_findingOf
      (RuleOptions.isOf_of_violations (mapError_eq_ok_iff.mp violationsEq) violation member)

/-- Findings of analyzers of different rules stand at different keys. -/
theorem rule_eq_of_reports {other : Analyzer} {path otherPath : String} {a b : Finding}
    (first : analyzer.Reports path a) (second : other.Reports otherPath b) (keys : a.key = b.key) :
    analyzer.rule = other.rule := by
  obtain ⟨ruleId, listed, text⟩ := first.ruleId
  obtain ⟨otherId, otherListed, otherText⟩ := second.ruleId
  have texts : ruleId.text = otherId.text := by
    rw [← text, ← otherText]
    exact congrArg FindingKey.ruleId keys
  obtain rfl := RuleId.text_injective texts
  exact Rule.eq_of_mem_ids listed otherListed

/-! ## Numbering -/

/-- A numbered finding is one of those that were numbered, but for its identifier. -/
theorem exists_of_mem_numbered {finding : Finding} (listed : finding ∈ analyzer.numbered findings) :
    ∃ own ∈ findings, ∃ number, finding =
      { own with id := findingId analyzer.rule.idStem own.fingerprint number } := by
  obtain ⟨⟨own, number⟩, member, rfl⟩ := List.mem_map.mp listed
  have sorted := List.fst_mem_of_mem_zipIdx member
  exact ⟨own, (List.mergeSort_perm findings _).mem_iff.mp sorted, number, rfl⟩

theorem reports_of_mem_numbered
    (reports : ∀ finding ∈ findings, ∃ path, analyzer.Reports path finding) :
    ∀ finding ∈ analyzer.numbered findings, ∃ path, analyzer.Reports path finding := by
  intro finding listed
  obtain ⟨own, member, number, rfl⟩ := exists_of_mem_numbered listed
  obtain ⟨path, reported⟩ := reports own member
  exact ⟨path, reported.ruleId, reported.path, reported.fingerprint⟩

/-- Numbered findings are the findings in source order, but for their identifiers. -/
theorem forall₂_numbered (analyzer : Analyzer) (findings : List Finding) :
    List.Forall₂ (fun own finding => ∃ id, finding = { own with id := id })
      (inSourceOrder findings) (analyzer.numbered findings) := by
  have owns : (inSourceOrder findings).zipIdx.map Prod.fst = inSourceOrder findings := by simp
  rw [numbered, ← owns, List.forall₂_map_left_iff, owns, List.forall₂_map_right_iff,
    List.forall₂_same]
  exact fun _ _ => ⟨_, rfl⟩

/-- Numbered findings stand in source order. -/
theorem pairwise_numbered (analyzer : Analyzer) (findings : List Finding) :
    (analyzer.numbered findings).Pairwise fun a b => a.sourceOrder b = true := by
  have owns : (inSourceOrder findings).zipIdx.map Prod.fst = inSourceOrder findings := by simp
  have sorted :=
    List.pairwise_mergeSort Finding.sourceOrder_trans Finding.sourceOrder_total findings
  rw [← inSourceOrder, ← owns, List.pairwise_map] at sorted
  exact List.pairwise_map.mpr sorted

/-- No identifier comes twice among numbered findings. -/
theorem nodup_ids_numbered
    (reports : ∀ finding ∈ findings, ∃ path, analyzer.Reports path finding) :
    ((analyzer.numbered findings).map Finding.id).Nodup := by
  have lengths : ∀ finding ∈ inSourceOrder findings, finding.fingerprint.toList.length = 71 := by
    intro finding listed
    obtain ⟨path, reported⟩ := reports finding ((List.mergeSort_perm findings _).mem_iff.mp listed)
    exact reported.fingerprint
  rw [numbered, List.map_map]
  have places : (inSourceOrder findings).zipIdx.Nodup := by
    apply List.Nodup.of_map Prod.snd
    simpa using List.nodup_range'
  refine List.Nodup.map_on ?_ places
  rintro ⟨first, number⟩ firstListed ⟨second, otherNumber⟩ secondListed equal
  have sameLength : first.fingerprint.toList.length = second.fingerprint.toList.length := by
    rw [lengths first (List.fst_mem_of_mem_zipIdx firstListed),
      lengths second (List.fst_mem_of_mem_zipIdx secondListed)]
  obtain rfl := eq_of_findingId_eq sameLength equal
  have firstAt := List.mem_zipIdx_iff_getElem?.mp firstListed
  have secondAt := List.mem_zipIdx_iff_getElem?.mp secondListed
  rw [firstAt] at secondAt
  obtain rfl := Option.some.inj secondAt
  rfl

end Analyzer

end DesignLint
