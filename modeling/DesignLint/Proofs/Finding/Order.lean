import DesignLint.Finding.Basic
import Mathlib.Data.Prod.Lex
import Mathlib.Data.String.Basic

/-!
# The orders of findings

Keys of findings are compared from left to right, so each of the three orders is a linear order
of a product. A stable sort by a key is settled by what is listed under each key, and the sort
that identifiers settle is settled by what is listed at all.
-/

namespace DesignLint

/-! ## Stable sorts -/

section Sorts

variable {α κ : Type} {le : α → α → Bool}

/-- A sort keeps the listing of items that may stand in any order. -/
theorem filter_mergeSort (trans : ∀ a b c, le a b → le b c → le a c)
    (total : ∀ a b, le a b || le b a) {p : α → Bool}
    (together : ∀ a b, p a = true → p b = true → le a b = true) (items : List α) :
    (items.mergeSort le).filter p = items.filter p := by
  have ordered : (items.filter p).Pairwise fun a b => le a b = true := by
    apply List.pairwise_of_forall_mem_list
    intro a inA b inB
    exact together a b (List.mem_filter.mp inA).2 (List.mem_filter.mp inB).2
  have kept : (items.filter p).Sublist (items.mergeSort le) :=
    List.sublist_mergeSort trans total ordered List.filter_sublist
  have within : (items.filter p).Sublist ((items.mergeSort le).filter p) := by
    simpa using kept.filter p
  have lengths := ((List.mergeSort_perm items le).filter p).length_eq
  exact (within.eq_of_length lengths.symm).symm

variable {key : α → κ} [DecidableEq κ]

theorem mem_iff_of_filter {items others : List α}
    (same : ∀ k, items.filter (key · = k) = others.filter (key · = k)) (a : α) :
    a ∈ items ↔ a ∈ others := by
  have listed : a ∈ items.filter (key · = key a) ↔ a ∈ others.filter (key · = key a) := by
    rw [same]
  simpa using listed

/-- Sorted lists with the same listing under each key are equal. -/
theorem eq_of_pairwise_of_filter (apart : ∀ a b, le a b → le b a → key a = key b)
    {items others : List α} (sorted : items.Pairwise fun a b => le a b = true)
    (othersSorted : others.Pairwise fun a b => le a b = true)
    (refl : ∀ a, le a a = true)
    (same : ∀ k, items.filter (key · = k) = others.filter (key · = k)) : items = others := by
  induction items generalizing others with
  | nil =>
      symm
      apply List.eq_nil_iff_forall_not_mem.mpr
      intro a inOthers
      exact List.not_mem_nil ((mem_iff_of_filter same a).mpr inOthers)
  | cons first items inductionHypothesis =>
      have members := mem_iff_of_filter same
      cases others with
      | nil => simpa using (members first).mp List.mem_cons_self
      | cons second others =>
          obtain ⟨firstLeast, restSorted⟩ := List.pairwise_cons.mp sorted
          obtain ⟨secondLeast, othersRestSorted⟩ := List.pairwise_cons.mp othersSorted
          have forth : le first second = true := by
            rcases List.mem_cons.mp ((members second).mpr List.mem_cons_self) with rfl | later
            · exact refl second
            · exact firstLeast second later
          have back : le second first = true := by
            rcases List.mem_cons.mp ((members first).mp List.mem_cons_self) with rfl | later
            · exact refl first
            · exact secondLeast first later
          have keys := apart first second forth back
          have equal : first = second := by
            have heads := congrArg List.head? (same (key second))
            simpa [keys] using heads
          subst equal
          have tails : ∀ k, items.filter (key · = k) = others.filter (key · = k) := by
            intro k
            have whole := same k
            by_cases own : key first = k <;> simpa [own] using whole
          rw [inductionHypothesis restSorted othersRestSorted tails]

/-- Where no two items share a key, any order of the items lists the same under each key. -/
theorem filter_eq_of_perm {items others : List α} (apart : (items.map key).Nodup)
    (same : items.Perm others) (k : κ) :
    items.filter (key · = k) = others.filter (key · = k) := by
  have differs {list : List α} (distinct : (list.map key).Nodup) :
      (list.filter (key · = k)).Pairwise fun a b => key a ≠ key b :=
    (List.pairwise_map.mp distinct).filter _
  refine List.Perm.eq_of_pairwise ?_ (differs apart)
    (differs ((same.map key).nodup_iff.mp apart)) (same.filter _)
  intro a b inItems inOthers differ _
  have first := of_decide_eq_true (List.mem_filter.mp inItems).2
  have second := of_decide_eq_true (List.mem_filter.mp inOthers).2
  exact absurd (first.trans second.symm) differ

/-- A stable sort by a key only depends on what is listed under each key. -/
theorem mergeSort_eq_of_filter (trans : ∀ a b c, le a b → le b c → le a c)
    (total : ∀ a b, le a b || le b a) (apart : ∀ a b, le a b → le b a → key a = key b)
    (together : ∀ a b, key a = key b → le a b = true) {items others : List α}
    (same : ∀ k, items.filter (key · = k) = others.filter (key · = k)) :
    items.mergeSort le = others.mergeSort le := by
  have alike : ∀ k a b, decide (key a = k) = true → decide (key b = k) = true →
      le a b = true := by
    intro k a b ofA ofB
    exact together a b ((of_decide_eq_true ofA).trans (of_decide_eq_true ofB).symm)
  apply eq_of_pairwise_of_filter apart (List.pairwise_mergeSort trans total items)
    (List.pairwise_mergeSort trans total others) (fun a => together a a rfl)
  intro k
  rw [filter_mergeSort trans total (alike k), filter_mergeSort trans total (alike k), same k]

end Sorts

/-! ## Keys -/

namespace FindingKey

/-- Where a key stands among those of its file. -/
def rankInFile (key : FindingKey) : ℤ ×ₗ ℤ ×ₗ String :=
  toLex (key.line, toLex (key.column, key.ruleId))

/-- Where a key stands among all keys. -/
def rank (key : FindingKey) : String ×ₗ ℤ ×ₗ ℤ ×ₗ String := toLex (key.path, key.rankInFile)

theorem beforeInFile_iff {a b : FindingKey} :
    a.beforeInFile b = true ↔ a.rankInFile < b.rankInFile := by
  unfold beforeInFile rankInFile
  simp only [Prod.Lex.toLex_lt_toLex]
  by_cases lines : a.line = b.line
  · by_cases columns : a.column = b.column <;> simp [lines, columns]
  · simp [lines]

theorem before_iff {a b : FindingKey} : a.before b = true ↔ a.rank < b.rank := by
  unfold before rank
  simp only [Prod.Lex.toLex_lt_toLex]
  by_cases paths : a.path = b.path
  · simpa [paths] using beforeInFile_iff
  · simp [paths]

theorem rank_le_rank_iff {a b : FindingKey} :
    a.rank ≤ b.rank ↔ a.path < b.path ∨ a.path = b.path ∧ a.rankInFile ≤ b.rankInFile :=
  Prod.Lex.toLex_le_toLex

theorem rank_inj {a b : FindingKey} : a.rank = b.rank ↔ a = b := by
  constructor
  · intro equal
    cases a
    cases b
    simpa [rank, rankInFile] using equal
  · exact congrArg rank

end FindingKey

/-! ## Orders -/

namespace Finding

variable {a b : Finding}

theorem lineOrder_iff : a.lineOrder b = true ↔ a.key.rankInFile ≤ b.key.rankInFile := by
  rw [lineOrder, Bool.not_eq_true', ← Bool.not_eq_true, FindingKey.beforeInFile_iff, not_lt]

theorem sourceOrder_iff : a.sourceOrder b = true ↔ a.key.rank ≤ b.key.rank := by
  rw [sourceOrder, Bool.not_eq_true', ← Bool.not_eq_true, FindingKey.before_iff, not_lt]

theorem scanOrder_iff :
    a.scanOrder b = true ↔ toLex (a.key.rank, a.id) ≤ toLex (b.key.rank, b.id) := by
  rw [Prod.Lex.toLex_le_toLex, scanOrder]
  by_cases keys : a.key = b.key
  · simp [keys]
  · have ranks : a.key.rank ≠ b.key.rank := fun equal => keys (FindingKey.rank_inj.mp equal)
    simp only [keys, if_false, sourceOrder_iff, ranks, false_and, or_false]
    exact ⟨fun le => lt_of_le_of_ne le ranks, le_of_lt⟩

theorem lineOrder_trans (a b c : Finding) (first : a.lineOrder b) (second : b.lineOrder c) :
    a.lineOrder c :=
  lineOrder_iff.mpr (le_trans (lineOrder_iff.mp first) (lineOrder_iff.mp second))

theorem lineOrder_total (a b : Finding) : a.lineOrder b || b.lineOrder a := by
  rw [Bool.or_eq_true, lineOrder_iff, lineOrder_iff]
  exact le_total _ _

theorem sourceOrder_trans (a b c : Finding) (first : a.sourceOrder b) (second : b.sourceOrder c) :
    a.sourceOrder c :=
  sourceOrder_iff.mpr (le_trans (sourceOrder_iff.mp first) (sourceOrder_iff.mp second))

theorem sourceOrder_total (a b : Finding) : a.sourceOrder b || b.sourceOrder a := by
  rw [Bool.or_eq_true, sourceOrder_iff, sourceOrder_iff]
  exact le_total _ _

theorem key_eq_of_sourceOrder (a b : Finding) (forth : a.sourceOrder b) (back : b.sourceOrder a) :
    a.key = b.key :=
  FindingKey.rank_inj.mp (le_antisymm (sourceOrder_iff.mp forth) (sourceOrder_iff.mp back))

theorem sourceOrder_of_key_eq (a b : Finding) (keys : a.key = b.key) : a.sourceOrder b = true :=
  sourceOrder_iff.mpr (le_of_eq (congrArg FindingKey.rank keys))

theorem scanOrder_trans (a b c : Finding) (first : a.scanOrder b) (second : b.scanOrder c) :
    a.scanOrder c :=
  scanOrder_iff.mpr (le_trans (scanOrder_iff.mp first) (scanOrder_iff.mp second))

theorem scanOrder_total (a b : Finding) : a.scanOrder b || b.scanOrder a := by
  rw [Bool.or_eq_true, scanOrder_iff, scanOrder_iff]
  exact le_total _ _

/-- Findings that tie in a scan have the same key and the same identifier. -/
theorem eq_of_scanOrder (forth : a.scanOrder b) (back : b.scanOrder a) :
    a.key = b.key ∧ a.id = b.id := by
  have equal := le_antisymm (scanOrder_iff.mp forth) (scanOrder_iff.mp back)
  rw [EmbeddingLike.apply_eq_iff_eq, Prod.mk.injEq] at equal
  exact ⟨FindingKey.rank_inj.mp equal.1, equal.2⟩

end Finding

theorem inSourceOrder_perm (findings : List Finding) : (inSourceOrder findings).Perm findings :=
  List.mergeSort_perm findings Finding.sourceOrder

theorem pairwise_inSourceOrder (findings : List Finding) :
    (inSourceOrder findings).Pairwise fun a b => a.key.rank ≤ b.key.rank := by
  have sorted :=
    List.pairwise_mergeSort Finding.sourceOrder_trans Finding.sourceOrder_total findings
  exact sorted.imp Finding.sourceOrder_iff.mp

/-- Findings with the same key keep their order. -/
theorem filter_key_inSourceOrder (findings : List Finding) (key : FindingKey) :
    (inSourceOrder findings).filter (Finding.key · = key) =
      findings.filter (Finding.key · = key) := by
  apply filter_mergeSort Finding.sourceOrder_trans Finding.sourceOrder_total
  intro a b ofA ofB
  exact Finding.sourceOrder_of_key_eq a b
    ((of_decide_eq_true ofA).trans (of_decide_eq_true ofB).symm)

/-- Source order only depends on what is listed under each key. -/
theorem inSourceOrder_eq_of_filter {findings others : List Finding}
    (same : ∀ key : FindingKey,
      findings.filter (Finding.key · = key) = others.filter (Finding.key · = key)) :
    inSourceOrder findings = inSourceOrder others :=
  mergeSort_eq_of_filter Finding.sourceOrder_trans Finding.sourceOrder_total
    Finding.key_eq_of_sourceOrder Finding.sourceOrder_of_key_eq same

/-- The order of a scan is settled once no two findings share both a key and an identifier. -/
theorem mergeSort_scanOrder_eq_of_perm {findings others : List Finding}
    (apart : ∀ a ∈ findings, ∀ b ∈ findings, a.key = b.key → a.id = b.id → a = b)
    (same : findings.Perm others) :
    findings.mergeSort Finding.scanOrder = others.mergeSort Finding.scanOrder := by
  have sortedPerm := List.mergeSort_perm findings Finding.scanOrder
  have othersPerm := List.mergeSort_perm others Finding.scanOrder
  refine List.Perm.eq_of_pairwise ?_
    (List.pairwise_mergeSort Finding.scanOrder_trans Finding.scanOrder_total findings)
    (List.pairwise_mergeSort Finding.scanOrder_trans Finding.scanOrder_total others)
    (sortedPerm.trans (same.trans othersPerm.symm))
  intro a b inFindings inOthers forth back
  obtain ⟨keys, ids⟩ := Finding.eq_of_scanOrder forth back
  exact apart a (sortedPerm.mem_iff.mp inFindings) b
    (same.mem_iff.mpr (othersPerm.mem_iff.mp inOthers)) keys ids

end DesignLint
