import DesignLint.Cohesion.NameSet

/-!
# Laws of sets of names

Every operation on sets of names keeps each name once.
-/

namespace DesignLint.NameSet

variable {names others : NameSet} {name other : String}

@[simp]
theorem mem_add : other ∈ names.add name ↔ other ∈ names ∨ other = name := by
  unfold add
  split
  · rename_i within
    rw [List.contains_iff_mem] at within
    constructor
    · exact .inl
    · rintro (member | rfl)
      · exact member
      · exact within
  · simp

theorem nodup_add (distinct : names.Nodup) : (names.add name).Nodup := by
  unfold add
  split
  · exact distinct
  · rename_i absent
    rw [List.contains_iff_mem] at absent
    rw [List.nodup_append]
    refine ⟨distinct, by simp, ?_⟩
    rintro first member second single rfl
    exact absent (List.mem_singleton.mp single ▸ member)

@[simp]
theorem mem_union : name ∈ names.union others ↔ name ∈ names ∨ name ∈ others := by
  unfold union
  induction others generalizing names with
  | nil => simp
  | cons first rest inductionHypothesis =>
      rw [List.foldl_cons, inductionHypothesis, mem_add, List.mem_cons, or_assoc]

theorem nodup_union (distinct : names.Nodup) : (names.union others).Nodup := by
  unfold union
  induction others generalizing names with
  | nil => exact distinct
  | cons first rest inductionHypothesis => exact inductionHypothesis (nodup_add distinct)

theorem ofNames_eq_union (listed : List String) : ofNames listed = union [] listed :=
  rfl

@[simp]
theorem mem_ofNames {listed : List String} : name ∈ ofNames listed ↔ name ∈ listed := by
  simp [ofNames_eq_union]

theorem nodup_ofNames (listed : List String) : (ofNames listed).Nodup :=
  nodup_union List.nodup_nil

theorem ofNames_append_singleton (listed : List String) (name : String) :
    ofNames (listed ++ [name]) = (ofNames listed).add name := by
  simp [ofNames]

@[simp]
theorem mem_inter : name ∈ names.inter others ↔ name ∈ names ∧ name ∈ others := by
  simp [inter]

theorem nodup_inter (distinct : names.Nodup) : (names.inter others).Nodup :=
  distinct.filter _

@[simp]
theorem mem_sorted : name ∈ names.sorted ↔ name ∈ names :=
  (List.mergeSort_perm names _).mem_iff

theorem pairwise_le_sorted (names : NameSet) : names.sorted.Pairwise (· ≤ ·) := by
  refine (List.pairwise_mergeSort ?_ ?_ names).imp of_decide_eq_true
  · intro a b c ab bc
    simp only [decide_eq_true_eq] at ab bc ⊢
    exact String.le_trans ab bc
  · intro a b
    simpa using String.le_total a b

/-- The sorted listing of a set is strictly increasing. -/
theorem pairwise_sorted (distinct : names.Nodup) : names.sorted.Pairwise (· < ·) := by
  have apart : names.sorted.Nodup := (List.mergeSort_perm names _).nodup_iff.mpr distinct
  exact (names.pairwise_le_sorted.and apart).imp fun ⟨le, ne⟩ => Std.lt_of_le_of_ne le ne

end DesignLint.NameSet
