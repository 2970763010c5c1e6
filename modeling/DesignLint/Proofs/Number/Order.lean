import DesignLint.Number.Basic

/-!
# The order of numbers

Numbers of either kind are compared by where they stand on the extended rational
line.
-/

namespace DesignLint.Number

theorem Point.le_trans {a b c : Point} (first : a.le b = true) (second : b.le c = true) :
    a.le c = true := by
  simp only [Point.le, Bool.or_eq_true, Bool.and_eq_true, decide_eq_true_eq, beq_iff_eq]
    at first second ⊢
  rcases first with less | ⟨same, le⟩
  · rcases second with below | ⟨side, -⟩
    · exact .inl (Int.lt_trans less below)
    · exact .inl (side ▸ less)
  · rcases second with below | ⟨side, above⟩
    · exact .inl (same ▸ below)
    · exact .inr ⟨same.trans side, Rat.le_trans le above⟩

theorem Point.lt_of_le_of_lt {a b c : Point} (first : a.le b = true) (second : b.lt c = true) :
    a.lt c = true := by
  simp only [Point.le, Point.lt, Bool.or_eq_true, Bool.and_eq_true, decide_eq_true_eq, beq_iff_eq]
    at first second ⊢
  rcases first with less | ⟨same, le⟩
  · rcases second with below | ⟨side, -⟩
    · exact .inl (Int.lt_trans less below)
    · exact .inl (side ▸ less)
  · rcases second with below | ⟨side, above⟩
    · exact .inl (same ▸ below)
    · refine .inr ⟨same.trans side, Rat.not_le.mp fun atMost => ?_⟩
      exact Rat.not_le.mpr above (Rat.le_trans atMost le)

theorem le_iff_exists {a b : Number} :
    a.le b = true ↔ ∃ p q, a.point? = some p ∧ b.point? = some q ∧ p.le q = true := by
  unfold le related
  cases a.point? <;> cases b.point? <;> simp

theorem le_trans {a b c : Number} (first : a.le b = true) (second : b.le c = true) :
    a.le c = true := by
  obtain ⟨p, q, fromA, toB, below⟩ := le_iff_exists.mp first
  obtain ⟨q', r, fromB, toC, above⟩ := le_iff_exists.mp second
  obtain rfl : q = q' := Option.some.inj (toB.symm.trans fromB)
  exact le_iff_exists.mpr ⟨p, r, fromA, toC, Point.le_trans below above⟩

theorem lt_iff_exists {a b : Number} :
    a.lt b = true ↔ ∃ p q, a.point? = some p ∧ b.point? = some q ∧ p.lt q = true := by
  unfold lt related
  cases a.point? <;> cases b.point? <;> simp

theorem lt_of_le_of_lt {a b c : Number} (first : a.le b = true) (second : b.lt c = true) :
    a.lt c = true := by
  obtain ⟨p, q, fromA, toB, below⟩ := le_iff_exists.mp first
  obtain ⟨q', r, fromB, toC, above⟩ := lt_iff_exists.mp second
  obtain rfl : q = q' := Option.some.inj (toB.symm.trans fromB)
  exact lt_iff_exists.mpr ⟨p, r, fromA, toC, Point.lt_of_le_of_lt below above⟩

theorem lt_eq_false_iff {a b : Number} {x y : Rat} (left : a.point? = some ⟨0, x⟩)
    (right : b.point? = some ⟨0, y⟩) : a.lt b = false ↔ y ≤ x := by
  rw [← Rat.not_lt]
  simp [lt, related, left, right, Point.lt]

/-- Whole numbers are compared as integers. -/
theorem int_lt_int_iff {a b : Int} : (Number.int a).lt (.int b) = true ↔ a < b := by
  simp only [lt, related, point?, Point.lt, Int.lt_irrefl, decide_false, beq_self_eq_true,
    Bool.true_and, Bool.false_or, decide_eq_true_eq]
  exact Rat.intCast_lt_intCast

theorem lt_int_of_le {limit : Number} {a b : Int} (less : limit.lt (.int a) = true)
    (le : a ≤ b) : limit.lt (.int b) = true := by
  obtain ⟨p, q, fromLimit, toA, below⟩ := lt_iff_exists.mp less
  cases toA
  refine lt_iff_exists.mpr ⟨p, _, fromLimit, rfl, ?_⟩
  simp only [Point.lt, Bool.or_eq_true, Bool.and_eq_true, decide_eq_true_eq, beq_iff_eq]
    at below ⊢
  refine below.imp_right fun ⟨side, value⟩ => ⟨side, Rat.not_le.mp fun atMost => ?_⟩
  exact Rat.not_le.mpr value (Rat.le_trans (Rat.intCast_le_intCast.mpr le) atMost)

end DesignLint.Number
