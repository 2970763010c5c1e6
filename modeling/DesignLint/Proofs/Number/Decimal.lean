import DesignLint.Proofs.Number.Rounding

/-!
# Doubles read back from their texts

The digits that a text shows of a double are found by reading them back, so the text of
a positive double reads as that double, or as zero where no digits are found. Either
way a number in a range of whole numbers stays in it, and a whole number stays whole.
-/

namespace DesignLint

/-! ## Digits -/

theorem length_toString (number : Nat) :
    (toString number).length = (Nat.toDigits 10 number).length := by
  rw [Nat.toString_eq_ofList_toDigits, String.length_ofList]

theorem pow_le_of_length_toString {number : Nat} (positive : 0 < number) :
    10 ^ ((toString number).length - 1) ≤ number := by
  rw [length_toString]
  rcases Nat.eq_zero_or_pos ((Nat.toDigits 10 number).length - 1) with one | more
  · rw [one]
    exact positive
  · by_contra less
    have shorter := (Nat.length_toDigits_le_iff (by decide) more).mpr (not_le.mp less)
    omega

theorem toDigits_mul_pow {number : Nat} (positive : 0 < number) (count : Nat) :
    Nat.toDigits 10 (number * 10 ^ count) = Nat.toDigits 10 number ++ List.replicate count '0' := by
  induction count with
  | zero => simp
  | succ count inductionHypothesis =>
      have append := Nat.toDigits_append_toDigits (b := 10) (n := number * 10 ^ count) (d := 0)
        (by decide) (by positivity) (by decide)
      rw [Nat.pow_succ, ← Nat.mul_assoc, Nat.mul_comm _ 10, ← Nat.add_zero (10 * _), ← append,
        inductionHypothesis, List.replicate_succ', List.append_assoc]
      rfl

/-! ## The digits of a double -/

namespace Decimal

theorem value_trimmed (fuel : Nat) (decimal : Decimal) :
    (trimmed fuel decimal).value = decimal.value := by
  induction fuel generalizing decimal with
  | zero => rfl
  | succ fuel inductionHypothesis =>
      rw [trimmed]
      split
      · rename_i trailing
        obtain ⟨digits, equal⟩ := Nat.dvd_of_mod_eq_zero trailing.2
        rw [inductionHypothesis, value, value, equal, Nat.mul_div_cancel_left _ (by decide),
          powerOfTen_eq_zpow, powerOfTen_eq_zpow, zpow_add_one₀ (by norm_num),
          Rat.ofInt_eq_cast, Rat.ofInt_eq_cast]
        push_cast
        ring
      · rfl

theorem nearest_of_onGrid? {value : Rat} {count : Nat} {decimal : Decimal}
    (found : onGrid? value count = some decimal) :
    Binary64.nearest decimal.value = .finite value := by
  unfold onGrid? at found
  dsimp only at found
  split at found
  · cases found
  · rename_i lower _
    cases found
    exact of_decide_eq_true lower
  · rename_i upper
    cases found
    exact of_decide_eq_true upper
  · rename_i lower upper
    have either := And.intro (of_decide_eq_true lower) (of_decide_eq_true upper)
    split at found
    · cases found
      exact either.1
    · split at found
      · cases found
        exact either.2
      · split at found <;> cases found
        · exact either.1
        · exact either.2

/-- The digits that are found for a double read back as the double; without any, it is
shown as zero. -/
theorem nearest_shortest (value : Rat) :
    Binary64.nearest (shortest value).value = .finite value ∨ shortest value = ⟨0, 0⟩ := by
  unfold shortest
  cases search : (List.range' 1 17).findSome? (onGrid? value) with
  | none => exact .inr rfl
  | some decimal =>
      obtain ⟨count, -, found⟩ := List.exists_of_findSome?_eq_some search
      exact .inl ((value_trimmed 20 decimal).symm ▸ nearest_of_onGrid? found)

theorem exponent_shortest {value : Rat} (nonzero : value ≠ 0)
    (none : (shortest value).digits = 0) : (shortest value).exponent = 0 := by
  rcases nearest_shortest value with next | zero
  · rw [Decimal.value, none] at next
    simp only [Nat.cast_zero, Rat.ofInt_eq_cast, Int.cast_zero, zero_mul] at next
    cases next
    exact absurd rfl nonzero
  · rw [zero]

end Decimal

/-! ## Reading -/

namespace Binary64

section Reading

variable {digits : Nat} {exponent : Int} {value : Rat}

theorem powerOfTwo_le_value (positive : 0 < digits)
    (large : 400 < ((toString digits).length : Int) + exponent) :
    powerOfTwo 1024 ≤ Decimal.value ⟨digits, exponent⟩ := by
  have digitsLarge : (10 : Rat) ^ (((toString digits).length - 1 : Nat) : Int) ≤ digits := by
    rw [zpow_natCast]
    exact_mod_cast pow_le_of_length_toString positive
  have lengthPos : 0 < (toString digits).length := by
    rw [length_toString]
    exact Nat.length_toDigits_pos
  have doubles : (2 : Rat) ^ 1024 ≤ 10 ^ 400 := by
    rw [show 1024 = 128 * 8 from rfl, show 400 = 50 * 8 from rfl, pow_mul, pow_mul]
    exact pow_le_pow_left₀ (by positivity) (by norm_num) 8
  rw [Decimal.value, powerOfTen_eq_zpow, powerOfTwo_eq_zpow, Rat.ofInt_eq_cast]
  calc (2 : Rat) ^ (1024 : Int) ≤ 10 ^ (400 : Int) := by exact_mod_cast doubles
    _ ≤ 10 ^ ((((toString digits).length - 1 : Nat) : Int) + exponent) :=
        zpow_le_zpow_right₀ (by norm_num) (by omega)
    _ = 10 ^ (((toString digits).length - 1 : Nat) : Int) * 10 ^ exponent :=
        zpow_add₀ (by norm_num) _ _
    _ ≤ digits * 10 ^ exponent := by gcongr
    _ = ((digits : Int) : Rat) * ((10 : Nat) : Rat) ^ exponent := by push_cast; rfl

/-- A decimal next to a double reads as the double, or as zero where it is too small. -/
theorem ofDecimal_of_nearest
    (next : nearest (Decimal.value ⟨digits, exponent⟩) = .finite value) :
    ofDecimal false digits exponent = .finite value ∨
      ofDecimal false digits exponent = .finite 0 ∧
        (digits = 0 ∨ ((toString digits).length : Int) + exponent < -400) := by
  unfold ofDecimal
  dsimp only
  rw [if_neg Bool.false_ne_true]
  split
  · rename_i small
    exact .inr ⟨rfl, small⟩
  · rename_i usual
    split
    · rename_i large
      have positive : 0 < digits := Nat.pos_of_ne_zero fun zero => usual (.inl zero)
      rw [nearest_of_large (powerOfTwo_le_value positive large)] at next
      cases next
    · exact .inl next

/-- Zeros behind the digits can stand in the exponent. -/
theorem ofDecimal_mul_pow (negative : Bool) (digits count : Nat) (exponent : Int) :
    ofDecimal negative (digits * 10 ^ count) (exponent - count) =
      ofDecimal negative digits exponent := by
  rcases Nat.eq_zero_or_pos digits with rfl | positive
  · simp [ofDecimal]
  have length : (toString (digits * 10 ^ count)).length = (toString digits).length + count := by
    rw [length_toString, length_toString, toDigits_mul_pow positive, List.length_append,
      List.length_replicate]
  have value : Decimal.value ⟨digits * 10 ^ count, exponent - count⟩ =
      Decimal.value ⟨digits, exponent⟩ := by
    rw [Decimal.value, Decimal.value, powerOfTen_eq_zpow, powerOfTen_eq_zpow,
      zpow_sub₀ (by norm_num), zpow_natCast, Rat.ofInt_eq_cast, Rat.ofInt_eq_cast]
    push_cast
    field_simp
  have nonzero : digits * 10 ^ count ≠ 0 := by positivity
  have size : (((toString digits).length + count : Nat) : Int) + (exponent - count) =
      (toString digits).length + exponent := by
    push_cast
    ring
  simp only [ofDecimal, length, value, nonzero, positive.ne', size]

end Reading

/-! ## Reading texts back -/

/-- The double that the text of a positive double reads as, with a sign in front. -/
def rereadMagnitude (negative : Bool) (value : Rat) : Binary64 :=
  ofDecimal negative (Decimal.shortest value).digits (Decimal.shortest value).exponent

/-- The double that the text of a double reads as. -/
def reread : Binary64 → Binary64
  | finite value =>
    if value = 0 then finite 0
    else if value < 0 then rereadMagnitude true (-value)
    else rereadMagnitude false value
  | other => other

/-- A positive double reads back as itself, or as zero. -/
theorem reread_finite {value : Rat} (nonneg : 0 ≤ value) :
    (finite value).reread = finite value ∨ (finite value).reread = finite 0 := by
  rw [reread]
  split
  · exact .inr rfl
  · rw [if_neg (not_lt.mpr nonneg), rereadMagnitude]
    rcases Decimal.nearest_shortest value with next | none
    · exact (ofDecimal_of_nearest next).imp id And.left
    · rw [none]
      exact .inr rfl

theorem within_reread {number : Nat} {double : Binary64} (within : double.Within number) :
    double.reread.Within number := by
  obtain ⟨value, valueEq, nonneg, le⟩ := within
  cases double with
  | finite own =>
      cases valueEq
      rcases reread_finite nonneg with same | zero
      · rw [same]
        exact ⟨value, rfl, nonneg, le⟩
      · rw [zero]
        exact ⟨0, rfl, le_rfl, nonneg.trans le⟩
  | negativeZero => exact ⟨value, valueEq, nonneg, le⟩
  | infinite => cases valueEq
  | nan => cases valueEq

theorem isWhole_reread {number : Nat} {double : Binary64} (within : double.Within number)
    (whole : double.IsWhole) : double.reread.IsWhole := by
  obtain ⟨value, valueEq, nonneg, -⟩ := within
  cases double with
  | finite own =>
      cases valueEq
      rcases reread_finite nonneg with same | zero
      · rw [same]
        exact whole
      · rw [zero]
        exact isWhole_natCast 0
  | negativeZero => exact whole
  | infinite => cases valueEq
  | nan => cases valueEq

end Binary64

end DesignLint
