import DesignLint.Cohesion.Overlap
import DesignLint.Proofs.Number.Order
import Mathlib.Algebra.Order.Field.Power
import Mathlib.Data.Rat.Floor
import Mathlib.Tactic.Linarith
import Mathlib.Tactic.FieldSimp
import Mathlib.Tactic.Ring

/-!
# Bounds that rounding keeps

Rounding moves a rational to the nearest point of a grid, so it never passes a point
of the grid. Small whole numbers are on every grid in question: a value between zero
and a small whole number stays there, and small whole numbers stay as they are.
-/

namespace DesignLint

/-! ## Rounding to an integer -/

section Integers

variable {value : Rat} {bound : Int}

theorem le_roundHalfEven (above : (bound : Rat) ≤ value) : bound ≤ roundHalfEven value := by
  have floor : bound ≤ value.floor := Rat.le_floor_iff.mpr above
  unfold roundHalfEven
  dsimp only
  split
  · exact floor
  · split
    · omega
    · split
      · exact floor
      · omega

theorem roundHalfEven_le (below : value ≤ (bound : Rat)) : roundHalfEven value ≤ bound := by
  have floor : value.floor ≤ bound :=
    Int.cast_le.mp (Rat.le_trans (Rat.floor_le value) below)
  rcases Int.lt_or_eq_of_le floor with less | equal
  · unfold roundHalfEven
    dsimp only
    split
    · exact floor
    · split
      · omega
      · split
        · exact floor
        · omega
  · have whole : value = value.floor := le_antisymm (equal ▸ below) (Rat.floor_le value)
    unfold roundHalfEven
    dsimp only
    rw [if_pos]
    · exact floor
    · rw [← whole, sub_self]
      decide +kernel

theorem roundHalfEven_intCast (number : Int) : roundHalfEven number = number :=
  le_antisymm (roundHalfEven_le le_rfl) (le_roundHalfEven le_rfl)

/-- Rounding to a fraction of one does not pass a whole number. -/
theorem scaled_mem_range {number : Nat} (scale : Nat) (positive : 0 < scale) (nonneg : 0 ≤ value)
    (le : value ≤ number) : 0 ≤ Rat.ofInt (roundHalfEven (value * scale)) / scale ∧
      Rat.ofInt (roundHalfEven (value * scale)) / scale ≤ number := by
  have scalePos : (0 : Rat) < scale := by exact_mod_cast positive
  have above : 0 ≤ roundHalfEven (value * scale) :=
    le_roundHalfEven (by exact_mod_cast mul_nonneg nonneg scalePos.le)
  have below : roundHalfEven (value * scale) ≤ (number * scale : Int) := by
    apply roundHalfEven_le
    push_cast
    exact mul_le_mul_of_nonneg_right le scalePos.le
  rw [Rat.ofInt_eq_cast]
  constructor
  · exact div_nonneg (by exact_mod_cast above) scalePos.le
  · rw [div_le_iff₀ scalePos]
    exact_mod_cast below

/-- An average in tenths stays in the range of whole numbers. -/
theorem Cohesion.Rounding.toTenths_mem_range {number : Nat} (nonneg : 0 ≤ value)
    (le : value ≤ number) : 0 ≤ toTenths value ∧ toTenths value ≤ number :=
  scaled_mem_range 10 (by decide) nonneg le

end Integers

/-! ## Powers -/

theorem integerPower_eq_zpow (base : Nat) (exponent : Int) :
    integerPower base exponent = (base : Rat) ^ exponent := by
  unfold integerPower
  split
  · rename_i nonneg
    obtain ⟨count, rfl⟩ := Int.eq_ofNat_of_zero_le nonneg
    simp
  · rename_i negative
    obtain ⟨count, rfl⟩ : ∃ count : Nat, exponent = -count := ⟨(-exponent).toNat, by omega⟩
    simp [Rat.mkRat_eq_div]

theorem powerOfTwo_eq_zpow (exponent : Int) : powerOfTwo exponent = (2 : Rat) ^ exponent :=
  integerPower_eq_zpow _ exponent

theorem powerOfTen_eq_zpow (exponent : Int) : powerOfTen exponent = (10 : Rat) ^ exponent :=
  integerPower_eq_zpow _ exponent

theorem powerOfTwo_pos (exponent : Int) : 0 < powerOfTwo exponent := by
  rw [powerOfTwo_eq_zpow]
  positivity

namespace Binary64

/-! ## The grid around a value -/

section Grid

variable {value : Rat}

/-- A quotient lies between the powers of two that the leading bits of its parts give. -/
theorem between_zpow_log2 {numerator denominator : Nat} (numeratorPos : 0 < numerator)
    (denominatorPos : 0 < denominator) :
    (2 : Rat) ^ ((numerator.log2 : Int) - denominator.log2 - 1) ≤ numerator / denominator ∧
      (numerator / denominator : Rat) < 2 ^ ((numerator.log2 : Int) - denominator.log2 + 1) := by
  have positive : (0 : Rat) < denominator := by exact_mod_cast denominatorPos
  have numLow : (2 : Rat) ^ (numerator.log2 : Int) ≤ numerator := by
    exact_mod_cast Nat.log2_self_le numeratorPos.ne'
  have numHigh : (numerator : Rat) < 2 ^ ((numerator.log2 : Int) + 1) := by
    exact_mod_cast Nat.lt_log2_self
  have denLow : (2 : Rat) ^ (denominator.log2 : Int) ≤ denominator := by
    exact_mod_cast Nat.log2_self_le denominatorPos.ne'
  have denHigh : (denominator : Rat) < 2 ^ ((denominator.log2 : Int) + 1) := by
    exact_mod_cast Nat.lt_log2_self
  constructor
  · rw [le_div_iff₀ positive]
    calc (2 : Rat) ^ ((numerator.log2 : Int) - denominator.log2 - 1) * denominator
        ≤ 2 ^ ((numerator.log2 : Int) - denominator.log2 - 1) *
            2 ^ ((denominator.log2 : Int) + 1) := by gcongr
      _ = 2 ^ (numerator.log2 : Int) := by
          rw [← zpow_add₀ two_ne_zero]
          congr 1
          omega
      _ ≤ numerator := numLow
  · rw [div_lt_iff₀ positive]
    calc (numerator : Rat) < 2 ^ ((numerator.log2 : Int) + 1) := numHigh
      _ = 2 ^ ((numerator.log2 : Int) - denominator.log2 + 1) *
            2 ^ (denominator.log2 : Int) := by
          rw [← zpow_add₀ two_ne_zero]
          congr 1
          omega
      _ ≤ 2 ^ ((numerator.log2 : Int) - denominator.log2 + 1) * denominator := by gcongr

theorem between_powerOfTwo (positive : 0 < value) :
    powerOfTwo (binaryExponent value) ≤ value ∧
      value < powerOfTwo (binaryExponent value + 1) := by
  have numerator : 0 < value.num := Rat.num_pos.mpr positive
  have quotient : (value.num.natAbs : Rat) / value.den = value := by
    conv_rhs => rw [← Rat.num_div_den value]
    rw [Nat.cast_natAbs, abs_of_pos numerator]
  have bounds := between_zpow_log2 (Int.natAbs_pos.mpr numerator.ne') value.den_pos
  rw [quotient, ← powerOfTwo_eq_zpow, ← powerOfTwo_eq_zpow] at bounds
  unfold binaryExponent
  dsimp only
  split
  · rename_i less
    exact ⟨bounds.1, by simpa using less⟩
  · rename_i less
    exact ⟨not_lt.mp less, bounds.2⟩

theorem powerOfTwo_le_iff {a b : Int} : powerOfTwo a ≤ powerOfTwo b ↔ a ≤ b := by
  rw [powerOfTwo_eq_zpow, powerOfTwo_eq_zpow]
  exact zpow_le_zpow_iff_right₀ one_lt_two

theorem powerOfTwo_lt_iff {a b : Int} : powerOfTwo a < powerOfTwo b ↔ a < b := by
  rw [powerOfTwo_eq_zpow, powerOfTwo_eq_zpow]
  exact zpow_lt_zpow_iff_right₀ one_lt_two

theorem binaryExponent_lt {exponent : Int} (positive : 0 < value)
    (small : value < powerOfTwo exponent) : binaryExponent value < exponent :=
  powerOfTwo_lt_iff.mp (lt_of_le_of_lt (between_powerOfTwo positive).1 small)

theorem le_binaryExponent {exponent : Int} (positive : 0 < value)
    (large : powerOfTwo exponent ≤ value) : exponent ≤ binaryExponent value :=
  Int.lt_add_one_iff.mp
    (powerOfTwo_lt_iff.mp (lt_of_le_of_lt large (between_powerOfTwo positive).2))

theorem spacing_pos : 0 < spacing value := powerOfTwo_pos _

/-- Rounding up does not pass a point of the grid. -/
theorem nearestMagnitude_le {steps : Int} (below : value ≤ steps * spacing value) :
    nearestMagnitude value ≤ steps * spacing value := by
  have rounded : roundHalfEven (value / spacing value) ≤ steps :=
    roundHalfEven_le ((div_le_iff₀ spacing_pos).mpr below)
  unfold nearestMagnitude
  dsimp only
  rw [Rat.ofInt_eq_cast]
  exact mul_le_mul_of_nonneg_right (Int.cast_le.mpr rounded) spacing_pos.le

/-- Rounding down does not pass a point of the grid. -/
theorem le_nearestMagnitude {steps : Int} (above : steps * spacing value ≤ value) :
    steps * spacing value ≤ nearestMagnitude value := by
  have rounded : steps ≤ roundHalfEven (value / spacing value) :=
    le_roundHalfEven ((le_div_iff₀ spacing_pos).mpr above)
  unfold nearestMagnitude
  dsimp only
  rw [Rat.ofInt_eq_cast]
  exact mul_le_mul_of_nonneg_right (Int.cast_le.mpr rounded) spacing_pos.le

/-- Whole numbers are on the grid around a value with no more than 53 bits. -/
theorem exists_natCast_eq_mul_spacing (positive : 0 < value) (small : value < powerOfTwo 53)
    (number : Nat) : ∃ steps : Int, (number : Rat) = steps * spacing value := by
  have exponent := binaryExponent_lt positive small
  obtain ⟨places, places_eq⟩ : ∃ places : Nat,
      max (binaryExponent value - 52) (-1074) = -(places : Int) :=
    ⟨(-max (binaryExponent value - 52) (-1074)).toNat, by omega⟩
  refine ⟨number * 2 ^ places, ?_⟩
  rw [spacing, places_eq, powerOfTwo_eq_zpow, zpow_neg, zpow_natCast]
  push_cast
  rw [mul_assoc, mul_inv_cancel₀ (by positivity), mul_one]

end Grid

/-! ## The nearest double -/

section Nearest

variable {value : Rat} {number : Nat}

theorem natCast_lt_powerOfTwo {exponent : Nat} (small : number < 2 ^ exponent) :
    (number : Rat) < powerOfTwo exponent := by
  rw [powerOfTwo_eq_zpow, zpow_natCast]
  exact_mod_cast small

theorem nearest_of_pos (positive : 0 < value) : nearest value =
    if powerOfTwo 1024 ≤ nearestMagnitude value then .infinite false
    else .finite (nearestMagnitude value) := by
  unfold nearest
  simp only [positive.ne', if_false, not_lt.mpr positive.le, decide_false, Bool.false_eq_true]
  split
  · rfl
  · split
    · rename_i zero
      rw [zero]
    · rfl

/-- A value between zero and a small whole number stays there. -/
theorem exists_nearest_eq (nonneg : 0 ≤ value) (le : value ≤ number) (small : number < 2 ^ 53) :
    ∃ rounded, nearest value = .finite rounded ∧ 0 ≤ rounded ∧ rounded ≤ number := by
  rcases nonneg.eq_or_lt with rfl | positive
  · exact ⟨0, rfl, le_rfl, le⟩
  have numberSmall : (number : Rat) < powerOfTwo 53 := natCast_lt_powerOfTwo small
  obtain ⟨steps, onGrid⟩ :=
    exists_natCast_eq_mul_spacing positive (le.trans_lt numberSmall) number
  have below : nearestMagnitude value ≤ number := by
    rw [onGrid] at le ⊢
    exact nearestMagnitude_le le
  have above : 0 ≤ nearestMagnitude value := by
    have noStep : ((0 : Int) : Rat) * spacing value ≤ value := by simpa using nonneg
    simpa using le_nearestMagnitude noStep
  have finite : ¬powerOfTwo 1024 ≤ nearestMagnitude value :=
    not_le.mpr ((below.trans_lt numberSmall).trans (powerOfTwo_lt_iff.mpr (by decide)))
  refine ⟨nearestMagnitude value, ?_, above, below⟩
  rw [nearest_of_pos positive, if_neg finite]

/-- A small whole number is a double. -/
theorem nearest_natCast (small : number < 2 ^ 53) : nearest number = .finite number := by
  rcases Nat.eq_zero_or_pos number with rfl | positive
  · rfl
  have valuePos : (0 : Rat) < number := by exact_mod_cast positive
  have numberSmall : (number : Rat) < powerOfTwo 53 := natCast_lt_powerOfTwo small
  obtain ⟨steps, onGrid⟩ := exists_natCast_eq_mul_spacing valuePos numberSmall number
  have same : nearestMagnitude number = number := by
    apply le_antisymm
    · conv_rhs => rw [onGrid]
      exact nearestMagnitude_le onGrid.le
    · conv_lhs => rw [onGrid]
      exact le_nearestMagnitude onGrid.ge
  have finite : ¬powerOfTwo 1024 ≤ nearestMagnitude number := by
    rw [same]
    exact not_le.mpr (numberSmall.trans (powerOfTwo_lt_iff.mpr (by decide)))
  rw [nearest_of_pos valuePos, if_neg finite, same]

/-- A value beyond all doubles has no nearest one. -/
theorem nearest_of_large (large : powerOfTwo 1024 ≤ value) : nearest value = .infinite false := by
  have positive : 0 < value := (powerOfTwo_pos 1024).trans_le large
  have exponent : 1024 ≤ binaryExponent value := le_binaryExponent positive large
  have onGrid : powerOfTwo (binaryExponent value) = ((2 ^ 52 : Int) : Rat) * spacing value := by
    have factor : ((2 ^ 52 : Int) : Rat) = (2 : Rat) ^ (52 : Int) := by norm_num
    rw [spacing, max_eq_left (by omega), powerOfTwo_eq_zpow, powerOfTwo_eq_zpow, factor,
      ← zpow_add₀ two_ne_zero]
    congr 1
    omega
  have beyond : powerOfTwo (binaryExponent value) ≤ nearestMagnitude value := by
    rw [onGrid]
    exact le_nearestMagnitude (onGrid.symm.trans_le (between_powerOfTwo positive).1)
  rw [nearest_of_pos positive, if_pos ((powerOfTwo_le_iff.mpr exponent).trans beyond)]

end Nearest

/-! ## Doubles in a range -/

/-- A double between zero and a whole number. -/
def Within (number : Nat) (double : Binary64) : Prop :=
  ∃ value, double.value? = some value ∧ 0 ≤ value ∧ value ≤ number

/-- A double with an integral value. -/
def IsWhole (double : Binary64) : Prop := (Number.float double).isWhole = true

section Ranges

variable {number : Nat} {value : Rat} {double : Binary64}

theorem within_nearest (small : number < 2 ^ 53) (nonneg : 0 ≤ value) (le : value ≤ number) :
    (nearest value).Within number := by
  obtain ⟨rounded, equal, above, below⟩ := exists_nearest_eq nonneg le small
  rw [equal]
  exact ⟨rounded, rfl, above, below⟩

theorem isWhole_natCast (number : Nat) : (finite number).IsWhole := by
  rw [IsWhole, Number.isWhole, Rat.den_natCast]
  rfl

theorem exists_natCast_of_isWhole (whole : (finite value).IsWhole) (nonneg : 0 ≤ value) :
    ∃ count : Nat, value = count := by
  have denominator : value.den = 1 := by simpa [IsWhole, Number.isWhole] using whole
  refine ⟨value.num.toNat, ?_⟩
  conv_lhs => rw [← Rat.num_div_den value, denominator]
  rw [Nat.cast_one, div_one]
  exact_mod_cast (Int.toNat_of_nonneg (Rat.num_nonneg.mpr nonneg)).symm

theorem within_roundTo (places : Nat) (small : number < 2 ^ 53) (within : double.Within number) :
    (double.roundTo places).Within number := by
  obtain ⟨value, valueEq, nonneg, le⟩ := within
  cases double with
  | finite own =>
      cases valueEq
      have rounded := scaled_mem_range (10 ^ places) (by positivity) nonneg le
      rw [roundTo, powerOfTen_eq_zpow, zpow_natCast, if_neg fun zero => not_lt.mpr nonneg zero.2]
      push_cast at rounded ⊢
      exact within_nearest small rounded.1 rounded.2
  | negativeZero =>
      cases valueEq
      exact ⟨0, rfl, nonneg, le⟩
  | infinite => cases valueEq
  | nan => cases valueEq

theorem isWhole_roundTo (places : Nat) (small : number < 2 ^ 53) (within : double.Within number)
    (whole : double.IsWhole) : (double.roundTo places).IsWhole := by
  obtain ⟨value, valueEq, nonneg, le⟩ := within
  cases double with
  | finite own =>
      cases valueEq
      obtain ⟨count, rfl⟩ := exists_natCast_of_isWhole whole nonneg
      have countSmall : count < 2 ^ 53 := by
        have : count ≤ number := by exact_mod_cast le
        omega
      have scale : ((10 : Rat) ^ places) ≠ 0 := by positivity
      have scaled : ((count : Rat) * 10 ^ places) = ((count * 10 ^ places : Int) : Rat) := by
        push_cast
        rfl
      rw [roundTo, powerOfTen_eq_zpow, zpow_natCast, if_neg fun zero => not_lt.mpr nonneg zero.2]
      rw [scaled, roundHalfEven_intCast, Rat.ofInt_eq_cast, ← scaled, mul_div_cancel_right₀ _ scale,
        nearest_natCast countSmall]
      exact isWhole_natCast count
  | negativeZero => rfl
  | infinite => cases valueEq
  | nan => cases valueEq

end Ranges

end Binary64

/-! ## Numbers in a range -/

namespace Number

variable {bound : Nat} {number : Number}

/-- A number of either kind between zero and a whole number. -/
def Within (bound : Nat) (number : Number) : Prop :=
  ∃ value, number.point? = some ⟨0, value⟩ ∧ 0 ≤ value ∧ value ≤ bound

theorem lt_int_eq_false_iff {a b : Int} : (int a).lt (int b) = false ↔ b ≤ a := by
  rw [lt_eq_false_iff rfl rfl, Rat.ofInt_eq_cast, Rat.ofInt_eq_cast, Int.cast_le]

theorem within_iff_lt (finite : ∃ value, number.point? = some ⟨0, value⟩) :
    number.Within bound ↔ number.lt 0 = false ∧ (int bound).lt number = false := by
  obtain ⟨value, point⟩ := finite
  rw [lt_eq_false_iff point rfl, lt_eq_false_iff rfl point, Rat.ofInt_eq_cast, Rat.ofInt_eq_cast]
  constructor
  · rintro ⟨own, ownPoint, nonneg, le⟩
    obtain rfl : own = value := by simpa [point] using ownPoint.symm
    exact ⟨by simpa using nonneg, by simpa using le⟩
  · rintro ⟨nonneg, le⟩
    exact ⟨value, point, by simpa using nonneg, by simpa using le⟩

theorem exists_point_of_isWhole (whole : number.isWhole = true) :
    ∃ value, number.point? = some ⟨0, value⟩ := by
  cases number with
  | int value => exact ⟨_, rfl⟩
  | float double =>
      cases double with
      | finite value => exact ⟨value, rfl⟩
      | negativeZero => exact ⟨0, rfl⟩
      | infinite => cases whole
      | nan => cases whole

theorem within_float_iff {double : Binary64} :
    (float double).Within bound ↔ double.Within bound := by
  cases double <;> simp [Within, Binary64.Within, point?, Binary64.value?]
  split <;> simp

end Number

end DesignLint
