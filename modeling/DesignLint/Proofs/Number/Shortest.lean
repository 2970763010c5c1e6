import DesignLint.Proofs.Number.Decimal

/-!
# Seventeen digits

Seventeen decimal digits are enough for a double: its neighbours with that many digits are so close
that one of them reads back as the double. So the search for the fewest digits ends, and a double
reads back from its text as it was.
-/

namespace DesignLint

/-! ## Rounding near a point of the grid -/

theorem roundHalfEven_of_near {value : Rat} {number : Int} (near : |value - number| < 1 / 2) :
    roundHalfEven value = number := by
  obtain ⟨above, below⟩ := abs_lt.mp near
  have floorLe := Rat.floor_le value
  have ltFloor : value < value.floor + 1 := by exact_mod_cast Rat.lt_floor_add_one value
  have low : value.floor ≤ number := by
    have less : (value.floor : Rat) < number + 1 := by linarith
    exact Int.lt_add_one_iff.mp (by exact_mod_cast less)
  have high : number ≤ value.floor + 1 := by
    have less : (number : Rat) < value.floor + 1 + 1 := by linarith
    exact Int.lt_add_one_iff.mp (by exact_mod_cast less)
  have half : mkRat 1 2 = (1 : Rat) / 2 := by norm_num
  unfold roundHalfEven
  dsimp only
  rw [half]
  -- the number is one of the two neighbours, and only one of them is near
  rcases low.eq_or_lt with here | next
  · rw [if_pos (by rw [here]; linarith)]
    exact here
  · obtain rfl : number = value.floor + 1 := by omega
    push_cast at above
    rw [if_neg (by linarith), if_pos (by linarith)]

namespace Binary64

/-- The doubles there are: the rationals among them are on the binary grid. -/
def IsDouble : Binary64 → Prop
  | finite value => nearest value = finite value
  | _ => True

section Near

variable {value decimal : Rat}

/-- A coarser grid of powers of two is part of a finer one. -/
theorem exists_powerOfTwo_eq_mul {fine coarse : Int} (le : fine ≤ coarse) :
    ∃ count : Nat, powerOfTwo coarse = ((2 ^ count : Int) : Rat) * powerOfTwo fine := by
  obtain ⟨count, rfl⟩ := Int.le.dest le
  refine ⟨count, ?_⟩
  rw [powerOfTwo_eq_zpow, powerOfTwo_eq_zpow, zpow_add₀ two_ne_zero, zpow_natCast]
  push_cast
  ring

/-- A positive double is a number of steps between doubles. -/
theorem exists_eq_mul_spacing (positive : 0 < value) (double : (finite value).IsDouble) :
    (∃ steps : Int, value = steps * spacing value) ∧ value < powerOfTwo 1024 := by
  rw [IsDouble, nearest_of_pos positive] at double
  split at double
  · cases double
  · rename_i small
    have same : nearestMagnitude value = value := by simpa using double
    rw [same] at small
    exact ⟨⟨_, same.symm⟩, not_le.mp small⟩

/-- A step between doubles is small. -/
theorem lt_mul_spacing (positive : 0 < value) : value < 2 ^ 53 * spacing value := by
  calc value < powerOfTwo (binaryExponent value + 1) := (between_powerOfTwo positive).2
    _ = 2 ^ 53 * powerOfTwo (binaryExponent value - 52) := by
        rw [powerOfTwo_eq_zpow, powerOfTwo_eq_zpow, ← zpow_natCast, ← zpow_add₀ two_ne_zero]
        congr 1
        push_cast
        ring
    _ ≤ 2 ^ 53 * spacing value := by
        have finer : powerOfTwo (binaryExponent value - 52) ≤ spacing value :=
          powerOfTwo_le_iff.mpr (le_max_left _ _)
        gcongr

/-- So near to a double that the double is the nearest one: within half a unit of the seventeenth
digit. -/
def IsNear (decimal value : Rat) : Prop := 2 * 10 ^ 16 * |decimal - value| ≤ value

theorem IsNear.pos (near : IsNear decimal value) (positive : 0 < value) : 0 < decimal := by
  unfold IsNear at near
  have below := neg_abs_le (decimal - value)
  linarith

theorem spacing_le (positive : 0 < value) (double : (finite value).IsDouble) :
    spacing value ≤ value := by
  obtain ⟨⟨steps, onGrid⟩, -⟩ := exists_eq_mul_spacing positive double
  have stepsPos : 1 ≤ steps := by
    have product : 0 < (steps : Rat) * spacing value := onGrid ▸ positive
    exact_mod_cast pos_of_mul_pos_left product spacing_pos.le
  conv_rhs => rw [onGrid]
  exact le_mul_of_one_le_left spacing_pos.le (by exact_mod_cast stepsPos)

theorem binaryExponent_mem_range (positive : 0 < value) (double : (finite value).IsDouble) :
    -1074 ≤ binaryExponent value ∧ binaryExponent value < 1024 := by
  have least : powerOfTwo (-1074) ≤ value :=
    (powerOfTwo_le_iff.mpr (le_max_right _ _)).trans (spacing_le positive double)
  exact ⟨le_binaryExponent positive least,
    binaryExponent_lt positive (exists_eq_mul_spacing positive double).2⟩

/-- Between a double and the next power of two there is a step. -/
theorem add_spacing_le_powerOfTwo (positive : 0 < value) (double : (finite value).IsDouble) :
    value + spacing value ≤ powerOfTwo (binaryExponent value + 1) := by
  obtain ⟨⟨steps, onGrid⟩, -⟩ := exists_eq_mul_spacing positive double
  have below := (between_powerOfTwo positive).2
  have exponents : max (binaryExponent value - 52) (-1074) ≤ binaryExponent value + 1 := by
    have range := binaryExponent_mem_range positive double
    omega
  obtain ⟨count, power⟩ := exists_powerOfTwo_eq_mul exponents
  rw [← spacing] at power
  have fewer : steps + 1 ≤ 2 ^ count := by
    rw [power] at below
    conv_lhs at below => rw [onGrid]
    have less := lt_of_mul_lt_mul_right below spacing_pos.le
    exact_mod_cast less
  calc value + spacing value = ((steps + 1 : Int) : Rat) * spacing value := by
        rw [Int.cast_add, add_mul, ← onGrid, Int.cast_one, one_mul]
    _ ≤ ((2 ^ count : Int) : Rat) * spacing value :=
        mul_le_mul_of_nonneg_right (Int.cast_le.mpr fewer) spacing_pos.le
    _ = powerOfTwo (binaryExponent value + 1) := power.symm

/-- The grid around a decimal near to a double goes through the double. -/
theorem IsNear.exists_eq_mul_spacing (near : IsNear decimal value) (positive : 0 < value)
    (double : (finite value).IsDouble) : ∃ steps : Int, value = steps * spacing decimal := by
  have decimalPos := near.pos positive
  obtain ⟨⟨steps, onGrid⟩, -⟩ := Binary64.exists_eq_mul_spacing positive double
  have notCoarser : binaryExponent decimal ≤ binaryExponent value := by
    by_contra coarser
    have beyond : powerOfTwo (binaryExponent value + 1) ≤ decimal :=
      (powerOfTwo_le_iff.mpr (by omega)).trans (between_powerOfTwo decimalPos).1
    have step := add_spacing_le_powerOfTwo positive double
    have coarse := lt_mul_spacing positive
    have distance := le_abs_self (decimal - value)
    unfold IsNear at near
    have stepPos : 0 < spacing value := spacing_pos
    linarith
  have finer :
      max (binaryExponent decimal - 52) (-1074) ≤ max (binaryExponent value - 52) (-1074) := by
    omega
  obtain ⟨count, power⟩ := exists_powerOfTwo_eq_mul finer
  rw [← spacing, ← spacing] at power
  refine ⟨steps * 2 ^ count, ?_⟩
  conv_lhs => rw [onGrid, power]
  rw [Int.cast_mul, mul_assoc]

/-- A decimal near to a double reads as the double. -/
theorem IsNear.nearest_eq (near : IsNear decimal value) (positive : 0 < value)
    (double : (finite value).IsDouble) : nearest decimal = .finite value := by
  have decimalPos := near.pos positive
  obtain ⟨steps, onGrid⟩ := near.exists_eq_mul_spacing positive double
  have step : 0 < spacing decimal := spacing_pos
  have within : |decimal / spacing decimal - steps| < 1 / 2 := by
    have difference : decimal / spacing decimal - steps = (decimal - value) / spacing decimal := by
      rw [onGrid]
      field_simp
    rw [difference, abs_div, abs_of_pos step, div_lt_iff₀ step]
    have coarse := lt_mul_spacing decimalPos
    unfold IsNear at near
    have below := neg_abs_le (decimal - value)
    linarith
  have same : nearestMagnitude decimal = value := by
    unfold nearestMagnitude
    dsimp only
    rw [roundHalfEven_of_near within, Rat.ofInt_eq_cast, ← onGrid]
  rw [nearest_of_pos decimalPos, same, if_neg]
  exact not_le.mpr (Binary64.exists_eq_mul_spacing positive double).2

/-- Of two neighbours on a fine grid, one is near to what stands between them. -/
theorem isNear_or_isNear {unit : Rat} (fine : 10 ^ 16 * unit ≤ value) (above : decimal ≤ value)
    (below : value ≤ decimal + unit) : IsNear decimal value ∨ IsNear (decimal + unit) value := by
  unfold IsNear
  rw [abs_of_nonpos (by linarith : decimal - value ≤ 0),
    abs_of_nonneg (by linarith : 0 ≤ decimal + unit - value)]
  rcases le_total (value - decimal) (decimal + unit - value) with nearer | nearer
  · left
    linarith
  · right
    linarith

end Near

end Binary64

/-! ## The search for digits -/

namespace Decimal

open Binary64

section Search

variable {value : Rat}

/-- The exponents of doubles are small enough for the guess of the decimal place. -/
theorem powerOfTen_guess_le {exponent : Int} (low : -1074 ≤ exponent) (high : exponent < 1024) :
    powerOfTen (Int.fdiv (exponent * 30103) 100000 - 2) ≤ powerOfTwo exponent := by
  have above : ∀ n < 1024, 10 ^ (n * 30103 / 100000) ≤ 2 ^ n * 100 := by decide +kernel
  have below : ∀ n < 1075, 2 ^ n ≤ 10 ^ (n * 30103 / 100000 + 2) := by decide +kernel
  rw [powerOfTen_eq_zpow, powerOfTwo_eq_zpow, Int.fdiv_eq_ediv_of_nonneg _ (by decide)]
  rcases le_or_gt 0 exponent with nonneg | negative
  · obtain ⟨n, rfl⟩ := Int.eq_ofNat_of_zero_le nonneg
    have guess : ((n : Int) * 30103) / 100000 = ((n * 30103 / 100000 : Nat) : Int) := by
      push_cast
      rfl
    rw [guess, zpow_sub₀ (by norm_num), zpow_natCast, zpow_natCast, div_le_iff₀ (by positivity)]
    exact_mod_cast above n (by omega)
  · obtain ⟨n, rfl⟩ : ∃ n : Nat, exponent = -n := ⟨(-exponent).toNat, by omega⟩
    have guess : (-(n : Int) * 30103) / 100000 - 2 ≤ -((n * 30103 / 100000 + 2 : Nat) : Int) := by
      push_cast
      omega
    refine (zpow_le_zpow_right₀ (by norm_num) guess).trans ?_
    rw [zpow_neg, zpow_neg, zpow_natCast, zpow_natCast]
    refine inv_anti₀ (by positivity) ?_
    exact_mod_cast below n (by omega)

theorem powerOfTen_pointPlace_le (positive : 0 < value) (double : (finite value).IsDouble) :
    powerOfTen (pointPlace value - 1) ≤ value := by
  obtain ⟨low, high⟩ := binaryExponent_mem_range positive double
  have guessed := (powerOfTen_guess_le low high).trans (between_powerOfTwo positive).1
  unfold pointPlace
  dsimp only
  split
  · have place (guess : Int) : guess - 1 - 1 = guess - 2 := by ring
    rw [place]
    exact guessed
  · rename_i first
    split
    · exact not_lt.mp first
    · rename_i second
      split
      · simpa using second
      · rename_i third
        have place (guess : Int) : guess + 2 - 1 = guess + 1 := by ring
        rw [place]
        exact not_lt.mp third

/-- The grid with seventeen digits is fine. -/
theorem powerOfTen_seventeen_le (positive : 0 < value) (double : (finite value).IsDouble) :
    10 ^ 16 * powerOfTen (pointPlace value - 17) ≤ value := by
  have first := powerOfTen_pointPlace_le positive double
  have place : pointPlace value - 1 = 16 + (pointPlace value - 17) := by ring
  rw [place, powerOfTen_eq_zpow, zpow_add₀ (by norm_num)] at first
  rw [powerOfTen_eq_zpow]
  exact_mod_cast first

theorem value_succ (digits : Nat) (exponent : Int) : Decimal.value ⟨digits + 1, exponent⟩ =
    Decimal.value ⟨digits, exponent⟩ + powerOfTen exponent := by
  rw [Decimal.value, Decimal.value, Rat.ofInt_eq_cast, Rat.ofInt_eq_cast]
  push_cast
  ring

/-- A value stands between its neighbours on a decimal grid. -/
theorem between_neighbours (positive : 0 < value) (exponent : Int) :
    Decimal.value ⟨(value / powerOfTen exponent).floor.toNat, exponent⟩ ≤ value ∧
      value ≤ Decimal.value ⟨(value / powerOfTen exponent).floor.toNat, exponent⟩ +
        powerOfTen exponent := by
  have unitPos : 0 < powerOfTen exponent := by
    rw [powerOfTen_eq_zpow]
    positivity
  have nonneg : 0 ≤ (value / powerOfTen exponent).floor :=
    Rat.le_floor_iff.mpr (by exact_mod_cast (div_pos positive unitPos).le)
  rw [Decimal.value, Rat.ofInt_eq_cast, Int.toNat_of_nonneg nonneg]
  constructor
  · rw [← le_div_iff₀ unitPos]
    exact Rat.floor_le _
  · rw [← add_one_mul, ← div_le_iff₀ unitPos]
    exact_mod_cast (Rat.lt_floor_add_one _).le

/-- The search on a grid finds a neighbour that reads back. -/
theorem exists_onGrid?_eq_some {count : Nat}
    (readsBack :
      nearest (Decimal.value ⟨(value / powerOfTen (pointPlace value - count)).floor.toNat,
        pointPlace value - count⟩) = .finite value ∨
      nearest (Decimal.value ⟨(value / powerOfTen (pointPlace value - count)).floor.toNat + 1,
        pointPlace value - count⟩) = .finite value) :
    ∃ decimal, onGrid? value count = some decimal := by
  unfold onGrid?
  dsimp only
  split
  · rename_i noLower noUpper
    rcases readsBack with lower | upper
    · exact absurd lower (of_decide_eq_false noLower)
    · exact absurd upper (of_decide_eq_false noUpper)
  · exact ⟨_, rfl⟩
  · exact ⟨_, rfl⟩
  · split_ifs <;> exact ⟨_, rfl⟩

/-- With seventeen digits there is one. -/
theorem exists_onGrid?_seventeen (positive : 0 < value) (double : (finite value).IsDouble) :
    ∃ decimal, onGrid? value 17 = some decimal := by
  apply exists_onGrid?_eq_some
  obtain ⟨above, below⟩ := between_neighbours positive (pointPlace value - 17)
  rcases isNear_or_isNear (powerOfTen_seventeen_le positive double) above below with near | near
  · exact .inl (near.nearest_eq positive double)
  · rw [← value_succ] at near
    exact .inr (near.nearest_eq positive double)

/-- The digits that are shown of a double read back as the double. -/
theorem nearest_shortest_of_isDouble (positive : 0 < value) (double : (finite value).IsDouble) :
    nearest (shortest value).value = .finite value := by
  obtain ⟨decimal, search⟩ : ∃ decimal,
      (List.range' 1 17).findSome? (onGrid? value) = some decimal := by
    obtain ⟨last, found⟩ := exists_onGrid?_seventeen positive double
    refine Option.ne_none_iff_exists'.mp fun none => ?_
    have nothing := List.findSome?_eq_none_iff.mp none 17 (by decide)
    exact absurd (nothing.symm.trans found) nofun
  obtain ⟨count, -, found⟩ := List.exists_of_findSome?_eq_some search
  rw [shortest, search, Option.getD_some, value_trimmed]
  exact nearest_of_onGrid? found

end Search

end Decimal

/-! ## Texts of doubles -/

namespace Binary64

section Texts

variable {digits : Nat} {exponent : Int} {value : Rat}

/-- A value below all positive doubles is next to zero. -/
theorem nearest_of_small (positive : 0 < value) (small : value < powerOfTwo (-1075)) :
    nearest value = .finite 0 := by
  have least : powerOfTwo (-1074) ≤ spacing value := powerOfTwo_le_iff.mpr (le_max_right _ _)
  have half : powerOfTwo (-1074) = 2 * powerOfTwo (-1075) := by
    rw [powerOfTwo_eq_zpow, powerOfTwo_eq_zpow, show (-1074 : Int) = 1 + -1075 by rfl,
      zpow_add₀ two_ne_zero, zpow_one]
  have near : |value / spacing value - ((0 : Int) : Rat)| < 1 / 2 := by
    rw [Int.cast_zero, sub_zero, abs_of_pos (div_pos positive spacing_pos),
      div_lt_iff₀ spacing_pos]
    linarith
  have zero : nearestMagnitude value = 0 := by
    unfold nearestMagnitude
    dsimp only
    rw [roundHalfEven_of_near near, Rat.ofInt_eq_cast, Int.cast_zero, zero_mul]
  rw [nearest_of_pos positive, zero, if_neg (not_le.mpr (powerOfTwo_pos _))]

/-- A decimal with few places is below all positive doubles. -/
theorem value_lt_powerOfTwo (few : ((toString digits).length : Int) + exponent < -400) :
    Decimal.value ⟨digits, exponent⟩ < powerOfTwo (-1075) := by
  have digitsSmall : (digits : Rat) < 10 ^ ((toString digits).length : Int) := by
    rw [zpow_natCast, length_toString]
    exact_mod_cast (Nat.length_toDigits_le_iff (by decide) Nat.length_toDigits_pos).mp le_rfl
  have doubles : (2 : Rat) ^ 1075 ≤ 10 ^ 400 := by
    calc (2 : Rat) ^ 1075 ≤ 2 ^ (3 * 400) := pow_le_pow_right₀ one_le_two (by decide)
      _ = (2 ^ 3) ^ 400 := pow_mul _ _ _
      _ ≤ 10 ^ 400 := pow_le_pow_left₀ (by positivity) (by norm_num) 400
  rw [Decimal.value, powerOfTen_eq_zpow, powerOfTwo_eq_zpow, Rat.ofInt_eq_cast]
  calc ((digits : Int) : Rat) * ((10 : Nat) : Rat) ^ exponent = digits * 10 ^ exponent := by
        push_cast
        rfl
    _ < 10 ^ ((toString digits).length : Int) * 10 ^ exponent := by gcongr
    _ = 10 ^ (((toString digits).length : Int) + exponent) := (zpow_add₀ (by norm_num) _ _).symm
    _ ≤ 10 ^ (-400 : Int) := zpow_le_zpow_right₀ (by norm_num) few.le
    _ ≤ 2 ^ (-1075 : Int) := by
        rw [zpow_neg, zpow_neg]
        exact inv_anti₀ (by positivity) (by exact_mod_cast doubles)

/-- A decimal next to a positive double reads as the double. -/
theorem ofDecimal_of_nearest_pos (positive : 0 < value)
    (next : nearest (Decimal.value ⟨digits, exponent⟩) = .finite value) :
    ofDecimal false digits exponent = .finite value := by
  rcases ofDecimal_of_nearest next with same | ⟨-, small⟩
  · exact same
  · exfalso
    have nonzero : digits ≠ 0 := by
      rintro rfl
      rw [Decimal.value, Nat.cast_zero, Rat.ofInt_eq_cast, Int.cast_zero, zero_mul] at next
      cases next
      exact lt_irrefl 0 positive
    have decimalPos : 0 < Decimal.value ⟨digits, exponent⟩ := by
      rw [Decimal.value, powerOfTen_eq_zpow, Rat.ofInt_eq_cast]
      have digitsPos : 0 < digits := Nat.pos_of_ne_zero nonzero
      positivity
    rw [nearest_of_small decimalPos (value_lt_powerOfTwo (small.resolve_left nonzero))] at next
    cases next
    exact lt_irrefl 0 positive

theorem rereadMagnitude_of_isDouble (positive : 0 < value) (double : (finite value).IsDouble) :
    rereadMagnitude false value = .finite value :=
  ofDecimal_of_nearest_pos positive (Decimal.nearest_shortest_of_isDouble positive double)

/-- The sign of a double can be taken off. -/
theorem IsDouble.neg (negative : value < 0) (double : (finite value).IsDouble) :
    (finite (-value)).IsDouble := by
  have positive : 0 < -value := neg_pos.mpr negative
  unfold IsDouble nearest at double
  simp only [negative.ne, negative, if_false, decide_true, if_true] at double
  split at double
  · cases double
  · rename_i finite
    split at double
    · cases double
    · have same : nearestMagnitude (-value) = -value := by
        rw [← neg_eq_iff_eq_neg]
        simpa using double
      rw [IsDouble, nearest_of_pos positive, if_neg finite, same]

end Texts

/-- A double reads back from its text as it was. -/
theorem reread_of_isDouble {double : Binary64} (isDouble : double.IsDouble) :
    double.reread = double := by
  cases double with
  | finite value =>
      rw [reread]
      rcases lt_trichotomy value 0 with negative | rfl | positive
      · have magnitude := rereadMagnitude_of_isDouble (neg_pos.mpr negative) (isDouble.neg negative)
        have signed : rereadMagnitude true (-value) = (rereadMagnitude false (-value)).neg := rfl
        rw [if_neg negative.ne, if_pos negative, signed, magnitude]
        simp [Binary64.neg, negative.ne]
      · rfl
      · rw [if_neg positive.ne', if_neg positive.le.not_gt]
        exact rereadMagnitude_of_isDouble positive isDouble
  | negativeZero => rfl
  | infinite => rfl
  | nan => rfl

end Binary64

end DesignLint
