import DesignLint.Json.Printer
import DesignLint.Json.Reader
import DesignLint.Proofs.Number.Decimal

/-!
# Numbers read back

The reader takes the text of a number up to the next character that cannot belong to
it. A whole number is read as it was, unless it has more digits than the reader takes; a
double is read as the digits in its text say, wherever the point stands.
-/

namespace DesignLint.Json.Reader

open Binary64

/-! ## Digits -/

section Digits

variable {digits rest : List Char}

/-- What may stand at the start of a number: digits, of which a leading zero stands alone. -/
structure LeadsNumber (whole : List Char) : Prop where
  nonempty : whole ≠ []
  digits : ∀ c ∈ whole, c.isDigit = true
  zero : whole.head? = some '0' → whole = ['0']

/-- A text that does not go on with a digit. -/
def EndsDigits (rest : List Char) : Prop := ∀ c, rest.head? = some c → c.isDigit = false

theorem takeWhile_digits (allDigits : ∀ c ∈ digits, c.isDigit = true) (ends : EndsDigits rest) :
    (digits ++ rest).takeWhile Char.isDigit = digits := by
  rw [List.takeWhile_append_of_pos allDigits]
  cases rest with
  | nil => simp
  | cons c rest => simp [ends c rfl]

theorem dropWhile_digits (allDigits : ∀ c ∈ digits, c.isDigit = true) (ends : EndsDigits rest) :
    (digits ++ rest).dropWhile Char.isDigit = rest := by
  rw [List.dropWhile_append_of_pos allDigits]
  cases rest with
  | nil => rfl
  | cons c rest => simp [ends c rfl]

theorem digitsValue_eq_ofDigitChars (digits : List Char) :
    digitsValue digits = Nat.ofDigitChars 10 digits 0 := by
  unfold digitsValue Nat.ofDigitChars
  congr 1
  funext value digit
  rw [Nat.mul_comm]
  rfl

theorem digitsValue_toDigits (number : Nat) : digitsValue (Nat.toDigits 10 number) = number := by
  rw [digitsValue_eq_ofDigitChars, Nat.ofDigitChars_toDigits (by decide) (by decide)]

theorem digitsValue_zeros_append (count : Nat) (digits : List Char) :
    digitsValue (List.replicate count '0' ++ digits) = digitsValue digits := by
  induction count with
  | zero => rfl
  | succ count inductionHypothesis => exact inductionHypothesis

theorem isDigit_of_mem_replicate {count : Nat} :
    ∀ c ∈ List.replicate count '0', c.isDigit = true := by
  intro c member
  rw [List.eq_of_mem_replicate member]
  rfl

theorem isDigit_of_mem_toDigits {number : Nat} :
    ∀ c ∈ Nat.toDigits 10 number, c.isDigit = true :=
  fun _ member => Nat.isDigit_of_mem_toDigits (by decide) (by decide) member

theorem head?_toDigits_ne {number : Nat} (positive : 0 < number) :
    (Nat.toDigits 10 number).head? ≠ some '0' := by
  induction number using Nat.strongRecOn with
  | _ number inductionHypothesis =>
      rcases Nat.lt_or_ge number 10 with single | more
      · have value := digitsValue_toDigits number
        rw [Nat.toDigits_of_lt_base single] at value ⊢
        intro zero
        rw [Option.some.inj zero] at value
        exact positive.ne value
      · rw [Nat.toDigits_of_base_le (by decide) more]
        have shorter := inductionHypothesis (number / 10) (by omega) (by omega)
        rw [List.head?_append_of_ne_nil _ Nat.toDigits_ne_nil]
        exact shorter

theorem leadsNumber_digit {c : Char} (digit : c.isDigit = true) : LeadsNumber [c] where
  nonempty := List.cons_ne_nil c []
  digits := by simpa using digit
  zero := by simp

theorem leadsNumber_zero : LeadsNumber ['0'] := leadsNumber_digit rfl

theorem leadsNumber_toDigits (number : Nat) : LeadsNumber (Nat.toDigits 10 number) where
  nonempty := Nat.toDigits_ne_nil
  digits := isDigit_of_mem_toDigits
  zero := by
    rcases Nat.eq_zero_or_pos number with rfl | positive
    · exact fun _ => rfl
    · exact fun zero => absurd zero (head?_toDigits_ne positive)

end Digits

/-! ## Parts of a number -/

/-- A text that does not go on with a part of a number. -/
def EndsNumber (rest : List Char) : Prop :=
  ∀ c, rest.head? = some c → c.isDigit = false ∧ c ≠ '.' ∧ c ≠ 'e' ∧ c ≠ 'E'

/-- Digits behind a point, if there are any. -/
def fractionText (places : List Char) : List Char := if places.isEmpty then [] else '.' :: places

section Parts

variable {whole places tail rest : List Char} {power : Option Int}

theorem EndsNumber.endsDigits (ends : EndsNumber rest) : EndsDigits rest :=
  fun c head => (ends c head).1

theorem exponent_of_endsNumber (ends : EndsNumber rest) : exponent rest = (none, rest) := by
  cases rest with
  | nil => rfl
  | cons c rest =>
      obtain ⟨-, -, small, capital⟩ := ends c rfl
      simp [exponent, small, capital]

theorem exponent_scientific (negative : Bool) {size : Nat} {shown : List Char}
    (digits : ∀ c ∈ shown, c.isDigit = true) (nonempty : shown ≠ [])
    (value : digitsValue shown = size) (ends : EndsDigits rest) :
    exponent ('e' :: (if negative then '-' else '+') :: (shown ++ rest)) =
      (some (if negative then -size else size : Int), rest) := by
  have taken := takeWhile_digits digits ends
  have dropped := dropWhile_digits digits ends
  cases negative <;> simp [exponent, taken, dropped, nonempty, value]

theorem fraction_fractionText (digits : ∀ c ∈ places, c.isDigit = true) (ends : EndsDigits tail)
    (noPoint : tail.head? ≠ some '.') :
    fraction (fractionText places ++ tail) = (places, tail) := by
  unfold fractionText
  split
  · rename_i empty
    rw [List.isEmpty_iff] at empty
    subst empty
    cases tail with
    | nil => rfl
    | cons c tail =>
        have other : c ≠ '.' := fun point => noPoint (congrArg some point)
        simp [fraction, other]
  · rename_i nonempty
    rw [List.cons_append, fraction, takeWhile_digits digits ends, dropWhile_digits digits ends,
      if_neg nonempty]

theorem endsDigits_fractionText (ends : EndsDigits tail) :
    EndsDigits (fractionText places ++ tail) := by
  unfold fractionText
  split
  · exact ends
  · rintro c ⟨⟩
    rfl

theorem wholePart_append (leads : LeadsNumber whole) (ends : EndsDigits tail) :
    wholePart (whole ++ tail) = (whole, tail) := by
  cases whole with
  | nil => exact absurd rfl leads.nonempty
  | cons c more =>
      by_cases zero : c = '0'
      · subst zero
        obtain rfl : more = [] := (List.cons.inj (leads.zero rfl)).2
        rfl
      · have taken := takeWhile_digits leads.digits ends
        have dropped := dropWhile_digits leads.digits ends
        rw [List.cons_append] at taken dropped ⊢
        simp [wholePart, zero, taken, dropped]

/-- A number is read up to the text behind its exponent, if it has no more digits than the
limit where it is a whole one. -/
theorem number_eq (limit : Option Nat) (negative : Bool) (leads : LeadsNumber whole)
    (digits : ∀ c ∈ places, c.isDigit = true) (ends : EndsDigits tail)
    (noPoint : tail.head? ≠ some '.') (read : exponent tail = (power, rest))
    (short : places = [] → power = none → ∀ most ∈ limit, whole.length ≤ most) :
    number limit negative (whole ++ (fractionText places ++ tail)) =
      .ok (if places.isEmpty && power.isNone then
          .int (if negative then -(digitsValue whole : Int) else digitsValue whole)
        else .float (ofDecimal negative (digitsValue (whole ++ places))
          (power.getD 0 - places.length)), rest) := by
  have nonempty : whole.isEmpty = false := by simpa using leads.nonempty
  rw [number, wholePart_append leads (endsDigits_fractionText ends)]
  simp only [nonempty, fraction_fractionText digits ends noPoint, read, Bool.false_eq_true,
    if_false]
  split
  · rename_i isWhole
    simp only [Bool.and_eq_true, List.isEmpty_iff, Option.isNone_iff_eq_none] at isWhole
    have within : ¬(limit.any fun most => decide (most < whole.length)) = true := by
      rw [Option.any_eq_true]
      rintro ⟨most, given, longer⟩
      exact absurd (short isWhole.1 isWhole.2 most given) (by simpa using longer)
    rw [if_neg within]
  · rfl

end Parts

/-! ## Texts of numbers -/

section Texts

variable (limit : Option Nat) {rest : List Char}

theorem number_int (negative : Bool) {size : Nat}
    (short : ∀ most ∈ limit, (Nat.toDigits 10 size).length ≤ most) (ends : EndsNumber rest) :
    number limit negative (Nat.toDigits 10 size ++ rest) =
      .ok (.int (if negative then -(size : Int) else size), rest) := by
  have noPlaces : ∀ c ∈ ([] : List Char), c.isDigit = true := by simp
  have read := number_eq limit negative (leadsNumber_toDigits size) noPlaces ends.endsDigits
    (fun point => (ends '.' point).2.1 rfl) (exponent_of_endsNumber ends) fun _ _ => short
  simpa [fractionText, digitsValue_toDigits] using read

/-- A decimal with a point reads as its digits, scaled by the number of places. -/
theorem number_point (negative : Bool) {whole places : List Char} (leads : LeadsNumber whole)
    (digits : ∀ c ∈ places, c.isDigit = true) (nonempty : places ≠ []) (ends : EndsNumber rest) :
    number limit negative (whole ++ '.' :: (places ++ rest)) =
      .ok (.float (ofDecimal negative (digitsValue (whole ++ places)) (-places.length)), rest) := by
  have read := number_eq limit negative leads digits
    ends.endsDigits (fun point => (ends '.' point).2.1 rfl) (exponent_of_endsNumber ends)
    fun none => absurd none nonempty
  simpa [fractionText, nonempty] using read

theorem isDigit_of_mem_zero : ∀ c ∈ ['0'], c.isDigit = true := by simp

theorem digitsValue_append_zero (digits : List Char) :
    digitsValue (digits ++ ['0']) = digitsValue digits * 10 := by
  unfold digitsValue
  rw [List.foldl_append]
  rfl

variable {digits : Nat} {exponent : Int}

/-- Digits behind a point and zeros. -/
theorem number_belowPoint (negative : Bool) {count : Nat}
    (place : exponent = -(count + (Nat.toDigits 10 digits).length : Nat)) (ends : EndsNumber rest) :
    number limit negative
        ('0' :: '.' :: (List.replicate count '0' ++ (Nat.toDigits 10 digits ++ rest))) =
      .ok (.float (ofDecimal negative digits exponent), rest) := by
  have allDigits : ∀ c ∈ List.replicate count '0' ++ Nat.toDigits 10 digits, c.isDigit = true :=
    List.forall_mem_append.mpr ⟨isDigit_of_mem_replicate, isDigit_of_mem_toDigits⟩
  have read := number_point limit negative leadsNumber_zero allDigits
    (by simp [Nat.toDigits_ne_nil]) ends
  have value : digitsValue ('0' :: (List.replicate count '0' ++ Nat.toDigits 10 digits)) = digits :=
    (digitsValue_zeros_append (count + 1) _).trans (digitsValue_toDigits digits)
  simp only [List.singleton_append, List.append_assoc, value, List.length_append,
    List.length_replicate] at read
  rw [read, place]

/-- Digits before a point, with zeros between them and the point. -/
theorem number_abovePoint (negative : Bool) {count : Nat} (place : exponent = count)
    (zero : digits = 0 → count = 0) (ends : EndsNumber rest) :
    number limit negative
        (Nat.toDigits 10 digits ++ (List.replicate count '0' ++ '.' :: '0' :: rest)) =
      .ok (.float (ofDecimal negative digits exponent), rest) := by
  have whole : Nat.toDigits 10 digits ++ List.replicate count '0' =
      Nat.toDigits 10 (digits * 10 ^ count) := by
    rcases Nat.eq_zero_or_pos digits with none | positive
    · simp [none, zero none]
    · exact (toDigits_mul_pow positive count).symm
  have read :=
    number_point limit negative (leadsNumber_toDigits (digits * 10 ^ count)) isDigit_of_mem_zero
    (by decide) ends
  have scaled := ofDecimal_mul_pow negative digits (count + 1) exponent
  rw [digitsValue_append_zero, digitsValue_toDigits, Nat.mul_assoc, ← Nat.pow_succ] at read
  rw [show exponent - (count + 1 : Nat) = -(1 : Nat) by omega] at scaled
  rw [← List.append_assoc, whole]
  exact read.trans (by rw [← scaled]; rfl)

/-- Digits around a point. -/
theorem number_aroundPoint (negative : Bool) {point : Nat} (inside : 0 < point)
    (less : point < (Nat.toDigits 10 digits).length)
    (place : exponent = point - (Nat.toDigits 10 digits).length) (ends : EndsNumber rest) :
    number limit negative ((Nat.toDigits 10 digits).take point ++
        '.' :: ((Nat.toDigits 10 digits).drop point ++ rest)) =
      .ok (.float (ofDecimal negative digits exponent), rest) := by
  have positive : 0 < digits := by
    rw [Nat.pos_iff_ne_zero]
    rintro rfl
    exact absurd less (Nat.not_lt.mpr inside)
  have leads : LeadsNumber ((Nat.toDigits 10 digits).take point) := {
    nonempty := by simp [inside.ne', Nat.toDigits_ne_nil]
    digits := fun c member => isDigit_of_mem_toDigits c (List.mem_of_mem_take member)
    zero := by
      rw [List.head?_take, if_neg inside.ne']
      exact fun zero => absurd zero (head?_toDigits_ne positive) }
  have read := number_point limit negative leads
    (fun c member => isDigit_of_mem_toDigits c (List.mem_of_mem_drop member))
    (by simpa using less) ends
  rw [List.take_append_drop, digitsValue_toDigits, List.length_drop] at read
  rw [read, place, Nat.cast_sub less.le, neg_sub]

/-- Digits with a point behind the first one, if there are more, and an exponent. -/
theorem number_scientific (negative : Bool) {power : Int} {shown : List Char}
    {first : Char} {places : List Char} (all : Nat.toDigits 10 digits = first :: places)
    (place : exponent = power - places.length) (shownDigits : ∀ c ∈ shown, c.isDigit = true)
    (nonempty : shown ≠ []) (size : digitsValue shown = power.natAbs) (ends : EndsNumber rest) :
    number limit negative (first :: (fractionText places ++
        'e' :: (if power < 0 then '-' else '+') :: (shown ++ rest))) =
      .ok (.float (ofDecimal negative digits exponent), rest) := by
  have member : ∀ c ∈ first :: places, c.isDigit = true := all ▸ isDigit_of_mem_toDigits
  obtain ⟨firstDigit, placesDigits⟩ := List.forall_mem_cons.mp member
  have power_eq : (if decide (power < 0) then -power.natAbs else power.natAbs : Int) = power := by
    split <;> rename_i sign <;> simp at sign <;> omega
  have read := exponent_scientific (decide (power < 0)) shownDigits nonempty size ends.endsDigits
  rw [power_eq] at read
  simp only [decide_eq_true_eq] at read
  have ends : EndsDigits ('e' :: (if power < 0 then '-' else '+') :: (shown ++ rest)) := by
    rintro c ⟨⟩
    rfl
  have whole := number_eq limit negative (leadsNumber_digit firstDigit) placesDigits ends (by simp)
    read nofun
  simp only [List.singleton_append, Option.isNone_some, Bool.and_false, Bool.false_eq_true,
    if_false, Option.getD_some, ← all, digitsValue_toDigits, ← place] at whole
  exact whole

/-- The reader takes the text of a positive double as its digits. -/
theorem number_magnitudeText (negative : Bool) {value : Rat} (nonzero : value ≠ 0)
    (ends : EndsNumber rest) :
    number limit negative ((magnitudeText value).toList ++ rest) =
      .ok (.float (rereadMagnitude negative value), rest) := by
  have zeroExponent := @Decimal.exponent_shortest value nonzero
  unfold magnitudeText rereadMagnitude
  generalize Decimal.shortest value = decimal at zeroExponent ⊢
  obtain ⟨digits, exponent⟩ := decimal
  have length : (Nat.toDigits 10 digits).length ≠ 0 := (Nat.length_toDigits_pos).ne'
  dsimp only at zeroExponent ⊢
  simp only [zeros, Nat.toString_eq_ofList_toDigits, String.length_ofList, String.toList_ofList]
  split
  · split
    · simp only [String.toList_append, String.toList_ofList, List.append_assoc]
      exact number_belowPoint limit negative (by omega) ends
    · split
      · simp only [String.toList_append, String.toList_ofList, List.append_assoc]
        exact number_abovePoint limit negative (by omega) (fun zero => by
          have := zeroExponent zero
          omega) ends
      · simp only [String.toList_append, String.toList_ofList, List.append_assoc]
        exact number_aroundPoint limit negative (by omega) (by omega) (by omega) ends
  · generalize all : Nat.toDigits 10 digits = shown at length ⊢
    generalize point : (shown.length : Int) + exponent - 1 = power
    have sizeDigits := @isDigit_of_mem_toDigits power.natAbs
    have sizeValue := digitsValue_toDigits power.natAbs
    have sizeNonempty := @Nat.toDigits_ne_nil power.natAbs 10
    generalize Nat.toDigits 10 power.natAbs = size at sizeDigits sizeValue sizeNonempty ⊢
    cases shown with
    | nil => exact absurd rfl length
    | cons first places =>
        obtain ⟨padded, paddedEq, paddedDigits, paddedValue, paddedNonempty⟩ : ∃ padded,
            (if size.length < 2 then "0" ++ String.ofList size else String.ofList size) =
                String.ofList padded ∧
              (∀ c ∈ padded, c.isDigit = true) ∧ digitsValue padded = power.natAbs ∧
              padded ≠ [] := by
          split
          · exact ⟨'0' :: size, by simp, by simpa using sizeDigits,
              sizeValue, by simp⟩
          · exact ⟨size, rfl, sizeDigits, sizeValue, sizeNonempty⟩
        have sign : (if power < 0 then "e-" else "e+").toList =
            ['e', if power < 0 then '-' else '+'] := by
          split <;> rfl
        have place : exponent = power - places.length := by
          rw [← point, List.length_cons]
          push_cast
          ring
        have read :=
          number_scientific limit negative all place paddedDigits paddedNonempty paddedValue ends
        rw [paddedEq, String.toList_append, String.toList_append, sign]
        cases places with
        | nil => simpa [fractionText] using read
        | cons second places => simpa [fractionText] using read

end Texts

/-! ## Numbers as documents -/

section Values

variable {limit : Option Nat} {fuel : Nat} {text rest : List Char} {read : Number}

theorem exists_digit_of_number {negative : Bool}
    (taken : number limit negative text = .ok (read, rest)) :
    ∃ c more, text = c :: more ∧ c.isDigit = true := by
  cases text with
  | nil => cases taken
  | cons c more =>
      refine ⟨c, more, rfl, ?_⟩
      by_contra other
      have notZero : c ≠ '0' := by
        rintro rfl
        exact other rfl
      simp [number, wholePart, notZero, other] at taken

theorem value_of_number (taken : number limit false text = .ok (read, rest)) :
    value limit (fuel + 1) text = .ok (.number read, rest) := by
  obtain ⟨c, more, rfl, digit⟩ := exists_digit_of_number taken
  unfold value
  split
  all_goals first
    | rw [taken]; rfl
    | rename_i equal; cases equal; exact absurd digit (by decide)

theorem value_of_negative_number (taken : number limit true text = .ok (read, rest)) :
    value limit (fuel + 1) ('-' :: text) = .ok (.number read, rest) := by
  obtain ⟨c, more, rfl, digit⟩ := exists_digit_of_number taken
  have other : c ≠ 'I' := by
    rintro rfl
    exact absurd digit (by decide)
  unfold value
  split
  all_goals first
    | rename_i equal; cases equal; rw [taken]; rfl
    | rename_i equal; cases equal; exact absurd rfl other
    | rename_i equal; cases equal
    | rename_i positive; exact absurd rfl (positive _)

theorem word_append (name : String) (document : Json) (rest : List Char) :
    word name document (name.toList ++ rest) = .ok (document, rest) := by
  have begins : name.toList.isPrefixOf (name.toList ++ rest) = true := by simp
  rw [word, if_pos begins, ← String.length_toList, List.drop_left]

end Values

end DesignLint.Json.Reader

namespace DesignLint

namespace Number

/-- The number that the text of a number reads as. -/
def reread : Number → Number
  | int value => int value
  | float value => float value.reread

/-- A number has no more digits than the limit, if it is a whole one. -/
def Fits (limit : Option Nat) : Number → Prop
  | int value => ∀ most ∈ limit, (Nat.toDigits 10 value.natAbs).length ≤ most
  | float _ => True

theorem fits_none (number : Number) : number.Fits none := by
  cases number with
  | int => exact nofun
  | float => trivial

/-- A number can be written exactly if it can be read back. -/
theorem fits_digitLimit_iff {number : Number} :
    number.Fits (some Numeral.digitLimit) ↔ number.isWritable = true := by
  have positive : 0 < Numeral.digitLimit := by decide
  cases number with
  | float => simp [Fits, isWritable]
  | int value =>
      rw [isWritable, decide_eq_true_iff, Nat.pow_eq,
        ← Nat.length_toDigits_le_iff (by decide) positive]
      simp [Fits]

end Number

namespace Json.Reader

open Binary64

/-- A number that fits is read back from its text. -/
theorem value_numberText {limit : Option Nat} {number : Number} (fits : number.Fits limit)
    (fuel : Nat) {rest : List Char} (ends : EndsNumber rest) :
    value limit (fuel + 1) ((numberText number).toList ++ rest) =
      .ok (.number number.reread, rest) := by
  have zero (negative : Bool) :=
    number_point limit negative leadsNumber_zero isDigit_of_mem_zero (by decide) ends
  cases number with
  | int number =>
      cases number with
      | ofNat size =>
          have text : (numberText (.int (Int.ofNat size))).toList = Nat.toDigits 10 size :=
            Nat.toList_repr
          rw [text]
          exact value_of_number (number_int limit false fits ends)
      | negSucc size =>
          have text : (numberText (.int (Int.negSucc size))).toList =
              '-' :: Nat.toDigits 10 (size + 1) := by
            have repr : numberText (.int (Int.negSucc size)) = "-" ++ Nat.repr (size + 1) := rfl
            rw [repr, String.toList_append, Nat.toList_repr]
            rfl
          rw [text]
          exact value_of_negative_number (number_int limit true fits ends)
  | float double =>
      cases double with
      | finite value =>
          simp only [numberText, Number.text, Binary64.text, Number.reread, Binary64.reread]
          split
          · exact value_of_number (zero false)
          · rename_i nonzero
            split
            · rw [String.toList_append]
              exact value_of_negative_number
                (number_magnitudeText limit true (neg_ne_zero.mpr nonzero) ends)
            · exact value_of_number (number_magnitudeText limit false nonzero ends)
      | negativeZero => exact value_of_negative_number (zero true)
      | infinite negative =>
          cases negative
          · exact word_append "Infinity" (.number (.float (.infinite false))) rest
          · exact word_append "-Infinity" (.number (.float (.infinite true))) rest
      | nan => exact word_append "NaN" (.number (.float .nan)) rest

end Json.Reader

end DesignLint
