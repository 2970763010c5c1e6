import DesignLint.Finding.Basic
import DesignLint.Schema.RunResult
import Mathlib.Algebra.Group.Nat.Defs

/-!
# The form of fingerprints

A digest is written with sixty-four hexadecimal digits in lower case, eight for each of
its words. A fingerprint is such a digest behind the name of its kind, and so matches
the pattern for fingerprints.
-/

namespace DesignLint

/-! ## Hexadecimal digits -/

/-- Whether a character is a hexadecimal digit in lower case. -/
def isHexDigit (c : Char) : Bool := RunResultSchema.fingerprintPattern.allows c

theorem isHexDigit_digitChar {digit : Nat} (less : digit < 16) :
    isHexDigit digit.digitChar = true := by
  have digits : ∀ digit : Fin 16, isHexDigit digit.val.digitChar = true := by decide
  exact digits ⟨digit, less⟩

theorem isHexDigit_of_mem_toDigits (value : Nat) :
    ∀ c ∈ Nat.toDigits 16 value, isHexDigit c = true := by
  induction value using Nat.strongRecOn with
  | _ value inductionHypothesis =>
      rw [Nat.toDigits_eq_if (by decide)]
      split
      · rename_i single
        simpa using isHexDigit_digitChar single
      · intro c member
        rcases List.mem_append.mp member with higher | last
        · exact inductionHypothesis (value / 16) (by omega) c higher
        · rw [List.mem_singleton.mp last]
          exact isHexDigit_digitChar (Nat.mod_lt _ (by decide))

/-- A value with no more digits than asked for has exactly as many, with leading zeros. -/
theorem length_hexDigits {count value : Nat} (positive : 0 < count) (less : value < 16 ^ count) :
    (hexDigits count value).toList.length = count := by
  have short := (Nat.length_toDigits_le_iff (by decide) positive).mpr less
  simp only [hexDigits, String.toList_ofList, List.length_append, List.length_replicate]
  omega

theorem isHexDigit_of_mem_hexDigits (count value : Nat) :
    ∀ c ∈ (hexDigits count value).toList, isHexDigit c = true := by
  intro c member
  rw [hexDigits, String.toList_ofList] at member
  rcases List.mem_append.mp member with zero | digit
  · rw [List.eq_of_mem_replicate zero]
    rfl
  · exact isHexDigit_of_mem_toDigits value c digit

/-! ## Digests -/

theorem Sha256.exists_toList_hex_eq (text : String) : ∃ words : List UInt32, words.length = 8 ∧
    (hex text).toList = words.flatMap fun word => (hexDigits 8 word.toNat).toList := by
  let s := digest text.toUTF8.toList
  refine ⟨[s.a, s.b, s.c, s.d, s.e, s.f, s.g, s.h], rfl, ?_⟩
  rw [hex, String.toList_join, List.flatMap_map]

theorem Sha256.length_hex (text : String) : (hex text).toList.length = 64 := by
  obtain ⟨words, eight, equal⟩ := exists_toList_hex_eq text
  have each : ∀ word ∈ words, (hexDigits 8 word.toNat).toList.length = 8 := fun word _ =>
    length_hexDigits (by decide) word.toNat_lt
  rw [equal, List.length_flatMap, List.map_congr_left each, List.map_const', eight]
  rfl

theorem Sha256.isHexDigit_of_mem_hex (text : String) :
    ∀ c ∈ (hex text).toList, isHexDigit c = true := by
  obtain ⟨words, -, equal⟩ := exists_toList_hex_eq text
  intro c member
  rw [equal] at member
  obtain ⟨word, -, digit⟩ := List.mem_flatMap.mp member
  exact isHexDigit_of_mem_hexDigits 8 word.toNat c digit

/-- A fingerprint has the form of fingerprints. -/
theorem accepts_fingerprint (ruleId path symbol snippet : String) :
    RunResultSchema.fingerprintPattern.accepts (fingerprint ruleId path symbol snippet) = true := by
  have length := Sha256.length_hex (fingerprintText ruleId path symbol snippet)
  have digits := Sha256.isHexDigit_of_mem_hex (fingerprintText ruleId path symbol snippet)
  rw [fingerprint]
  generalize Sha256.hex (fingerprintText ruleId path symbol snippet) = digest at length digits
  have noLineEnd : withoutFinalLineEnd ("sha256:" ++ digest).toList =
      "sha256:".toList ++ digest.toList := by
    rw [withoutFinalLineEnd, if_neg, String.toList_append]
    rw [String.toList_append, List.getLast?_append]
    intro lineEnd
    cases last : digest.toList.getLast? with
    | none => simp [List.getLast?_eq_none_iff.mp last] at length
    | some c =>
        rw [last] at lineEnd
        have digit := digits c (List.mem_of_getLast? last)
        rw [Option.some.inj lineEnd] at digit
        exact absurd digit (by decide)
  have lead : RunResultSchema.fingerprintPattern.lead.toList = "sha256:".toList := rfl
  have counted : RunResultSchema.fingerprintPattern.count = 64 := rfl
  unfold TextPattern.accepts
  simp only [noLineEnd, lead, counted, List.take_left, List.drop_left, length, BEq.rfl,
    Bool.true_and]
  exact List.all_eq_true.mpr digits

end DesignLint
