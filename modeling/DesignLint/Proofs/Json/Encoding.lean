import DesignLint.Proofs.Json.Faithful
import DesignLint.Text.Utf8

/-!
# Documents whose texts have an encoding

A text has no encoding exactly if it has lone surrogates. Writing a document adds none and takes
none away, and neither do rounding and sorting. So the canonical text of a document has an encoding
exactly if each text in the document has one.
-/

namespace DesignLint

/-! ## Texts -/

theorem encodingError?_eq_none_iff (text : String) :
    Utf8.encodingError? text = none ↔ ∀ c ∈ text.toList, Surrogate.isStandIn c = false := by
  have whole : text.toList.takeWhile (fun c => !Surrogate.isStandIn c) = text.toList ↔
      ∀ c ∈ text.toList, Surrogate.isStandIn c = false := by
    generalize text.toList = characters
    induction characters with
    | nil => simp
    | cons c characters inductionHypothesis =>
        rw [List.takeWhile_cons, List.forall_mem_cons, ← inductionHypothesis]
        cases Surrogate.isStandIn c <;> simp
  have nothing : text.toList.drop
        (text.toList.takeWhile fun c => !Surrogate.isStandIn c).length = [] ↔
      text.toList.takeWhile (fun c => !Surrogate.isStandIn c) = text.toList := by
    rw [List.drop_eq_nil_iff]
    have shorter := List.takeWhile_prefix (l := text.toList) fun c => !Surrogate.isStandIn c
    exact ⟨fun long => shorter.eq_of_length_le long, fun equal => by rw [equal]⟩
  rw [← whole, ← nothing, Utf8.encodingError?, Utf8.refusal?]
  split <;> simp [*]

/-- Whether a text has an encoding. -/
def IsEncodable (text : String) : Prop := Utf8.encodingError? text = none

instance (text : String) : Decidable (IsEncodable text) := inferInstanceAs (Decidable (_ = none))

theorem isEncodable_iff {text : String} :
    IsEncodable text ↔ ∀ c ∈ text.toList, Surrogate.isStandIn c = false :=
  encodingError?_eq_none_iff text

theorem isEncodable_ofList_iff {characters : List Char} :
    IsEncodable (String.ofList characters) ↔
      ∀ c ∈ characters, Surrogate.isStandIn c = false := by
  rw [isEncodable_iff, String.toList_ofList]

@[simp]
theorem isEncodable_append_iff {front back : String} :
    IsEncodable (front ++ back) ↔ IsEncodable front ∧ IsEncodable back := by
  simp only [isEncodable_iff, String.toList_append, List.forall_mem_append]

theorem isEncodable_intercalate_iff {separator : String} (plain : IsEncodable separator)
    {parts : List String} :
    IsEncodable (separator.intercalate parts) ↔ ∀ part ∈ parts, IsEncodable part := by
  induction parts with
  | nil => simpa using (by decide : IsEncodable "")
  | cons part parts inductionHypothesis =>
      cases parts with
      | nil => rw [String.intercalate_singleton, List.forall_mem_singleton]
      | cons next parts =>
          rw [String.intercalate_cons_cons, isEncodable_append_iff, isEncodable_append_iff,
            inductionHypothesis, and_iff_left plain]
          exact List.forall_mem_cons.symm

/-! ## Numbers -/

theorem isStandIn_of_lt {c : Char} (small : c.toNat < 128) : Surrogate.isStandIn c = false := by
  have nothing : c.toNat - Surrogate.standInOffset = 0 := by
    rw [Surrogate.standInOffset]
    omega
  rw [Surrogate.isStandIn, nothing]
  rfl

theorem isEncodable_ofList_digits {digits : List Char} (all : ∀ c ∈ digits, c.isDigit = true) :
    IsEncodable (String.ofList digits) := by
  refine isEncodable_ofList_iff.mpr fun c listed => isStandIn_of_lt ?_
  exact (Char.isDigit_iff_toNat.mp (all c listed)).2.trans_lt (by decide)

theorem isEncodable_toString (number : Nat) : IsEncodable (toString number) :=
  isEncodable_ofList_digits Json.Reader.isDigit_of_mem_toDigits

theorem isEncodable_zeros (count : Nat) : IsEncodable (Binary64.zeros count) :=
  isEncodable_ofList_digits Json.Reader.isDigit_of_mem_replicate

theorem isEncodable_magnitudeText (value : Rat) : IsEncodable (Binary64.magnitudeText value) := by
  have digits : ∀ c ∈ (toString (Decimal.shortest value).digits).toList,
      Surrogate.isStandIn c = false :=
    isEncodable_iff.mp (isEncodable_toString _)
  have plain : IsEncodable "" ∧ IsEncodable "0" ∧ IsEncodable "0." ∧ IsEncodable ".0" ∧
      IsEncodable "." ∧ IsEncodable "e-" ∧ IsEncodable "e+" := by decide
  obtain ⟨empty, zero, leading, trailing, point, small, large⟩ := plain
  unfold Binary64.magnitudeText
  dsimp only
  split
  · split
    · simp only [isEncodable_append_iff]
      exact ⟨⟨leading, isEncodable_zeros _⟩, isEncodable_toString _⟩
    · split
      · simp only [isEncodable_append_iff]
        exact ⟨⟨isEncodable_toString _, isEncodable_zeros _⟩, trailing⟩
      · simp only [isEncodable_append_iff]
        exact ⟨⟨isEncodable_ofList_iff.mpr fun c listed => digits c (List.mem_of_mem_take listed),
          point⟩, isEncodable_ofList_iff.mpr fun c listed => digits c (List.mem_of_mem_drop listed)⟩
  · rw [isEncodable_append_iff, isEncodable_append_iff]
    refine ⟨⟨?mantissa, ?sign⟩, ?size⟩
    case mantissa =>
      split
      · exact empty
      · rename_i shown
        rw [shown] at digits
        exact isEncodable_ofList_iff.mpr digits
      · rename_i shown
        rw [shown, List.forall_mem_cons] at digits
        refine isEncodable_ofList_iff.mpr (List.forall_mem_cons.mpr ⟨digits.1, ?_⟩)
        exact List.forall_mem_cons.mpr ⟨by decide, digits.2⟩
    case sign =>
      split
      · exact small
      · exact large
    case size =>
      split
      · exact isEncodable_append_iff.mpr ⟨zero, isEncodable_toString _⟩
      · exact isEncodable_toString _

theorem isEncodable_doubleText (double : Binary64) : IsEncodable double.text := by
  cases double with
  | finite value =>
      rw [Binary64.text]
      split
      · decide
      · split
        · exact isEncodable_append_iff.mpr ⟨by decide, isEncodable_magnitudeText _⟩
        · exact isEncodable_magnitudeText value
  | negativeZero => decide
  | infinite negative => cases negative <;> decide
  | nan => decide

theorem isEncodable_numberText (number : Number) : IsEncodable (Json.numberText number) := by
  unfold Json.numberText
  split
  · decide
  · decide
  · decide
  · cases number with
    | int value =>
        cases value with
        | ofNat size => exact isEncodable_toString size
        | negSucc size =>
            exact isEncodable_append_iff.mpr ⟨by decide, isEncodable_toString (size + 1)⟩
    | float double => exact isEncodable_doubleText double

namespace Json

/-! ## Characters and brackets -/

theorem any_isStandIn_escapeChar (c : Char) :
    (escapeChar c).any Surrogate.isStandIn = Surrogate.isStandIn c := by
  have hexadecimal : ∀ unit < 32, (hexDigits 4 unit).toList.any Surrogate.isStandIn = false := by
    decide
  unfold escapeChar
  iterate 7
    split
    · subst c
      decide
  split
  · rename_i control
    have own : Surrogate.isStandIn c = false := isStandIn_of_lt (control.trans (by decide))
    rw [List.any_cons, List.any_cons, hexadecimal c.toNat control, own]
    decide
  · rw [List.any_cons, List.any_nil, Bool.or_false]

theorem isEncodable_stringText_iff {text : String} :
    IsEncodable (stringText text) ↔ IsEncodable text := by
  have quote : Surrogate.isStandIn Quoted.doubleQuote = false := by decide
  have inside : (∀ d ∈ text.toList.flatMap escapeChar, Surrogate.isStandIn d = false) ↔
      ∀ c ∈ text.toList, Surrogate.isStandIn c = false := by
    rw [List.forall_mem_flatMap]
    refine forall₂_congr fun c _ => ?_
    simp [← any_isStandIn_escapeChar c]
  rw [stringText, isEncodable_ofList_iff, isEncodable_iff, List.cons_append, List.forall_mem_cons,
    List.forall_mem_append, List.forall_mem_singleton, inside, and_iff_left quote,
    and_iff_right quote]

theorem isEncodable_lineBreak (indent : Option Nat) (depth : Nat) :
    IsEncodable (lineBreak indent depth) := by
  cases indent with
  | none => exact (by decide : IsEncodable "")
  | some width =>
      refine isEncodable_append_iff.mpr ⟨by decide, isEncodable_ofList_iff.mpr ?_⟩
      intro c listed
      rw [List.eq_of_mem_replicate listed]
      decide

theorem isEncodable_bracketed_iff {indent : Option Nat} {depth : Nat} {first last : String}
    (plain : IsEncodable first ∧ IsEncodable last) {parts : List String} :
    IsEncodable (bracketed indent depth first last parts) ↔ ∀ part ∈ parts, IsEncodable part := by
  unfold bracketed
  split
  · rename_i empty
    simp [List.isEmpty_iff.mp empty, plain]
  · have separator : IsEncodable
        (if indent.isNone then ", " else "," ++ lineBreak indent (depth + 1)) := by
      split
      · decide
      · exact isEncodable_append_iff.mpr ⟨by decide, isEncodable_lineBreak _ _⟩
    simp only [isEncodable_append_iff, isEncodable_lineBreak, plain, true_and, and_true,
      isEncodable_intercalate_iff separator]

/-! ## Documents -/

mutual

/-- The texts in a document, keys included. -/
def texts : Json → List String
  | .string value => [value]
  | .array items => itemTexts items
  | .object entries => entryTexts entries
  | _ => []

/-- The texts in the items of an array. -/
def itemTexts : List Json → List String
  | [] => []
  | item :: items => texts item ++ itemTexts items

/-- The texts in the entries of an object. -/
def entryTexts : List (String × Json) → List String
  | [] => []
  | (key, value) :: entries => key :: texts value ++ entryTexts entries

end

/-- Whether each text in a document has an encoding. -/
def HasEncoding (document : Json) : Prop := ∀ text ∈ document.texts, IsEncodable text

instance (document : Json) : Decidable document.HasEncoding :=
  inferInstanceAs (Decidable (∀ text ∈ document.texts, IsEncodable text))

variable {document : Json} {items : List Json} {entries : JsonObject}

@[simp]
theorem hasEncoding_null : null.HasEncoding := List.forall_mem_nil _

@[simp]
theorem hasEncoding_bool (value : Bool) : (bool value).HasEncoding := List.forall_mem_nil _

@[simp]
theorem hasEncoding_number (value : Number) : (number value).HasEncoding := List.forall_mem_nil _

@[simp]
theorem hasEncoding_string_iff {value : String} :
    (string value).HasEncoding ↔ IsEncodable value := List.forall_mem_singleton

theorem hasEncoding_array_iff : (array items).HasEncoding ↔ ∀ item ∈ items, item.HasEncoding := by
  change (∀ text ∈ itemTexts items, IsEncodable text) ↔ _
  induction items with
  | nil => exact iff_of_true (List.forall_mem_nil _) (List.forall_mem_nil _)
  | cons item items inductionHypothesis =>
      rw [itemTexts, List.forall_mem_append, inductionHypothesis, List.forall_mem_cons, HasEncoding]

theorem hasEncoding_object_iff : (object entries).HasEncoding ↔
    ∀ entry ∈ entries, IsEncodable entry.1 ∧ entry.2.HasEncoding := by
  change (∀ text ∈ entryTexts entries, IsEncodable text) ↔ _
  induction entries with
  | nil => exact iff_of_true (List.forall_mem_nil _) (List.forall_mem_nil _)
  | cons entry entries inductionHypothesis =>
      rw [entryTexts, List.cons_append, List.forall_mem_cons, List.forall_mem_append,
        inductionHypothesis, List.forall_mem_cons, and_assoc, HasEncoding]

theorem hasEncoding_strings_iff {values : List String} :
    (strings values).HasEncoding ↔ ∀ value ∈ values, IsEncodable value := by
  simp only [strings, hasEncoding_array_iff, List.forall_mem_map, hasEncoding_string_iff]

theorem renderItems_eq_map (indent : Option Nat) (depth : Nat) (items : List Json) :
    renderItems indent depth items = items.map (render indent depth) := by
  induction items with
  | nil => rfl
  | cons item items inductionHypothesis => rw [renderItems, List.map_cons, inductionHypothesis]

theorem renderEntries_eq_map (indent : Option Nat) (depth : Nat) (entries : JsonObject) :
    renderEntries indent depth entries =
      entries.map fun entry => stringText entry.1 ++ ": " ++ render indent depth entry.2 := by
  induction entries with
  | nil => rfl
  | cons entry entries inductionHypothesis =>
      rw [renderEntries, List.map_cons, inductionHypothesis]

theorem isEncodable_render_iff {indent : Option Nat} {depth : Nat} :
    IsEncodable (render indent depth document) ↔ document.HasEncoding := by
  induction document using inductionOnParts generalizing depth with
  | null => exact iff_of_true (by decide : IsEncodable "null") hasEncoding_null
  | bool value =>
      refine iff_of_true ?_ (hasEncoding_bool value)
      cases value with
      | true => exact (by decide : IsEncodable "true")
      | false => exact (by decide : IsEncodable "false")
  | number value => exact iff_of_true (isEncodable_numberText value) (hasEncoding_number value)
  | string value => exact isEncodable_stringText_iff.trans hasEncoding_string_iff.symm
  | array items parts =>
      rw [render, isEncodable_bracketed_iff (by decide), renderItems_eq_map, List.forall_mem_map,
        hasEncoding_array_iff]
      exact forall₂_congr fun item listed => parts item listed
  | object entries parts =>
      have colon : IsEncodable ": " := by decide
      rw [render, isEncodable_bracketed_iff (by decide), renderEntries_eq_map, List.forall_mem_map,
        hasEncoding_object_iff]
      refine forall₂_congr fun entry listed => ?_
      simp only [isEncodable_append_iff, colon, and_true, isEncodable_stringText_iff,
        parts entry listed]

theorem hasEncoding_canonicalNumber (places : Option Nat) (value : Number) :
    (canonicalNumber places value).HasEncoding := by
  cases value with
  | int => exact hasEncoding_number _
  | float double =>
      have text := isEncodable_doubleText double
      cases double with
      | finite | negativeZero => cases places <;> exact hasEncoding_number _
      | infinite | nan => exact hasEncoding_string_iff.mpr text

theorem hasEncoding_canonical_iff {places : Option Nat} :
    (document.canonical places).HasEncoding ↔ document.HasEncoding := by
  induction document using inductionOnParts with
  | number value =>
      exact iff_of_true (hasEncoding_canonicalNumber places value) (hasEncoding_number value)
  | array items parts =>
      rw [canonical, canonicalItems_eq_map, hasEncoding_array_iff, hasEncoding_array_iff,
        List.forall_mem_map]
      exact forall₂_congr parts
  | object entries parts =>
      rw [canonical, canonicalEntries_eq_map, hasEncoding_object_iff, hasEncoding_object_iff,
        List.forall_mem_map]
      exact forall₂_congr fun entry listed => and_congr_right fun _ => parts entry listed
  | null | bool | string => rfl

theorem hasEncoding_sortedDeep_iff : document.sortedDeep.HasEncoding ↔ document.HasEncoding := by
  induction document using inductionOnParts with
  | array items parts =>
      rw [sortedDeep, sortedItems_eq_map, hasEncoding_array_iff, hasEncoding_array_iff,
        List.forall_mem_map]
      exact forall₂_congr parts
  | object entries parts =>
      rw [sortedDeep, sortedEntries_eq_map, hasEncoding_object_iff, hasEncoding_object_iff]
      simp only [mem_sorted_iff, List.forall_mem_map]
      exact forall₂_congr fun entry listed => and_congr_right fun _ => parts entry listed
  | null | bool | number | string => rfl

/-- The canonical text of a document has an encoding exactly if each text in the document has
one. -/
theorem isEncodable_canonicalText_iff {reproducible : Bool} :
    IsEncodable (document.canonicalText reproducible) ↔ document.HasEncoding := by
  have lineEnd : IsEncodable "\n" := by decide
  rw [canonicalText, isEncodable_append_iff, sortedText, isEncodable_render_iff,
    hasEncoding_sortedDeep_iff, hasEncoding_canonical_iff]
  exact and_iff_left lineEnd

end Json

end DesignLint
