import DesignLint.Json.Printer
import DesignLint.Json.Reader
import DesignLint.Proofs.Json.Numbers

/-!
# Documents read back

Every document that is written can be read again, at any indentation, by a reader that
takes as many digits. What is read is the document itself, but for three things: a double
is the one that its digits stand for, of two entries with one key the later one is kept,
and a value that JSON has no form for is its text. Each character of a text is written
as one character or as one escape, and the reader takes either as that character.
-/

namespace DesignLint.Json.Reader

variable {c : Char} {rest done : List Char} {fuel : Nat}

/-! ## Escapes in hexadecimal -/

theorem fourHex?_append {digits : List Char} {unit : Nat}
    (read : fourHex? digits = some (unit, [])) : fourHex? (digits ++ rest) = some (unit, rest) := by
  unfold fourHex? at read
  split at read
  · rename_i a b c d more
    simp only [bind, Option.bind_eq_some_iff, Option.some.injEq, Prod.mk.injEq] at read
    obtain ⟨a', aRead, b', bRead, c', cRead, d', dRead, rfl, rfl⟩ := read
    simp [fourHex?, aRead, bRead, cRead, dRead]
  · cases read

theorem fourHex?_hexDigits {unit : Nat} (control : unit < 32) :
    fourHex? ((hexDigits 4 unit).toList ++ rest) = some (unit, rest) := by
  have controls : ∀ unit : Fin 32, fourHex? (hexDigits 4 unit).toList = some (unit.val, []) := by
    decide +kernel
  exact fourHex?_append (controls ⟨unit, control⟩)

theorem unicodeEscape?_of_control {unit : Nat} (control : unit < 32) (rest : List Char) :
    unicodeEscape? ((hexDigits 4 unit).toList ++ rest) = some (Char.ofNat unit, rest) := by
  have low : Surrogate.isHigh unit = false ∧ Surrogate.isLow unit = false := by
    constructor
    · simp [Surrogate.isHigh]
      omega
    · simp [Surrogate.isLow]
      omega
  have lone : Surrogate.ofUnit unit = Char.ofNat unit := by
    simp [Surrogate.ofUnit, low.1, low.2]
  simp only [unicodeEscape?, fourHex?_hexDigits control, low.1, lone, Option.bind_eq_bind,
    Option.bind_some, Bool.false_and, Bool.false_eq_true, if_false]
  split
  · split <;> rfl
  · rfl

/-! ## Characters -/

theorem stringFrom_unescaped (quote : c ≠ Quoted.doubleQuote) (backslash : c ≠ Quoted.backslash)
    (visible : ¬c.toNat < 32) :
    stringFrom (fuel + 1) done (c :: rest) = stringFrom fuel (c :: done) rest := by
  conv => lhs; unfold stringFrom
  split
  · rename_i equal
    cases equal
  · rename_i equal
    cases equal
    exact absurd rfl quote
  · rename_i equal
    cases equal
    exact absurd rfl backslash
  · rename_i equal
    cases equal
    rw [if_neg visible]

/-- One step of the reader takes a character as it is written. -/
theorem stringFrom_escapeChar :
    stringFrom (fuel + 1) done (escapeChar c ++ rest) = stringFrom fuel (c :: done) rest := by
  unfold escapeChar
  split
  · rename_i quote
    subst quote
    rfl
  rename_i quote
  split
  · rename_i backslash
    subst backslash
    rfl
  rename_i backslash
  iterate 5
    split
    · rename_i equal
      subst equal
      rfl
  split
  · rename_i control
    have read := unicodeEscape?_of_control control rest
    rw [Char.ofNat_toNat] at read
    conv => lhs; unfold stringFrom
    simp only [List.cons_append, Quoted.backslash, read]
  · rename_i visible
    exact stringFrom_unescaped quote backslash visible

/-! ## Texts -/

theorem stringFrom_flatMap_escapeChar {text : List Char} (enough : text.length < fuel) :
    stringFrom fuel done (text.flatMap escapeChar ++ Quoted.doubleQuote :: rest) =
      some (text.reverse ++ done, rest) := by
  induction text generalizing fuel done with
  | nil =>
      obtain ⟨fuel, rfl⟩ := Nat.exists_eq_succ_of_ne_zero (Nat.ne_zero_of_lt enough)
      rfl
  | cons c text inductionHypothesis =>
      obtain ⟨fuel, rfl⟩ := Nat.exists_eq_succ_of_ne_zero (Nat.ne_zero_of_lt enough)
      rw [List.flatMap_cons, List.append_assoc, stringFrom_escapeChar,
        inductionHypothesis (Nat.lt_of_succ_lt_succ enough), List.reverse_cons, List.append_assoc,
        List.singleton_append]

theorem length_le_flatMap_escapeChar (text : List Char) :
    text.length ≤ (text.flatMap escapeChar).length := by
  induction text with
  | nil => exact Nat.le_refl 0
  | cons c text inductionHypothesis =>
      have written : 0 < (escapeChar c).length := by
        unfold escapeChar
        repeat' split
        all_goals exact Nat.zero_lt_succ _
      rw [List.flatMap_cons, List.length_append, List.length_cons]
      omega

/-- A text is read back from between its quotes. -/
theorem string_stringText (text : String) (rest : List Char) :
    string (text.toList.flatMap escapeChar ++ Quoted.doubleQuote :: rest) = .ok (text, rest) := by
  have enough : text.toList.length <
      (text.toList.flatMap escapeChar ++ Quoted.doubleQuote :: rest).length + 1 := by
    have := length_le_flatMap_escapeChar text.toList
    rw [List.length_append]
    omega
  rw [string, stringFrom_flatMap_escapeChar enough]
  simp [found]

end DesignLint.Json.Reader

namespace DesignLint.Json

/-- Induction over a document: what holds of all parts of a document holds of it. -/
@[elab_as_elim]
theorem inductionOnParts {motive : Json → Prop} (null : motive .null)
    (bool : ∀ value, motive (.bool value)) (number : ∀ value, motive (.number value))
    (string : ∀ value, motive (.string value))
    (array : ∀ items : List Json, (∀ item ∈ items, motive item) → motive (.array items))
    (object : ∀ entries : JsonObject, (∀ entry ∈ entries, motive entry.2) →
      motive (.object entries)) (document : Json) :
    motive document :=
  @Json.rec motive (fun items => ∀ item ∈ items, motive item)
    (fun entries => ∀ entry ∈ entries, motive entry.2) (fun entry => motive entry.2)
    null bool number string array object
    (List.forall_mem_nil _) (fun _ _ first others => List.forall_mem_cons.mpr ⟨first, others⟩)
    (List.forall_mem_nil _) (fun _ _ first others => List.forall_mem_cons.mpr ⟨first, others⟩)
    (fun _ _ value => value) document

/-! ## What is read back -/

mutual

/-- The document that the text of a document reads as. -/
def reread : Json → Json
  | .number value => .number value.reread
  | .array items => .array (rereadItems items)
  | .object entries => .object (JsonObject.merge [] (rereadEntries entries))
  | value => value

/-- The items that the texts of items read as. -/
def rereadItems : List Json → List Json
  | [] => []
  | item :: items => reread item :: rereadItems items

/-- The entries that the texts of entries read as, one by one. -/
def rereadEntries : List (String × Json) → List (String × Json)
  | [] => []
  | (key, value) :: entries => (key, reread value) :: rereadEntries entries

end

mutual

/-- No whole number of a document has more digits than the limit. -/
def Fits (limit : Option Nat) : Json → Prop
  | .number value => value.Fits limit
  | .array items => FitItems limit items
  | .object entries => FitEntries limit entries
  | _ => True

/-- No whole number of some items has more digits than the limit. -/
def FitItems (limit : Option Nat) : List Json → Prop
  | [] => True
  | item :: items => Fits limit item ∧ FitItems limit items

/-- No whole number of some entries has more digits than the limit. -/
def FitEntries (limit : Option Nat) : List (String × Json) → Prop
  | [] => True
  | (_, value) :: entries => Fits limit value ∧ FitEntries limit entries

end

theorem fitItems_iff {limit : Option Nat} {items : List Json} :
    FitItems limit items ↔ ∀ item ∈ items, item.Fits limit := by
  induction items with
  | nil => simp [FitItems]
  | cons item items inductionHypothesis =>
      rw [FitItems, inductionHypothesis, List.forall_mem_cons]

theorem fitEntries_iff {limit : Option Nat} {entries : JsonObject} :
    FitEntries limit entries ↔ ∀ entry ∈ entries, entry.2.Fits limit := by
  induction entries with
  | nil => simp [FitEntries]
  | cons entry entries inductionHypothesis =>
      rw [FitEntries, inductionHypothesis, List.forall_mem_cons]

theorem fits_none (document : Json) : document.Fits none := by
  induction document using inductionOnParts with
  | number value =>
      rw [Fits]
      exact value.fits_none
  | array items parts =>
      rw [Fits]
      exact fitItems_iff.mpr parts
  | object entries parts =>
      rw [Fits]
      exact fitEntries_iff.mpr parts
  | null | bool | string => simp [Fits]

theorem areWritable_eq_all (items : List Json) : areWritable items = items.all isWritable := by
  induction items with
  | nil => rfl
  | cons item items inductionHypothesis =>
      rw [areWritable, List.all_cons, inductionHypothesis]

theorem areWritableEntries_eq_all (entries : JsonObject) : areWritableEntries entries =
    entries.all fun entry => JsonObject.isWritableKey entry.1 && isWritable entry.2 := by
  induction entries with
  | nil => rfl
  | cons entry entries inductionHypothesis =>
      rw [areWritableEntries, List.all_cons, inductionHypothesis]

theorem isWritable_array_iff {items : List Json} :
    (array items).isWritable = true ↔ ∀ item ∈ items, item.isWritable = true := by
  rw [isWritable, areWritable_eq_all, List.all_eq_true]

theorem isWritable_object_iff {entries : JsonObject} :
    (object entries).isWritable = true ↔
      ∀ entry ∈ entries, JsonObject.isWritableKey entry.1 = true ∧ entry.2.isWritable = true := by
  simp only [isWritable, areWritableEntries_eq_all, List.all_eq_true, Bool.and_eq_true]

/-- A document that can be written can be read back. -/
theorem fits_of_isWritable {document : Json} (writable : document.isWritable = true) :
    document.Fits (some Numeral.digitLimit) := by
  induction document using inductionOnParts with
  | number value =>
      rw [isWritable] at writable
      rw [Fits]
      exact Number.fits_digitLimit_iff.mpr writable
  | array items parts =>
      rw [isWritable_array_iff] at writable
      rw [Fits, fitItems_iff]
      exact fun item listed => parts item listed (writable item listed)
  | object entries parts =>
      rw [isWritable_object_iff] at writable
      rw [Fits, fitEntries_iff]
      exact fun entry listed => parts entry listed (writable entry listed).2
  | null | bool | string => simp [Fits]

namespace Reader

/-! ## Blanks -/

/-- Blanks as they stand between the parts of a document. -/
def Blanks (text : List Char) : Prop := ∀ c ∈ text, c = ' ' ∨ c = '\n'

section Blanks

variable {limit : Option Nat} {blanks text rest : List Char} {separator : String}
  {indent : Option Nat} {fuel : Nat} {read : Json}

theorem blanks_nil : Blanks [] := List.forall_mem_nil _

theorem skipBlanks_append (blank : Blanks blanks) :
    skipBlanks (blanks ++ text) = skipBlanks text := by
  refine List.dropWhile_append_of_pos fun c member => ?_
  rcases blank c member with rfl | rfl <;> rfl

theorem blanks_lineBreak (indent : Option Nat) (depth : Nat) :
    Blanks (lineBreak indent depth).toList := by
  intro c member
  cases indent with
  | none => cases member
  | some width =>
      simp only [lineBreak, String.toList_append, String.toList_ofList, List.mem_append] at member
      rcases member with lineEnd | blank
      · exact .inr (List.mem_singleton.mp lineEnd)
      · exact .inl (List.eq_of_mem_replicate blank)

theorem endsNumber_append {c : Char} (blank : Blanks blanks) (ends : EndsNumber (c :: rest)) :
    EndsNumber (blanks ++ c :: rest) := by
  cases blanks with
  | nil => exact ends
  | cons first blanks =>
      rintro _ ⟨⟩
      rcases blank first List.mem_cons_self with rfl | rfl <;> decide

theorem endsNumber_cons {c : Char} (closes : c = ',' ∨ c = ']' ∨ c = '\x7d')
    (rest : List Char) : EndsNumber (c :: rest) := by
  rintro _ ⟨⟩
  rcases closes with rfl | rfl | rfl <;> decide

/-- A value begins with a character that is no blank and no bracket. -/
theorem exists_first_of_value (taken : value limit fuel text = .ok (read, rest)) :
    ∃ c more, text = c :: more ∧ c ≠ ']' ∧ ∀ tail, skipBlanks (c :: tail) = c :: tail := by
  cases fuel with
  | zero => cases taken
  | succ fuel =>
      cases text with
      | nil => cases taken
      | cons c more =>
          have noBracket : c ≠ ']' := by
            rintro rfl
            cases taken
          have noBlank : ¬(c = ' ' ∨ c = '\t' ∨ c = '\n' ∨ c = '\r') := by
            rintro (rfl | rfl | rfl | rfl) <;> cases taken
          refine ⟨c, more, rfl, noBracket, fun tail => List.dropWhile_cons_of_neg ?_⟩
          simpa [or_assoc] using noBlank

end Blanks

/-! ## Steps of the reader -/

section Steps

variable {limit : Option Nat} {fuel : Nat} {item read : Json} {done : List Json}
  {object : JsonObject} {key : String} {before after text rest : List Char}

theorem skipBlanks_of_value (blank : Blanks before)
    (taken : value limit fuel text = .ok (read, rest)) :
    skipBlanks (before ++ text) = text := by
  obtain ⟨c, more, rfl, -, visible⟩ := exists_first_of_value taken
  rw [skipBlanks_append blank, visible]

theorem value_array (blank : Blanks before) {c : Char} (noBracket : c ≠ ']')
    (visible : ∀ tail, skipBlanks (c :: tail) = c :: tail) :
    value limit (fuel + 1) ('[' :: (before ++ c :: rest)) = items limit fuel [] (c :: rest) := by
  rw [value, skipBlanks_append blank, visible]
  simp [noBracket]

theorem value_object (blank : Blanks before) :
    value limit (fuel + 1) ('\x7b' :: (before ++ '\x22' :: rest)) =
      entries limit fuel [] ('\x22' :: rest) := by
  rw [value, skipBlanks_append blank]
  rfl

theorem items_comma (blank : Blanks before)
    (taken : value limit fuel text = .ok (item, ',' :: rest)) :
    items limit (fuel + 1) done (before ++ text) = items limit fuel (item :: done) rest := by
  rw [items, skipBlanks_of_value blank taken, taken]
  rfl

theorem items_last (blank : Blanks before) (behind : Blanks after)
    (taken : value limit fuel text = .ok (item, after ++ ']' :: rest)) :
    items limit (fuel + 1) done (before ++ text) =
      .ok (.array (done.reverse ++ [item]), rest) := by
  rw [items, skipBlanks_of_value blank taken, taken]
  simp only [skipBlanks_append behind]
  rw [← List.reverse_cons]
  rfl

theorem toList_stringText (key : String) (rest : List Char) : (stringText key).toList ++ rest =
    '\x22' :: (key.toList.flatMap escapeChar ++ '\x22' :: rest) := by
  simp [stringText, Quoted.doubleQuote]

theorem skipBlanks_stringText (blank : Blanks before) (key : String) (rest : List Char) :
    skipBlanks (before ++ ((stringText key).toList ++ rest)) =
      '\x22' :: (key.toList.flatMap escapeChar ++ '\x22' :: rest) := by
  rw [skipBlanks_append blank, toList_stringText]
  rfl

theorem skipBlanks_blank_value (taken : value limit fuel text = .ok (read, rest)) :
    skipBlanks (' ' :: text) = text :=
  skipBlanks_of_value (List.forall_mem_singleton.mpr (.inl rfl)) taken

theorem entries_comma (blank : Blanks before)
    (taken : value limit fuel text = .ok (read, ',' :: rest)) :
    entries limit (fuel + 1) object
        (before ++ ((stringText key).toList ++ ':' :: ' ' :: text)) =
      entries limit fuel (object.set key read) rest := by
  have keyRead := string_stringText key (':' :: ' ' :: text)
  have colon : skipBlanks (':' :: ' ' :: text) = ':' :: ' ' :: text := rfl
  have comma : skipBlanks (',' :: rest) = ',' :: rest := rfl
  rw [Quoted.doubleQuote] at keyRead
  simp only [entries, skipBlanks_stringText blank, keyRead, colon, skipBlanks_blank_value taken,
    taken, comma]

theorem entries_last (blank : Blanks before) (behind : Blanks after)
    (taken : value limit fuel text = .ok (read, after ++ '\x7d' :: rest)) :
    entries limit (fuel + 1) object
        (before ++ ((stringText key).toList ++ ':' :: ' ' :: text)) =
      .ok (.object (object.set key read), rest) := by
  have keyRead := string_stringText key (':' :: ' ' :: text)
  have colon : skipBlanks (':' :: ' ' :: text) = ':' :: ' ' :: text := rfl
  have brace : skipBlanks ('\x7d' :: rest) = '\x7d' :: rest := rfl
  rw [Quoted.doubleQuote] at keyRead
  simp only [entries, skipBlanks_stringText blank, keyRead, colon, skipBlanks_blank_value taken,
    taken, skipBlanks_append behind, brace]

end Steps

/-! ## Parts between brackets -/

section Parts

variable {gap : List Char} {parts : List String}

/-- The characters of parts with a comma and a gap between two of them. -/
def joined (gap : List Char) : List String → List Char
  | [] => []
  | [part] => part.toList
  | part :: next :: parts => part.toList ++ ',' :: (gap ++ joined gap (next :: parts))

theorem toList_intercalate {separator : String} (separates : separator.toList = ',' :: gap)
    (parts : List String) : (separator.intercalate parts).toList = joined gap parts := by
  induction parts with
  | nil => rfl
  | cons part parts inductionHypothesis =>
      cases parts with
      | nil => rw [String.intercalate_singleton, joined]
      | cons next parts =>
          rw [String.intercalate_cons_cons, String.toList_append, String.toList_append,
            inductionHypothesis, separates, joined, List.append_assoc, List.cons_append]

theorem exists_joined_cons_eq (gap : List Char) (first : String) (parts : List String) :
    ∃ more, joined gap (first :: parts) = first.toList ++ more := by
  cases parts with
  | nil => exact ⟨[], by rw [joined, List.append_nil]⟩
  | cons next parts => exact ⟨_, rfl⟩

theorem bracketed_nil (indent : Option Nat) (depth : Nat) (first last : String) :
    bracketed indent depth first last [] = first ++ last :=
  rfl

/-- The parts between brackets are joined, and blanks may stand around them. -/
theorem exists_bracketed_eq (indent : Option Nat) (depth : Nat) (nonempty : parts ≠ [])
    (first last : String) : ∃ gap before after, Blanks gap ∧ Blanks before ∧ Blanks after ∧
      (bracketed indent depth first last parts).toList =
        first.toList ++ (before ++ (joined gap parts ++ (after ++ last.toList))) := by
  have outer := blanks_lineBreak indent depth
  have inner := blanks_lineBreak indent (depth + 1)
  cases indent with
  | none =>
      have separates : (", ").toList = [',', ' '] := rfl
      refine ⟨[' '], _, _, by simp [Blanks], inner, outer, ?_⟩
      simp [bracketed, nonempty, toList_intercalate separates]
  | some width =>
      have separates : ("," ++ lineBreak (some width) (depth + 1)).toList =
          ',' :: (lineBreak (some width) (depth + 1)).toList := String.toList_append
      refine ⟨_, _, _, inner, inner, outer, ?_⟩
      simp [bracketed, nonempty, toList_intercalate separates]

theorem exists_first_bracketed (indent : Option Nat) (depth : Nat) (first last : String)
    (parts : List String) :
    ∃ more, (bracketed indent depth first last parts).toList = first.toList ++ more := by
  unfold bracketed
  split
  · exact ⟨_, String.toList_append⟩
  · exact ⟨_, by simp only [String.append_assoc]; exact String.toList_append⟩

end Parts

/-! ## Documents -/

section Documents

variable {limit indent : Option Nat} {depth : Nat}

/-- The text of a document begins with a character that is no blank and no bracket that closes. -/
theorem exists_first_render (indent : Option Nat) (depth : Nat) (document : Json) :
    ∃ c more, (render indent depth document).toList = c :: more ∧ c ≠ ']' ∧
      ∀ tail, skipBlanks (c :: tail) = c :: tail := by
  cases document with
  | null =>
      rw [render]
      exact ⟨'n', _, rfl, by decide, fun _ => rfl⟩
  | bool value =>
      cases value <;> rw [render]
      · exact ⟨'f', _, rfl, by decide, fun _ => rfl⟩
      · exact ⟨'t', _, rfl, by decide, fun _ => rfl⟩
  | number number =>
      have nothing : EndsNumber [] := by simp [EndsNumber]
      have read := value_numberText number.fits_none 0 nothing
      rw [List.append_nil] at read
      rw [render]
      exact exists_first_of_value read
  | string text =>
      rw [render]
      exact ⟨'\x22', _, String.toList_ofList, by decide, fun _ => rfl⟩
  | array items =>
      rw [render]
      obtain ⟨more, text⟩ :=
        exists_first_bracketed indent depth "[" "]" (renderItems indent (depth + 1) items)
      exact ⟨'[', more, text, by decide, fun _ => rfl⟩
  | object entries =>
      rw [render]
      obtain ⟨more, text⟩ :=
        exists_first_bracketed indent depth "\x7b" "\x7d" (renderEntries indent (depth + 1) entries)
      exact ⟨'\x7b', more, text, by decide, fun _ => rfl⟩

theorem value_string (fuel : Nat) (text : String) (rest : List Char) :
    value limit (fuel + 1) ((render indent depth (.string text)).toList ++ rest) =
      .ok (.string text, rest) := by
  have read := string_stringText text rest
  rw [Quoted.doubleQuote] at read
  rw [render, toList_stringText, value, read]
  rfl

/-- The reader with some steps left reads back whatever has a shorter text and fits its limit. A
bracket and a separator are characters for which it takes a step. -/
structure ReadsBack (limit indent : Option Nat) (fuel : Nat) : Prop where
  value (document : Json) (depth : Nat) {rest : List Char} : document.Fits limit →
    (render indent depth document).toList.length < fuel → EndsNumber rest →
    value limit fuel ((render indent depth document).toList ++ rest) = .ok (document.reread, rest)
  items (item : Json) (others : List Json) (depth : Nat) (done : List Json)
    {gap before after : List Char} (rest : List Char) : FitItems limit (item :: others) →
    (joined gap (renderItems indent depth (item :: others))).length + 1 < fuel →
    Blanks gap → Blanks before → Blanks after →
    items limit fuel done (before ++ (joined gap (renderItems indent depth (item :: others)) ++
        (after ++ ']' :: rest))) =
      .ok (.array (done.reverse ++ rereadItems (item :: others)), rest)
  entries (entry : String × Json) (others : List (String × Json)) (depth : Nat)
    (done : JsonObject) {gap before after : List Char} (rest : List Char) :
    FitEntries limit (entry :: others) →
    (joined gap (renderEntries indent depth (entry :: others))).length + 1 < fuel →
    Blanks gap → Blanks before → Blanks after →
    entries limit fuel done (before ++ (joined gap (renderEntries indent depth (entry :: others)) ++
        (after ++ '\x7d' :: rest))) =
      .ok (.object (done.merge (rereadEntries (entry :: others))), rest)

namespace ReadsBack

variable {fuel : Nat} {gap before after rest : List Char} (reads : ReadsBack limit indent fuel)

include reads

theorem array_succ (item : Json) (others : List Json) (fits : FitItems limit (item :: others))
    (enough : (render indent depth (.array (item :: others))).toList.length < fuel + 1) :
    Reader.value limit (fuel + 1)
        ((render indent depth (.array (item :: others))).toList ++ rest) =
      .ok (.array (rereadItems (item :: others)), rest) := by
  have nonempty : renderItems indent (depth + 1) (item :: others) ≠ [] := List.cons_ne_nil _ _
  obtain ⟨gap, before, after, gapBlank, beforeBlank, afterBlank, text⟩ :=
    exists_bracketed_eq indent depth nonempty "[" "]"
  have brackets : "[".toList = ['['] ∧ "]".toList = [']'] := ⟨rfl, rfl⟩
  rw [render, text, brackets.1, brackets.2] at enough ⊢
  simp only [List.length_append, List.length_singleton] at enough
  have read := reads.items item others (depth + 1) [] rest fits (by omega) gapBlank blanks_nil
    afterBlank
  obtain ⟨c, more, first, noBracket, visible⟩ := exists_first_render indent (depth + 1) item
  obtain ⟨tail, begins⟩ := exists_joined_cons_eq gap (render indent (depth + 1) item)
    (renderItems indent (depth + 1) others)
  rw [← renderItems, first] at begins
  simp only [begins, List.append_assoc, List.cons_append, List.nil_append, List.reverse_nil]
    at read ⊢
  exact (value_array beforeBlank noBracket visible).trans read

theorem object_succ (entry : String × Json) (others : List (String × Json))
    (fits : FitEntries limit (entry :: others))
    (enough : (render indent depth (.object (entry :: others))).toList.length < fuel + 1) :
    Reader.value limit (fuel + 1)
        ((render indent depth (.object (entry :: others))).toList ++ rest) =
      .ok (.object (JsonObject.merge [] (rereadEntries (entry :: others))), rest) := by
  have nonempty : renderEntries indent (depth + 1) (entry :: others) ≠ [] := List.cons_ne_nil _ _
  obtain ⟨gap, before, after, gapBlank, beforeBlank, afterBlank, text⟩ :=
    exists_bracketed_eq indent depth nonempty "\x7b" "\x7d"
  have braces : "\x7b".toList = ['\x7b'] ∧ "\x7d".toList = ['\x7d'] := ⟨rfl, rfl⟩
  rw [render, text, braces.1, braces.2] at enough ⊢
  simp only [List.length_append, List.length_singleton] at enough
  have read :=
    reads.entries entry others (depth + 1) [] rest fits (by omega) gapBlank blanks_nil afterBlank
  obtain ⟨key, value⟩ := entry
  obtain ⟨tail, begins⟩ := exists_joined_cons_eq gap
    (stringText key ++ ": " ++ render indent (depth + 1) value)
    (renderEntries indent (depth + 1) others)
  rw [← renderEntries, String.append_assoc, String.toList_append, List.append_assoc,
    toList_stringText] at begins
  simp only [begins, List.append_assoc, List.cons_append, List.nil_append] at read ⊢
  exact (value_object beforeBlank).trans read

theorem value_succ (document : Json) (fits : document.Fits limit)
    (enough : (render indent depth document).toList.length < fuel + 1) (ends : EndsNumber rest) :
    Reader.value limit (fuel + 1) ((render indent depth document).toList ++ rest) =
      .ok (document.reread, rest) := by
  cases document with
  | null =>
      rw [render]
      exact word_append "null" .null rest
  | bool value =>
      cases value <;> rw [render]
      · exact word_append "false" (.bool false) rest
      · exact word_append "true" (.bool true) rest
  | number number =>
      rw [Fits] at fits
      rw [render, reread]
      exact value_numberText fits fuel ends
  | string text => exact value_string fuel text rest
  | array items =>
      rw [Fits] at fits
      rw [reread]
      cases items with
      | nil =>
          rw [render, renderItems, bracketed_nil, String.toList_append]
          rfl
      | cons item others => exact reads.array_succ item others fits enough
  | object entries =>
      rw [Fits] at fits
      rw [reread]
      cases entries with
      | nil =>
          rw [render, renderEntries, bracketed_nil, String.toList_append]
          rfl
      | cons entry others => exact reads.object_succ entry others fits enough

theorem items_succ (item : Json) (others : List Json) (done : List Json)
    (fits : FitItems limit (item :: others))
    (enough : (joined gap (renderItems indent depth (item :: others))).length + 1 < fuel + 1)
    (gapBlank : Blanks gap) (beforeBlank : Blanks before) (afterBlank : Blanks after) :
    Reader.items limit (fuel + 1) done
        (before ++ (joined gap (renderItems indent depth (item :: others)) ++
          (after ++ ']' :: rest))) =
      .ok (.array (done.reverse ++ rereadItems (item :: others)), rest) := by
  rw [FitItems] at fits
  cases others with
  | nil =>
      simp only [renderItems, joined] at enough ⊢
      exact items_last beforeBlank afterBlank (reads.value item depth fits.1 (by omega)
        (endsNumber_append afterBlank (endsNumber_cons (by decide) rest)))
  | cons next others =>
      rw [renderItems, renderItems, joined, ← renderItems] at enough ⊢
      simp only [List.length_append, List.length_cons] at enough
      have taken (tail : List Char) :=
        reads.value item depth fits.1 (by omega) (endsNumber_cons (.inl rfl) tail)
      have read := reads.items next others depth (item.reread :: done) rest fits.2 (by omega)
        gapBlank gapBlank afterBlank
      simp only [List.append_assoc, List.cons_append]
      rw [items_comma beforeBlank (taken _), read, List.reverse_cons, List.append_assoc]
      rfl

theorem entries_succ (entry : String × Json) (others : List (String × Json)) (done : JsonObject)
    (fits : FitEntries limit (entry :: others))
    (enough : (joined gap (renderEntries indent depth (entry :: others))).length + 1 < fuel + 1)
    (gapBlank : Blanks gap) (beforeBlank : Blanks before) (afterBlank : Blanks after) :
    Reader.entries limit (fuel + 1) done
        (before ++ (joined gap (renderEntries indent depth (entry :: others)) ++
          (after ++ '\x7d' :: rest))) =
      .ok (.object (done.merge (rereadEntries (entry :: others))), rest) := by
  obtain ⟨key, value⟩ := entry
  rw [FitEntries] at fits
  cases others with
  | nil =>
      simp only [renderEntries, joined, String.toList_append, List.append_assoc,
        List.length_append] at enough ⊢
      exact entries_last beforeBlank afterBlank (reads.value value depth fits.1 (by omega)
        (endsNumber_append afterBlank (endsNumber_cons (by decide) rest)))
  | cons next others =>
      obtain ⟨nextKey, nextValue⟩ := next
      rw [renderEntries, renderEntries, joined, ← renderEntries] at enough ⊢
      simp only [String.toList_append, List.length_append, List.length_cons] at enough
      have taken (tail : List Char) :=
        reads.value value depth fits.1 (by omega) (endsNumber_cons (.inl rfl) tail)
      have read := reads.entries (nextKey, nextValue) others depth (done.set key value.reread) rest
        fits.2 (by omega) gapBlank gapBlank afterBlank
      simp only [String.toList_append, List.append_assoc, List.cons_append]
      exact (entries_comma beforeBlank (taken _)).trans read

end ReadsBack

theorem readsBack (limit indent : Option Nat) (fuel : Nat) : ReadsBack limit indent fuel := by
  induction fuel with
  | zero => exact ⟨nofun, nofun, nofun⟩
  | succ fuel inductionHypothesis =>
      exact {
        value := fun document _ _ => inductionHypothesis.value_succ document
        items := fun item others _ done _ _ _ _ => inductionHypothesis.items_succ item others done
        entries := fun entry others _ done _ _ _ _ =>
          inductionHypothesis.entries_succ entry others done }

end Documents

end Reader

open Reader

/-- What is written is read, if it fits the limit: a document followed by a line end. -/
theorem read_render {limit : Option Nat} (indent : Option Nat) {document : Json}
    (fits : document.Fits limit) :
    read limit (render indent 0 document ++ "\n") = .ok document.reread := by
  have text : (render indent 0 document ++ "\n").toList =
      (render indent 0 document).toList ++ ['\n'] :=
    String.toList_append
  have ends : EndsNumber ['\n'] := by
    rintro _ ⟨⟩
    decide
  obtain ⟨c, more, first, -, visible⟩ := exists_first_render indent 0 document
  have begins : skipBlanks ((render indent 0 document).toList ++ ['\n']) =
      (render indent 0 document).toList ++ ['\n'] := by
    rw [first, List.cons_append, visible]
  have reads := readsBack limit indent (((render indent 0 document).toList ++ ['\n']).length + 1)
  have taken := reads.value document 0 fits (by rw [List.length_append]; omega) ends
  simp only [read, text, begins, taken]
  rfl

end DesignLint.Json
