import DesignLint.Proofs.Json.Alike
import DesignLint.Report.Value
import DesignLint.Result.Stamp

/-!
# Canonical texts

The canonical text of a plain value stands for its document, up to the order of the entries of
objects: two values have the same text exactly if their documents are alike. So the text does not
depend on the order in which a mapping got its entries or in which a set shows its elements.

The identifier of a reproducible run is taken from the canonical text of its configuration and its
files. Where no doubles are rounded, this text tells the configuration, up to the order of entries,
and the files.
-/

namespace DesignLint

/-! ## Identities of reproducible runs -/

/-- The whole numbers. -/
def Number.IsInteger : Number → Prop
  | .int _ => True
  | .float _ => False

section Identities

variable {config other : Json} {files others : List String}

/-- The document that the identifier of a reproducible run is taken from. -/
def runIdentity (config : Json) (files : List String) : Json :=
  .object [("config", config), ("files", .strings files)]

theorem namesKeysOnce_runIdentity (once : config.NamesKeysOnce) (files : List String) :
    (runIdentity config files).NamesKeysOnce := by
  have texts : (Json.strings files).NamesKeysOnce :=
    .array (List.forall_mem_map.mpr fun file _ => .string file)
  refine .object (by simp [JsonObject.IsMapping]) ?_
  exact List.forall_mem_cons.mpr ⟨once, List.forall_mem_singleton.mpr texts⟩

theorem onlyNumbers_runIdentity {holds : Number → Prop} (numbers : config.OnlyNumbers holds)
    (files : List String) : (runIdentity config files).OnlyNumbers holds := by
  have texts : (Json.strings files).OnlyNumbers holds :=
    .array (List.forall_mem_map.mpr fun file _ => .string file)
  exact .object (List.forall_mem_cons.mpr ⟨numbers, List.forall_mem_singleton.mpr texts⟩)

theorem strings_alike_iff : (Json.strings files).Alike (.strings others) ↔ files = others := by
  have texts (files : List String) : (Json.strings files).NamesKeysOnce :=
    .array (List.forall_mem_map.mpr fun file _ => .string file)
  have sorted (files : List String) : (Json.strings files).sortedDeep = .strings files := by
    rw [Json.strings, Json.sortedDeep_array, List.map_map]
    rfl
  rw [← Json.sortedDeep_eq_iff_alike (texts files) (texts others), sorted, sorted]
  constructor
  · intro same
    exact List.map_injective_iff.mpr (fun _ _ => Json.string.inj) (Json.array.inj same)
  · rintro rfl
    rfl

theorem runIdentity_alike_iff : (runIdentity config files).Alike (runIdentity other others) ↔
    config.Alike other ∧ files = others := by
  rw [← strings_alike_iff]
  constructor
  · intro alike
    cases alike with
    | object keys parts =>
        exact ⟨parts "config" config other (by simp) (by simp),
          parts "files" (.strings files) (.strings others) (by simp) (by simp)⟩
  · rintro ⟨configs, texts⟩
    refine .object (.refl _) fun key value changed inFirst inSecond => ?_
    simp only [List.mem_cons, Prod.mk.injEq, List.not_mem_nil, or_false] at inFirst inSecond
    rcases inFirst with ⟨rfl, rfl⟩ | ⟨rfl, rfl⟩
    · obtain ⟨-, rfl⟩ := inSecond.resolve_right (by simp)
      exact configs
    · obtain ⟨-, rfl⟩ := inSecond.resolve_left (by simp)
      exact texts

theorem runIdentityText_eq (integers : config.OnlyNumbers Number.IsInteger)
    (files : List String) :
    runIdentityText config files = (runIdentity config files).sortedText (some 2) ++ "\n" := by
  have whole : (runIdentity config files).OnlyNumbers fun value =>
      canonicalNumber (keptPlaces true) value = .number value := by
    refine (onlyNumbers_runIdentity integers files).imp fun value integer => ?_
    cases value with
    | int => rfl
    | float => cases integer
  rw [runIdentityText, Json.canonicalText, ← runIdentity, Json.canonical_eq_self whole]

/-- Runs have the same text to take their identifiers from exactly if they have the same
configuration, up to the order of entries, and the same files. -/
theorem runIdentityText_eq_iff (once : config.NamesKeysOnce) (onceToo : other.NamesKeysOnce)
    (integers : config.OnlyNumbers Number.IsInteger)
    (integersToo : other.OnlyNumbers Number.IsInteger) :
    runIdentityText config files = runIdentityText other others ↔
      config.Alike other ∧ files = others := by
  have exact {config : Json} (integers : config.OnlyNumbers Number.IsInteger)
      (files : List String) : (runIdentity config files).OnlyNumbers Number.IsExact := by
    refine (onlyNumbers_runIdentity integers files).imp fun value integer => ?_
    cases value with
    | int => trivial
    | float => cases integer
  rw [runIdentityText_eq integers, runIdentityText_eq integersToo, String.append_left_inj,
    Json.sortedText_eq_iff_alike _ (namesKeysOnce_runIdentity once files)
      (namesKeysOnce_runIdentity onceToo others) (exact integers files)
      (exact integersToo others), runIdentity_alike_iff]

end Identities

namespace Value

/-! ## Plain values -/

/-- A mapping from names to values. -/
def named (entries : List (String × Value)) : Value :=
  .mapping (entries.map fun entry => (.text entry.1, entry.2))

/-- A set of texts. -/
def texts (words : List String) : Value := .set (words.map .text)

/-- The values that are built of nothing, truth values, whole numbers, finite doubles and texts by
lists, mappings from names, and sets of texts. A mapping has each name once, a set each text. -/
inductive IsPlain : Value → Prop
  | null : IsPlain .null
  | bool (value : Bool) : IsPlain (.bool value)
  | int (value : Int) : IsPlain (.number (.int value))
  | double {value : Binary64} {magnitude : Rat} (finite : value.value? = some magnitude)
      (isDouble : value.IsDouble) : IsPlain (.number (.float value))
  | text (value : String) : IsPlain (.text value)
  | list {items : List Value} (parts : ∀ item ∈ items, IsPlain item) : IsPlain (.list items)
  | mapping {entries : List (String × Value)} (distinct : (entries.map Prod.fst).Nodup)
      (parts : ∀ entry ∈ entries, IsPlain entry.2) : IsPlain (named entries)
  | set {words : List String} (distinct : words.Nodup) : IsPlain (texts words)

/-- Values that are the same up to the order of the entries of mappings and of the elements of
sets, however deep. -/
inductive Rearranges : Value → Value → Prop
  | same (value : Value) : Rearranges value value
  | list {items others : List Value} (length : items.length = others.length)
      (parts : ∀ pair ∈ items.zip others, Rearranges pair.1 pair.2) :
    Rearranges (.list items) (.list others)
  | mapping {entries others : List (String × Value)}
      (names : (entries.map Prod.fst).Perm (others.map Prod.fst))
      (parts : ∀ name value other, (name, value) ∈ entries → (name, other) ∈ others →
        Rearranges value other) :
    Rearranges (named entries) (named others)
  | set {words others : List String} (same : words.Perm others) :
    Rearranges (texts words) (texts others)

/-! ## Documents of values -/

section Documents

variable {places : Option Nat}

theorem documents?_eq_some_iff {items : List Value} {documents : List Json} :
    documents? places items = some documents ↔
      List.Forall₂ (fun item document => item.toJson? places = some document) items documents := by
  induction items generalizing documents with
  | nil => simp [documents?, eq_comm]
  | cons item items inductionHypothesis =>
      rw [List.forall₂_cons_left_iff, documents?]
      simp only [Option.bind_eq_bind, Option.bind_eq_some_iff, inductionHypothesis,
        Option.some.injEq]
      constructor
      · rintro ⟨document, first, others, rest, rfl⟩
        exact ⟨document, others, first, rest, rfl⟩
      · rintro ⟨document, others, first, rest, rfl⟩
        exact ⟨document, first, others, rest, rfl⟩

/-- An entry of a mapping and the one of its document. -/
def ShowsEntry (places : Option Nat) (entry : String × Value) (shown : String × Json) : Prop :=
  shown.1 = entry.1 ∧ entry.2.toJson? places = some shown.2

theorem entriesFrom?_eq_some_iff {entries : List (String × Value)} {before result : JsonObject} :
    entriesFrom? places before (entries.map fun entry => (.text entry.1, entry.2)) = some result ↔
      ∃ shown, List.Forall₂ (ShowsEntry places) entries shown ∧ before.merge shown = result := by
  induction entries generalizing before with
  | nil => simp [entriesFrom?]
  | cons entry entries inductionHypothesis =>
      rw [List.map_cons, entriesFrom?]
      simp only [Option.bind_eq_bind, Option.bind_eq_some_iff, inductionHypothesis,
        List.forall₂_cons_left_iff]
      constructor
      · rintro ⟨document, first, shown, rest, rfl⟩
        exact ⟨_, ⟨(entry.1, document), shown, ⟨rfl, first⟩, rest, rfl⟩, rfl⟩
      · rintro ⟨_, ⟨⟨_, document⟩, shown, ⟨rfl, first⟩, rest, rfl⟩, rfl⟩
        exact ⟨document, first, shown, rest, rfl⟩

theorem keys_eq_of_showsEntry {entries : List (String × Value)} {shown : JsonObject}
    (shows : List.Forall₂ (ShowsEntry places) entries shown) :
    shown.keys = entries.map Prod.fst := by
  induction shows with
  | nil => rfl
  | cons first _ inductionHypothesis =>
      rw [JsonObject.keys_cons, inductionHypothesis, first.1, List.map_cons]

theorem toJson?_named_eq_some_iff {entries : List (String × Value)} {document : Json}
    (distinct : (entries.map Prod.fst).Nodup) :
    (named entries).toJson? places = some document ↔
      ∃ shown, List.Forall₂ (ShowsEntry places) entries shown ∧ document = .object shown := by
  rw [named, toJson?, Option.map_eq_some_iff]
  simp only [entriesFrom?_eq_some_iff]
  constructor
  · rintro ⟨_, ⟨shown, shows, rfl⟩, rfl⟩
    refine ⟨shown, shows, ?_⟩
    rw [JsonObject.nil_merge (by rwa [JsonObject.IsMapping, keys_eq_of_showsEntry shows])]
  · rintro ⟨shown, shows, rfl⟩
    refine ⟨shown, ⟨shown, shows, ?_⟩, rfl⟩
    exact JsonObject.nil_merge (by rwa [JsonObject.IsMapping, keys_eq_of_showsEntry shows])

theorem order?_string (a b : String) :
    Json.order? (.string a) (.string b) = some (Json.orderTexts a b) := by
  rw [Json.order?]

theorem orderTexts_ne_gt_iff (a b : String) : Json.orderTexts a b ≠ .gt ↔ a ≤ b := by
  unfold Json.orderTexts
  split
  · rename_i less
    simp [less.le]
  · split
    · rename_i greater
      simp [greater]
    · rename_i notGreater
      simp [not_lt.mp notGreater]

theorem increasing?_strings (words : List String) : Json.increasing? (words.map .string) =
    some ((words.mergeSort fun a b => decide (a ≤ b)).map .string) := by
  have comparable : Json.allComparable (words.map .string) = true := by
    induction words with
    | nil => rfl
    | cons word words inductionHypothesis =>
        rw [List.map_cons, Json.allComparable, inductionHypothesis, Bool.and_true, List.all_map,
          List.all_eq_true]
        intro other _
        rw [Function.comp, order?_string]
        rfl
  have sorted : (words.mergeSort fun a b => decide (a ≤ b)).map Json.string =
      (words.map Json.string).mergeSort fun a b => Json.order? a b != some .gt := by
    refine List.map_mergeSort fun a _ b _ => ?_
    rw [order?_string, Bool.eq_iff_iff, decide_eq_true_eq, ← orderTexts_ne_gt_iff, bne_iff_ne,
      ne_eq, ne_eq, Option.some.injEq]
  rw [Json.increasing?, if_pos comparable, sorted]

/-- A set of texts is shown as the list of its elements in increasing order. -/
theorem toJson?_texts (words : List String) : (texts words).toJson? places =
    some (.strings (words.mergeSort fun a b => decide (a ≤ b))) := by
  have documents : documents? places (words.map .text) = some (words.map .string) := by
    rw [documents?_eq_some_iff, List.forall₂_map_left_iff, List.forall₂_map_right_iff,
      List.forall₂_same]
    intro word _
    rw [toJson?]
  rw [texts, toJson?, documents]
  simp only [Option.bind_eq_bind, Option.bind_some, increasing?_strings]
  rfl

end Documents

/-! ## Plain values have documents -/

section Lists

variable {α β : Type} {R : α → β → Prop} {items : List α} {others : List β}

/-- What the members of a list each have, they have together. -/
theorem exists_forall₂ (each : ∀ item ∈ items, ∃ other, R item other) :
    ∃ others, List.Forall₂ R items others := by
  induction items with
  | nil => exact ⟨[], .nil⟩
  | cons item items inductionHypothesis =>
      obtain ⟨⟨other, first⟩, rest⟩ := List.forall_mem_cons.mp each
      obtain ⟨others, later⟩ := inductionHypothesis rest
      exact ⟨other :: others, .cons first later⟩

theorem exists_of_forall₂ (related : List.Forall₂ R items others) :
    ∀ other ∈ others, ∃ item ∈ items, R item other := by
  induction related with
  | nil => simp
  | cons first _ inductionHypothesis =>
      refine List.forall_mem_cons.mpr ⟨⟨_, List.mem_cons_self, first⟩, fun other listed => ?_⟩
      obtain ⟨item, itemListed, own⟩ := inductionHypothesis other listed
      exact ⟨item, List.mem_cons_of_mem _ itemListed, own⟩

/-- Lists whose members are related have images whose members are. -/
theorem forall₂_images {P : α → α → Prop} {Q : β → β → Prop} {items others : List α}
    {images changed : List β} (carries : ∀ item other image change, P item other → R item image →
      R other change → Q image change) (related : List.Forall₂ P items others)
    (first : List.Forall₂ R items images) (second : List.Forall₂ R others changed) :
    List.Forall₂ Q images changed := by
  induction related generalizing images changed with
  | nil =>
      cases first
      cases second
      exact .nil
  | cons own _ inductionHypothesis =>
      cases first with
      | cons image images =>
          cases second with
          | cons change changed =>
              exact .cons (carries _ _ _ _ own image change) (inductionHypothesis images changed)

end Lists

theorem canonicalNumber_of_finite {value : Binary64} {magnitude : Rat}
    (finite : value.value? = some magnitude) :
    canonicalNumber none (.float value) = .number (.float value) := by
  cases value with
  | finite => rfl
  | negativeZero => rfl
  | infinite => cases finite
  | nan => cases finite

/-- The document of a plain value: it names its keys once and has exact numbers. -/
structure IsShownBy (value : Value) (document : Json) : Prop where
  shown : value.toJson? none = some document
  once : document.NamesKeysOnce
  exact : document.OnlyNumbers Number.IsExact

theorem IsPlain.exists_isShownBy {value : Value} (plain : value.IsPlain) :
    ∃ document, value.IsShownBy document := by
  induction plain with
  | null => exact ⟨.null, by rw [toJson?], .null, .null⟩
  | bool value => exact ⟨.bool value, by rw [toJson?], .bool value, .bool value⟩
  | int value => exact ⟨.number (.int value), by rw [toJson?, canonicalNumber], .number _,
      .number trivial⟩
  | double finite isDouble =>
      refine ⟨.number (.float _), ?_, .number _, .number isDouble⟩
      rw [toJson?, canonicalNumber_of_finite finite]
  | text value => exact ⟨.string value, by rw [toJson?], .string value, .string value⟩
  | list parts inductionHypothesis =>
      obtain ⟨documents, shown⟩ := exists_forall₂ inductionHypothesis
      have each := exists_of_forall₂ shown
      refine ⟨.array documents, ?_, .array fun document listed => ?_,
        .array fun document listed => ?_⟩
      · rw [toJson?, documents?_eq_some_iff.mpr (shown.imp fun _ _ own => own.shown)]
        rfl
      · obtain ⟨item, -, own⟩ := each document listed
        exact own.once
      · obtain ⟨item, -, own⟩ := each document listed
        exact own.exact
  | @mapping entries distinct parts inductionHypothesis =>
      have entry : ∀ entry ∈ entries, ∃ shown : String × Json,
          shown.1 = entry.1 ∧ entry.2.IsShownBy shown.2 := by
        intro entry listed
        obtain ⟨document, own⟩ := inductionHypothesis entry listed
        exact ⟨(entry.1, document), rfl, own⟩
      obtain ⟨shown, related⟩ := exists_forall₂ entry
      have shows : List.Forall₂ (ShowsEntry none) entries shown :=
        related.imp fun _ _ own => ⟨own.1, own.2.shown⟩
      have mapping : JsonObject.IsMapping shown := by
        rwa [JsonObject.IsMapping, keys_eq_of_showsEntry shows]
      have each := exists_of_forall₂ related
      refine ⟨.object shown, (toJson?_named_eq_some_iff distinct).mpr ⟨shown, shows, rfl⟩,
        .object mapping fun entry listed => ?_, .object fun entry listed => ?_⟩
      · obtain ⟨own, -, -, isShownBy⟩ := each entry listed
        exact isShownBy.once
      · obtain ⟨own, -, -, isShownBy⟩ := each entry listed
        exact isShownBy.exact
  | @set words distinct =>
      refine ⟨_, toJson?_texts words, .array ?_, .array ?_⟩
      · exact List.forall_mem_map.mpr fun word _ => .string word
      · exact List.forall_mem_map.mpr fun word _ => .string word

/-! ## Rearranged values -/

theorem named_injective : Function.Injective named := by
  intro entries others same
  refine List.map_injective_iff.mpr ?_ (Value.mapping.inj same)
  rintro ⟨name, value⟩ ⟨other, changed⟩ equal
  obtain ⟨keys, values⟩ := Prod.mk.inj equal
  exact Prod.ext (Value.text.inj keys) values

theorem IsPlain.of_list {items : List Value} (plain : (Value.list items).IsPlain) :
    ∀ item ∈ items, item.IsPlain := by
  generalize whole : Value.list items = value at plain
  cases plain with
  | list parts => exact Value.list.inj whole ▸ parts
  | _ => cases whole

theorem IsPlain.of_named {entries : List (String × Value)} (plain : (named entries).IsPlain) :
    (entries.map Prod.fst).Nodup ∧ ∀ entry ∈ entries, entry.2.IsPlain := by
  generalize whole : named entries = value at plain
  cases plain with
  | mapping distinct parts => exact named_injective whole ▸ ⟨distinct, parts⟩
  | _ => cases whole

/-- Rearranged values have documents that are alike. -/
theorem Rearranges.alike {value other : Value} (rearranges : value.Rearranges other)
    (plain : value.IsPlain) (plainToo : other.IsPlain) {document changed : Json}
    (shown : value.toJson? none = some document) (shownToo : other.toJson? none = some changed) :
    document.Alike changed := by
  induction rearranges generalizing document changed with
  | same value =>
      obtain ⟨own, isShownBy⟩ := plain.exists_isShownBy
      obtain rfl := Option.some.inj (shown.symm.trans shownToo)
      obtain rfl := Option.some.inj (shown.symm.trans isShownBy.shown)
      exact .refl isShownBy.once
  | @list items others length parts inductionHypothesis =>
      rw [toJson?, Option.map_eq_some_iff] at shown shownToo
      obtain ⟨documents, first, rfl⟩ := shown
      obtain ⟨changes, second, rfl⟩ := shownToo
      rw [documents?_eq_some_iff] at first second
      have related : List.Forall₂ (fun item other => ∀ document changed,
          item.toJson? none = some document → other.toJson? none = some changed →
          document.Alike changed) items others := by
        refine List.forall₂_iff_zip.mpr ⟨length, fun {item other} listed document changed => ?_⟩
        obtain ⟨inItems, inOthers⟩ := List.of_mem_zip listed
        exact inductionHypothesis (item, other) listed (plain.of_list item inItems)
          (plainToo.of_list other inOthers)
      have alike := forall₂_images (fun _ _ _ _ own image change => own _ _ image change) related
        first second
      obtain ⟨lengths, each⟩ := List.forall₂_iff_zip.mp alike
      exact .array lengths fun pair listed => each listed
  | @mapping entries others names parts inductionHypothesis =>
      obtain ⟨distinct, plainParts⟩ := plain.of_named
      obtain ⟨distinctToo, plainOthers⟩ := plainToo.of_named
      obtain ⟨documents, first, rfl⟩ := (toJson?_named_eq_some_iff distinct).mp shown
      obtain ⟨changes, second, rfl⟩ := (toJson?_named_eq_some_iff distinctToo).mp shownToo
      refine .object ?_ fun key document change inDocuments inChanges => ?_
      · rwa [keys_eq_of_showsEntry first, keys_eq_of_showsEntry second]
      · obtain ⟨⟨name, value⟩, listed, rfl, shown⟩ := exists_of_forall₂ first _ inDocuments
        obtain ⟨⟨_, other⟩, listedToo, rfl, shownToo⟩ := exists_of_forall₂ second _ inChanges
        exact inductionHypothesis _ value other listed listedToo (plainParts _ listed)
          (plainOthers _ listedToo) shown shownToo
  | @set words others same =>
      have sorted : (words.mergeSort fun a b => decide (a ≤ b)) =
          others.mergeSort fun a b => decide (a ≤ b) := by
        refine mergeSort_eq_of_perm ?_ ?_ ?_ same
        · simp only [decide_eq_true_eq]
          exact fun _ _ _ => le_trans
        · simp only [Bool.or_eq_true, decide_eq_true_eq]
          exact le_total
        · simp only [decide_eq_true_eq]
          exact fun _ _ _ _ => le_antisymm
      rw [toJson?_texts, ← sorted, ← toJson?_texts] at shownToo
      obtain ⟨own, isShownBy⟩ := plain.exists_isShownBy
      obtain rfl := Option.some.inj (shown.symm.trans shownToo)
      obtain rfl := Option.some.inj (shown.symm.trans isShownBy.shown)
      exact .refl isShownBy.once

/-! ## Texts -/

section Texts

variable {value other : Value} {document changed : Json}

/-- The text of a value is that of its document, if the document can be written. -/
theorem IsShownBy.canonicalText?_eq (shown : value.IsShownBy document) (indent : Option Nat) :
    value.canonicalText? false indent =
      if document.isWritable then some (document.sortedText indent ++ "\n") else none := by
  have places : keptPlaces false = none := rfl
  rw [canonicalText?, places, shown.shown, Option.filter_some]
  split <;> rfl

/-- Two texts of values are the same exactly if the documents are alike. -/
theorem IsShownBy.text_eq_iff_alike (shown : value.IsShownBy document)
    (shownToo : other.IsShownBy changed) {indent : Option Nat} {text words : String}
    (textEq : value.canonicalText? false indent = some text)
    (wordsEq : other.canonicalText? false indent = some words) :
    text = words ↔ document.Alike changed := by
  rw [shown.canonicalText?_eq, Option.ite_none_right_eq_some] at textEq
  rw [shownToo.canonicalText?_eq, Option.ite_none_right_eq_some] at wordsEq
  obtain ⟨-, textEq⟩ := textEq
  obtain ⟨-, wordsEq⟩ := wordsEq
  cases textEq
  cases wordsEq
  rw [String.append_left_inj,
    Json.sortedText_eq_iff_alike indent shown.once shownToo.once shown.exact shownToo.exact]

/-- Values whose documents are alike have the same text, or both have none. -/
theorem IsShownBy.canonicalText?_eq_of_alike (shown : value.IsShownBy document)
    (shownToo : other.IsShownBy changed) (alike : document.Alike changed) (indent : Option Nat) :
    value.canonicalText? false indent = other.canonicalText? false indent := by
  have same := Json.sortedDeep_eq_of_alike alike shown.once shownToo.once
  have writable : document.isWritable = changed.isWritable := by
    rw [Bool.eq_iff_iff, ← Json.isWritable_sortedDeep_iff, same, Json.isWritable_sortedDeep_iff]
  rw [shown.canonicalText?_eq, shownToo.canonicalText?_eq, writable, Json.sortedText, same,
    Json.sortedText]

end Texts

end Value

/-- The canonical text is a canonical form. Plain values have documents, and a text exactly if the
whole numbers in the document have no more digits than can be written. Two texts are the same
exactly if the documents are, up to the order of the entries of objects. So rearranging entries and
elements never changes a text, and runs over whole numbers whose configurations or whose files
differ take their identifiers from different texts. -/
theorem canonicalText?_isCanonical (indent : Option Nat) :
    (∀ value other : Value, value.IsPlain → other.IsPlain →
      ∃ document changed, value.toJson? none = some document ∧
        other.toJson? none = some changed ∧
        ((∃ text, value.canonicalText? false indent = some text) ↔ document.isWritable = true) ∧
        ∀ text words, value.canonicalText? false indent = some text →
          other.canonicalText? false indent = some words →
          (text = words ↔ document.Alike changed)) ∧
    (∀ value other : Value, value.IsPlain → other.IsPlain → value.Rearranges other →
      value.canonicalText? false indent = other.canonicalText? false indent) ∧
    ∀ config other files others, config.NamesKeysOnce → other.NamesKeysOnce →
      config.OnlyNumbers Number.IsInteger → other.OnlyNumbers Number.IsInteger →
      (runIdentityText config files = runIdentityText other others ↔
        config.Alike other ∧ files = others) := by
  refine ⟨?texts, ?rearranged, ?runs⟩
  case texts =>
    intro value other plain plainToo
    obtain ⟨document, shown⟩ := plain.exists_isShownBy
    obtain ⟨changed, shownToo⟩ := plainToo.exists_isShownBy
    refine ⟨document, changed, shown.shown, shownToo.shown, ?_, fun text words =>
      shown.text_eq_iff_alike shownToo⟩
    rw [shown.canonicalText?_eq]
    split <;> simp [*]
  case rearranged =>
    intro value other plain plainToo rearranges
    obtain ⟨document, shown⟩ := plain.exists_isShownBy
    obtain ⟨changed, shownToo⟩ := plainToo.exists_isShownBy
    exact shown.canonicalText?_eq_of_alike shownToo
      (rearranges.alike plain plainToo shown.shown shownToo.shown) indent
  case runs =>
    intro config other files others once onceToo integers integersToo
    exact runIdentityText_eq_iff once onceToo integers integersToo

/-- A component with its members and its score. -/
def component : Value := .named [
  ("members", .texts ["write", "read"]),
  ("score", .number (.float (.finite (1 / 2))))]

/-- The same component, found in another order. -/
def componentAgain : Value := .named [
  ("score", .number (.float (.finite (1 / 2)))),
  ("members", .texts ["read", "write"])]

theorem isPlain_half : (Value.number (.float (.finite (1 / 2)))).IsPlain :=
  .double rfl (by unfold Binary64.IsDouble; decide +kernel)

theorem isPlain_component : component.IsPlain :=
  .mapping (by decide) (List.forall_mem_cons.mpr
    ⟨.set (by decide), List.forall_mem_singleton.mpr isPlain_half⟩)

theorem isPlain_componentAgain : componentAgain.IsPlain :=
  .mapping (by decide) (List.forall_mem_cons.mpr
    ⟨isPlain_half, List.forall_mem_singleton.mpr (.set (by decide))⟩)

theorem rearranges_component : component.Rearranges componentAgain := by
  refine .mapping (.swap _ _ _) fun name value other inFirst inSecond => ?_
  simp only [List.mem_cons, Prod.mk.injEq, List.not_mem_nil, or_false] at inFirst inSecond
  rcases inFirst with ⟨rfl, rfl⟩ | ⟨rfl, rfl⟩
  · obtain ⟨-, rfl⟩ := inSecond.resolve_left (by simp)
    exact .set (.swap _ _ _)
  · obtain ⟨-, rfl⟩ := inSecond.resolve_right (by simp)
    exact .same _

/-- The component has one text, two numbers have two, and so have two runs. -/
theorem canonicalText?_component :
    component.canonicalText? false (some 2) = componentAgain.canonicalText? false (some 2) ∧
      (Value.number (.int 1)).canonicalText? false (some 2) ≠
        (Value.number (.float (.finite (1 / 2)))).canonicalText? false (some 2) ∧
      runIdentityText (.object []) ["a.py"] ≠ runIdentityText (.object []) ["b.py"] := by
  obtain ⟨texts, rearranged, runs⟩ := canonicalText?_isCanonical (some 2)
  refine ⟨rearranged _ _ isPlain_component isPlain_componentAgain rearranges_component,
    ?numbers, ?runs⟩
  case numbers =>
    obtain ⟨document, changed, shown, shownToo, written, same⟩ := texts _ _ (.int 1) isPlain_half
    cases shown
    cases shownToo
    obtain ⟨text, textEq⟩ := written.mpr (by decide +kernel)
    intro equal
    cases (same text text textEq (equal.symm.trans textEq)).mp rfl
  case runs =>
    have empty : (Json.object []).NamesKeysOnce := .object .nil (by simp)
    have integers : (Json.object []).OnlyNumbers Number.IsInteger := .object (by simp)
    rw [ne_eq, runs _ _ _ _ empty empty integers integers]
    simp

end DesignLint
