import DesignLint.Proofs.Json.Faithful
import DesignLint.Proofs.Number.Shortest
import Mathlib.Data.String.Basic

/-!
# Documents up to the order of entries

Two documents have the same text with sorted keys exactly if they differ in nothing but the order
of the entries of their objects. Sorting forgets this order and nothing else, and what is sorted
can be read back from its text, since every double can.
-/

namespace DesignLint

/-- Sorting forgets the order of a list, where the order tells its members apart. -/
theorem mergeSort_eq_of_perm {α : Type} {le : α → α → Bool} {items others : List α}
    (trans : ∀ a b c, le a b = true → le b c = true → le a c = true)
    (total : ∀ a b, (le a b || le b a) = true)
    (apart : ∀ a ∈ items, ∀ b ∈ items, le a b = true → le b a = true → a = b)
    (same : items.Perm others) : items.mergeSort le = others.mergeSort le := by
  have sorted : (items.mergeSort le).Perm (others.mergeSort le) :=
    (List.mergeSort_perm _ _).trans (same.trans (List.mergeSort_perm _ _).symm)
  refine List.Perm.eq_of_pairwise ?_ (List.pairwise_mergeSort trans total items)
    (List.pairwise_mergeSort trans total others) sorted
  intro a b inItems inOthers
  exact apart a ((List.mergeSort_perm _ _).mem_iff.mp inItems)
    b ((List.mergeSort_perm _ _).mem_iff.mp (sorted.mem_iff.mpr inOthers))

namespace JsonObject

variable {entries others : JsonObject}

theorem eq_of_mem_of_mem (mapping : entries.IsMapping) {key : String} {value other : Json}
    (first : (key, value) ∈ entries) (second : (key, other) ∈ entries) : value = other :=
  Option.some.inj ((lookup_of_mem mapping first).symm.trans (lookup_of_mem mapping second))

theorem sorted_perm (entries : JsonObject) : entries.sorted.Perm entries :=
  List.mergeSort_perm _ _

/-- Keys that stand once tell their entries apart. -/
theorem sorted_eq_sorted_iff (mapping : entries.IsMapping) :
    entries.sorted = others.sorted ↔ entries.Perm others := by
  constructor
  · intro same
    exact (sorted_perm entries).symm.trans (same ▸ sorted_perm others)
  · refine mergeSort_eq_of_perm ?_ ?_ ?_
    · simp only [decide_eq_true_eq]
      exact fun _ _ _ => le_trans
    · simp only [Bool.or_eq_true, decide_eq_true_eq]
      exact fun a b => le_total a.1 b.1
    · simp only [decide_eq_true_eq]
      intro a inEntries b inEntriesToo le ge
      exact List.inj_on_of_nodup_map mapping inEntries inEntriesToo (le_antisymm le ge)

/-- A change that keeps the values keeps the entries. -/
theorem map_eq_self {f : Json → Json} (keeps : ∀ entry ∈ entries, f entry.2 = entry.2) :
    (entries.map fun entry => (entry.1, f entry.2)) = entries := by
  conv_rhs => rw [← List.map_id entries]
  exact List.map_congr_left fun entry listed => congrArg (Prod.mk entry.1) (keeps entry listed)

/-- Entries that become the same in another order under a change of their values. -/
theorem perm_map_iff (f : Json → Json) (mapping : entries.IsMapping)
    (mappingToo : others.IsMapping) :
    (entries.map fun entry => (entry.1, f entry.2)).Perm
        (others.map fun entry => (entry.1, f entry.2)) ↔
      entries.keys.Perm others.keys ∧ ∀ key value other, (key, value) ∈ entries →
        (key, other) ∈ others → f value = f other := by
  have mapped {entries : JsonObject} (mapping : entries.IsMapping) :
      (entries.map fun entry => (entry.1, f entry.2)).Nodup := by
    apply List.Nodup.of_map Prod.fst
    rw [List.map_map]
    exact mapping
  constructor
  · intro same
    refine ⟨by simpa only [keys_map] using keys_perm same, ?_⟩
    intro key value other inEntries inOthers
    obtain ⟨own, ownListed, ownEq⟩ := List.mem_map.mp
      (same.mem_iff.mp (List.mem_map_of_mem inEntries))
    obtain ⟨rfl, valueEq⟩ := Prod.mk.inj ownEq
    rw [← valueEq, eq_of_mem_of_mem mappingToo ownListed inOthers]
  · rintro ⟨keys, parts⟩
    refine (List.perm_ext_iff_of_nodup (mapped mapping) (mapped mappingToo)).mpr ?_
    rintro ⟨key, value⟩
    simp only [List.mem_map, Prod.mk.injEq]
    constructor
    · rintro ⟨⟨_, old⟩, listed, rfl, rfl⟩
      obtain ⟨⟨_, new⟩, listedToo, rfl⟩ :=
        List.mem_map.mp (keys.mem_iff.mp (List.mem_map_of_mem listed))
      exact ⟨_, listedToo, rfl, (parts _ old new listed listedToo).symm⟩
    · rintro ⟨⟨_, new⟩, listed, rfl, rfl⟩
      obtain ⟨⟨_, old⟩, listedToo, rfl⟩ :=
        List.mem_map.mp (keys.mem_iff.mpr (List.mem_map_of_mem listed))
      exact ⟨_, listedToo, rfl, parts _ old new listedToo listed⟩

end JsonObject

/-- The numbers that can be told from their texts: whole numbers, and doubles. -/
def Number.IsExact : Number → Prop
  | .int _ => True
  | .float double => double.IsDouble

theorem Number.IsExact.reread_eq {value : Number} (exact : value.IsExact) :
    value.reread = value := by
  cases value with
  | int => rfl
  | float double => exact congrArg Number.float (Binary64.reread_of_isDouble exact)

namespace Json

/-! ## Documents that are alike -/

/-- Documents that are the same up to the order of the entries of objects, however deep. -/
inductive Alike : Json → Json → Prop
  | null : Alike .null .null
  | bool (value : Bool) : Alike (.bool value) (.bool value)
  | number (value : Number) : Alike (.number value) (.number value)
  | string (value : String) : Alike (.string value) (.string value)
  | array {items others : List Json} (length : items.length = others.length)
      (parts : ∀ pair ∈ items.zip others, Alike pair.1 pair.2) :
    Alike (.array items) (.array others)
  | object {entries others : JsonObject} (keys : entries.keys.Perm others.keys)
      (parts : ∀ key value other, (key, value) ∈ entries → (key, other) ∈ others →
        Alike value other) :
    Alike (.object entries) (.object others)

theorem sortedDeep_array (items : List Json) :
    sortedDeep (.array items) = .array (items.map sortedDeep) := by
  rw [sortedDeep, sortedItems_eq_map]

theorem sortedDeep_object (entries : JsonObject) : sortedDeep (.object entries) =
    .object (JsonObject.sorted (entries.map fun entry => (entry.1, sortedDeep entry.2))) := by
  rw [sortedDeep, sortedEntries_eq_map]

/-- Arrays become the same under a change of their items if the items do. -/
theorem map_eq_map_iff_zip {α β : Type} {f : α → β} {items others : List α} :
    items.map f = others.map f ↔
      items.length = others.length ∧ ∀ pair ∈ items.zip others, f pair.1 = f pair.2 := by
  rw [← List.forall₂_eq_eq_eq, List.forall₂_map_left_iff, List.forall₂_map_right_iff,
    List.forall₂_iff_zip]
  simp only [Prod.forall]

theorem sortedDeep_object_eq_iff {entries others : JsonObject} (mapping : entries.IsMapping)
    (mappingToo : others.IsMapping) :
    sortedDeep (.object entries) = sortedDeep (.object others) ↔
      entries.keys.Perm others.keys ∧ ∀ key value other, (key, value) ∈ entries →
        (key, other) ∈ others → sortedDeep value = sortedDeep other := by
  have mapped : JsonObject.IsMapping (entries.map fun entry => (entry.1, sortedDeep entry.2)) := by
    rw [JsonObject.IsMapping, JsonObject.keys_map]
    exact mapping
  rw [sortedDeep_object, sortedDeep_object, Json.object.injEq,
    JsonObject.sorted_eq_sorted_iff mapped, JsonObject.perm_map_iff sortedDeep mapping mappingToo]

variable {document other : Json}

theorem sortedDeep_eq_of_alike (alike : document.Alike other) (once : document.NamesKeysOnce)
    (onceToo : other.NamesKeysOnce) : document.sortedDeep = other.sortedDeep := by
  induction alike with
  | null => rfl
  | bool => rfl
  | number => rfl
  | string => rfl
  | array length parts inductionHypothesis =>
      cases once with
      | array partsOnce =>
          cases onceToo with
          | array othersOnce =>
              rw [sortedDeep_array, sortedDeep_array, Json.array.injEq, map_eq_map_iff_zip]
              refine ⟨length, fun pair listed => ?_⟩
              obtain ⟨inItems, inOthers⟩ := List.of_mem_zip listed
              exact inductionHypothesis pair listed (partsOnce _ inItems) (othersOnce _ inOthers)
  | object keys parts inductionHypothesis =>
      cases once with
      | object mapping partsOnce =>
          cases onceToo with
          | object mappingToo othersOnce =>
              refine (sortedDeep_object_eq_iff mapping mappingToo).mpr ⟨keys, ?_⟩
              intro key value other inEntries inOthers
              exact inductionHypothesis key value other inEntries inOthers
                (partsOnce _ inEntries) (othersOnce _ inOthers)

theorem alike_of_sortedDeep_eq (once : document.NamesKeysOnce) (onceToo : other.NamesKeysOnce)
    (same : document.sortedDeep = other.sortedDeep) : document.Alike other := by
  induction once generalizing other with
  | null =>
      cases onceToo with
      | null => exact .null
      | _ => simp [sortedDeep] at same
  | bool value =>
      cases onceToo with
      | bool => exact (by simpa [sortedDeep] using same : value = _) ▸ .bool value
      | _ => simp [sortedDeep] at same
  | number value =>
      cases onceToo with
      | number => exact (by simpa [sortedDeep] using same : value = _) ▸ .number value
      | _ => simp [sortedDeep] at same
  | string value =>
      cases onceToo with
      | string => exact (by simpa [sortedDeep] using same : value = _) ▸ .string value
      | _ => simp [sortedDeep] at same
  | array partsOnce inductionHypothesis =>
      cases onceToo with
      | array othersOnce =>
          rw [sortedDeep_array, sortedDeep_array, Json.array.injEq, map_eq_map_iff_zip] at same
          refine .array same.1 fun pair listed => ?_
          obtain ⟨inItems, inOthers⟩ := List.of_mem_zip listed
          exact inductionHypothesis _ inItems (othersOnce _ inOthers) (same.2 pair listed)
      | _ => simp [sortedDeep] at same
  | object mapping partsOnce inductionHypothesis =>
      cases onceToo with
      | object mappingToo othersOnce =>
          obtain ⟨keys, parts⟩ := (sortedDeep_object_eq_iff mapping mappingToo).mp same
          refine .object keys fun key value other inEntries inOthers => ?_
          exact inductionHypothesis _ inEntries (othersOnce _ inOthers)
            (parts key value other inEntries inOthers)
      | _ => simp [sortedDeep] at same

/-- Sorting forgets the order of entries and nothing else. -/
theorem sortedDeep_eq_iff_alike (once : document.NamesKeysOnce) (onceToo : other.NamesKeysOnce) :
    document.sortedDeep = other.sortedDeep ↔ document.Alike other :=
  ⟨alike_of_sortedDeep_eq once onceToo, fun alike => sortedDeep_eq_of_alike alike once onceToo⟩

theorem Alike.refl (once : document.NamesKeysOnce) : document.Alike document :=
  alike_of_sortedDeep_eq once once rfl

/-! ## Numbers in documents -/

/-- The documents whose numbers, however deep, all have a property. -/
inductive OnlyNumbers (holds : Number → Prop) : Json → Prop
  | null : OnlyNumbers holds .null
  | bool (value : Bool) : OnlyNumbers holds (.bool value)
  | number {value : Number} (own : holds value) : OnlyNumbers holds (.number value)
  | string (value : String) : OnlyNumbers holds (.string value)
  | array {items : List Json} (parts : ∀ item ∈ items, OnlyNumbers holds item) :
    OnlyNumbers holds (.array items)
  | object {entries : JsonObject} (parts : ∀ entry ∈ entries, OnlyNumbers holds entry.2) :
    OnlyNumbers holds (.object entries)

variable {holds : Number → Prop}

theorem NamesKeysOnce.sortedDeep (once : document.NamesKeysOnce) :
    document.sortedDeep.NamesKeysOnce := by
  induction once with
  | null => exact .null
  | bool value => exact .bool value
  | number value => exact .number value
  | string value => exact .string value
  | array parts inductionHypothesis =>
      rw [sortedDeep_array]
      exact .array (List.forall_mem_map.mpr inductionHypothesis)
  | object mapping parts inductionHypothesis =>
      rw [sortedDeep_object]
      have mapped := mapping
      rw [JsonObject.IsMapping, ← JsonObject.keys_map Json.sortedDeep] at mapped
      refine .object (JsonObject.IsMapping.of_perm mapped (JsonObject.sorted_perm _).symm) ?_
      intro entry listed
      obtain ⟨own, ownListed, rfl⟩ :=
        List.mem_map.mp ((JsonObject.sorted_perm _).mem_iff.mp listed)
      exact inductionHypothesis own ownListed

theorem OnlyNumbers.sortedDeep (numbers : document.OnlyNumbers holds) :
    document.sortedDeep.OnlyNumbers holds := by
  induction numbers with
  | null => exact .null
  | bool value => exact .bool value
  | number own => exact .number own
  | string value => exact .string value
  | array parts inductionHypothesis =>
      rw [sortedDeep_array]
      exact .array (List.forall_mem_map.mpr inductionHypothesis)
  | object parts inductionHypothesis =>
      rw [sortedDeep_object]
      refine .object fun entry listed => ?_
      obtain ⟨own, ownListed, rfl⟩ :=
        List.mem_map.mp ((JsonObject.sorted_perm _).mem_iff.mp listed)
      exact inductionHypothesis own ownListed

theorem OnlyNumbers.imp {others : Number → Prop} (numbers : document.OnlyNumbers holds)
    (implies : ∀ value, holds value → others value) : document.OnlyNumbers others := by
  induction numbers with
  | null => exact .null
  | bool value => exact .bool value
  | number own => exact .number (implies _ own)
  | string value => exact .string value
  | array parts inductionHypothesis => exact .array inductionHypothesis
  | object parts inductionHypothesis => exact .object inductionHypothesis

/-- Where every number is in canonical form, the document is. -/
theorem canonical_eq_self {places : Option Nat}
    (numbers : document.OnlyNumbers fun value => canonicalNumber places value = .number value) :
    document.canonical places = document := by
  induction numbers with
  | null => simp [canonical]
  | bool => simp [canonical]
  | number own => rw [canonical, own]
  | string => simp [canonical]
  | array parts inductionHypothesis =>
      rw [canonical, canonicalItems_eq_map, List.map_congr_left inductionHypothesis, List.map_id']
  | object parts inductionHypothesis =>
      rw [canonical, canonicalEntries_eq_map, JsonObject.map_eq_self inductionHypothesis]

/-! ## Texts -/

/-- Where every number reads back as it was, so does the document. -/
theorem reread_eq_self (once : document.NamesKeysOnce)
    (exact : document.OnlyNumbers Number.IsExact) : document.reread = document := by
  induction once with
  | null => simp [reread]
  | bool => simp [reread]
  | number =>
      cases exact with
      | number own => rw [reread, own.reread_eq]
  | string => simp [reread]
  | array parts inductionHypothesis =>
      cases exact with
      | array exactParts =>
          have same := fun item listed => inductionHypothesis item listed (exactParts item listed)
          rw [reread, rereadItems_eq_map, List.map_congr_left same, List.map_id']
  | object mapping parts inductionHypothesis =>
      cases exact with
      | object exactParts =>
          have same := fun entry listed =>
            inductionHypothesis entry listed (exactParts entry listed)
          rw [reread, rereadEntries_eq_map, JsonObject.map_eq_self same,
            JsonObject.nil_merge mapping]

/-- Documents have the same text with sorted keys exactly if they are alike. -/
theorem sortedText_eq_iff_alike (indent : Option Nat) (once : document.NamesKeysOnce)
    (onceToo : other.NamesKeysOnce) (exact : document.OnlyNumbers Number.IsExact)
    (exactToo : other.OnlyNumbers Number.IsExact) :
    document.sortedText indent = other.sortedText indent ↔ document.Alike other := by
  rw [← sortedDeep_eq_iff_alike once onceToo]
  constructor
  · intro same
    have read := congrArg (fun text => read none (text ++ "\n")) same
    simp only [sortedText, read_render _ (fits_none _),
      reread_eq_self once.sortedDeep exact.sortedDeep,
      reread_eq_self onceToo.sortedDeep exactToo.sortedDeep, Except.ok.injEq] at read
    exact read
  · intro same
    rw [sortedText, sortedText, same]

end Json

end DesignLint
