import DesignLint.Proofs.Json.Mapping
import DesignLint.Proofs.Json.RoundTrip
import DesignLint.Report.Canonical

/-!
# Changes that a schema does not notice

Before a document is written its doubles are rounded and its entries are sorted, and
when it is read its doubles are those that their digits stand for. All of these keep
texts and whole numbers, the items of arrays, the keys of objects and what stands under
them, and the range of doubles between zero and a whole number.
-/

namespace DesignLint.Json

/-- A change that keeps texts, whole numbers, and the parts of a document in their places. A
double in a range stays in it. -/
structure Faithful (f : Json → Json) : Prop where
  null : f .null = .null
  bool : ∀ value, f (.bool value) = .bool value
  string : ∀ text, f (.string text) = .string text
  int : ∀ value, f (.number (.int value)) = .number (.int value)
  float : ∀ {bound : Nat} {double : Binary64}, bound < 2 ^ 53 → double.Within bound →
    ∃ changed, f (.number (.float double)) = .number (.float changed) ∧
      changed.Within bound ∧ (double.IsWhole → changed.IsWhole)
  array : ∀ items, f (.array items) = .array (items.map f)
  object : ∀ entries : JsonObject, ∃ changed : JsonObject, f (.object entries) = .object changed ∧
    (∀ entry ∈ changed, ∃ part, (entry.1, part) ∈ entries ∧ entry.2 = f part) ∧
    (entries.IsMapping → changed.IsMapping ∧
      ∀ key, changed.lookup key = (entries.lookup key).map f)

/-- A number in a range stays in it, and a whole number stays whole. -/
theorem Faithful.number {f : Json → Json} (faithful : Faithful f) {bound : Nat} {number : Number}
    (small : bound < 2 ^ 53) (within : number.Within bound) :
    ∃ changed, f (.number number) = .number changed ∧ changed.Within bound ∧
      (number.isWhole = true → changed.isWhole = true) := by
  cases number with
  | int value => exact ⟨_, faithful.int value, within, id⟩
  | float double =>
      obtain ⟨changed, equal, within, whole⟩ :=
        faithful.float small (Number.within_float_iff.mp within)
      exact ⟨_, equal, Number.within_float_iff.mpr within, whole⟩

theorem faithful_id : Faithful id where
  null := rfl
  bool := fun _ => rfl
  string := fun _ => rfl
  int := fun _ => rfl
  float := fun _ within => ⟨_, rfl, within, id⟩
  array := fun items => by rw [List.map_id, id]
  object := fun entries => ⟨entries, rfl, fun entry member => ⟨entry.2, member, rfl⟩,
    fun mapping => ⟨mapping, fun key => by rw [Option.map_id, id]⟩⟩

/-- One such change after another is one. -/
theorem Faithful.comp {f g : Json → Json} (first : Faithful f) (second : Faithful g) :
    Faithful (g ∘ f) where
  null := by rw [Function.comp, first.null, second.null]
  bool := fun value => by rw [Function.comp, first.bool, second.bool]
  string := fun text => by rw [Function.comp, first.string, second.string]
  int := fun value => by rw [Function.comp, first.int, second.int]
  float := fun small within => by
    obtain ⟨middle, firstEq, within, whole⟩ := first.float small within
    obtain ⟨last, secondEq, within, wholeToo⟩ := second.float small within
    exact ⟨last, by rw [Function.comp, firstEq, secondEq], within, wholeToo ∘ whole⟩
  array := fun items => by
    rw [Function.comp, first.array, second.array, List.map_map]
  object := fun entries => by
    obtain ⟨middle, firstEq, firstParts, firstLookups⟩ := first.object entries
    obtain ⟨last, secondEq, secondParts, secondLookups⟩ := second.object middle
    refine ⟨last, by rw [Function.comp, firstEq, secondEq], ?_, ?_⟩
    · intro entry member
      obtain ⟨part, inMiddle, partEq⟩ := secondParts entry member
      obtain ⟨own, inEntries, rfl⟩ := firstParts _ inMiddle
      exact ⟨own, inEntries, partEq⟩
    · intro mapping
      obtain ⟨middleMapping, middleLookups⟩ := firstLookups mapping
      obtain ⟨lastMapping, lastLookups⟩ := secondLookups middleMapping
      refine ⟨lastMapping, fun key => ?_⟩
      rw [lastLookups, middleLookups, Option.map_map]

/-! ## Rounding, sorting, and reading back -/

theorem canonicalItems_eq_map (places : Option Nat) (items : List Json) :
    canonicalItems places items = items.map (canonical places) := by
  induction items with
  | nil => rfl
  | cons item items inductionHypothesis => rw [canonicalItems, List.map_cons, inductionHypothesis]

theorem canonicalEntries_eq_map (places : Option Nat) (entries : JsonObject) :
    canonicalEntries places entries =
      entries.map fun entry => (entry.1, canonical places entry.2) := by
  induction entries with
  | nil => rfl
  | cons entry entries inductionHypothesis =>
      rw [canonicalEntries, List.map_cons, inductionHypothesis]

theorem sortedItems_eq_map (items : List Json) : sortedItems items = items.map sortedDeep := by
  induction items with
  | nil => rfl
  | cons item items inductionHypothesis => rw [sortedItems, List.map_cons, inductionHypothesis]

theorem sortedEntries_eq_map (entries : JsonObject) :
    sortedEntries entries = entries.map fun entry => (entry.1, sortedDeep entry.2) := by
  induction entries with
  | nil => rfl
  | cons entry entries inductionHypothesis =>
      rw [sortedEntries, List.map_cons, inductionHypothesis]

theorem rereadItems_eq_map (items : List Json) : rereadItems items = items.map reread := by
  induction items with
  | nil => rfl
  | cons item items inductionHypothesis => rw [rereadItems, List.map_cons, inductionHypothesis]

theorem rereadEntries_eq_map (entries : JsonObject) :
    rereadEntries entries = entries.map fun entry => (entry.1, reread entry.2) := by
  induction entries with
  | nil => rfl
  | cons entry entries inductionHypothesis =>
      rw [rereadEntries, List.map_cons, inductionHypothesis]

/-- Entries with changed parts, in their order or in another one. -/
theorem object_of_perm {f : Json → Json} {entries changed : JsonObject}
    (same : (entries.map fun entry => (entry.1, f entry.2)).Perm changed) :
    (∀ entry ∈ changed, ∃ part, (entry.1, part) ∈ entries ∧ entry.2 = f part) ∧
      (entries.IsMapping → changed.IsMapping ∧
        ∀ key, changed.lookup key = (entries.lookup key).map f) := by
  constructor
  · intro entry member
    obtain ⟨own, inEntries, rfl⟩ := List.mem_map.mp (same.mem_iff.mpr member)
    exact ⟨own.2, inEntries, rfl⟩
  · intro mapping
    have mapped : JsonObject.IsMapping (entries.map fun entry => (entry.1, f entry.2)) := by
      rw [JsonObject.IsMapping, JsonObject.keys_map]
      exact mapping
    exact ⟨mapped.of_perm same, fun key => by
      rw [JsonObject.lookup_perm mapped same, JsonObject.lookup_map]⟩

theorem canonicalNumber_of_within (places : Option Nat) {bound : Nat} {double : Binary64}
    (within : double.Within bound) : canonicalNumber places (.float double) =
      .number (.float (match places with
        | none => double
        | some places => double.roundTo places)) := by
  obtain ⟨value, valueEq, -⟩ := within
  cases double with
  | finite => cases places <;> rfl
  | negativeZero => cases places <;> rfl
  | infinite => cases valueEq
  | nan => cases valueEq

theorem faithful_canonical (places : Option Nat) : Faithful (canonical places) where
  null := by simp [canonical]
  bool := fun _ => by simp [canonical]
  string := fun _ => by simp [canonical]
  int := fun _ => by rw [canonical, canonicalNumber]
  float := fun {bound double} small within => by
    rw [canonical, canonicalNumber_of_within places within]
    cases places with
    | none => exact ⟨double, rfl, within, id⟩
    | some places =>
        exact ⟨double.roundTo places, rfl, Binary64.within_roundTo places small within,
          Binary64.isWhole_roundTo places small within⟩
  array := fun items => by rw [canonical, canonicalItems_eq_map]
  object := fun entries => by
    rw [canonical, canonicalEntries_eq_map]
    exact ⟨_, rfl, object_of_perm (.refl _)⟩

theorem faithful_sortedDeep : Faithful sortedDeep where
  null := by simp [sortedDeep]
  bool := fun _ => by simp [sortedDeep]
  string := fun _ => by simp [sortedDeep]
  int := fun _ => by simp [sortedDeep]
  float := fun {_ double} _ within => ⟨double, by simp [sortedDeep], within, id⟩
  array := fun items => by rw [sortedDeep, sortedItems_eq_map]
  object := fun entries => by
    rw [sortedDeep, sortedEntries_eq_map]
    exact ⟨_, rfl, object_of_perm (List.mergeSort_perm _ _).symm⟩

theorem faithful_reread : Faithful reread where
  null := by simp [reread]
  bool := fun _ => by simp [reread]
  string := fun _ => by simp [reread]
  int := fun _ => by rw [reread, Number.reread]
  float := fun {bound double} small within => by
    rw [reread, Number.reread]
    exact ⟨_, rfl, Binary64.within_reread within, Binary64.isWhole_reread within⟩
  array := fun items => by rw [reread, rereadItems_eq_map]
  object := fun entries => by
    rw [reread, rereadEntries_eq_map]
    refine ⟨_, rfl, ?_, ?_⟩
    · intro entry member
      rcases JsonObject.mem_of_mem_merge member with none | member
      · cases none
      · obtain ⟨own, inEntries, rfl⟩ := List.mem_map.mp member
        exact ⟨own.2, inEntries, rfl⟩
    · intro mapping
      have mapped : JsonObject.IsMapping (entries.map fun entry => (entry.1, reread entry.2)) := by
        rw [JsonObject.IsMapping, JsonObject.keys_map]
        exact mapping
      refine ⟨JsonObject.isMapping_merge List.nodup_nil, fun key => ?_⟩
      rw [JsonObject.lookup_merge mapped, JsonObject.lookup_map]
      exact Option.or_none

/-! ## The exported document -/

/-- What the canonical text of a document reads as. -/
def exported (reproducible : Bool) : Json → Json :=
  reread ∘ sortedDeep ∘ canonical (keptPlaces reproducible)

theorem faithful_exported (reproducible : Bool) : Faithful (exported reproducible) :=
  ((faithful_canonical _).comp faithful_sortedDeep).comp faithful_reread

/-! ## Documents that can be written -/

theorem isWritable_canonicalNumber (places : Option Nat) {value : Number}
    (writable : value.isWritable = true) : (canonicalNumber places value).isWritable = true := by
  cases value with
  | int => simpa [canonicalNumber, isWritable] using writable
  | float double => cases double <;> cases places <;> simp [canonicalNumber, isWritable,
      Number.isWritable]

theorem isWritable_canonical (places : Option Nat) {document : Json}
    (writable : document.isWritable = true) : (document.canonical places).isWritable = true := by
  induction document using inductionOnParts with
  | number value =>
      rw [isWritable] at writable
      rw [canonical]
      exact isWritable_canonicalNumber places writable
  | array items parts =>
      rw [isWritable_array_iff] at writable
      rw [canonical, canonicalItems_eq_map, isWritable_array_iff, List.forall_mem_map]
      exact fun item listed => parts item listed (writable item listed)
  | object entries parts =>
      rw [isWritable_object_iff] at writable
      rw [canonical, canonicalEntries_eq_map, isWritable_object_iff, List.forall_mem_map]
      exact fun entry listed =>
        ⟨(writable entry listed).1, parts entry listed (writable entry listed).2⟩
  | null | bool | string => simp [canonical, isWritable]

theorem mem_sorted_iff {entries : JsonObject} {entry : String × Json} :
    entry ∈ entries.sorted ↔ entry ∈ entries :=
  (List.mergeSort_perm _ _).mem_iff

theorem isWritable_sortedDeep_iff {document : Json} :
    document.sortedDeep.isWritable = true ↔ document.isWritable = true := by
  induction document using inductionOnParts with
  | array items parts =>
      rw [sortedDeep, sortedItems_eq_map, isWritable_array_iff, isWritable_array_iff,
        List.forall_mem_map]
      exact forall₂_congr parts
  | object entries parts =>
      rw [sortedDeep, sortedEntries_eq_map, isWritable_object_iff, isWritable_object_iff]
      simp only [mem_sorted_iff, List.forall_mem_map]
      exact forall₂_congr fun entry listed => and_congr_right fun _ => parts entry listed
  | null | bool | number | string => simp [sortedDeep]

/-- The canonical text of a document that can be written is read back. -/
theorem read_canonicalText {document : Json} (writable : document.isWritable = true)
    (reproducible : Bool) :
    read (some Numeral.digitLimit) (document.canonicalText reproducible) =
      .ok (exported reproducible document) := by
  refine read_render (some 2) (fits_of_isWritable ?_)
  rw [isWritable_sortedDeep_iff]
  exact isWritable_canonical _ writable

end DesignLint.Json
