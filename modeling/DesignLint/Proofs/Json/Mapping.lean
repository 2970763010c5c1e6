import DesignLint.Json.Basic
import Mathlib.Data.List.Nodup

/-!
# Entries of objects as mappings

Setting a key changes the value under that key only, and merging sets the keys of
the second object one after another. So a merged object holds what the second
object says, and elsewhere what the first one said.
-/

namespace DesignLint

namespace JsonObject

variable {entries more : JsonObject} {key other : String} {value : Json}

/-- The keys of the entries, in their order. -/
def keys (entries : JsonObject) : List String := entries.map (·.1)

/-- Entries with each key once. -/
def IsMapping (entries : JsonObject) : Prop := entries.keys.Nodup

instance (entries : JsonObject) : Decidable entries.IsMapping :=
  inferInstanceAs (Decidable (List.Nodup _))

@[simp]
theorem keys_nil : keys [] = [] :=
  rfl

@[simp]
theorem keys_cons (entry : String × Json) : keys (entry :: entries) = entry.1 :: keys entries :=
  rfl

theorem isMapping_cons {entry : String × Json} :
    IsMapping (entry :: entries) ↔ entry.1 ∉ entries.keys ∧ IsMapping entries := by
  rw [IsMapping, keys_cons, List.nodup_cons]
  rfl

theorem lookup_eq_none_iff_not_mem_keys : entries.lookup key = none ↔ key ∉ entries.keys := by
  rw [List.lookup_eq_none_iff, keys, List.mem_map]
  constructor
  · rintro absent ⟨entry, member, rfl⟩
    simpa using absent entry member
  · intro absent entry member
    rw [bne_iff_ne]
    rintro rfl
    exact absent ⟨entry, member, rfl⟩

theorem lookup_of_mem (mapping : entries.IsMapping) (member : (key, value) ∈ entries) :
    entries.lookup key = some value := by
  induction entries with
  | nil => cases member
  | cons entry entries inductionHypothesis =>
      obtain ⟨absent, rest⟩ := isMapping_cons.mp mapping
      rcases List.mem_cons.mp member with rfl | later
      · simp
      · have different : (key == entry.1) = false := by
          rw [beq_eq_false_iff_ne]
          rintro rfl
          exact absent (List.mem_map.mpr ⟨_, later, rfl⟩)
        rw [List.lookup_cons, different]
        exact inductionHypothesis rest later

/-! ## Setting one key -/

theorem lookup_set :
    (entries.set key value).lookup other = if other = key then some value else
      entries.lookup other := by
  induction entries with
  | nil =>
      by_cases same : other = key
      · simp [set, same]
      · simp [set, List.lookup_cons, same, beq_false_of_ne same]
  | cons entry entries inductionHypothesis =>
      obtain ⟨name, old⟩ := entry
      rw [set]
      by_cases here : name = key
      · subst here
        by_cases same : other = name
        · simp [same]
        · simp [List.lookup_cons, same, beq_false_of_ne same]
      · rw [if_neg here, List.lookup_cons, inductionHypothesis, List.lookup_cons]
        by_cases same : other = name
        · subst same
          simp [here]
        · rw [beq_false_of_ne same]

theorem keys_set :
    (entries.set key value).keys = if key ∈ entries.keys then entries.keys else
      entries.keys ++ [key] := by
  induction entries with
  | nil => rfl
  | cons entry entries inductionHypothesis =>
      obtain ⟨name, old⟩ := entry
      rw [set]
      by_cases here : name = key
      · simp [here]
      · have elsewhere : ¬key = name := fun same => here same.symm
        rw [if_neg here, keys_cons, inductionHypothesis, keys_cons]
        by_cases later : key ∈ keys entries <;> simp [later, elsewhere]

theorem mem_keys_set :
    other ∈ (entries.set key value).keys ↔ other ∈ entries.keys ∨ other = key := by
  rw [keys_set]
  split
  · rename_i present
    constructor
    · exact .inl
    · rintro (member | rfl)
      · exact member
      · exact present
  · simp

theorem isMapping_set (mapping : entries.IsMapping) : (entries.set key value).IsMapping := by
  rw [IsMapping, keys_set]
  split
  · exact mapping
  · rename_i absent
    exact List.nodup_append.mpr ⟨mapping, List.nodup_singleton key, by
      rintro name member _ (_ | ⟨_, ⟨⟩⟩) rfl
      exact absent member⟩

/-! ## Merging -/

@[simp]
theorem merge_nil : entries.merge [] = entries :=
  rfl

@[simp]
theorem merge_cons (entry : String × Json) :
    entries.merge (entry :: more) = (entries.set entry.1 entry.2).merge more :=
  rfl

theorem set_of_not_mem_keys (absent : key ∉ entries.keys) :
    entries.set key value = entries ++ [(key, value)] := by
  induction entries with
  | nil => rfl
  | cons entry entries inductionHypothesis =>
      rw [keys_cons, List.mem_cons, not_or] at absent
      rw [set, if_neg (Ne.symm absent.1), inductionHypothesis absent.2, List.cons_append]

/-- Entries under new keys are added behind the others. -/
theorem merge_of_isMapping_append (mapping : (entries ++ more).IsMapping) :
    entries.merge more = entries ++ more := by
  induction more generalizing entries with
  | nil => rw [merge_nil, List.append_nil]
  | cons entry more inductionHypothesis =>
      have absent : entry.1 ∉ entries.keys := by
        rw [IsMapping, keys, List.map_append, List.nodup_append] at mapping
        intro present
        exact mapping.2.2 entry.1 present entry.1 List.mem_cons_self rfl
      rw [List.append_cons] at mapping ⊢
      rw [merge_cons, set_of_not_mem_keys absent, inductionHypothesis mapping]

theorem nil_merge (mapping : entries.IsMapping) : merge [] entries = entries :=
  merge_of_isMapping_append mapping

theorem lookup_merge (mapping : more.IsMapping) :
    (entries.merge more).lookup key = (more.lookup key).or (entries.lookup key) := by
  induction more generalizing entries with
  | nil => rfl
  | cons entry more inductionHypothesis =>
      obtain ⟨name, value⟩ := entry
      obtain ⟨absent, rest⟩ := isMapping_cons.mp mapping
      rw [merge_cons, inductionHypothesis rest, lookup_set, List.lookup_cons]
      by_cases same : key = name
      · subst same
        simp [lookup_eq_none_iff_not_mem_keys.mpr absent]
      · simp [same, beq_false_of_ne same]

theorem mem_keys_merge :
    key ∈ (entries.merge more).keys ↔ key ∈ entries.keys ∨ key ∈ more.keys := by
  induction more generalizing entries with
  | nil => simp
  | cons entry more inductionHypothesis =>
      rw [merge_cons, inductionHypothesis, mem_keys_set, keys_cons, List.mem_cons, or_assoc]

theorem isMapping_merge (mapping : entries.IsMapping) : (entries.merge more).IsMapping := by
  induction more generalizing entries with
  | nil => exact mapping
  | cons entry more inductionHypothesis => exact inductionHypothesis (isMapping_set mapping)

theorem mem_of_mem_set {entry : String × Json} (member : entry ∈ entries.set key value) :
    entry = (key, value) ∨ entry ∈ entries := by
  induction entries with
  | nil => exact .inl (List.mem_singleton.mp member)
  | cons first entries inductionHypothesis =>
      rw [set] at member
      split at member <;> rcases List.mem_cons.mp member with here | later
      · exact .inl here
      · exact .inr (List.mem_cons_of_mem first later)
      · exact .inr (here ▸ List.mem_cons_self)
      · exact (inductionHypothesis later).imp id (List.mem_cons_of_mem first)

theorem mem_of_mem_merge {entry : String × Json} (member : entry ∈ entries.merge more) :
    entry ∈ entries ∨ entry ∈ more := by
  induction more generalizing entries with
  | nil => exact .inl member
  | cons first more inductionHypothesis =>
      rcases inductionHypothesis member with old | later
      · rcases mem_of_mem_set old with here | old
        · exact .inr (here ▸ List.mem_cons_self)
        · exact .inl old
      · exact .inr (List.mem_cons_of_mem first later)

/-! ## Entries with other values, and in another order -/

theorem keys_map (f : Json → Json) :
    keys (entries.map fun entry => (entry.1, f entry.2)) = entries.keys := by
  simp [keys]

theorem lookup_map (f : Json → Json) :
    (entries.map fun entry => (entry.1, f entry.2)).lookup key = (entries.lookup key).map f := by
  induction entries with
  | nil => rfl
  | cons entry entries inductionHypothesis =>
      rw [List.map_cons, List.lookup_cons, List.lookup_cons, inductionHypothesis]
      cases key == entry.1 <;> rfl

theorem mem_of_lookup_eq_some (found : entries.lookup key = some value) :
    (key, value) ∈ entries := by
  induction entries with
  | nil => cases found
  | cons entry entries inductionHypothesis =>
      rw [List.lookup_cons] at found
      split at found
      · rename_i here
        obtain rfl := Option.some.inj found
        rw [beq_iff_eq.mp here]
        exact List.mem_cons_self
      · exact List.mem_cons_of_mem entry (inductionHypothesis found)

theorem keys_perm {others : JsonObject} (same : entries.Perm others) :
    entries.keys.Perm others.keys :=
  List.Perm.map Prod.fst same

theorem IsMapping.of_perm {others : JsonObject} (mapping : entries.IsMapping)
    (same : entries.Perm others) : others.IsMapping :=
  (keys_perm same).nodup_iff.mp mapping

theorem lookup_perm {others : JsonObject} (mapping : entries.IsMapping)
    (same : entries.Perm others) : others.lookup key = entries.lookup key := by
  cases found : entries.lookup key with
  | none =>
      rw [lookup_eq_none_iff_not_mem_keys] at found ⊢
      exact fun member => found ((keys_perm same).mem_iff.mpr member)
  | some value =>
      exact lookup_of_mem (mapping.of_perm same) (same.mem_iff.mp (mem_of_lookup_eq_some found))

end JsonObject

/-! ## Documents of mappings -/

/-- The documents whose objects, however deep, name each key once. -/
inductive Json.NamesKeysOnce : Json → Prop
  | null : NamesKeysOnce .null
  | bool (value : Bool) : NamesKeysOnce (.bool value)
  | number (value : Number) : NamesKeysOnce (.number value)
  | string (value : String) : NamesKeysOnce (.string value)
  | array {items : List Json} (parts : ∀ item ∈ items, NamesKeysOnce item) :
    NamesKeysOnce (.array items)
  | object {entries : JsonObject} (mapping : entries.IsMapping)
      (parts : ∀ entry ∈ entries, NamesKeysOnce entry.2) :
    NamesKeysOnce (.object entries)

theorem Json.NamesKeysOnce.isMapping {entries : JsonObject}
    (once : (Json.object entries).NamesKeysOnce) : entries.IsMapping := by
  cases once with
  | object mapping => exact mapping

end DesignLint
