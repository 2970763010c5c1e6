import DesignLint.Proofs.Schema.Agreement

/-!
# Errors that can be told

The message of an error shows what is wrong: a value, or keys in their order. Where no number
of the overrides has too many digits to be written, the message can be written, whatever is wrong.
The only other errors that cannot be told are those of mappings whose unexpected keys are of
different kinds and have no order.
-/

namespace DesignLint

/-! ## Parts of documents -/

namespace Json

variable {document : Json} {entries : JsonObject}

theorem isWritable_of_mem_items (writable : document.isWritable = true) :
    ∀ item ∈ document.items, item.isWritable = true := by
  cases document with
  | array items => exact isWritable_array_iff.mp writable
  | _ => simp [items]

theorem isWritable_of_mem_entries (writable : document.isWritable = true) :
    ∀ entry ∈ document.entries,
      JsonObject.isWritableKey entry.1 = true ∧ entry.2.isWritable = true := by
  cases document with
  | object entries => exact isWritable_object_iff.mp writable
  | _ => simp [entries]

theorem isWritable_of_lookup (writable : (Json.object entries).isWritable = true) {key : String}
    {value : Json} (found : entries.lookup key = some value) : value.isWritable = true :=
  (isWritable_object_iff.mp writable _ (JsonObject.mem_of_lookup_eq_some found)).2

end Json

/-! ## Violations

What a violation shows is a part of the document, or keys of a part. -/

theorem isWritable_of_mem_violationUnless {condition : Bool} {path : DocumentPath} {part : Json}
    {fault : SchemaFault} (writable : fault.isWritable part = true) :
    ∀ error ∈ violationUnless condition path part fault, error.isWritable = true := by
  intro error listed
  unfold violationUnless at listed
  split at listed
  · cases listed
  · obtain rfl := List.mem_singleton.mp listed
    exact writable

theorem Constraint.isWritable_of_mem_ownErrors {named : List String} {path : DocumentPath}
    {constraint : Constraint} {document : Json} (writable : document.isWritable = true) :
    ∀ error ∈ constraint.ownErrors named path document, error.isWritable = true := by
  have keys : (SchemaFault.unexpected
      ((JsonObject.sortedByText (otherEntries named document)).map (·.1))).isWritable document =
        true := by
    refine List.all_eq_true.mpr fun key listed => ?_
    obtain ⟨entry, inSorted, rfl⟩ := List.mem_map.mp listed
    have inEntries := List.mem_of_mem_filter (List.mem_mergeSort.mp inSorted)
    exact (Json.isWritable_of_mem_entries writable entry inEntries).1
  unfold ownErrors
  split
  case h_2 =>
    intro error listed
    obtain ⟨name, -, here⟩ := List.mem_flatMap.mp listed
    exact isWritable_of_mem_violationUnless rfl error here
  case h_3 => exact isWritable_of_mem_violationUnless keys
  case h_8 => exact isWritable_of_mem_violationUnless rfl
  case h_11 => simp
  all_goals exact isWritable_of_mem_violationUnless writable

mutual

theorem Schema.isWritable_of_mem_errorsAt : (schema : Schema) → (path : DocumentPath) →
    {document : Json} → document.isWritable = true →
    ∀ error ∈ schema.errorsAt path document, error.isWritable = true
  | .mk constraints, path, _, writable => by
      rw [Schema.errorsAt]
      exact Constraint.isWritable_of_mem_errorsAll constraints _ path writable

theorem Constraint.isWritable_of_mem_errorsAll : (constraints : List Constraint) →
    (named : List String) → (path : DocumentPath) → {document : Json} →
    document.isWritable = true →
    ∀ error ∈ Constraint.errorsAll named path document constraints, error.isWritable = true
  | [], _, _, _, _ => by simp [Constraint.errorsAll]
  | constraint :: rest, named, path, _, writable => by
      rw [Constraint.errorsAll]
      exact List.forall_mem_append.mpr
        ⟨Constraint.isWritable_of_mem_errorsAt constraint named path writable,
          Constraint.isWritable_of_mem_errorsAll rest named path writable⟩

theorem Constraint.isWritable_of_mem_errorsAt : (constraint : Constraint) →
    (named : List String) → (path : DocumentPath) → {document : Json} →
    document.isWritable = true →
    ∀ error ∈ constraint.errorsAt named path document, error.isWritable = true
  | .others schema, named, path, document, writable => by
      rw [Constraint.errorsAt]
      refine List.forall_mem_flatMap.mpr fun entry listed => ?_
      exact schema.isWritable_of_mem_errorsAt _
        (Json.isWritable_of_mem_entries writable entry (List.mem_of_mem_filter listed)).2
  | .properties schemas, named, path, document, writable => by
      rw [Constraint.errorsAt]
      exact Schema.isWritable_of_mem_propertyErrors schemas path
        (Json.isWritable_of_mem_entries writable)
  | .items schema, named, path, document, writable => by
      rw [Constraint.errorsAt]
      refine List.forall_mem_flatMap.mpr fun numbered listed => ?_
      exact schema.isWritable_of_mem_errorsAt _
        (Json.isWritable_of_mem_items writable _ (List.fst_mem_of_mem_zipIdx listed))
  | .reference _ schema, _, path, _, writable => by
      rw [Constraint.errorsAt]
      exact schema.isWritable_of_mem_errorsAt path writable
  | .ofType _, _, _, _, writable | .required _, _, _, _, writable | .closed, _, _, _, writable
  | .minItems _, _, _, _, writable | .minLength _, _, _, _, writable
  | .minimum _, _, _, _, writable | .maximum _, _, _, _, writable | .exactly _, _, _, _, writable
  | .oneOf _, _, _, _, writable | .matching _, _, _, _, writable
  | .note _ _, _, _, _, writable => by
      rw [Constraint.errorsAt]
      · exact Constraint.isWritable_of_mem_ownErrors writable
      all_goals exact nofun

theorem Schema.isWritable_of_mem_propertyErrors : (schemas : List (String × Schema)) →
    (path : DocumentPath) → {entries : JsonObject} →
    (∀ entry ∈ entries, JsonObject.isWritableKey entry.1 = true ∧ entry.2.isWritable = true) →
    ∀ error ∈ Schema.propertyErrors path entries schemas, error.isWritable = true
  | [], _, _, _ => by simp [Schema.propertyErrors]
  | (name, schema) :: rest, path, entries, writable => by
      rw [Schema.propertyErrors]
      refine List.forall_mem_append.mpr
        ⟨?_, Schema.isWritable_of_mem_propertyErrors rest path writable⟩
      split
      · rename_i part found
        exact schema.isWritable_of_mem_errorsAt _
          (writable _ (JsonObject.mem_of_lookup_eq_some found)).2
      · simp

end

theorem Schema.mem_errors_of_endingError {schema : Schema} {document : Json} {error : SchemaError}
    (ended : schema.endingError document = some error) : error ∈ schema.errors document := by
  rcases Option.or_eq_some_iff.mp ended with found | ⟨-, leads⟩
  · exact List.mem_of_find?_eq_some found
  · exact SchemaError.mem_of_leading_eq_some leads

/-- The violation that a check ends with can be told exactly if all violations can. -/
theorem Schema.isWritable_endingError_iff {schema : Schema} {document : Json}
    {error : SchemaError} (ended : schema.endingError document = some error) :
    error.isWritable = true ↔ ∀ other ∈ schema.errors document, other.isWritable = true := by
  refine ⟨fun writable => ?_, fun all => all error (mem_errors_of_endingError ended)⟩
  rcases Option.or_eq_some_iff.mp ended with found | ⟨none, -⟩
  · have unwritable := List.find?_some found
    rw [writable] at unwritable
    cases unwritable
  · simpa using none

/-- The violations of a document that can be written can be told. -/
theorem Schema.isWritable_of_endingError {schema : Schema} {document : Json} {error : SchemaError}
    (writable : document.isWritable = true) (ended : schema.endingError document = some error) :
    error.isWritable = true :=
  schema.isWritable_of_mem_errorsAt [] writable error (mem_errors_of_endingError ended)

/-! ## Settings -/

/-- A mapping whose unexpected keys are of different kinds. -/
def Json.MixesKeys (value : Json) : Prop :=
  ∃ entries, value = .object entries ∧
    JsonObject.areOrdered (unexpectedSettingKeys entries) = false

/-- Texts are of one kind, so a mapping with texts as keys mixes none. -/
theorem Json.not_mixesKeys_of_texts {entries : JsonObject}
    (texts : ∀ key ∈ entries.keys, ForeignKey.ofKeyName? key = none) :
    ¬(Json.object entries).MixesKeys := by
  rintro ⟨_, same, mixed⟩
  cases same
  have kind (key : String) (listed : key ∈ unexpectedSettingKeys entries) :
      JsonObject.keyKind key = "str" := by
    have inKeys := List.mem_of_mem_filter (List.mem_mergeSort.mp listed)
    rw [JsonObject.keyKind, texts key inKeys]
  have ordered : JsonObject.areOrdered (unexpectedSettingKeys entries) = true :=
    List.all_eq_true.mpr fun key listed => List.all_eq_true.mpr fun other otherListed => by
      rw [kind key listed, kind other otherListed, beq_self_eq_true]
  rw [ordered] at mixed
  cases mixed

section Settings

variable {rule : String} {value : Json} {error : ConfigError}

theorem fault?_of_readLevel (writable : value.isWritable = true)
    (failed : readLevel rule value = .error error) : error.fault? = none := by
  unfold readLevel at failed
  split at failed
  · cases failed
  · split at failed <;> cases failed
    rfl
  · cases failed
    rw [ConfigError.fault?, writable]
    rfl

theorem fault?_of_readOptionsMapping (failed : readOptionsMapping rule value = .error error) :
    error.fault? = none := by
  unfold readOptionsMapping at failed
  split at failed <;> cases failed
  rfl

theorem fault?_of_unexpectedKeys {entries : JsonObject}
    (writable : (Json.object entries).isWritable = true) :
    (ConfigError.unexpectedKeys rule (unexpectedSettingKeys entries)).fault? = none ∨
      JsonObject.areOrdered (unexpectedSettingKeys entries) = false := by
  cases ordered : JsonObject.areOrdered (unexpectedSettingKeys entries) with
  | false => exact .inr rfl
  | true =>
      left
      have keys : (unexpectedSettingKeys entries).all JsonObject.isWritableKey = true := by
        refine List.all_eq_true.mpr fun key listed => ?_
        have inKeys := List.mem_of_mem_filter (List.mem_mergeSort.mp listed)
        obtain ⟨entry, inEntries, rfl⟩ := List.mem_map.mp inKeys
        exact (Json.isWritable_object_iff.mp writable entry inEntries).1
      rw [ConfigError.fault?, if_pos ordered, keys]
      rfl

theorem fault?_of_mapM_lookup {α : Type} {read : Json → Except ConfigError α} {part : Option Json}
    (told : ∀ value error, part = some value → read value = .error error → error.fault? = none)
    (failed : part.mapM read = .error error) : error.fault? = none := by
  cases part with
  | none => cases failed
  | some value =>
      rw [Option.mapM_some] at failed
      exact told value error rfl (map_eq_error_iff.mp failed)

/-- A value that can be written is read, or it is told why not, but for mixed keys. -/
theorem fault?_of_readWritten (writable : value.isWritable = true)
    (failed : readWritten rule value = .error error) :
    error.fault? = none ∨ value.MixesKeys := by
  have plain {value : Json} (writable : value.isWritable = true) {error : ConfigError}
      (failed : (do return ⟨some (← readLevel rule value), none⟩ :
        Except ConfigError WrittenSetting) = .error error) : error.fault? = none := by
    rcases bind_eq_error_iff.mp failed with unread | ⟨_, -, wrong⟩
    · exact fault?_of_readLevel writable unread
    · cases wrong
  cases value with
  | array items =>
      left
      have parts := Json.isWritable_array_iff.mp writable
      rcases items with _ | ⟨level, _ | ⟨options, _ | _⟩⟩
      · cases failed
        rfl
      · exact plain (parts level List.mem_cons_self) failed
      · rcases bind_eq_error_iff.mp failed with unread | ⟨_, -, rest⟩
        · exact fault?_of_readOptionsMapping unread
        · rcases bind_eq_error_iff.mp rest with unread | ⟨_, -, wrong⟩
          · exact fault?_of_readLevel (parts level List.mem_cons_self) unread
          · cases wrong
      · cases failed
        rfl
  | object entries =>
      simp only [readWritten] at failed
      split at failed
      · left
        rcases bind_eq_error_iff.mp failed with unread | ⟨_, -, rest⟩
        · exact fault?_of_mapM_lookup (fun _ _ _ => fault?_of_readOptionsMapping) unread
        · rcases bind_eq_error_iff.mp rest with unread | ⟨_, -, wrong⟩
          · exact fault?_of_mapM_lookup (fun _ _ found =>
              fault?_of_readLevel (Json.isWritable_of_lookup writable found)) unread
          · cases wrong
      · cases failed
        exact (fault?_of_unexpectedKeys writable).imp_right fun mixed => ⟨entries, rfl, mixed⟩
  | _ => exact .inl (plain writable failed)

end Settings

end DesignLint
