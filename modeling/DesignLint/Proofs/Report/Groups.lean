import DesignLint.Cohesion.Report
import DesignLint.Proofs.Outcome
import DesignLint.Proofs.Schema.Acceptance
import DesignLint.Report.Grade
import DesignLint.Result.Basic
import DesignLint.Schema.Bundle

/-!
# Groups of findings

A report for readers lists the groups of a finding about cohesion, one numbered line for each. The
groups can be listed wherever the schema for results accepts the document of a result, and the lines
are those of the report that the finding was made from.
-/

namespace DesignLint

/-! ## Groups as lines -/

theorem valuesAt_of_lookup {key : String} {entries : JsonObject} {values : List Json}
    (found : entries.lookup key = some (.array values)) : valuesAt key entries = .ok values := by
  rw [valuesAt, found]
  rfl

theorem joinedTexts_of_lookup {key : String} {group : JsonObject} {texts : List String}
    (found : group.lookup key = some (.strings texts)) :
    joinedTexts key group = .ok (", ".intercalate texts) := by
  refine bind_eq_ok_iff.mpr ⟨_, valuesAt_of_lookup found, ?_⟩
  refine bind_eq_ok_iff.mpr ⟨texts.map id, mapM_map_eq_ok ?_ texts, ?_⟩
  · exact fun _ => rfl
  · rw [List.map_id]
    rfl

theorem joinedTexts_of_lookup_eq_none {key : String} {group : JsonObject}
    (absent : group.lookup key = none) : joinedTexts key group = .ok "" := by
  rw [joinedTexts, valuesAt, absent]
  rfl

theorem groupLine_of_joinedTexts {group : JsonObject} {members names : String}
    (membersRead : joinedTexts "memberNames" group = .ok members)
    (namesRead : joinedTexts "sharedIdentifiers" group = .ok names) :
    groupLine (.object group) =
      .ok ("[" ++ members ++ "] uses \x7b" ++ (if names.isEmpty then "-" else names) ++
        "\x7d") := by
  simp only [groupLine, membersRead, namesRead]
  rfl

theorem groupLine_toJson (detail : Cohesion.ComponentSummary) :
    groupLine detail.toJson = .ok detail.line :=
  groupLine_of_joinedTexts (joinedTexts_of_lookup rfl) (joinedTexts_of_lookup rfl)

theorem exists_joinedTexts_eq_ok {key : String} {group : JsonObject}
    (texts : ∀ value, group.lookup key = some value → ∃ texts, value = .strings texts) :
    ∃ text, joinedTexts key group = .ok text := by
  cases found : group.lookup key with
  | none => exact ⟨_, joinedTexts_of_lookup_eq_none found⟩
  | some value =>
      obtain ⟨texts, rfl⟩ := texts value found
      exact ⟨_, joinedTexts_of_lookup found⟩

theorem exists_groupLine_eq_ok {group : JsonObject}
    (texts : ∀ key ∈ ["memberNames", "sharedIdentifiers"], ∀ value,
      group.lookup key = some value → ∃ texts, value = .strings texts) :
    ∃ line, groupLine (.object group) = .ok line := by
  obtain ⟨members, membersRead⟩ := exists_joinedTexts_eq_ok (texts "memberNames" (by simp))
  obtain ⟨names, namesRead⟩ := exists_joinedTexts_eq_ok (texts "sharedIdentifiers" (by simp))
  exact ⟨_, groupLine_of_joinedTexts membersRead namesRead⟩

namespace Finding

variable {finding : Finding}

theorem readGroups_of_report {report : Cohesion.CohesionReport}
    (told : finding.cohesion? = some (.object report.toJsonObject)) :
    finding.readGroups = .ok (report.components.map Cohesion.ComponentSummary.line) := by
  have components : report.toJsonObject.lookup "components" =
      some (.array (report.components.map Cohesion.ComponentSummary.toJson)) := by
    simp [Cohesion.CohesionReport.toJsonObject, List.lookup_cons]
  have truthy : Json.isTruthy (.object report.toJsonObject) = true := rfl
  rw [readGroups, told, Option.filter_some, if_pos truthy]
  exact bind_eq_ok_iff.mpr ⟨_, valuesAt_of_lookup components,
    mapM_map_eq_ok groupLine_toJson report.components⟩

/-- Below a finding stand the groups of its report, numbered from one. -/
theorem breakdown_of_report {report : Cohesion.CohesionReport}
    (told : finding.cohesion? = some (.object report.toJsonObject)) :
    finding.breakdown = report.components.zipIdx.map fun (detail, index) =>
      toString (index + 1) ++ ". " ++ detail.line := by
  rw [breakdown, groupLines, readGroups_of_report told, Except.toOption, Option.getD_some,
    List.zipIdx_map, List.map_map]
  rfl

theorem readGroups_of_cohesion?_eq_none (absent : finding.cohesion? = none) :
    finding.readGroups = .ok [] := by
  rw [readGroups, absent]
  rfl

theorem breakdown_of_cohesion?_eq_none (absent : finding.cohesion? = none) :
    finding.breakdown = [] := by
  rw [breakdown, groupLines, readGroups_of_cohesion?_eq_none absent]
  rfl

theorem exists_readGroups_of_report {report : JsonObject}
    (told : finding.cohesion? = some (.object report))
    (components : ∀ value, report.lookup "components" = some value → ∃ items, value = .array items ∧
      ∀ item ∈ items, ∃ line, groupLine item = .ok line) :
    ∃ lines, finding.readGroups = .ok lines := by
  have values : ∃ items, valuesAt "components" report = .ok items ∧
      ∀ item ∈ items, ∃ line, groupLine item = .ok line := by
    cases found : report.lookup "components" with
    | none => exact ⟨[], by rw [valuesAt, found], by simp⟩
    | some value =>
        obtain ⟨items, rfl, lines⟩ := components value found
        exact ⟨items, valuesAt_of_lookup found, lines⟩
  obtain ⟨items, listed, each⟩ := values
  obtain ⟨lines, read⟩ := exists_mapM_eq_ok each
  rw [readGroups, told]
  by_cases truthy : Json.isTruthy (.object report) = true
  · rw [Option.filter_some, if_pos truthy]
    exact ⟨lines, bind_eq_ok_iff.mpr ⟨items, listed, read⟩⟩
  · rw [Option.filter_some, if_neg truthy]
    exact ⟨[], rfl⟩

theorem groupFault?_eq_none_iff :
    finding.groupFault? = none ↔ ∃ lines, finding.readGroups = .ok lines := by
  rw [groupFault?]
  cases finding.readGroups <;> simp

end Finding

/-! ## Groups of valid results -/

namespace RunResultSchema

variable {document : Json}

theorem exists_texts_of_passes (passes : textList.Passes document) :
    ∃ texts, document = .strings texts :=
  passes.exists_array (fun _ => JsonType.holds_string_iff.mp) (by simp) (by simp [typed])

theorem exists_groupLine_of_passes (passes : component.Passes document) :
    ∃ line, groupLine document = .ok line := by
  obtain ⟨group, rfl⟩ := JsonType.holds_object_iff.mp (passes.constraint 0 rfl).holds
  have properties := passes.constraint 3 rfl
  refine exists_groupLine_eq_ok fun key listed value found => exists_texts_of_passes ?_
  simp only [List.mem_cons, List.not_mem_nil, or_false] at listed
  rcases listed with rfl | rfl
  · exact properties.property rfl found
  · exact properties.property rfl found

theorem exists_components_of_passes (passes : cohesion.Passes document) :
    ∃ report, document = .object report ∧ ∀ value, report.lookup "components" = some value →
      ∃ items, value = .array items ∧ ∀ item ∈ items, component.Passes item := by
  obtain ⟨report, rfl⟩ := JsonType.holds_object_iff.mp (passes.constraint 0 rfl).holds
  have properties := passes.constraint 3 rfl
  refine ⟨report, rfl, fun value found => ?_⟩
  have own := properties.property rfl found
  obtain ⟨items, rfl⟩ := JsonType.holds_array_iff.mp (own.constraint 0 rfl).holds
  exact ⟨items, rfl, fun item listed => (own.constraint 2 rfl).item listed⟩

theorem lookup_metadata_toJson {own : Finding} (filled : own.metadata ≠ []) :
    own.toJson.entries.lookup "metadata" = some (.object own.metadata) := by
  have filled : own.metadata.isEmpty = false := by simpa using filled
  rw [Finding.toJson, filled]
  cases own.snippet.isEmpty <;> rfl

/-- The groups of a finding can be listed if the schema accepts its document. -/
theorem exists_readGroups_of_passes {own : Finding} (passes : finding.Passes own.toJson) :
    ∃ lines, own.readGroups = .ok lines := by
  cases told : own.cohesion? with
  | none => exact ⟨[], Finding.readGroups_of_cohesion?_eq_none told⟩
  | some value =>
      have filled : own.metadata ≠ [] := by
        intro empty
        rw [Finding.cohesion?, empty] at told
        cases told
      have metadata := (passes.constraint 3 rfl).property rfl (lookup_metadata_toJson filled)
      have reference := (metadata.constraint 1 rfl).property rfl told
      obtain ⟨report, rfl, components⟩ :=
        exists_components_of_passes (reference.constraint 0 rfl).reference
      refine Finding.exists_readGroups_of_report told fun value found => ?_
      obtain ⟨items, rfl, groups⟩ := components value found
      exact ⟨items, rfl, fun item listed => exists_groupLine_of_passes (groups item listed)⟩

end RunResultSchema

theorem BundledSchema.errors_schema_eq_nil {bundled : BundledSchema} {document : Json}
    (silent : bundled.errors document = []) : bundled.schema.errors document = [] := by
  unfold BundledSchema.errors at silent
  split at silent
  · cases silent
  · have same := (List.mergeSort_perm (bundled.schema.errors document) listedBefore).length_eq
    rw [silent] at same
    exact List.length_eq_zero_iff.mp same.symm

/-- The groups of all findings can be listed if the document of their result is valid. -/
theorem RunResult.exists_readGroups_of_valid {result : RunResult}
    (valid : (bundledSchema? RunResultSchema.name).map (·.errors result.toJson) = some []) :
    ∀ finding ∈ result.findings, ∃ lines, finding.readGroups = .ok lines := by
  have bundled : bundledSchema? RunResultSchema.name =
      some ⟨RunResultSchema.name, some RunResultSchema.version, RunResultSchema.schema⟩ :=
    rfl
  rw [bundled, Option.map_some, Option.some.injEq] at valid
  have silent := BundledSchema.errors_schema_eq_nil valid
  intro finding listed
  have passes : RunResultSchema.schema.Passes result.toJson := ⟨[], silent⟩
  have document : result.toJson.entries.lookup "findings" =
      some (.array (result.findings.map Finding.toJson)) := rfl
  have findings := (passes.constraint 6 rfl).property rfl document
  have own := (findings.constraint 1 rfl).item (List.mem_map_of_mem listed)
  exact RunResultSchema.exists_readGroups_of_passes (own.constraint 0 rfl).reference

end DesignLint
