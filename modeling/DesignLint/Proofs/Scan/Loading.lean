import DesignLint.Config.Setting
import DesignLint.Proofs.Config.Resolution

/-!
# Loading configurations

A configuration is loaded, or it is refused with an error that tells what is wrong with it, unless
its file cannot be read as a text: bytes that are no text, and paths that no file can have, make
errors of their own. The error that refuses it can be told, as long as no number in it has too many
digits and no setting mixes keys. Options of a configuration that is loaded are mappings, as far as
the document and the flags name their keys once.
-/

namespace DesignLint

/-! ## Errors -/

section Loading

variable {files : FileSystem} {root : FilePath} {request : ConfigRequest}

/-- The errors of loading a configuration that are no errors of the configuration: the bytes of its
file are no text, or its path is none that a file can have. -/
inductive LoadError.Escapes (files : FileSystem) (root : FilePath) (request : ConfigRequest) :
    LoadError → Prop
  | undecodable {path : FilePath} {content : FileContent} {error : Utf8Error}
      (used : request.file.or (findConfig? files root) = some path)
      (opened : files.open? path = .ok content) (broken : content.text = .error error) :
    Escapes files root request (.undecodable error)
  | unusable {path : FilePath} {error : FileError}
      (used : request.file.or (findConfig? files root) = some path)
      (failed : files.open? path = .error error) (textual : error.fault.isTextual = true) :
    Escapes files root request (.file error)

/-- The configuration that a document and settings make together with a request. -/
def ConfigRequest.configOf (request : ConfigRequest) (files : FileSystem) (root : FilePath)
    (document : ConfigDocument) (rules : RuleTable) : ScanConfig where
  root := root
  included := if document.included.isEmpty then usualPatterns else document.included
  excluded := document.excluded
  preset := choosePreset request.preset document.preset
  rules := rules
  file := request.file.or (findConfig? files root)

/-- A configuration is what its document and the settings of its rules make. -/
theorem configFor_eq_bind (files : FileSystem) (root : FilePath) (request : ConfigRequest) :
    configFor files root request = (request.documentIn files root).bind fun document =>
      ((layeredRules (choosePreset request.preset document.preset)
        (document.rules.merge request.rules)).mapError LoadError.config).map fun rules =>
          (request.configOf files root document rules,
            ((request.file.or (findConfig? files root)).map ScanEvent.configured).toList) := by
  unfold configFor ConfigRequest.documentIn ConfigRequest.configOf
  cases request.file.or (findConfig? files root) with
  | none => rfl
  | some path => rfl

theorem readConfigFile_of_undecodable {path : FilePath} {content : FileContent} {error : Utf8Error}
    (opened : files.open? path = .ok content) (broken : content.text = .error error) :
    readConfigFile files path = .error (.undecodable error) := by
  unfold readConfigFile
  rw [opened]
  dsimp only
  rw [broken]

theorem readConfigFile_of_unusable {path : FilePath} {error : FileError}
    (failed : files.open? path = .error error) (textual : error.fault.isTextual = true) :
    readConfigFile files path = .error (.file error) := by
  unfold readConfigFile
  rw [failed]
  dsimp only
  rw [if_pos textual]

/-- A file that is no text is told from everything that is wrong with a configuration. -/
theorem configFor_of_escapes {error : LoadError} (escapes : error.Escapes files root request) :
    configFor files root request = .error error := by
  rw [configFor_eq_bind]
  cases escapes with
  | undecodable used opened broken =>
      rw [ConfigRequest.documentIn, used]
      dsimp only
      rw [readConfigFile_of_undecodable opened broken]
      rfl
  | unusable used failed textual =>
      rw [ConfigRequest.documentIn, used]
      dsimp only
      rw [readConfigFile_of_unusable failed textual]
      rfl

/-- Reading a configuration file fails with an error of the configuration, unless the file is no
text. -/
theorem escapes_or_config_of_documentIn {error : LoadError}
    (failed : request.documentIn files root = .error error) :
    error.Escapes files root request ∨ ∃ own, error = .config own := by
  unfold ConfigRequest.documentIn at failed
  split at failed
  · rename_i path used
    unfold readConfigFile at failed
    split at failed
    · rename_i own unopened
      split at failed
      · rename_i textual
        cases failed
        exact .inl (.unusable used unopened textual)
      · cases failed
        exact .inr ⟨_, rfl⟩
    · rename_i content opened
      split at failed
      · rename_i own broken
        cases failed
        exact .inl (.undecodable used opened broken)
      · cases failed
        exact .inr ⟨_, rfl⟩
      · obtain ⟨own, -, rfl⟩ := mapError_eq_error_iff.mp failed
        exact .inr ⟨_, rfl⟩
  · cases failed

/-- A configuration is loaded, or it is refused, or its file is no text. -/
theorem configFor_cases (files : FileSystem) (root : FilePath) (request : ConfigRequest) :
    (∃ loaded, configFor files root request = .ok loaded) ∨
      (∃ error, configFor files root request = .error (.config error)) ∨
      ∃ error : LoadError, error.Escapes files root request := by
  cases result : configFor files root request with
  | ok loaded => exact .inl ⟨loaded, rfl⟩
  | error error =>
      right
      rw [configFor_eq_bind] at result
      rcases bind_eq_error_iff.mp result with unread | ⟨document, -, unlayered⟩
      · rcases escapes_or_config_of_documentIn unread with escapes | ⟨config, rfl⟩
        · exact .inr ⟨_, escapes⟩
        · exact .inl ⟨config, rfl⟩
      · rw [map_eq_error_iff, mapError_eq_error_iff] at unlayered
        obtain ⟨own, -, rfl⟩ := unlayered
        exact .inl ⟨own, rfl⟩

end Loading

/-! ## Keys -/

namespace Json.NamesKeysOnce

variable {entries more : JsonObject}

theorem set {key : String} {value : Json} (once : (Json.object entries).NamesKeysOnce)
    (valueOnce : value.NamesKeysOnce) : (Json.object (entries.set key value)).NamesKeysOnce := by
  cases once with
  | object mapping parts =>
      refine .object (JsonObject.isMapping_set mapping) ?_
      intro entry listed
      rcases JsonObject.mem_of_mem_set listed with rfl | inEntries
      · exact valueOnce
      · exact parts entry inEntries

theorem merge (once : (Json.object entries).NamesKeysOnce)
    (moreOnce : (Json.object more).NamesKeysOnce) :
    (Json.object (entries.merge more)).NamesKeysOnce := by
  cases once with
  | object mapping parts =>
      cases moreOnce with
      | object _ moreParts =>
          refine .object (JsonObject.isMapping_merge mapping) ?_
          intro entry listed
          rcases JsonObject.mem_of_mem_merge listed with inEntries | inMore
          · exact parts entry inEntries
          · exact moreParts entry inMore

theorem empty : (Json.object []).NamesKeysOnce :=
  .object List.nodup_nil (by simp)

end Json.NamesKeysOnce

theorem namesKeysOnce_of_readRuleFlag {flag : String} {entry : String × Json}
    (read : readRuleFlag flag = .ok entry) : entry.2.NamesKeysOnce := by
  unfold readRuleFlag at read
  generalize splitAtFirst '=' flag = parts at read
  obtain ⟨name, level⟩ := parts
  generalize Unicode.trim name = name at read
  dsimp only at read
  split at read
  · cases read
  · obtain rfl := Except.ok.inj read
    exact .string _

/-- Flags that set a rule twice set it once. -/
theorem namesKeysOnce_of_readRuleFlags {flags : List String} {rules : JsonObject}
    (read : readRuleFlags flags = .ok rules) : (Json.object rules).NamesKeysOnce := by
  refine foldlM_keeps (fun overrides : JsonObject => (Json.object overrides).NamesKeysOnce)
    ?_ read .empty
  intro before flag after set once
  obtain ⟨entry, entryRead, rfl⟩ := map_eq_ok_iff.mp set
  exact once.set (namesKeysOnce_of_readRuleFlag entryRead)

/-- The settings of a document are those under its key for them, if there are any. -/
theorem rules_of_read {value : Json} {document : ConfigDocument}
    (read : ConfigDocument.read value = .ok document) :
    document.rules = [] ∨ value.field? "rules" = some (.object document.rules) := by
  unfold ConfigDocument.read at read
  split at read
  · cases read
    exact .inl rfl
  · split at read
    · cases read
    · cases read
      unfold ConfigDocument.ofEntries
      dsimp only
      split
      · rename_i rules found
        right
        cases value with
        | object entries => exact found
        | null | bool | number | string | array => cases found
      · exact .inl rfl

theorem Json.mem_of_field?_eq_some {name : String} {value part : Json}
    (found : value.field? name = some part) : ∃ entries, value = .object entries ∧
      (name, part) ∈ entries := by
  cases value with
  | object entries => exact ⟨entries, rfl, JsonObject.mem_of_lookup_eq_some found⟩
  | null | bool | number | string | array => cases found

theorem namesKeysOnce_of_read {value : Json} {document : ConfigDocument}
    (once : value.NamesKeysOnce) (read : ConfigDocument.read value = .ok document) :
    (Json.object document.rules).NamesKeysOnce := by
  rcases rules_of_read read with none | found
  · rw [none]
    exact .empty
  · obtain ⟨entries, rfl, listed⟩ := Json.mem_of_field?_eq_some found
    cases once with
    | object mapping parts => exact parts _ listed

section Documents

variable {files : FileSystem} {root : FilePath} {request : ConfigRequest}

/-- The settings that the file of a configuration gives come from what it says. -/
theorem rules_of_documentIn {document : ConfigDocument}
    (found : request.documentIn files root = .ok document) :
    document.rules = [] ∨ ∃ path content value,
      request.file.or (findConfig? files root) = some path ∧ files.open? path = .ok content ∧
        content.settings = some value ∧ ConfigDocument.read value = .ok document := by
  unfold ConfigRequest.documentIn at found
  split at found
  · rename_i path used
    right
    unfold readConfigFile at found
    split at found
    · split at found <;> cases found
    · rename_i content opened
      split at found
      · cases found
      · cases found
      · rename_i value _ settings
        exact ⟨path, content, value, used, opened, settings, mapError_eq_ok_iff.mp found⟩
  · cases found
    exact .inl rfl

/-- What a configuration may consist of for its errors to be told: no number in it has too many
digits, and no setting mixes keys. -/
structure ConfigRequest.IsTellable (request : ConfigRequest) (files : FileSystem)
    (root : FilePath) : Prop where
  document : ∀ path content value, request.file.or (findConfig? files root) = some path →
    files.open? path = .ok content → content.settings = some value →
    value.isWritable = true ∧ ∀ rules, value.field? "rules" = some (.object rules) →
      ∀ entry ∈ rules, ¬entry.2.MixesKeys
  overrides : (Json.object request.rules).isWritable = true ∧
    ∀ entry ∈ request.rules, ¬entry.2.MixesKeys

variable (documents : ∀ path content value, request.file.or (findConfig? files root) = some path →
  files.open? path = .ok content → content.settings = some value → value.NamesKeysOnce)

include documents

theorem namesKeysOnce_of_documentIn {document : ConfigDocument}
    (found : request.documentIn files root = .ok document) :
    (Json.object document.rules).NamesKeysOnce := by
  rcases rules_of_documentIn found with none | ⟨path, content, value, used, opened, settings, read⟩
  · rw [none]
    exact .empty
  · exact namesKeysOnce_of_read (documents path content value used opened settings) read

omit documents in
/-- Reading a configuration file is told why it fails, if the document in it can be written. -/
theorem fault?_of_documentIn {error : ConfigError} (tellable : request.IsTellable files root)
    (unread : request.documentIn files root = .error (.config error)) : error.fault? = none := by
  unfold ConfigRequest.documentIn at unread
  split at unread
  · rename_i path used
    unfold readConfigFile at unread
    split at unread
    · split at unread <;> cases unread
      rfl
    · rename_i content opened
      split at unread
      · cases unread
      · cases unread
        rfl
      · rename_i value _ settings
        have writable := (tellable.document path content value used opened settings).1
        obtain ⟨own, misread, same⟩ := mapError_eq_error_iff.mp unread
        cases same
        unfold ConfigDocument.read at misread
        split at misread
        · cases misread
        · split at misread <;> cases misread
          rename_i ended
          rw [ConfigError.fault?, Schema.isWritable_of_endingError writable ended]
          rfl
  · cases unread

omit documents in
/-- The settings of a file that is read can be told, if the document in it can. -/
theorem tellable_rules_of_documentIn {document : ConfigDocument}
    (tellable : request.IsTellable files root)
    (found : request.documentIn files root = .ok document) :
    (Json.object document.rules).isWritable = true ∧
      ∀ entry ∈ document.rules, ¬entry.2.MixesKeys := by
  rcases rules_of_documentIn found with none | ⟨path, content, value, used, opened, settings, read⟩
  · rw [none]
    exact ⟨rfl, List.forall_mem_nil _⟩
  obtain ⟨writable, unmixed⟩ := tellable.document path content value used opened settings
  rcases rules_of_read read with none | field
  · rw [none]
    exact ⟨rfl, List.forall_mem_nil _⟩
  · obtain ⟨entries, rfl, listed⟩ := Json.mem_of_field?_eq_some field
    exact ⟨(Json.isWritable_object_iff.mp writable _ listed).2, unmixed _ field⟩

/-- A configuration that is not loaded is told why, if its errors can be told. -/
theorem fault?_of_configFor {error : ConfigError} (tellable : request.IsTellable files root)
    (failed : configFor files root request = .error (.config error)) : error.fault? = none := by
  rw [configFor_eq_bind] at failed
  rcases bind_eq_error_iff.mp failed with unread | ⟨document, found, unlayered⟩
  · exact fault?_of_documentIn tellable unread
  · obtain ⟨own, failedToo, same⟩ := mapError_eq_error_iff.mp (map_eq_error_iff.mp unlayered)
    cases same
    obtain ⟨writable, unmixed⟩ := tellable_rules_of_documentIn tellable found
    have mapping : (document.rules.merge request.rules).IsMapping :=
      JsonObject.isMapping_merge (namesKeysOnce_of_documentIn documents found).isMapping
    have mergedWritable : (Json.object (document.rules.merge request.rules)).isWritable = true := by
      refine Json.isWritable_object_iff.mpr fun entry listed => ?_
      rcases JsonObject.mem_of_mem_merge listed with inDocument | inRequest
      · exact Json.isWritable_object_iff.mp writable entry inDocument
      · exact Json.isWritable_object_iff.mp tellable.overrides.1 entry inRequest
    refine (fault?_of_layeredRules mapping mergedWritable failedToo).resolve_right ?_
    rintro ⟨entry, listed, mixed⟩
    rcases JsonObject.mem_of_mem_merge listed with inDocument | inRequest
    · exact unmixed entry inDocument mixed
    · exact tellable.overrides.2 entry inRequest mixed

/-- The options of a configuration are mappings, if the document of its file names each key
once. -/
theorem isMapping_options_of_configFor {config : ScanConfig} {events : List ScanEvent}
    (requested : (Json.object request.rules).NamesKeysOnce)
    (configured : configFor files root request = .ok (config, events)) (rule : Rule) :
    (config.rules rule).options.IsMapping := by
  rw [configFor_eq_bind] at configured
  obtain ⟨document, found, rest⟩ := bind_eq_ok_iff.mp configured
  obtain ⟨rules, layered, made⟩ := map_eq_ok_iff.mp rest
  rw [mapError_eq_ok_iff] at layered
  have once := (namesKeysOnce_of_documentIn documents found).merge requested
  obtain ⟨known, -, -, leaves, -⟩ := (layeredRules_eq_ok_iff once.isMapping).mp layered
  cases made
  exact (leaves rule).isMapping_options once

end Documents

end DesignLint
