import DesignLint.Proofs.Config.Layering
import DesignLint.Proofs.Scan.Discovery
import DesignLint.Proofs.Scan.Order

/-!
# Scans seen from their root

The steps of a scan of a directory, each told by what is seen below the directory: where the scan
runs, what configures it, which sources it reads, and what its analyzers find there. An analyzer
finds the same in the sources below a root as in the same sources without a root.
-/

namespace DesignLint

/-! ## Sources below a root -/

/-- A source with the names of a root before its own. -/
def SourceFile.below (root : List String) (file : SourceFile) : SourceFile :=
  { file with place := root ++ file.place }

/-- The sources under some names. -/
def TreeView.sources (view : TreeView) (listed : List (List String)) : List SourceFile :=
  listed.filterMap fun names =>
    match view names with
    | some (some content) => some ⟨names, content.source⟩
    | _ => none

theorem sourceFiles_below (files : FileSystem) (root : List String)
    (listed : List (List String)) :
    sourceFiles files (listed.map (root ++ ·)) =
      ((files.viewFrom root).sources listed).map (.below root) := by
  rw [sourceFiles, TreeView.sources, List.filterMap_map, List.map_filterMap]
  apply List.filterMap_congr
  intro names _
  unfold FileSystem.viewFrom
  rw [Function.comp_apply]
  rcases files.at? (root ++ names) with _ | ⟨content⟩ | ⟨entries⟩ <;> rfl

theorem pathsBelow_map (root : List String) (listed : List (List String)) :
    pathsBelow root (listed.map (root ++ ·)) =
      .ok (listed.map fun names => FilePath.text ⟨0, names⟩) := by
  unfold pathsBelow
  induction listed with
  | nil => rfl
  | cons names listed inductionHypothesis =>
      rw [List.map_cons, List.mapM_cons, inductionHypothesis, relativeTo?_append]
      rfl

namespace Analyzer

variable {analyzer : Analyzer} {rounding : Cohesion.Rounding} {root : List String}

theorem ofFile?_below (file : SourceFile) :
    analyzer.ofFile? rounding root (file.below root) = analyzer.ofFile? rounding [] file := by
  obtain ⟨place, parsed⟩ := file
  cases parsed with
  | error error => rfl
  | ok module =>
      simp only [ofFile?, SourceFile.below, findingsIn?, relativeTo?_append]
      rfl

/-- An analyzer finds the same below a root. -/
theorem ending_checker_below (sources : List SourceFile) :
    ((analyzer.checker rounding).run root (sources.map (.below root))).ending =
      ((analyzer.checker rounding).run [] sources).ending := by
  rw [ending_checker, ending_checker, List.all_map, List.flatMap_map]
  simp only [Function.comp_def, ofFile?_below]

end Analyzer

theorem findings_runCheckers_below {analyzers : List Analyzer} {rounding : Cohesion.Rounding}
    (deadline : Deadline) (root : List String) (sources : List SourceFile) :
    (runCheckers (analyzers.map fun analyzer => analyzer.checker rounding) deadline root
        (sources.map (.below root))).findings =
      analyzers.flatMap fun analyzer =>
        ((analyzer.checker rounding).run [] sources).ending.findings := by
  rw [findings_runCheckers, List.flatMap_map]
  simp only [Analyzer.ending_checker_below]

/-! ## Configurations -/

/-- What the configuration in a file says, if it can be read. -/
def FileContent.document? (content : FileContent) : Option ConfigDocument :=
  match content.text, content.settings with
  | .ok _, some value => (ConfigDocument.read value).toOption
  | _, _ => none

/-- The configuration that a document makes of its preset and its rules. -/
def ConfigDocument.config (document : ConfigDocument) (root : FilePath) (file : Option FilePath)
    (preset : String) (rules : RuleTable) : ScanConfig where
  root := root
  included := if document.included.isEmpty then usualPatterns else document.included
  excluded := document.excluded
  preset := preset
  rules := rules
  file := file

namespace TreeView

/-- The name of the file at the root that configures a scan. -/
def configName? (view : TreeView) : Option String :=
  configNames.find? fun name => (view [name]).join.isSome

/-- The file at the root that configures a scan. -/
def settings? (view : TreeView) : Option FileContent :=
  view.configName?.bind fun name => (view [name]).join

/-- What configures a scan. -/
def document? (view : TreeView) : Option ConfigDocument :=
  match view.settings? with
  | some content => content.document?
  | none => some .silent

end TreeView

namespace HoldsTree

variable {files : FileSystem} {root names : List String} (tree : HoldsTree files root)

include tree

theorem open?_eq {content : FileContent}
    (seen : files.viewFrom root names = some (some content)) :
    files.open? (.absolute (root ++ names)) = .ok content := by
  have found := FileSystem.viewFrom_eq_file_iff.mp seen
  have located : files.locate (.absolute (root ++ names)) = .ok (root ++ names) :=
    tree.opens.locate_eq_ok (tree.opens.noPoints_of_at? found) found
  rw [FileSystem.open?, located]
  simp only [found]

theorem readConfigFile_eq_ok_iff {content : FileContent} {document : ConfigDocument}
    (seen : files.viewFrom root names = some (some content)) :
    readConfigFile files (.absolute (root ++ names)) = .ok document ↔
      content.document? = some document := by
  unfold readConfigFile FileContent.document?
  rw [tree.open?_eq seen]
  dsimp only
  cases content.text with
  | error error => simp
  | ok text =>
      cases content.settings with
      | none => simp
      | some value =>
          cases read : ConfigDocument.read value <;> simp [read, Except.toOption]

theorem findConfig?_eq :
    findConfig? files (.absolute root) =
      (files.viewFrom root).configName?.map fun name => .absolute (root ++ [name]) := by
  have child (name : String) :
      (FilePath.absolute root).child name = .absolute (root ++ [name]) := rfl
  have file (name : String) (noPoints : ".." ∉ [name]) :
      files.file? (.absolute (root ++ [name])) = (files.viewFrom root [name]).join :=
    tree.opens.file?_eq noPoints
  simp only [findConfig?, TreeView.configName?, configNames, List.map_cons, List.map_nil,
    List.find?_cons, child, file ".code-complete.yml" (by decide),
    file ".code-complete.yaml" (by decide)]
  cases (files.viewFrom root [".code-complete.yml"]).join.isSome <;>
    cases (files.viewFrom root [".code-complete.yaml"]).join.isSome <;> rfl

theorem documentIn_eq_ok_iff {request : ConfigRequest} {document : ConfigDocument}
    (ownFile : request.file = none) :
    request.documentIn files (.absolute root) = .ok document ↔
      (files.viewFrom root).document? = some document := by
  unfold ConfigRequest.documentIn TreeView.document? TreeView.settings?
  rw [ownFile, Option.none_or, tree.findConfig?_eq]
  cases named : (files.viewFrom root).configName? with
  | none => simp
  | some name =>
      have something : (files.viewFrom root [name]).join.isSome = true := by
        have found := List.find?_some named
        exact found
      obtain ⟨content, seen⟩ := Option.isSome_iff_exists.mp something
      rw [Option.bind_some, seen]
      exact tree.readConfigFile_eq_ok_iff (Option.join_eq_some_iff.mp seen)

/-- What a scan of a root is configured by. -/
theorem configFor_eq_ok_iff {request : ConfigRequest} {config : ScanConfig}
    {events : List ScanEvent} (ownFile : request.file = none) :
    configFor files (.absolute root) request = .ok (config, events) ↔
      ∃ document rules, (files.viewFrom root).document? = some document ∧
        layeredRules (choosePreset request.preset document.preset)
          (document.rules.merge request.rules) = .ok rules ∧
        config = document.config (.absolute root) (findConfig? files (.absolute root))
          (choosePreset request.preset document.preset) rules ∧
        events = ((findConfig? files (.absolute root)).map ScanEvent.configured).toList := by
  have given : configFor files (.absolute root) request =
      request.documentIn files (.absolute root) >>= fun document =>
        (layeredRules (choosePreset request.preset document.preset)
          (document.rules.merge request.rules)).mapError LoadError.config >>= fun rules =>
            .ok (document.config (.absolute root) (findConfig? files (.absolute root))
                (choosePreset request.preset document.preset) rules,
              ((findConfig? files (.absolute root)).map ScanEvent.configured).toList) := by
    unfold configFor ConfigRequest.documentIn
    rw [ownFile, Option.none_or]
    cases findConfig? files (.absolute root) <;> rfl
  have read (document : ConfigDocument) :=
    @documentIn_eq_ok_iff files root tree request document ownFile
  rw [given, bind_eq_ok_iff]
  constructor
  · rintro ⟨document, found, rest⟩
    obtain ⟨rules, layered, made⟩ := bind_eq_ok_iff.mp rest
    cases made
    exact ⟨document, rules, (read document).mp found, mapError_eq_ok_iff.mp layered, rfl, rfl⟩
  · rintro ⟨document, rules, found, layered, rfl, rfl⟩
    refine ⟨document, (read document).mpr found, bind_eq_ok_iff.mpr ⟨rules, ?_, rfl⟩⟩
    exact mapError_eq_ok_iff.mpr layered

/-! ## Scans -/

theorem target_eq : files.target (.absolute root) = .ok (.absolute root) := by
  obtain ⟨entries, found⟩ := tree.directory
  have usable := tree.usable [] _ (by rwa [List.append_nil])
  rw [List.append_nil] at usable
  unfold FileSystem.target FileSystem.askingError? FileSystem.resolve
  rw [usable.faultless, ← FileSystem.eq_resolve_of_locate tree.opens.located]
  dsimp only [Option.filter_none]
  rw [tree.opens.located]

theorem scanRoot_eq : scanRoot files (.absolute root) = .absolute root := by
  rw [scanRoot, if_pos tree.opens.isDirectory_root]

/-- A scan of a project is a scan of its directory under its configuration. -/
theorem scanProject_eq (request : ConfigRequest) (projectId : String) (mode : ScanMode) :
    scanProject files (.absolute root) request projectId mode =
      scanConfigured files (.absolute root) request none projectId mode := by
  have something : files.has (.absolute root) = true := by
    have has := tree.opens.has_eq List.not_mem_nil
    rw [FilePath.below_nil, tree.opens.view_nil] at has
    exact has
  unfold scanProject
  rw [tree.target_eq]
  simp only [mapError_ok, bind, Except.bind, something, if_true]

end HoldsTree

end DesignLint
