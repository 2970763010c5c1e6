import DesignLint.Proofs.Cohesion.Average
import DesignLint.Proofs.Files.Components
import DesignLint.Proofs.Rule.Moved
import DesignLint.Proofs.Scan.Configured
import DesignLint.Proofs.Scan.Rooted
import DesignLint.Scan.Source

/-!
# Scans of a directory with one file

A scan of a directory that holds one file and a check of the text in this file find the same, if
the file is not too large to be scanned. The scan sorts its findings by their files and by their
identifiers as well, but in one file this only decides about findings of one rule at one place.
-/

namespace DesignLint

/-! ## Files with source code -/

namespace Wildcard

theorem anySuffix_eq_true_iff {accept : List Char → Bool} {text : List Char} :
    anySuffix accept text = true ↔ ∃ rest, rest <:+ text ∧ accept rest = true := by
  induction text with
  | nil => simp [anySuffix]
  | cons c text inductionHypothesis =>
      rw [anySuffix, Bool.or_eq_true, inductionHypothesis]
      simp only [List.suffix_cons_iff, or_and_right, exists_or, exists_eq_left]

end Wildcard

/-- The ending of the names of files with source code. -/
def sourceEnding : List Char := ".py".toList

theorem wildcardMatches_source_iff {name : String} :
    wildcardMatches "*.py" name = true ↔ sourceEnding <:+ name.toList := by
  have pattern : Wildcard.read "*.py" = .anyRun :: sourceEnding.map .literal := by decide
  rw [wildcardMatches_eq, pattern, Wildcard.matchesTokens, Wildcard.anySuffix_eq_true_iff]
  simp only [Wildcard.matchesTokens_literals_iff, exists_eq_right]

/-- The pattern for all files with source code. -/
def usualGlob : Glob := ⟨[.anyDepth, .matching "*.py"], false⟩

/-- Names under which a scan finds a file, unless it is told otherwise: the ones of files with
source code, in no directory that is never searched. -/
structure IsDiscoverable (names : List String) : Prop where
  source : ∃ name, names.getLast? = some name ∧ sourceEnding <:+ name.toList
  searched : ∀ name ∈ names.dropLast, name ∉ neverSearched

theorem isDiscoverable_append_iff {names : List String} {name : String} :
    IsDiscoverable (names ++ [name]) ↔
      sourceEnding <:+ name.toList ∧ ∀ directory ∈ names, directory ∉ neverSearched := by
  constructor
  · rintro ⟨⟨last, isLast, ending⟩, searched⟩
    rw [List.getLast?_concat, Option.some.injEq] at isLast
    rw [List.dropLast_concat] at searched
    exact ⟨isLast ▸ ending, searched⟩
  · rintro ⟨ending, searched⟩
    refine ⟨⟨name, List.getLast?_concat, ending⟩, ?_⟩
    rwa [List.dropLast_concat]

/-- Without patterns and exclusions, a scan takes small files with source code. -/
theorem finds_usual_iff {view : TreeView} {names : List String} {name : String}
    (inside : view names = some none) :
    view.Finds [usualGlob] (.ofTexts []) (names ++ [name]) ↔
      IsDiscoverable (names ++ [name]) ∧
        ∃ content, view (names ++ [name]) = some (some content) ∧ content.size ≤ sizeLimit := by
  have covers : (Exclusion.ofTexts []).covers (names ++ [name]) = false ↔
      ∀ directory ∈ names, directory ∉ neverSearched := by
    simp [Exclusion.covers, Exclusion.ofTexts]
  unfold TreeView.Finds Exclusion.Takes
  rw [covers, isDiscoverable_append_iff]
  constructor
  · rintro ⟨⟨searched, content, seen, small⟩, glob, listed, leads⟩
    obtain rfl := List.mem_singleton.mp listed
    obtain ⟨inner, -, last, isMatch, -, found⟩ := leads
    obtain rfl : name = last := List.singleton_inj.mp (List.append_inj_right' found rfl)
    exact ⟨⟨wildcardMatches_source_iff.mp isMatch, searched⟩, content, seen, small⟩
  · rintro ⟨⟨ending, searched⟩, content, seen, small⟩
    refine ⟨⟨searched, content, seen, small⟩, usualGlob, List.mem_singleton_self _, ?_⟩
    refine ⟨names, inside, name, wildcardMatches_source_iff.mpr ending, ?_, rfl⟩
    rw [List.nil_append, TreeView.admits]
    simp [usualGlob, seen]

/-! ## Directories with one file -/

/-- A directory that holds one file under a name that a scan finds: a scan skips files in some
directories, and with other endings. There may be empty directories in it. -/
structure HoldsFile (files : FileSystem) (root names : List String) (content : FileContent) : Prop
    extends HoldsTree files root where
  only : ∀ others own,
    files.viewFrom root others = some (some own) ↔ others = names ∧ own = content
  discoverable : IsDiscoverable names

namespace HoldsFile

variable {files : FileSystem} {root names : List String} {content : FileContent}
  (holds : HoldsFile files root names content)

include holds

theorem seen : files.viewFrom root names = some (some content) :=
  (holds.only names content).mpr ⟨rfl, rfl⟩

/-- The file is found exactly if it is not over the limit for sizes. -/
theorem finds_iff {others : List String} :
    (files.viewFrom root).Finds [usualGlob] (.ofTexts []) others ↔
      others = names ∧ content.size ≤ sizeLimit := by
  obtain ⟨last, isLast, -⟩ := holds.discoverable.source
  obtain ⟨above, rfl⟩ := List.getLast?_eq_some_iff.mp isLast
  have found := FileSystem.viewFrom_eq_file_iff.mp holds.seen
  rw [← List.append_assoc] at found
  obtain ⟨entries, foundAbove, -⟩ := FileSystem.exists_directory_of_at?_append found
  have inside := FileSystem.viewFrom_eq_directory_iff.mpr ⟨entries, foundAbove⟩
  constructor
  · intro found
    obtain ⟨⟨-, own, seen, small⟩, -⟩ := found
    obtain ⟨rfl, rfl⟩ := (holds.only others own).mp seen
    exact ⟨rfl, small⟩
  · rintro ⟨rfl, small⟩
    exact (finds_usual_iff inside).mpr ⟨holds.discoverable, content, holds.seen, small⟩

/-- A file with source code is no configuration file. -/
theorem document?_eq : (files.viewFrom root).document? = some .silent := by
  have noSettings : (files.viewFrom root).configName? = none := by
    refine List.find?_eq_none.mpr ?_
    intro name listed something
    obtain ⟨own, joined⟩ := Option.isSome_iff_exists.mp something
    obtain ⟨rfl, -⟩ := (holds.only [name] own).mp (Option.join_eq_some_iff.mp joined)
    obtain ⟨last, isLast, ending⟩ := holds.discoverable.source
    obtain rfl : name = last := by simpa using isLast
    have unlike : ∀ name ∈ configNames, ¬ sourceEnding <:+ name.toList := by decide
    exact unlike name listed ending
  rw [TreeView.document?, TreeView.settings?, noSettings]
  rfl

/-- Without a configuration file, the preset and the overrides that are asked for count. -/
theorem configFor_eq {preset : String} {overrides : JsonObject} {table : RuleTable}
    (mapping : overrides.IsMapping) (layered : layeredRules preset overrides = .ok table) :
    ∃ file events, configFor files (.absolute root) { preset := preset, rules := overrides } =
      .ok ({ root := .absolute root, preset := preset, rules := table, file := file }, events) := by
  have nonempty : preset.isEmpty = false := by
    rw [Bool.eq_false_iff, ne_eq, String.isEmpty_iff]
    rintro rfl
    cases layered
  have chosen : choosePreset preset ConfigDocument.silent.preset = preset := by
    simp [choosePreset, nonempty]
  have merged : ConfigDocument.silent.rules.merge overrides = overrides :=
    JsonObject.nil_merge mapping
  refine ⟨findConfig? files (.absolute root), _, (holds.configFor_eq_ok_iff rfl).mpr
    ⟨.silent, table, holds.document?_eq, ?layered, ?config, rfl⟩⟩
  case layered =>
    dsimp only
    rw [chosen, merged, layered]
  case config =>
    dsimp only
    rw [chosen]
    rfl

/-- What a scan takes from the directory: the file, or nothing if the file is over the limit for
sizes. -/
theorem discover_eq_ok : ∃ found, discover files (.absolute root) usualPatterns [] = .ok found ∧
    found.files = if content.size ≤ sizeLimit then [root ++ names] else [] := by
  have below : StayBelow usualGlob.steps := by
    intro member
    simp [usualGlob] at member
  have read : Glob.ofTextIn files (.absolute root) "**/*.py" = .ok usualGlob := by
    refine Glob.ofTextIn_eq_ok_iff.mpr ⟨by decide, ?_⟩
    refine (holds.opens.lookupError?_eq_none_iff below).mpr (.inl ?_)
    simp [usualGlob, GlobStep.isLongName]
  have all : usualPatterns.mapM (Glob.ofTextIn files (.absolute root)) = .ok [usualGlob] := by
    rw [usualPatterns, List.mapM_cons, read]
    rfl
  refine ⟨discoverBelow files (.absolute root) [usualGlob] (.ofTexts []), ?_, ?_⟩
  · rw [holds.opens.discover_eq]
    exact congrArg (Except.map _) all
  · split
    · rename_i small
      apply holds.opens.files_discoverBelow (by simpa using below) (List.pairwise_singleton _ names)
      intro others
      rw [holds.finds_iff, List.mem_singleton, and_iff_left small]
    · rename_i large
      apply holds.opens.files_discoverBelow (by simpa using below) List.Pairwise.nil
      intro others
      rw [holds.finds_iff]
      simp [large]

end HoldsFile

/-! ## Checking one text -/

namespace Analyzer

/-- An analyzer run over one file finds what it finds in the text of this file. -/
theorem ending_checker_of_checkText {analyzer : Analyzer} {module : Syntax.Module}
    {names : List String} {findings : List Finding}
    (checked : analyzer.checkText (.ok module) (FilePath.text ⟨0, names⟩) = .ok findings) :
    (analyzer.checker.run [] [⟨names, .ok module⟩]).ending = .found findings := by
  obtain ⟨own, parsed, rest⟩ := bind_eq_ok_iff.mp checked
  obtain ⟨-, same⟩ := Syntax.ParseResult.under_eq_ok_iff.mp (mapError_eq_ok_iff.mp parsed)
  cases same
  obtain ⟨raw, rawEq, finish⟩ := bind_eq_ok_iff.mp rest
  cases finish
  have relative : relativeTo? [] names = some names := relativeTo?_append [] names
  have found : analyzer.ofFile? .binary64 [] ⟨names, .ok module⟩ = some raw := by
    simp only [ofFile?, findingsIn?, relative, rawEq]
    rfl
  rw [ending_checker]
  simp [found]

/-- Whether all texts that go into fingerprints are free of lone surrogates. -/
def writesPlainly (analyzer : Analyzer) (module : Syntax.Module) (path : String) : Bool :=
  match analyzer.options.violations module with
  | .ok violations => violations.all fun violation =>
    [violation.ruleId.text, forwardSlashes path, violation.symbol,
      violation.snippet].all fun text => text.toList.all fun c => !Surrogate.isStandIn c
  | .error _ => false

theorem exists_checkText {analyzer : Analyzer} {module : Syntax.Module} {path : String}
    (usable : Syntax.isUsablePath path = true)
    (plain : analyzer.writesPlainly module path = true) :
    ∃ findings, analyzer.checkText (.ok module) path = .ok findings := by
  unfold writesPlainly at plain
  split at plain
  · rename_i violations reported
    refine ⟨_, checkText_eq_ok_iff.mpr ⟨usable, violations, reported, ?_, rfl⟩⟩
    apply fingerprintError?_eq_none
    intro violation listed
    exact List.all_eq_true.mp (List.all_eq_true.mp plain violation listed)
  · cases plain

theorem path_of_checkText {analyzer : Analyzer} {parsed : Syntax.ParseResult} {path : String}
    {findings : List Finding} (checked : analyzer.checkText parsed path = .ok findings) :
    ∀ finding ∈ findings, finding.location.path = path := by
  obtain ⟨module, -, rest⟩ := bind_eq_ok_iff.mp checked
  obtain ⟨raw, rawEq, finish⟩ := bind_eq_ok_iff.mp rest
  cases finish
  intro finding listed
  obtain ⟨own, member, number, rfl⟩ := exists_of_mem_numbered listed
  exact (reports_of_rawFindings rawEq own member).path

end Analyzer

/-- Analyzers run over one file find what they find in the text of this file. -/
theorem flatMap_checker_of_checkAll {analyzers : List Analyzer} {module : Syntax.Module}
    {names : List String} {findings : List Finding}
    (checked : checkAll analyzers (.ok module) (FilePath.text ⟨0, names⟩) = .ok findings) :
    analyzers.flatMap (fun analyzer =>
      (analyzer.checker.run [] [⟨names, .ok module⟩]).ending.findings) = findings := by
  obtain ⟨found, each, rfl⟩ := map_eq_ok_iff.mp checked
  clear checked
  induction analyzers generalizing found with
  | nil =>
      cases each
      rfl
  | cons analyzer analyzers inductionHypothesis =>
      obtain ⟨own, others, ownEq, othersEq, rfl⟩ := mapM_cons_eq_ok_iff.mp each
      rw [List.flatMap_cons, List.flatten_cons, inductionHypothesis others othersEq,
        Analyzer.ending_checker_of_checkText ownEq]
      rfl

theorem path_of_checkAll {analyzers : List Analyzer} {parsed : Syntax.ParseResult} {path : String}
    {findings : List Finding} (checked : checkAll analyzers parsed path = .ok findings) :
    ∀ finding ∈ findings, finding.location.path = path := by
  obtain ⟨found, each, rfl⟩ := map_eq_ok_iff.mp checked
  intro finding listed
  obtain ⟨own, ownListed, member⟩ := List.mem_flatten.mp listed
  obtain ⟨analyzer, -, ownEq⟩ := exists_of_mapM_eq_ok each own ownListed
  exact Analyzer.path_of_checkText ownEq finding member

/-- In one file, the order of a scan is one by lines, columns and rules. -/
theorem Finding.lineOrder_of_scanOrder {a b : Finding} (paths : a.location.path = b.location.path)
    (before : a.scanOrder b = true) : a.lineOrder b = true := by
  have ranks : a.key.rank ≤ b.key.rank := by
    have whole := scanOrder_iff.mp before
    rw [Prod.Lex.toLex_le_toLex] at whole
    rcases whole with less | ⟨equal, -⟩
    · exact less.le
    · exact equal.le
  rw [FindingKey.rank, FindingKey.rank, Prod.Lex.toLex_le_toLex] at ranks
  rcases ranks with less | ⟨-, inFile⟩
  · exact absurd paths (ne_of_lt less)
  · exact lineOrder_iff.mpr inFile

/-! ## Both ways to check a file -/

/-- What all analyzers find in one file fits the schema for results. -/
theorem fits_of_flatMap_checker {analyzers : List Analyzer} {module : Syntax.Module}
    {names : List String} (few : Cohesion.statementCount module.tree ≤ sizeLimit)
    (percentages : ∀ analyzer ∈ analyzers, analyzer.options.HasPercentage) :
    ∀ finding ∈ analyzers.flatMap (fun analyzer =>
      (analyzer.checker.run [] [⟨names, .ok module⟩]).ending.findings), finding.Fits := by
  intro finding listed
  obtain ⟨analyzer, member, found⟩ := List.mem_flatMap.mp listed
  cases ending : (analyzer.checker.run [] [⟨names, .ok module⟩]).ending with
  | found findings =>
      rw [ending] at found
      refine Analyzer.fits_of_checker (percentages analyzer member) ?_ ending finding found
      intro file inFiles own parsed
      obtain rfl := List.mem_singleton.mp inFiles
      cases parsed
      exact Cohesion.Rounding.keepsScores_binary64 (.module module) few
  | timedOut => simp [ending, CheckerEnd.findings] at found
  | crashed => simp [ending, CheckerEnd.findings] at found

/-- The configuration of a scan of a project without a configuration file, as a reproducible result
shows it. -/
def shownConfig (preset : String) (table : RuleTable) : Json :=
  ScanConfig.toJson { root := ⟨0, []⟩, preset := preset, rules := table }

namespace HoldsFile

variable {files : FileSystem} {root names : List String} {content : FileContent} {preset : String}
  {table : RuleTable} {analyzers : List Analyzer} {mode : ScanMode} {deadline : Deadline}
  (holds : HoldsFile files root names content)

include holds

/-- A scan of the project is one with the analyzers that are asked for. -/
theorem exists_scanProject_eq {overrides : JsonObject} (projectId : String) (mode : ScanMode)
    (mapping : overrides.IsMapping) (layered : layeredRules preset overrides = .ok table)
    (made : table.analyzers = .ok analyzers) :
    ∃ file,
      (scanProject files (.absolute root) { preset := preset, rules := overrides } projectId
          mode).map ScanOutcome.result =
        (scanWith files (.absolute root)
          { root := .absolute root, preset := preset, rules := table, file := file }
          (analyzers.map fun analyzer => analyzer.checker) projectId mode).map
            ScanOutcome.result := by
  obtain ⟨file, events, configured⟩ := holds.configFor_eq mapping layered
  refine ⟨file, ?_⟩
  rw [← holds.scanRoot_eq] at configured
  rw [holds.scanProject_eq,
    scanConfigured_eq configured (map_eq_ok_iff.mpr ⟨analyzers, made, rfl⟩), map_map,
    holds.scanRoot_eq]
  rfl

variable {module : Syntax.Module} {findings : List Finding}
  (parsed : content.source = .ok module)

include parsed

/-- Analyzers find in the project what they find in the text of the file, if the file is taken. -/
theorem findings_runCheckers_eq (limit : Deadline)
    (checked : checkAll analyzers (.ok module) (FilePath.text ⟨0, names⟩) = .ok findings) :
    (runCheckers (analyzers.map fun analyzer => analyzer.checker) limit root
        (sourceFiles files (if content.size ≤ sizeLimit then [root ++ names] else []))).findings =
      if content.size ≤ sizeLimit then findings else [] := by
  split
  · have sources : sourceFiles files [root ++ names] =
        [⟨names, .ok module⟩].map (SourceFile.below root) := by
      have below := sourceFiles_below files root [names]
      rw [List.map_singleton] at below
      rw [below, TreeView.sources, List.filterMap_cons, holds.seen, ← parsed]
      rfl
    rw [sources, findings_runCheckers_below, flatMap_checker_of_checkAll checked]
  · have nothing (analyzer : Analyzer) : (analyzer.checker.run [] []).ending.findings = [] := by
      simp [Analyzer.ending_checker, CheckerEnd.findings, Analyzer.numbered, inSourceOrder]
    have sources : sourceFiles files [] = ([] : List SourceFile).map (SourceFile.below root) := rfl
    rw [sources, findings_runCheckers_below]
    simp [nothing]

variable (counted : Cohesion.statementCount module.tree ≤ content.size)
  (limited : readDeadline mode.deadline = .ok deadline) (named : mode.runId ≠ some "")
  (drawn : mode.stamp.runId ≠ "")

include counted limited named drawn

/-- A scan with analyzers gives what they find in the text of the file, if the file is taken. -/
theorem result_scanWith_eq_ok (projectId : String) (file : Option FilePath)
    (identity : mode.reproducible = true → HasIdentity (shownConfig preset table) root
      (if content.size ≤ sizeLimit then [root ++ names] else []))
    (percentages : ∀ analyzer ∈ analyzers, analyzer.options.HasPercentage)
    (checked : checkAll analyzers (.ok module) (FilePath.text ⟨0, names⟩) = .ok findings) :
    ∃ result, (scanWith files (.absolute root)
        { root := .absolute root, preset := preset, rules := table, file := file }
        (analyzers.map fun analyzer => analyzer.checker) projectId mode).map ScanOutcome.result =
          .ok result ∧
      result.findings =
        if content.size ≤ sizeLimit then findings.mergeSort Finding.scanOrder else [] := by
  obtain ⟨found, discovered, places⟩ := holds.discover_eq_ok
  have yielded := holds.findings_runCheckers_eq parsed deadline checked
  rw [← places] at yielded identity
  have top : (scanRoot files (.absolute root)).parts = root := by
    rw [holds.scanRoot_eq]
    rfl
  generalize equal : ({ root := .absolute root, preset := preset, rules := table, file := file } :
    ScanConfig) = config
  have shown (reproducible : mode.reproducible = true) :
      config.shown mode.reproducible = shownConfig preset table := by
    rw [← equal, reproducible]
    rfl
  obtain ⟨stamp, stamped⟩ : ∃ stamp, mode.stampFor (config.shown mode.reproducible)
      (scanRoot files (.absolute root)).parts found.files = .ok stamp := by
    refine ScanMode.exists_stampFor_iff.mpr fun reproducible => ?_
    rw [shown reproducible, top]
    exact identity reproducible
  have fits : (assembled files (.absolute root) config (analyzers.map fun analyzer =>
      analyzer.checker) projectId mode found deadline stamp).Fits := by
    apply fits_assembled (ScanMode.runId_stampFor_ne named drawn stamped)
    rw [top, yielded]
    split
    · rename_i small
      rw [← flatMap_checker_of_checkAll checked]
      exact fits_of_flatMap_checker (counted.trans small) percentages
    · exact List.forall_mem_nil _
  rw [← equal] at stamped fits ⊢
  refine ⟨_, result_scanWith_eq_ok_iff.mpr
    ⟨found, deadline, stamp, discovered, limited, stamped, RunResult.validated_of_fits fits⟩, ?_⟩
  rw [assembled, top, yielded]
  split
  · rfl
  · exact List.mergeSort_nil

/-- A scan of a directory that holds one file sorts what is found in the text of the file, if the
file is taken. -/
theorem exists_scanProject {overrides : JsonObject} (projectId : String)
    (mapping : overrides.IsMapping)
    (options : ∀ table, layeredRules preset overrides = .ok table →
      ∀ rule, (table rule).options.IsMapping)
    (identity : mode.reproducible = true → ∀ table, layeredRules preset overrides = .ok table →
      HasIdentity (shownConfig preset table) root
        (if content.size ≤ sizeLimit then [root ++ names] else []))
    (checked : scanText (.ok module) (FilePath.text ⟨0, names⟩) preset overrides = .ok findings) :
    ∃ (outcome : ScanOutcome) (found : List Finding),
      scanProject files (.absolute root) { preset := preset, rules := overrides } projectId mode =
        .ok outcome ∧
      outcome.result.findings =
        (if content.size ≤ sizeLimit then found.mergeSort Finding.scanOrder else []) ∧
      findings = found.mergeSort Finding.lineOrder ∧
      ∀ finding ∈ found, finding.location.path = FilePath.text ⟨0, names⟩ := by
  obtain ⟨table, layered, rest⟩ := bind_eq_ok_iff.mp checked
  obtain ⟨analyzers, made, rest⟩ := bind_eq_ok_iff.mp rest
  obtain ⟨found, foundEq, finish⟩ := bind_eq_ok_iff.mp rest
  rw [mapError_eq_ok_iff] at layered made foundEq
  cases finish
  obtain ⟨own, ownMade, percentages⟩ := RuleTable.exists_analyzers
    (hasValidOptions_of_layeredRules layered) (options _ layered)
  rw [made] at ownMade
  cases ownMade
  obtain ⟨file, projectEq⟩ := holds.exists_scanProject_eq projectId mode mapping layered made
  obtain ⟨result, scanned, findingsEq⟩ := holds.result_scanWith_eq_ok parsed counted limited named
    drawn projectId file (fun reproducible => identity reproducible table layered) percentages
    foundEq
  rw [scanned] at projectEq
  obtain ⟨outcome, ran, rfl⟩ := map_eq_ok_iff.mp projectEq
  exact ⟨outcome, found, ran, findingsEq, rfl, path_of_checkAll foundEq⟩

end HoldsFile

/-- A scan of a directory that holds one file gives what a check of the text in this file finds, in
an order that is one by lines, columns and rules as well: if the file is not over the limit for
sizes, and the scan has an identity if it has to have one. The file has at most as many statements
as bytes, like every file that a parser has read. -/
theorem scanProject_of_scanText {files : FileSystem} {root names : List String}
    {content : FileContent} {module : Syntax.Module} {preset : String} {overrides : JsonObject}
    {projectId : String} {mode : ScanMode} {deadline : Deadline} {findings : List Finding}
    (holds : HoldsFile files root names content) (small : content.size ≤ sizeLimit)
    (parsed : content.source = .ok module)
    (counted : Cohesion.statementCount module.tree ≤ content.size)
    (mapping : overrides.IsMapping)
    (options : ∀ table, layeredRules preset overrides = .ok table →
      ∀ rule, (table rule).options.IsMapping)
    (limited : readDeadline mode.deadline = .ok deadline) (named : mode.runId ≠ some "")
    (drawn : ∃ bytes microseconds, mode.stamp = .fresh bytes microseconds)
    (identity : mode.reproducible = true → ∀ table, layeredRules preset overrides = .ok table →
      HasIdentity (shownConfig preset table) root [root ++ names])
    (checked : scanText (.ok module) (FilePath.text ⟨0, names⟩) preset overrides = .ok findings) :
    ∃ outcome,
      scanProject files (.absolute root) { preset := preset, rules := overrides } projectId mode =
        .ok outcome ∧
      outcome.result.findings.Perm findings ∧
      outcome.result.findings.Pairwise (fun a b => a.lineOrder b = true) ∧
      findings.Pairwise fun a b => a.lineOrder b = true := by
  have drawnNamed : mode.stamp.runId ≠ "" := by
    obtain ⟨bytes, microseconds, stamp⟩ := drawn
    rw [stamp]
    exact identifierText_ne bytes
  obtain ⟨outcome, found, scanned, findingsEq, rfl, paths⟩ := holds.exists_scanProject parsed
    counted limited named drawnNamed projectId mapping options
    (by rwa [if_pos small]) checked
  rw [if_pos small] at findingsEq
  refine ⟨outcome, scanned, ?perm, ?sorted, ?textSorted⟩
  case perm =>
    rw [findingsEq]
    exact (List.mergeSort_perm _ _).trans (List.mergeSort_perm _ _).symm
  case sorted =>
    rw [findingsEq]
    have sorted := List.pairwise_mergeSort Finding.scanOrder_trans Finding.scanOrder_total found
    refine sorted.imp_of_mem ?_
    intro a b inFindings inFindingsToo before
    have path {finding : Finding} (listed : finding ∈ found.mergeSort Finding.scanOrder) :=
      paths finding ((List.mergeSort_perm _ _).mem_iff.mp listed)
    exact Finding.lineOrder_of_scanOrder ((path inFindings).trans (path inFindingsToo).symm) before
  case textSorted =>
    exact List.pairwise_mergeSort Finding.lineOrder_trans Finding.lineOrder_total found

/-- A module that waits for 42. -/
def waitingModule : Syntax.Module :=
  ⟨[.expr ⟨1, 0, some 1⟩
    (.call ⟨1, 0, some 1⟩ (.name ⟨1, 0, some 1⟩ "wait" .load)
      [.constant ⟨1, 5, some 1⟩ (.int 42) none] [])]⟩

/-- The file with this module. -/
def waitingContent : FileContent := ⟨9, .ok "wait(42)\n", .ok waitingModule, none⟩

/-- A project with one file, next to an empty directory. -/
def projectOf (content : FileContent) : FileSystem :=
  ⟨.directory [("docs", .directory []), ("main.py", .file content)], [], false⟩

theorem areEntries_projectOf (content : FileContent) :
    AreEntries [("docs", .directory []), ("main.py", .file content)] where
  distinct := by simp
  names := by
    simp only [List.map_cons, List.map_nil, List.forall_mem_cons]
    refine ⟨⟨?_, ?_, ?_, ?_⟩, ⟨?_, ?_, ?_, ?_⟩, by simp⟩ <;> decide

theorem at?_projectOf {content : FileContent} {names : List String} {entry : Entry}
    (found : (projectOf content).at? names = some entry) :
    names = [] ∨ names = ["docs"] ∨ (names = ["main.py"] ∧ entry = .file content) := by
  cases names with
  | nil => exact .inl rfl
  | cons name names =>
      rw [FileSystem.at?, Entry.descendant?_cons] at found
      obtain ⟨child, listed, below⟩ := Option.bind_eq_some_iff.mp found
      have member := (areEntries_projectOf content).lookup_eq_some_iff.mp listed
      simp only [List.mem_cons, Prod.mk.injEq, List.not_mem_nil, or_false] at member
      rcases member with ⟨rfl, rfl⟩ | ⟨rfl, rfl⟩ <;> cases names <;> cases below
      · exact .inr (.inl rfl)
      · exact .inr (.inr ⟨rfl, rfl⟩)

theorem holdsFile_projectOf (content : FileContent) :
    HoldsFile (projectOf content) [] ["main.py"] content where
  proper := by
    apply Entry.isProper_directory (areEntries_projectOf content)
    simp only [List.forall_mem_cons]
    refine ⟨?_, Entry.isProper_file _, by simp⟩
    exact Entry.isProper_directory ⟨List.nodup_nil, by simp⟩ (by simp)
  directory := ⟨_, rfl⟩
  usable := by
    intro names entry found
    rcases at?_projectOf found with rfl | rfl | ⟨rfl, -⟩ <;> decide
  only := by
    intro others own
    rw [FileSystem.viewFrom_eq_file_iff, List.nil_append]
    constructor
    · intro found
      rcases at?_projectOf found with rfl | rfl | ⟨rfl, same⟩
      · cases found
      · cases found
      · cases same
        exact ⟨rfl, rfl⟩
    · rintro ⟨rfl, rfl⟩
      rfl
  discoverable := ⟨⟨"main.py", rfl, by decide⟩, by simp⟩

/-- The project with the file that waits. -/
def waitingProject : FileSystem := projectOf waitingContent

theorem isMapping_of_recommended (table : RuleTable)
    (layered : layeredRules "recommended" [] = .ok table) (rule : Rule) :
    (table rule).options.IsMapping := by
  rw [layeredRules_recommended] at layered
  cases layered
  cases rule <;> decide

/-- The recommended settings and the path of the file make an identity. -/
theorem hasIdentity_of_recommended (table : RuleTable)
    (layered : layeredRules "recommended" [] = .ok table) :
    HasIdentity (shownConfig "recommended" table) [] [["main.py"]] := by
  rw [layeredRules_recommended] at layered
  cases layered
  exact ⟨["main.py"], rfl, by decide +kernel, by decide, by decide⟩

/-- The text of the file can be checked under each path that a text can have, and something is
found. -/
theorem exists_scanText_waiting {path : String} (usable : Syntax.isUsablePath path = true)
    (plain : (Preset.recommended.table.analyzers.map fun analyzers =>
      analyzers.all fun analyzer => analyzer.writesPlainly waitingModule path).toOption =
        some true) :
    ∃ findings, scanText (.ok waitingModule) path "recommended" [] = .ok findings ∧
      ∃ finding ∈ findings, finding.location.path = path := by
  obtain ⟨analyzers, made, -⟩ := RuleTable.exists_analyzers Preset.recommended.hasValidOptions
    (isMapping_of_recommended _ layeredRules_recommended)
  have reports : (Preset.recommended.table.analyzers.map fun analyzers =>
      analyzers.any fun analyzer =>
        ((analyzer.options.violations waitingModule).map List.length).toOption == some 1).toOption =
          some true := by
    decide +kernel
  rw [made] at plain reports
  obtain ⟨found, each⟩ := exists_mapM_eq_ok fun analyzer listed =>
    Analyzer.exists_checkText usable
      (List.all_eq_true.mp (Option.some.inj plain) analyzer listed)
  have checked : checkAll analyzers (.ok waitingModule) path = .ok found.flatten :=
    map_eq_ok_iff.mpr ⟨found, each, rfl⟩
  refine ⟨_, bind_eq_ok_iff.mpr ⟨_, mapError_eq_ok_iff.mpr layeredRules_recommended,
    bind_eq_ok_iff.mpr ⟨_, mapError_eq_ok_iff.mpr made,
      bind_eq_ok_iff.mpr ⟨_, mapError_eq_ok_iff.mpr checked, rfl⟩⟩⟩, ?_⟩
  obtain ⟨analyzer, listed, one⟩ := List.any_eq_true.mp (Option.some.inj reports)
  obtain ⟨own, ownEq⟩ := forall_of_mapM_eq_ok each analyzer listed
  obtain ⟨-, violations, reported, -, rfl⟩ := checkText_eq_ok_iff.mp ownEq
  have several : 0 < (analyzer.numbered (violations.map (analyzer.findingOf path))).length := by
    rw [reported, beq_iff_eq] at one
    simp [Analyzer.numbered, inSourceOrder, Option.some.inj one]
  obtain ⟨finding, member⟩ := List.exists_mem_of_length_pos several
  have inFound : finding ∈ found.flatten :=
    List.mem_flatten.mpr ⟨_, mem_of_mapM_eq_ok each listed ownEq, member⟩
  exact ⟨finding, (List.mergeSort_perm _ _).mem_iff.mpr inFound,
    path_of_checkAll checked finding inFound⟩

/-- The scan of the project finds what is found in its file. -/
theorem scanProject_waitingProject :
    ∃ findings outcome,
      scanText (.ok waitingModule) (FilePath.text ⟨0, ["main.py"]⟩) "recommended" [] =
        .ok findings ∧
      scanProject waitingProject (.absolute []) { preset := "recommended" } "" reproducibleMode =
        .ok outcome ∧
      outcome.result.findings.Perm findings := by
  obtain ⟨findings, checked, -⟩ :=
    @exists_scanText_waiting (FilePath.text ⟨0, ["main.py"]⟩) (by decide) (by decide +kernel)
  obtain ⟨outcome, scanned, same, -⟩ := @scanProject_of_scanText waitingProject [] ["main.py"]
    waitingContent waitingModule "recommended" [] "" reproducibleMode usualDeadline findings
    (holdsFile_projectOf waitingContent) (by decide) rfl (by decide) (by decide)
    isMapping_of_recommended rfl (by decide) ⟨[], 0, rfl⟩ (fun _ => hasIdentity_of_recommended)
    checked
  exact ⟨findings, outcome, checked, scanned, same⟩

/-- The file with the module and a comment that makes it too large by one byte. -/
def longContent : FileContent where
  size := sizeLimit + 1
  text := .ok ("wait(42)\n" ++ String.ofList (List.replicate (sizeLimit - 8) '#'))
  source := .ok waitingModule
  settings := none

/-- The scan of a project with a file that is too large finds nothing, and what a check of the text
finds shows a path as it is written, not as the scan of the project finds it. -/
theorem scanProject_longProject :
    (∃ findings outcome,
      scanText (.ok waitingModule) (FilePath.text ⟨0, ["main.py"]⟩) "recommended" [] =
        .ok findings ∧
      scanProject (projectOf longContent) (.absolute []) { preset := "recommended" } ""
        reproducibleMode = .ok outcome ∧
      ¬outcome.result.findings.Perm findings) ∧
    ∃ findings outcome,
      scanText (.ok waitingModule) "./main.py" "recommended" [] = .ok findings ∧
      scanProject waitingProject (.absolute []) { preset := "recommended" } ""
        reproducibleMode = .ok outcome ∧
      ¬outcome.result.findings.Perm findings := by
  obtain ⟨findings, checked, finding, listed, -⟩ :=
    @exists_scanText_waiting (FilePath.text ⟨0, ["main.py"]⟩) (by decide) (by decide +kernel)
  obtain ⟨spelled, spelledChecked, other, otherListed, path⟩ :=
    @exists_scanText_waiting "./main.py" (by decide) (by decide +kernel)
  have limited : readDeadline reproducibleMode.deadline = .ok usualDeadline := rfl
  refine ⟨⟨findings, ?long⟩, spelled, ?spelled⟩
  case long =>
    have large : ¬longContent.size ≤ sizeLimit := Nat.not_succ_le_self sizeLimit
    have identity (table : RuleTable) (layered : layeredRules "recommended" [] = .ok table) :
        HasIdentity (shownConfig "recommended" table) [] [] := by
      obtain ⟨-, -, writable, encodable, -⟩ := hasIdentity_of_recommended table layered
      exact ⟨[], rfl, writable, encodable, List.forall_mem_nil _⟩
    obtain ⟨outcome, found, scanned, nothing, -⟩ :=
      (holdsFile_projectOf longContent).exists_scanProject rfl (by decide) limited (by decide)
        (identifierText_ne []) "" (by decide) isMapping_of_recommended
        (fun _ => by rwa [if_neg large]) checked
    refine ⟨outcome, checked, scanned, fun same => ?_⟩
    rw [nothing, if_neg large] at same
    exact absurd (same.mem_iff.mpr listed) List.not_mem_nil
  case spelled =>
    obtain ⟨outcome, found, scanned, same, -, paths⟩ :=
      (holdsFile_projectOf waitingContent).exists_scanProject rfl (by decide) limited (by decide)
        (identifierText_ne []) "" (by decide) isMapping_of_recommended
        (fun _ => hasIdentity_of_recommended) checked
    refine ⟨outcome, spelledChecked, scanned, fun perm => ?_⟩
    rw [same] at perm
    have taken : other ∈ found :=
      (List.mergeSort_perm _ _).mem_iff.mp (perm.mem_iff.mpr otherListed)
    exact absurd (path.symm.trans (paths other taken)) (by decide)

end DesignLint
