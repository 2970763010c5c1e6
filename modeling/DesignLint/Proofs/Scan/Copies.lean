import DesignLint.Proofs.Scan.SingleFile
import DesignLint.Report.Export

/-!
# Copies of a project

A reproducible scan does not depend on where a project stands: below two roots where the same is
seen, it finds the same files in the same order, under the same configuration, and so gives the same
result. The root shows in messages only.
-/

namespace DesignLint

/-- Two trees in which the same is seen. The directories need not be listed in the same order. -/
structure AreCopies (files others : FileSystem) (root other : List String) : Prop where
  original : HoldsTree files root
  copy : HoldsTree others other
  same : files.viewFrom root = others.viewFrom other

/-- The identity of a reproducible run is the same below every root. -/
theorem stampFor_map {mode : ScanMode} (reproducible : mode.reproducible = true)
    (stamp : RunStamp) {config : Json} {root : List String} (other : List String)
    {listed : List (List String)} {own : RunStamp}
    (stamped : mode.stampFor config root (listed.map (root ++ ·)) = .ok own) :
    { mode with stamp := stamp }.stampFor config other (listed.map (other ++ ·)) = .ok own := by
  rw [ScanMode.stampFor_eq_ok_iff, if_pos reproducible] at stamped ⊢
  simp only [identify_eq_ok_iff, pathsBelow_map, identityError?_eq_none_iff] at stamped ⊢
  exact stamped

namespace AreCopies

variable {files others : FileSystem} {root other : List String}
  (copies : AreCopies files others root other)

include copies

theorem ofTextIn_eq_ok {text : String} {glob : Glob}
    (noPoints : ".." ∉ (FilePath.ofText text).parts)
    (read : Glob.ofTextIn files (.absolute root) text = .ok glob) :
    Glob.ofTextIn others (.absolute other) text = .ok glob := by
  obtain ⟨made, faultless⟩ := Glob.ofTextIn_eq_ok_iff.mp read
  have below := stayBelow_of_ofText noPoints made
  refine Glob.ofTextIn_eq_ok_iff.mpr ⟨made, ?_⟩
  rw [copies.original.opens.lookupError?_eq_none_iff below, copies.same] at faultless
  exact (copies.copy.opens.lookupError?_eq_none_iff below).mpr faultless

/-- The same files are found, each below its root. -/
theorem discover_eq_ok {included excluded : List String} {found : Discovery}
    (noPoints : ∀ text ∈ included, ".." ∉ (FilePath.ofText text).parts)
    (discovered : discover files (.absolute root) included excluded = .ok found) :
    ∃ (foundToo : Discovery) (listed : List (List String)),
      discover others (.absolute other) included excluded = .ok foundToo ∧
        found.files = listed.map (root ++ ·) ∧ foundToo.files = listed.map (other ++ ·) := by
  have usual : ∀ text ∈ usualPatterns, ".." ∉ (FilePath.ofText text).parts := by decide
  rw [copies.original.opens.discover_eq] at discovered
  obtain ⟨globs, made, rfl⟩ := map_eq_ok_iff.mp discovered
  have stays : ∀ text ∈ patternsFor included, ".." ∉ (FilePath.ofText text).parts := by
    unfold patternsFor
    split
    · exact usual
    · exact noPoints
  have madeToo := mapM_eq_ok_of_forall (fun text listed glob =>
    copies.ofTextIn_eq_ok (stays text listed)) made
  have below : ∀ glob ∈ globs, StayBelow glob.steps := by
    intro glob listed
    obtain ⟨text, textListed, read⟩ := exists_of_mapM_eq_ok made glob listed
    exact stayBelow_of_ofText (stays text textListed) (Glob.ofTextIn_eq_ok_iff.mp read).1
  obtain ⟨listed, sorted, finds, places⟩ := @OpensTree.exists_files_discoverBelow files
    (.absolute root) root copies.original.opens globs (.ofTexts excluded) below
  rw [copies.same] at finds
  refine ⟨discoverBelow others (.absolute other) globs (.ofTexts excluded), listed, ?_, places, ?_⟩
  · rw [copies.copy.opens.discover_eq, madeToo]
    rfl
  · exact copies.copy.opens.files_discoverBelow below sorted finds

/-- The same configuration is found, up to the root and to where it stands. -/
theorem configFor_eq_ok {request : ConfigRequest} {config : ScanConfig} {events : List ScanEvent}
    (ownFile : request.file = none)
    (configured : configFor files (.absolute root) request = .ok (config, events)) :
    ∃ file eventsToo, configFor others (.absolute other) request =
      .ok ({ config with root := .absolute other, file := file }, eventsToo) := by
  obtain ⟨document, rules, found, layered, rfl, -⟩ :=
    (copies.original.configFor_eq_ok_iff ownFile).mp configured
  rw [copies.same] at found
  exact ⟨_, _, (copies.copy.configFor_eq_ok_iff ownFile).mpr
    ⟨document, rules, found, layered, rfl, rfl⟩⟩

/-- Analyzers give the same result below both roots. -/
theorem result_scanWith_eq_ok {config : ScanConfig} {analyzers : List Analyzer}
    {rounding : Cohesion.Rounding} {projectId : String} {mode : ScanMode} {result : RunResult}
    (noPoints : ∀ text ∈ config.included, ".." ∉ (FilePath.ofText text).parts)
    (reproducible : mode.reproducible = true) (file : Option FilePath) (stamp : RunStamp)
    (scanned : (scanWith files (.absolute root) config
      (analyzers.map fun analyzer => analyzer.checker rounding) projectId mode).map
        ScanOutcome.result = .ok result) :
    (scanWith others (.absolute other) { config with root := .absolute other, file := file }
      (analyzers.map fun analyzer => analyzer.checker rounding) projectId
      { mode with stamp := stamp }).map ScanOutcome.result = .ok result := by
  obtain ⟨found, deadline, given, discovered, limited, stamped, valid⟩ :=
    result_scanWith_eq_ok_iff.mp scanned
  obtain ⟨foundToo, listed, discoveredToo, places, placesToo⟩ :=
    copies.discover_eq_ok noPoints discovered
  have shown : ({ config with root := .absolute other, file := file } : ScanConfig).shown
      mode.reproducible = config.shown mode.reproducible := by
    unfold ScanConfig.shown
    simp only [reproducible, if_true]
    rfl
  refine result_scanWith_eq_ok_iff.mpr
    ⟨foundToo, deadline, given, discoveredToo, limited, ?stamped, ?valid⟩
  case stamped =>
    rw [copies.original.scanRoot_eq, places] at stamped
    rw [copies.copy.scanRoot_eq, placesToo, shown]
    exact stampFor_map reproducible stamp other stamped
  case valid =>
    unfold assembled at valid ⊢
    rw [copies.original.scanRoot_eq, places, sourceFiles_below, copies.same] at valid
    rw [copies.copy.scanRoot_eq, placesToo, sourceFiles_below, shown]
    simp only [FilePath.absolute, findings_runCheckers_below, List.length_map] at valid ⊢
    exact valid

end AreCopies

/-- A reproducible scan does not depend on where a project stands: where a scan of one root gives a
result, a scan of a root below which the same is seen gives the same result, with the same report in
every form, whenever and wherever it is made. -/
theorem scanProject_of_copies {files others : FileSystem} {root other : List String}
    {request : ConfigRequest} {projectId : String} {mode : ScanMode} {outcome : ScanOutcome}
    (copies : AreCopies files others root other) (ownFile : request.file = none)
    (noPoints : ∀ config events,
      configFor files (.absolute root) request = .ok (config, events) →
        ∀ text ∈ config.included, ".." ∉ (FilePath.ofText text).parts)
    (reproducible : mode.reproducible = true) (stamp : RunStamp)
    (scanned : scanProject files (.absolute root) request projectId mode = .ok outcome) :
    ∃ outcomeToo,
      scanProject others (.absolute other) request projectId { mode with stamp := stamp } =
        .ok outcomeToo ∧
      outcomeToo.result = outcome.result ∧
      ∀ format topCount stable, reportText outcomeToo.result format topCount stable =
        reportText outcome.result format topCount stable := by
  rw [copies.original.scanProject_eq] at scanned
  rw [copies.copy.scanProject_eq]
  obtain ⟨⟨config, events⟩, configured, rest⟩ := bind_eq_ok_iff.mp scanned
  obtain ⟨checkers, made, rest⟩ := bind_eq_ok_iff.mp rest
  obtain ⟨inner, ran, finish⟩ := bind_eq_ok_iff.mp rest
  cases finish
  rw [copies.original.scanRoot_eq, mapError_eq_ok_iff] at configured
  obtain ⟨analyzers, resolved, rfl⟩ := map_eq_ok_iff.mp (mapError_eq_ok_iff.mp made)
  obtain ⟨file, eventsToo, configuredToo⟩ := copies.configFor_eq_ok ownFile configured
  obtain ⟨innerToo, ranToo, same⟩ := map_eq_ok_iff.mp (copies.result_scanWith_eq_ok
    (noPoints config events configured) reproducible file stamp
    (map_eq_ok_iff.mpr ⟨inner, ran, rfl⟩))
  refine ⟨{ innerToo with events := eventsToo ++ innerToo.events }, ?_, same, ?_⟩
  · have loaded : configFor others (scanRoot others (.absolute other)) request =
        .ok ({ config with root := .absolute other, file := file }, eventsToo) := by
      rw [copies.copy.scanRoot_eq, configuredToo]
    rw [scanConfigured_eq loaded (map_eq_ok_iff.mpr ⟨analyzers, resolved, rfl⟩), ranToo]
    rfl
  · intro format topCount stable
    rw [same]

/-- The order in which a directory lists its entries is not seen. -/
theorem viewFrom_eq_of_perm {files others : FileSystem} {root other : List String}
    {entries otherEntries : List (String × Entry)} (valid : AreEntries entries)
    (same : entries.Perm otherEntries) (found : files.at? root = some (.directory entries))
    (foundToo : others.at? other = some (.directory otherEntries)) :
    files.viewFrom root = others.viewFrom other := by
  unfold FileSystem.at? at found foundToo
  funext names
  rw [FileSystem.viewFrom, FileSystem.viewFrom, FileSystem.at?, FileSystem.at?,
    Entry.descendant?_append, Entry.descendant?_append, found, foundToo, Option.bind_some,
    Option.bind_some]
  cases names with
  | nil => rfl
  | cons name names =>
      rw [Entry.descendant?_cons, Entry.descendant?_cons, Entry.entries, Entry.entries,
        valid.lookup_perm same]

/-- The project with one file, elsewhere and with its entries in another order. -/
def movedProject : FileSystem :=
  ⟨.directory [("copies", .directory [("one", .directory
    [("main.py", .file waitingContent), ("docs", .directory [])])])], ["copies"], false⟩

theorem isProper_movedProject : movedProject.top.IsProper := by
  have single {name : String} {entry : Entry} (isName : IsFileName name) (proper : entry.IsProper) :
      (Entry.directory [(name, entry)]).IsProper := by
    have valid : AreEntries [(name, entry)] := ⟨by simp, by simpa using isName⟩
    exact Entry.isProper_directory valid (by simpa using proper)
  apply single ⟨by decide, by decide, by decide, by decide⟩
  apply single ⟨by decide, by decide, by decide, by decide⟩
  apply Entry.isProper_directory
    ((areEntries_projectOf waitingContent).of_perm (List.Perm.swap _ _ _))
  simp only [List.forall_mem_cons]
  refine ⟨Entry.isProper_file _, ?_, by simp⟩
  exact Entry.isProper_directory ⟨List.nodup_nil, by simp⟩ (by simp)

theorem areCopies_movedProject : AreCopies waitingProject movedProject [] ["copies", "one"] := by
  have same : waitingProject.viewFrom [] = movedProject.viewFrom ["copies", "one"] :=
    viewFrom_eq_of_perm (areEntries_projectOf waitingContent) (List.Perm.swap _ _ _) rfl rfl
  refine ⟨(holdsFile_projectOf waitingContent).toHoldsTree,
    ⟨isProper_movedProject, ⟨_, rfl⟩, ?_⟩, same⟩
  intro names entry found
  have seen : (waitingProject.viewFrom [] names).isSome = true := by
    rw [same, FileSystem.isSome_viewFrom, found]
    rfl
  rw [FileSystem.isSome_viewFrom, Option.isSome_iff_exists] at seen
  obtain ⟨own, ownFound⟩ := seen
  rcases at?_projectOf ownFound with rfl | rfl | ⟨rfl, -⟩ <;> decide

/-- The scan of the project gives the same result elsewhere and at another time. -/
theorem scanProject_movedProject :
    ∃ outcome outcomeToo,
      scanProject waitingProject (.absolute []) { preset := "recommended" } "" reproducibleMode =
        .ok outcome ∧
      scanProject movedProject (.absolute ["copies", "one"]) { preset := "recommended" } ""
        { reproducibleMode with stamp := .fresh [1] 1 } = .ok outcomeToo ∧
      outcomeToo.result = outcome.result := by
  obtain ⟨findings, checked, -⟩ :=
    @exists_scanText_waiting (FilePath.text ⟨0, ["main.py"]⟩) (by decide) (by decide +kernel)
  have limited : readDeadline reproducibleMode.deadline = .ok usualDeadline := rfl
  obtain ⟨outcome, -, scanned, -⟩ := (holdsFile_projectOf waitingContent).exists_scanProject rfl
    (by decide) limited (by decide) (identifierText_ne []) "" (by decide) isMapping_of_recommended
    (fun _ => hasIdentity_of_recommended) checked
  have noPoints : ∀ config events,
      configFor waitingProject (.absolute []) { preset := "recommended" } = .ok (config, events) →
        ∀ text ∈ config.included, ".." ∉ (FilePath.ofText text).parts := by
    obtain ⟨file, ownEvents, configured⟩ := @HoldsFile.configFor_eq waitingProject [] ["main.py"]
      waitingContent (holdsFile_projectOf waitingContent) "recommended" [] _ (by decide)
      layeredRules_recommended
    intro config events configuredToo
    rw [configured] at configuredToo
    cases configuredToo
    exact show ∀ text ∈ usualPatterns, ".." ∉ (FilePath.ofText text).parts by decide
  obtain ⟨outcomeToo, scannedToo, same, -⟩ := scanProject_of_copies areCopies_movedProject rfl
    noPoints rfl (.fresh [1] 1) scanned
  exact ⟨outcome, outcomeToo, scanned, scannedToo, same⟩

end DesignLint
