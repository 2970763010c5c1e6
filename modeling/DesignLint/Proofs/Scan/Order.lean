import DesignLint.Proofs.Files.Lookup
import DesignLint.Proofs.Finding.Order
import DesignLint.Proofs.Rule.Numbering
import DesignLint.Proofs.Scan.Validity

/-!
# The order of checkers and files

What a scan finds does not depend on the order of its checkers, and a checker that fails costs
nothing but its own findings: findings of different rules never tie, and findings of one rule
never share an identifier. What an analyzer finds does not depend on the order of its files:
only findings in one file may tie, and these keep their order.
-/

namespace DesignLint

/-! ## At most one source -/

section Lists

variable {α β : Type} {items others : List α}

theorem flatMap_filter_of_eq_nil {f : α → List β} {p : α → Bool}
    (empty : ∀ item ∈ items, p item = false → f item = []) :
    (items.filter p).flatMap f = items.flatMap f := by
  induction items with
  | nil => rfl
  | cons item items inductionHypothesis =>
      have rest := inductionHypothesis fun other listed =>
        empty other (List.mem_cons_of_mem item listed)
      cases kept : p item with
      | true => rw [List.filter_cons_of_pos kept, List.flatMap_cons, List.flatMap_cons, rest]
      | false =>
          rw [List.filter_cons_of_neg (by simp [kept]), List.flatMap_cons, rest,
            empty item List.mem_cons_self kept, List.nil_append]

/-- Where all that is collected comes from one item, the order of the items does not count. -/
theorem flatMap_eq_of_perm {f : α → List β} (same : items.Perm others)
    (single : ∀ a ∈ items, ∀ b ∈ items, f a ≠ [] → f b ≠ [] → a = b) :
    items.flatMap f = others.flatMap f := by
  have empty : ∀ listed : List α, ∀ item ∈ listed, (!(f item).isEmpty) = false → f item = [] := by
    intro listed item _ nothing
    simpa using nothing
  have kept : items.filter (fun item => !(f item).isEmpty) =
      others.filter fun item => !(f item).isEmpty := by
    have together (listed : List α) : listed.Pairwise fun _ _ => True :=
      List.pairwise_of_forall fun _ _ => trivial
    refine List.Perm.eq_of_pairwise ?_ (together _) (together _) (same.filter _)
    intro a b inItems inOthers _ _
    obtain ⟨listed, some⟩ := List.mem_filter.mp inItems
    obtain ⟨listedToo, someToo⟩ := List.mem_filter.mp inOthers
    exact single a listed b (same.mem_iff.mpr listedToo) (by simpa using some)
      (by simpa using someToo)
  rw [← flatMap_filter_of_eq_nil (empty items), kept, flatMap_filter_of_eq_nil (empty others)]

end Lists

/-! ## Runs of analyzers -/

namespace Analyzer

variable {analyzer : Analyzer} {rounding : Cohesion.Rounding} {root : List String}

/-- What an analyzer finds in one file, unless it fails there. -/
def ofFile? (analyzer : Analyzer) (rounding : Cohesion.Rounding) (root : List String)
    (file : SourceFile) : Option (List Finding) :=
  match file.parsed with
  | .error _ => some []
  | .ok module => analyzer.findingsIn? rounding root file module

/-- A run fails at any file, or finds what there is in all of them. -/
theorem ending_runOver (files : List SourceFile) :
    (analyzer.runOver rounding root files).ending =
      if files.all fun file => (analyzer.ofFile? rounding root file).isSome then
        .found (files.flatMap fun file => (analyzer.ofFile? rounding root file).getD [])
      else .crashed := by
  induction files with
  | nil => rfl
  | cons file files inductionHypothesis =>
      rw [runOver]
      split
      · rename_i error unparsed
        have nothing : analyzer.ofFile? rounding root file = some [] := by rw [ofFile?, unparsed]
        simpa [nothing, CheckerRun.after] using inductionHypothesis
      · rename_i module parsed
        have own : analyzer.ofFile? rounding root file =
            analyzer.findingsIn? rounding root file module := by rw [ofFile?, parsed]
        split
        · rename_i failed
          simp [own, failed]
        · rename_i findings found
          by_cases rest :
              (files.all fun other => (analyzer.ofFile? rounding root other).isSome) = true
          · rw [if_pos rest] at inductionHypothesis
            simp only [CheckerRun.withFindings, inductionHypothesis, List.all_cons, own, found,
              rest, Option.isSome_some, Bool.and_self, if_true, List.flatMap_cons, Option.getD_some]
          · rw [if_neg rest] at inductionHypothesis
            simp only [CheckerRun.withFindings, inductionHypothesis, List.all_cons, own, found,
              Option.isSome_some, Bool.true_and, rest]
            rfl

theorem ending_checker (files : List SourceFile) :
    ((analyzer.checker rounding).run root files).ending =
      if files.all fun file => (analyzer.ofFile? rounding root file).isSome then
        .found (analyzer.numbered
          (files.flatMap fun file => (analyzer.ofFile? rounding root file).getD []))
      else .crashed := by
  unfold checker
  dsimp only
  split
  · rename_i findings found
    rw [ending_runOver] at found
    split at found
    · rename_i all
      cases found
      simp only [all, if_true]
    · cases found
  · rename_i notFound
    rw [ending_runOver] at notFound ⊢
    split
    · rename_i all
      rw [if_pos all] at notFound
      exact absurd rfl (notFound _)
    · rfl

theorem reports_of_ofFile? {file : SourceFile} {findings : List Finding}
    (found : analyzer.ofFile? rounding root file = some findings) :
    ∀ finding ∈ findings, ∃ names, file.place = root ++ names ∧
      analyzer.Reports (FilePath.text ⟨0, names⟩) finding := by
  unfold ofFile? at found
  split at found
  · cases found
    simp
  · obtain ⟨names, place, raw⟩ := findingsIn?_eq_some_iff.mp found
    intro finding listed
    exact ⟨names, place, reports_of_rawFindings raw finding listed⟩

theorem reports_of_mem_flatMap {files : List SourceFile} :
    ∀ finding ∈ files.flatMap (fun file => (analyzer.ofFile? rounding root file).getD []),
      ∃ path, analyzer.Reports path finding := by
  intro finding listed
  obtain ⟨file, -, member⟩ := List.mem_flatMap.mp listed
  cases found : analyzer.ofFile? rounding root file with
  | none => simp [found] at member
  | some findings =>
      rw [found, Option.getD_some] at member
      obtain ⟨names, -, reports⟩ := reports_of_ofFile? found finding member
      exact ⟨_, reports⟩

/-- The findings of a run belong to the rule, and no two have the same identifier. -/
theorem found_of_checker {files : List SourceFile} {findings : List Finding}
    (found : ((analyzer.checker rounding).run root files).ending = .found findings) :
    (∀ finding ∈ findings, ∃ path, analyzer.Reports path finding) ∧
      (findings.map Finding.id).Nodup := by
  rw [ending_checker] at found
  split at found
  · cases found
    exact ⟨reports_of_mem_numbered reports_of_mem_flatMap,
      nodup_ids_numbered reports_of_mem_flatMap⟩
  · cases found

/-- The numbers only depend on what is listed under each key. -/
theorem numbered_eq_of_filter {findings others : List Finding}
    (same : ∀ key : FindingKey,
      findings.filter (Finding.key · = key) = others.filter (Finding.key · = key)) :
    analyzer.numbered findings = analyzer.numbered others := by
  rw [numbered, numbered, inSourceOrder_eq_of_filter same]

/-- Files that are told apart by their places, and have names that files can have. -/
structure AreFiles (files : List SourceFile) : Prop where
  places : ∀ a ∈ files, ∀ b ∈ files, a.place = b.place → a = b
  names : ∀ file ∈ files, ∀ name ∈ file.place, IsFileName name

/-- The order of the files does not change what an analyzer finds, nor whether it fails. -/
theorem ending_checker_of_perm {files others : List SourceFile} (valid : AreFiles files)
    (same : files.Perm others) :
    ((analyzer.checker rounding).run root others).ending =
      ((analyzer.checker rounding).run root files).ending := by
  rw [ending_checker, ending_checker, same.all_eq]
  split
  · congr 1
    apply numbered_eq_of_filter
    intro key
    -- All findings under one key are in the file that the key names.
    rw [List.filter_flatMap, List.filter_flatMap, eq_comm]
    apply flatMap_eq_of_perm same
    have fileOf : ∀ file ∈ files,
        ((analyzer.ofFile? rounding root file).getD []).filter (Finding.key · = key) ≠ [] →
          ∃ names, file.place = root ++ names ∧ FilePath.text ⟨0, names⟩ = key.path := by
      intro file _ some
      obtain ⟨finding, listed⟩ := List.exists_mem_of_ne_nil _ some
      obtain ⟨member, ofKey⟩ := List.mem_filter.mp listed
      cases found : analyzer.ofFile? rounding root file with
      | none => simp [found] at member
      | some findings =>
          rw [found, Option.getD_some] at member
          obtain ⟨names, place, reports⟩ := reports_of_ofFile? found finding member
          refine ⟨names, place, ?_⟩
          rw [← of_decide_eq_true ofKey]
          exact reports.path.symm
    intro a inFiles b inFilesToo someA someB
    obtain ⟨names, placeA, pathA⟩ := fileOf a inFiles someA
    obtain ⟨namesB, placeB, pathB⟩ := fileOf b inFilesToo someB
    have sameNames : names = namesB := by
      apply FilePath.eq_of_text_eq _ _ (pathA.trans pathB.symm)
      · intro name listed
        exact valid.names a inFiles name (placeA ▸ List.mem_append_right root listed)
      · intro name listed
        exact valid.names b inFilesToo name (placeB ▸ List.mem_append_right root listed)
    apply valid.places a inFiles b inFilesToo
    rw [placeA, placeB, sameNames]
  · rfl

end Analyzer

theorem place_of_mem_sourceFiles {files : FileSystem} {places : List (List String)}
    {file : SourceFile} (listed : file ∈ sourceFiles files places) :
    file.place ∈ places ∧ ∃ content, files.at? file.place = some (.file content) ∧
      file.parsed = content.source := by
  obtain ⟨place, member, made⟩ := List.mem_filterMap.mp listed
  split at made
  · rename_i content found
    cases made
    exact ⟨member, content, found, rfl⟩
  · cases made

theorem areFiles_sourceFiles {files : FileSystem} {places : List (List String)}
    (names : ∀ place ∈ places, ∀ name ∈ place, IsFileName name) :
    Analyzer.AreFiles (sourceFiles files places) where
  places := by
    rintro ⟨place, parsed⟩ inFiles ⟨other, otherParsed⟩ inFilesToo rfl
    obtain ⟨-, content, found, rfl⟩ := place_of_mem_sourceFiles inFiles
    obtain ⟨-, otherContent, foundToo, rfl⟩ := place_of_mem_sourceFiles inFilesToo
    rw [found] at foundToo
    cases foundToo
    rfl
  names := by
    intro file listed
    exact names file.place (place_of_mem_sourceFiles listed).1

/-! ## Checkers -/

/-- A checker that fails in every run. -/
def Checker.Fails (checker : Checker) : Prop :=
  ∀ root files, (checker.run root files).ending = .crashed

/-- Whether a checker brings findings from a run. -/
def Checker.succeeds (root : List String) (files : List SourceFile) (checker : Checker) : Bool :=
  match (checker.run root files).ending with
  | .found _ => true
  | _ => false

/-- Checkers of different rules, each of which is an analyzer or fails in every run. -/
structure AreOfDifferentRules (rounding : Cohesion.Rounding) (checkers : List Checker) : Prop where
  kinds : ∀ checker ∈ checkers,
    (∃ analyzer : Analyzer, checker = analyzer.checker rounding) ∨ checker.Fails
  rules : (checkers.map Checker.name).Nodup

theorem findings_runCheckers (checkers : List Checker) (deadline : Deadline) (root : List String)
    (files : List SourceFile) :
    (runCheckers checkers deadline root files).findings =
      checkers.flatMap fun checker => (checker.run root files).ending.findings := by
  unfold runCheckers
  dsimp only
  rw [List.flatMap_map]
  rfl

/-- Without the checkers that fail, the others find the same. -/
theorem findings_runCheckers_succeeding (checkers : List Checker) (deadline : Deadline)
    (root : List String) (files : List SourceFile) :
    (runCheckers (checkers.filter (Checker.succeeds root files)) deadline root files).findings =
      (runCheckers checkers deadline root files).findings := by
  rw [findings_runCheckers, findings_runCheckers]
  apply flatMap_filter_of_eq_nil
  intro checker _ failed
  unfold Checker.succeeds at failed
  cases ending : (checker.run root files).ending with
  | found findings => simp [ending] at failed
  | timedOut => rfl
  | crashed => rfl

section Checkers

variable {rounding : Cohesion.Rounding} {checkers : List Checker}
  (different : AreOfDifferentRules rounding checkers)

include different

/-- No two findings of checkers of different rules share both a key and an identifier. -/
theorem eq_of_key_eq_of_id_eq (deadline : Deadline) (root : List String) (files : List SourceFile) :
    ∀ a ∈ (runCheckers checkers deadline root files).findings,
      ∀ b ∈ (runCheckers checkers deadline root files).findings,
        a.key = b.key → a.id = b.id → a = b := by
  have analyzed : ∀ checker ∈ checkers, ∀ finding ∈ (checker.run root files).ending.findings,
      ∃ (analyzer : Analyzer) (findings : List Finding), checker = analyzer.checker rounding ∧
        (checker.run root files).ending = .found findings ∧ finding ∈ findings := by
    intro checker listed finding member
    rcases different.kinds checker listed with ⟨analyzer, rfl⟩ | fails
    · cases ending : ((analyzer.checker rounding).run root files).ending with
      | found findings =>
          rw [ending] at member
          exact ⟨analyzer, findings, rfl, rfl, member⟩
      | timedOut => simp [ending, CheckerEnd.findings] at member
      | crashed => simp [ending, CheckerEnd.findings] at member
    · simp [fails root files, CheckerEnd.findings] at member
  rw [findings_runCheckers]
  intro a inFindings b inFindingsToo keys ids
  obtain ⟨checker, listed, memberA⟩ := List.mem_flatMap.mp inFindings
  obtain ⟨other, otherListed, memberB⟩ := List.mem_flatMap.mp inFindingsToo
  obtain ⟨analyzer, findings, own, foundA, memberA⟩ := analyzed checker listed a memberA
  obtain ⟨otherAnalyzer, others, otherOwn, foundB, memberB⟩ := analyzed other otherListed b memberB
  have runA := Analyzer.found_of_checker (own ▸ foundA)
  have runB := Analyzer.found_of_checker (otherOwn ▸ foundB)
  obtain ⟨_, reportsA⟩ := runA.1 a memberA
  obtain ⟨_, reportsB⟩ := runB.1 b memberB
  have rules := Analyzer.rule_eq_of_reports reportsA reportsB keys
  obtain rfl : checker = other := by
    apply List.inj_on_of_nodup_map different.rules listed otherListed
    rw [own, otherOwn]
    exact congrArg Rule.name rules
  rw [foundA] at foundB
  cases foundB
  exact List.inj_on_of_nodup_map runA.2 memberA memberB ids

theorem mergeSort_findings_of_perm {others : List Checker} (same : others.Perm checkers)
    (deadline : Deadline) (root : List String) (files : List SourceFile) :
    (runCheckers others deadline root files).findings.mergeSort Finding.scanOrder =
      (runCheckers checkers deadline root files).findings.mergeSort Finding.scanOrder := by
  symm
  apply mergeSort_scanOrder_eq_of_perm (eq_of_key_eq_of_id_eq different deadline root files)
  rw [findings_runCheckers, findings_runCheckers]
  exact (same.flatMap_right _).symm

end Checkers

/-! ## Scans -/

/-- Checkers that find the same in the files of a scan lead to the same result. -/
theorem result_scanWith_congr {files : FileSystem} {target : FilePath} {config : ScanConfig}
    {checkers others : List Checker} (projectId : String) (mode : ScanMode)
    (same : ∀ found deadline,
      discover files target config.included config.excluded = .ok found →
      (runCheckers others deadline (scanRoot files target).parts
          (sourceFiles files found.files)).findings.mergeSort Finding.scanOrder =
        (runCheckers checkers deadline (scanRoot files target).parts
          (sourceFiles files found.files)).findings.mergeSort Finding.scanOrder) :
    (scanWith files target config others projectId mode).map ScanOutcome.result =
      (scanWith files target config checkers projectId mode).map ScanOutcome.result := by
  unfold scanWith
  cases discovered : discover files target config.included config.excluded with
  | error error => rfl
  | ok found =>
      cases readDeadline mode.deadline with
      | error error => rfl
      | ok deadline =>
          simp only [mapError_ok, bind, Except.bind, same found deadline discovered]
          cases mode.stampFor (config.shown mode.reproducible) (scanRoot files target).parts
              found.files with
          | error error => rfl
          | ok stamp =>
              simp only
              split <;> rfl

/-- A scan with checkers of different rules is settled by its files. The result is the same for
every order of the checkers, and without the checkers that fail. The run of an analyzer ends in the
same way for every order of its files, and never gives one identifier to two findings. -/
theorem scanWith_settled {rounding : Cohesion.Rounding} {checkers : List Checker}
    (different : AreOfDifferentRules rounding checkers) :
    (∀ (others : List Checker), others.Perm checkers →
      ∀ files target config projectId mode,
        (scanWith files target config others projectId mode).map ScanOutcome.result =
          (scanWith files target config checkers projectId mode).map ScanOutcome.result) ∧
    (∀ files target (config : ScanConfig) projectId mode found,
      discover files target config.included config.excluded = .ok found →
      (scanWith files target config
          (checkers.filter (Checker.succeeds (scanRoot files target).parts
            (sourceFiles files found.files))) projectId mode).map ScanOutcome.result =
        (scanWith files target config checkers projectId mode).map ScanOutcome.result) ∧
    (∀ (analyzer : Analyzer) files root (places others : List (List String)), places.Perm others →
      (∀ place ∈ places, ∀ name ∈ place, IsFileName name) →
      ((analyzer.checker rounding).run root (sourceFiles files others)).ending =
        ((analyzer.checker rounding).run root (sourceFiles files places)).ending) ∧
    (∀ (analyzer : Analyzer) root files findings,
      ((analyzer.checker rounding).run root files).ending = .found findings →
      (findings.map Finding.id).Nodup) := by
  refine ⟨?permuted, ?isolated, ?files, ?identifiers⟩
  case permuted =>
    intro others same files target config projectId mode
    apply result_scanWith_congr
    intro found deadline _
    exact mergeSort_findings_of_perm different same deadline _ _
  case isolated =>
    intro files target config projectId mode found discovered
    apply result_scanWith_congr
    intro own deadline discoveredToo
    rw [discovered] at discoveredToo
    cases discoveredToo
    rw [findings_runCheckers_succeeding]
  case files =>
    intro analyzer files root places others same names
    exact Analyzer.ending_checker_of_perm (areFiles_sourceFiles names) (same.filterMap _)
  case identifiers =>
    intro analyzer root files findings found
    exact (Analyzer.found_of_checker found).2

/-- A project of two files, each with one branch. -/
def twoBranches : FileSystem :=
  let branch : Syntax.Module :=
    ⟨[.ifStmt ⟨1, 0, some 2⟩ (.name ⟨1, 3, some 1⟩ "ready" .load) [.passStmt ⟨2, 4, some 2⟩] []]⟩
  let content : FileContent := ⟨19, .ok "if ready:\n    pass\n", .ok branch, none⟩
  ⟨.directory [("main.py", .file content), ("other.py", .file content)], [], false⟩

/-- An analyzer that allows no branch, a checker that fails, and an analyzer for conditions. -/
def branchCheckers : List Checker := [
  Analyzer.checker ⟨.nesting ⟨0⟩, .medium⟩,
  ⟨"broken", fun _ _ => ⟨[], .crashed⟩⟩,
  Analyzer.checker ⟨.conditions ⟨0⟩, .low⟩]

/-- The two files are scanned with the same result in the reverse order of the checkers and without
the one that fails, and the analyzer finds the same in the reverse order of the files. -/
theorem scanWith_twoBranches :
    AreOfDifferentRules .binary64 branchCheckers ∧
    (scanWith twoBranches ⟨0, []⟩ branchConfig branchCheckers.reverse "" reproducibleMode).map
        ScanOutcome.result =
      (scanWith twoBranches ⟨0, []⟩ branchConfig branchCheckers "" reproducibleMode).map
        ScanOutcome.result ∧
    (∃ found, discover twoBranches ⟨0, []⟩ branchConfig.included branchConfig.excluded = .ok found ∧
      found.files = [["main.py"], ["other.py"]] ∧
      (scanWith twoBranches ⟨0, []⟩ branchConfig
          (branchCheckers.filter (Checker.succeeds (scanRoot twoBranches ⟨0, []⟩).parts
            (sourceFiles twoBranches found.files))) "" reproducibleMode).map ScanOutcome.result =
        (scanWith twoBranches ⟨0, []⟩ branchConfig branchCheckers "" reproducibleMode).map
          ScanOutcome.result) ∧
    ((Analyzer.checker ⟨.nesting ⟨0⟩, .medium⟩).run []
        (sourceFiles twoBranches [["other.py"], ["main.py"]])).ending =
      ((Analyzer.checker ⟨.nesting ⟨0⟩, .medium⟩).run []
        (sourceFiles twoBranches [["main.py"], ["other.py"]])).ending := by
  have different : AreOfDifferentRules .binary64 branchCheckers := {
    kinds := by
      simp only [branchCheckers, List.forall_mem_cons]
      refine ⟨.inl ⟨_, rfl⟩, .inr fun _ _ => rfl, .inl ⟨_, rfl⟩, by simp⟩
    rules := by decide }
  have names : ∀ place ∈ [["main.py"], ["other.py"]], ∀ name ∈ place, IsFileName name := by
    simp only [List.forall_mem_cons]
    refine ⟨⟨⟨?_, ?_, ?_, ?_⟩, by simp⟩, ⟨⟨?_, ?_, ?_, ?_⟩, by simp⟩, by simp⟩ <;> decide
  have sorted : sortedPlaces [["main.py"], ["other.py"]] = [["main.py"], ["other.py"]] := by
    have once : [["main.py"], ["other.py"]].eraseDups = [["main.py"], ["other.py"]] := by decide
    rw [sortedPlaces, once]
    apply List.mergeSort_of_pairwise
    decide
  have discovered : discover twoBranches ⟨0, []⟩ branchConfig.included branchConfig.excluded =
      .ok ⟨[["main.py"], ["other.py"]], []⟩ := by
    rw [← sorted]
    with_unfolding_all rfl
  obtain ⟨permuted, isolated, inAnyOrder, -⟩ := scanWith_settled different
  exact ⟨different, permuted _ (List.reverse_perm _) _ _ _ _ _,
    ⟨_, discovered, rfl, isolated _ _ _ _ _ _ discovered⟩,
    inAnyOrder _ _ _ _ _ (List.Perm.swap _ _ _) names⟩

end DesignLint
