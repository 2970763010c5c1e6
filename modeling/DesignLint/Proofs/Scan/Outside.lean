import DesignLint.Proofs.Files.Components
import DesignLint.Proofs.Scan.Discovery
import DesignLint.Proofs.Scan.Order

/-!
# Files outside the root

A pattern can go up from the root by double points and down again elsewhere, and what it takes there
is a file of the scan although it is outside the root. Where no pattern climbs, all files are inside
and have a path below the root. A file outside has none: every analyzer fails at it, and a
reproducible scan has no stamp.
-/

namespace DesignLint

/-! ## Up and down -/

/-- Where names lead from a directory: up some times, and then down by some names. -/
structure Turn where
  up : Nat
  down : List String
deriving DecidableEq, Repr

namespace Turn

/-- One name more. Double points take back the last name down, or go up. -/
def step (turn : Turn) (name : String) : Turn :=
  if name = ".." then
    if turn.down.isEmpty then ⟨turn.up + 1, []⟩ else ⟨turn.up, turn.down.dropLast⟩
  else ⟨turn.up, turn.down ++ [name]⟩

/-- Where names lead. -/
def along (names : List String) : Turn := names.foldl step ⟨0, []⟩

/-- The place that is reached from a base. There is nothing above the top. -/
def place (turn : Turn) (base : List String) : List String :=
  base.take (base.length - turn.up) ++ turn.down

/-- Whether the names down from where a base was left are the ones up to there. -/
def ComesBack (turn : Turn) (base : List String) : Prop :=
  base.drop (base.length - turn.up) <+: turn.down

theorem place_step (turn : Turn) (base : List String) (name : String) :
    (turn.step name).place base = FilePath.step (turn.place base) name := by
  obtain ⟨up, down⟩ := turn
  unfold step FilePath.step
  split
  · cases down with
    | nil =>
        have earlier : base.length - (up + 1) = base.length - up - 1 := by omega
        simp [place, earlier, List.dropLast_eq_take, List.take_take]
    | cons first rest =>
        simp [place, List.dropLast_append_of_ne_nil]
  · simp [place]

/-- Names lead where their turn does. -/
theorem foldl_step_eq_place (base names : List String) :
    names.foldl FilePath.step base = (along names).place base := by
  have general : ∀ turn : Turn, names.foldl FilePath.step (turn.place base) =
      (names.foldl step turn).place base := by
    induction names with
    | nil => exact fun _ => rfl
    | cons name names inductionHypothesis =>
        intro turn
        rw [List.foldl_cons, List.foldl_cons, ← place_step, inductionHypothesis]
  have start : (Turn.mk 0 []).place base = base := by simp [place]
  rw [along, ← general, start]

/-- A turn ends inside its base exactly if it comes back. -/
theorem prefix_place_iff (turn : Turn) (base : List String) :
    base <+: turn.place base ↔ turn.ComesBack base := by
  have below : base.take (base.length - turn.up) ++ base.drop (base.length - turn.up) <+:
      base.take (base.length - turn.up) ++ turn.down ↔
        base.drop (base.length - turn.up) <+: turn.down :=
    List.prefix_append_right_inj _
  rw [List.take_append_drop] at below
  exact below

end Turn

/-! ## Patterns that climb -/

/-- Whether components go up more often than down, from some names below the root. A double star
may take no name, and any other component takes one. -/
def climbsFrom (depth : Nat) : List String → Bool
  | [] => false
  | pattern :: patterns =>
    if pattern = ".." then depth == 0 || climbsFrom (depth - 1) patterns
    else climbsFrom (if pattern = "**" then depth else depth + 1) patterns

/-- Whether a pattern can go up from the root. -/
def Climbs (text : String) : Prop := climbsFrom 0 (FilePath.ofText text).parts = true

instance (text : String) : Decidable (Climbs text) := inferInstanceAs (Decidable (_ = true))

/-- Components that do not climb stay inside. -/
theorem prefix_of_componentsMatch {patterns names base inner : List String} {depth : Nat}
    (taken : ComponentsMatch patterns names) (stays : climbsFrom depth patterns = false)
    (deep : depth ≤ inner.length) : base <+: names.foldl FilePath.step (base ++ inner) := by
  -- the names so far lead at least as deep below the base as the components say
  induction taken generalizing depth inner with
  | nil => exact List.prefix_append base inner
  | @cons pattern name patterns names single accepted points later inductionHypothesis =>
      rw [List.foldl_cons]
      by_cases up : pattern = ".."
      · subst up
        obtain rfl : name = ".." := (wildcardMatches_iff_eq (by decide)).mp accepted
        simp only [climbsFrom, if_true, Bool.or_eq_false_iff, beq_eq_false_iff_ne] at stays
        obtain ⟨below, stays⟩ := stays
        have nonempty : inner ≠ [] := by
          rintro rfl
          exact below (Nat.le_zero.mp deep)
        have step : FilePath.step (base ++ inner) ".." = base ++ inner.dropLast :=
          List.dropLast_append_of_ne_nil nonempty
        rw [step]
        refine inductionHypothesis stays ?_
        rw [List.length_dropLast]
        exact Nat.sub_le_sub_right deep 1
      · have down : name ≠ ".." := fun same => up (points same)
        simp only [climbsFrom, if_neg up, if_neg single] at stays
        rw [FilePath.step, if_neg down, List.append_assoc]
        exact inductionHypothesis stays (by simpa using deep)
  | stars later inductionHypothesis =>
      exact inductionHypothesis (by simpa [climbsFrom] using stays) deep
  | deeper down later inductionHypothesis =>
      rw [List.foldl_cons, FilePath.step, if_neg down, List.append_assoc]
      exact inductionHypothesis stays (by simpa using Nat.le_succ_of_le deep)

/-! ## What a scan finds -/

/-- Names that lead from the root to a file: none, if the root is the file, or some that a pattern
takes. -/
def IsWay (included : List String) (names : List String) : Prop :=
  names = [] ∨ ∃ text ∈ patternsFor included, ComponentsMatch (FilePath.ofText text).parts names

/-- Where no pattern climbs, all ways stay inside. -/
theorem prefix_of_isWay {included names : List String} (stays : ∀ text ∈ included, ¬Climbs text)
    (way : IsWay included names) (base : List String) :
    base <+: names.foldl FilePath.step base := by
  obtain rfl | ⟨text, listed, taken⟩ := way
  · exact List.prefix_refl base
  · have below : ¬Climbs text := by
      unfold patternsFor at listed
      split at listed
      · obtain rfl := List.mem_singleton.mp listed
        decide
      · exact stays text listed
    have reached : base <+: names.foldl FilePath.step (base ++ []) :=
      prefix_of_componentsMatch taken (Bool.eq_false_iff.mpr below) (Nat.zero_le _)
    rwa [List.append_nil] at reached

section Discoveries

variable {files : FileSystem} {root : FilePath} {included excluded : List String}
  {found : Discovery}

theorem exists_path_of_mem_discoverBelow {globs : List Glob} {exclusion : Exclusion}
    {place : List String} (listed : place ∈ (discoverBelow files root globs exclusion).files) :
    ∃ glob ∈ globs, ∃ path ∈ glob.select files root, place = path.resolve files.working := by
  rw [discoverBelow] at listed
  simp only [mem_sortedPlaces, List.mem_filterMap, List.mem_map, List.mem_flatMap] at listed
  obtain ⟨_, ⟨path, ⟨glob, globListed, selected⟩, rfl⟩, taken⟩ := listed
  refine ⟨glob, globListed, path, selected, ?_⟩
  unfold Exclusion.candidate at taken
  dsimp only at taken
  split at taken
  · cases taken
  · split at taken
    · cases taken
    · split at taken
      · cases taken
      · cases taken
        rfl

/-- Every file is reached from the root by a way. -/
theorem exists_way_of_discover (proper : files.top.IsProper)
    (discovered : discover files root included excluded = .ok found) {place : List String}
    (listed : place ∈ found.files) :
    ∃ names, IsWay included names ∧
      place = names.foldl FilePath.step (root.resolve files.working) := by
  unfold discover at discovered
  split at discovered
  · cases discovered
  · cases discovered
    dsimp only at listed
    split at listed
    · exact ⟨[], .inl rfl, List.mem_singleton.mp listed⟩
    · cases listed
  · obtain ⟨globs, made, rfl⟩ := map_eq_ok_iff.mp discovered
    obtain ⟨glob, globListed, path, selected, rfl⟩ := exists_path_of_mem_discoverBelow listed
    obtain ⟨text, textListed, read⟩ := exists_of_mapM_eq_ok made glob globListed
    obtain ⟨-, -, steps, -⟩ := Glob.ofText_eq_ok_iff.mp (Glob.ofTextIn_eq_ok_iff.mp read).1
    unfold Glob.select at selected
    split at selected
    · obtain ⟨names, rfl, taken⟩ := exists_names_of_mem_selectFrom proper steps selected
      exact ⟨names, .inr ⟨text, textListed, taken⟩, FilePath.resolve_below root names _⟩
    · cases selected

theorem exists_pathsBelow_iff {top : List String} {places : List (List String)} :
    (∃ texts, pathsBelow top places = .ok texts) ↔ ∀ place ∈ places, top <+: place := by
  unfold pathsBelow
  rw [exists_mapM_eq_ok_iff]
  refine forall₂_congr fun place _ => ?_
  rw [← exists_relativeTo?_iff]
  cases relativeTo? top place <;> simp

/-- An analyzer fails at a module outside the directory that it runs in. -/
theorem ending_checker_of_outside {analyzer : Analyzer} {rounding : Cohesion.Rounding}
    {top : List String} {sources : List SourceFile} {file : SourceFile} {module : Syntax.Module}
    (listed : file ∈ sources) (parsed : file.parsed = .ok module) (outside : ¬top <+: file.place) :
    ((analyzer.checker rounding).run top sources).ending = .crashed := by
  have noPath : relativeTo? top file.place = none := by
    rw [Option.eq_none_iff_forall_ne_some]
    intro names relative
    exact outside (exists_relativeTo?_iff.mp ⟨names, relative⟩)
  have failed : analyzer.ofFile? rounding top file = none := by
    simp only [Analyzer.ofFile?, parsed, Analyzer.findingsIn?, noPath]
  rw [Analyzer.ending_checker, if_neg]
  intro all
  have succeeded := List.all_eq_true.mp all file listed
  rw [failed] at succeeded
  cases succeeded

/-- A reproducible scan has no stamp, where a file is outside. -/
theorem exists_stampFor_eq_error {mode : ScanMode} (reproducible : mode.reproducible = true)
    (config : Json) {top place : List String} {places : List (List String)}
    (listed : place ∈ places) (outside : ¬top <+: place) :
    ∃ error, mode.stampFor config top places = .error error := by
  cases paths : pathsBelow top places with
  | ok texts => exact absurd (exists_pathsBelow_iff.mp ⟨texts, paths⟩ place listed) outside
  | error error =>
      exact ⟨error, ScanMode.stampFor_eq_error_iff.mpr
        ⟨reproducible, identify_eq_error_iff.mpr (.inl paths)⟩⟩

/-- Every file of a scan is reached from the root by names that a pattern takes, and stands inside
exactly if they come back down to the root wherever they go up from it. Where no pattern climbs, all
files are inside, and so have paths below the root and below what is above it. But a file outside
makes a reproducible scan fail, and if there is a module in it, every analyzer. -/
theorem discover_inside_iff (proper : files.top.IsProper)
    (discovered : discover files root included excluded = .ok found) :
    (∀ place ∈ found.files, ∃ names, IsWay included names ∧
      place = (Turn.along names).place (root.resolve files.working) ∧
      (root.resolve files.working <+: place ↔
        (Turn.along names).ComesBack (root.resolve files.working))) ∧
    ((∀ text ∈ included, ¬Climbs text) → ∀ top, top <+: root.resolve files.working →
      (∀ place ∈ found.files, top <+: place) ∧
      (∃ texts, pathsBelow top found.files = .ok texts) ∧
      ∀ file ∈ sourceFiles files found.files, ∃ names, relativeTo? top file.place = some names) ∧
    ∀ top, ∀ place ∈ found.files, ¬top <+: place →
      (∀ (mode : ScanMode) config, mode.reproducible = true →
        ∃ error, mode.stampFor config top found.files = .error error) ∧
      ∀ content module, files.at? place = some (.file content) → content.source = .ok module →
        ∀ (analyzer : Analyzer) rounding,
          ((analyzer.checker rounding).run top (sourceFiles files found.files)).ending =
            .crashed := by
  refine ⟨?ways, ?inside, ?outside⟩
  case ways =>
    intro place listed
    obtain ⟨names, way, rfl⟩ := exists_way_of_discover proper discovered listed
    rw [Turn.foldl_step_eq_place]
    exact ⟨names, way, rfl, Turn.prefix_place_iff _ _⟩
  case inside =>
    intro stays top above
    have inside : ∀ place ∈ found.files, top <+: place := by
      intro place listed
      obtain ⟨names, way, rfl⟩ := exists_way_of_discover proper discovered listed
      exact above.trans (prefix_of_isWay stays way _)
    refine ⟨inside, exists_pathsBelow_iff.mpr inside, ?_⟩
    intro file listed
    exact exists_relativeTo?_iff.mpr (inside _ (place_of_mem_sourceFiles listed).1)
  case outside =>
    intro top place listed outside
    refine ⟨fun mode config reproducible =>
      exists_stampFor_eq_error reproducible config listed outside, ?_⟩
    intro content module there parsed analyzer rounding
    have source : ⟨place, content.source⟩ ∈ sourceFiles files found.files := by
      refine List.mem_filterMap.mpr ⟨place, listed, ?_⟩
      rw [there]
    exact ending_checker_of_outside source parsed outside

end Discoveries

/-! ## A file beside the root -/

/-- A project next to another directory. -/
def neighbouringProject : FileSystem :=
  ⟨.directory [("other", .directory [("b.py", .file emptyContent)]),
    ("proj", .directory [("a.py", .file emptyContent)])], [], false⟩

theorem isProper_neighbouringProject : neighbouringProject.top.IsProper := by
  refine Entry.isProper_directory (by decide) ?_
  simp only [List.forall_mem_cons]
  refine ⟨Entry.isProper_directory (by decide) ?_, Entry.isProper_directory (by decide) ?_, by simp⟩
  · simpa using Entry.isProper_file emptyContent
  · simpa using Entry.isProper_file emptyContent

/-- A pattern that climbs finds the file beside the project. A reproducible scan of the project has
no stamp then, and every analyzer fails. -/
theorem discover_neighbouringProject :
    ∃ found, discover neighbouringProject (.ofText "proj") ["../other/*.py"] [] = .ok found ∧
      found.files = [["other", "b.py"]] ∧
      (∀ (mode : ScanMode) config, mode.reproducible = true →
        ∃ error, mode.stampFor config ["proj"] found.files = .error error) ∧
      ∀ (analyzer : Analyzer) rounding,
        ((analyzer.checker rounding).run ["proj"]
          (sourceFiles neighbouringProject found.files)).ending = .crashed := by
  have places : (discover neighbouringProject (.ofText "proj") ["../other/*.py"] []).map
      Discovery.files = .ok [["other", "b.py"]] := by
    decide +kernel
  obtain ⟨found, discovered, files⟩ := map_eq_ok_iff.mp places
  have listed : ["other", "b.py"] ∈ found.files := by simp [files]
  obtain ⟨-, -, outside⟩ := discover_inside_iff isProper_neighbouringProject discovered
  obtain ⟨noStamp, crashed⟩ := outside ["proj"] ["other", "b.py"] listed (by decide)
  exact ⟨found, discovered, files, noStamp, crashed emptyContent ⟨[]⟩ rfl rfl⟩

end DesignLint
