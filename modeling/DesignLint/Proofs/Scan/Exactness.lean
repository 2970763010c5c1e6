import DesignLint.Proofs.Scan.SingleFile

/-!
# Exactly the files that are sought

Below a directory, a scan finds exactly the small files that a pattern takes and nothing leaves out,
in increasing order, or it fails because a pattern is none or cannot be looked up. So neither the
order nor the repetition of patterns counts; leaving out more finds no more, and more patterns find
no less, where there was one.
-/

namespace DesignLint

/-! ## Patterns that can be looked up -/

/-- A pattern that can be looked up: it is one, and where a component without wildcards is too long
for any file, the ones before it lead to no directory in which it would be looked up. -/
structure TreeView.IsSearchable (view : TreeView) (text : String) : Prop where
  pattern : IsPattern text
  short : ∀ before name after, (FilePath.ofText text).parts = before ++ name :: after →
    hasWildcard name = false → isOverlong name = true →
      ∀ names, ComponentsMatch before names → view names ≠ some none

/-- What can be looked up has been named. -/
theorem ComponentsMatch.mem_of_plain {patterns names : List String} {pattern : String}
    (taken : ComponentsMatch patterns names) (listed : pattern ∈ patterns)
    (plain : hasWildcard pattern = false) : pattern ∈ names := by
  have single : pattern ≠ "**" := by
    rintro rfl
    cases plain
  induction taken with
  | nil => cases listed
  | cons _ accepted _ _ inductionHypothesis =>
      obtain rfl | later := List.mem_cons.mp listed
      · obtain rfl := (wildcardMatches_iff_eq plain).mp accepted
        exact List.mem_cons_self
      · exact List.mem_cons_of_mem _ (inductionHypothesis later)
  | stars _ inductionHypothesis =>
      obtain same | later := List.mem_cons.mp listed
      · exact absurd same single
      · exact inductionHypothesis later
  | deeper _ _ inductionHypothesis => exact List.mem_cons_of_mem _ (inductionHypothesis listed)

theorem isLongName_iff_of_ofName {pattern : String} {step : GlobStep}
    (read : GlobStep.ofName pattern = .ok step) :
    step.isLongName = true ↔
      hasWildcard pattern = false ∧ isOverlong pattern = true := by
  obtain ⟨rfl, rfl⟩ | ⟨-, wild, rfl⟩ | ⟨-, plain, rfl⟩ := GlobStep.cases_of_ofName read
  · simp [GlobStep.isLongName, hasWildcard]
  · simp [GlobStep.isLongName, wild]
  · simp [GlobStep.isLongName, plain]

/-- An overlong step comes from an overlong component without wildcards. -/
theorem exists_overlong_of_mapM {patterns : List String} {front back : List GlobStep}
    {step : GlobStep} (made : patterns.mapM GlobStep.ofName = .ok (front ++ step :: back))
    (long : step.isLongName = true) :
    ∃ before name after, patterns = before ++ name :: after ∧
      before.mapM GlobStep.ofName = .ok front ∧ hasWildcard name = false ∧
        isOverlong name = true := by
  obtain ⟨before, others, rfl, madeFront, madeBack⟩ := exists_append_of_mapM_eq_ok made
  cases others with
  | nil => cases madeBack
  | cons name after =>
      obtain ⟨own, rest, read, -, same⟩ := mapM_cons_eq_ok_iff.mp madeBack
      cases same
      exact ⟨before, name, after, rfl, madeFront, (isLongName_iff_of_ofName read).mp long⟩

theorem takeWhile_short {front back : List GlobStep} {step : GlobStep}
    (short : ∀ own ∈ front, own.isLongName = false) (long : step.isLongName = true) :
    (front ++ step :: back).takeWhile (fun own => !own.isLongName) = front := by
  rw [List.takeWhile_append_of_pos (by simpa using short),
    List.takeWhile_cons_of_neg (by simpa using long), List.append_nil]

namespace OpensTree

variable {files : FileSystem} {root : FilePath} {place : List String}
  (tree : OpensTree files root place)

include tree

/-- Steps lead to the directories whose names their components take. -/
theorem leads_directory_iff {patterns : List String} {steps : List GlobStep} {names : List String}
    (made : patterns.mapM GlobStep.ofName = .ok steps) :
    (files.viewFrom place).Leads true steps [] names ↔
      ComponentsMatch patterns names ∧ files.viewFrom place names = some none := by
  rw [tree.isTree.leads_iff made tree.view_nil]
  simp [TreeView.Reaches, takesFiles, TreeView.admits_false_iff]

theorem isLongName_of_seen {names : List String} (seen : files.viewFrom place names = some none) :
    ∀ name ∈ names, FilePath.isLongName name = false := by
  obtain ⟨entries, found⟩ := FileSystem.viewFrom_eq_directory_iff.mp seen
  intro name listed
  exact (tree.usable names _ found).names name (List.mem_append_right root.parts listed)

/-- Components that lead to a directory look up no overlong name. -/
theorem isLongName_of_taken {patterns names : List String} {steps : List GlobStep}
    (made : patterns.mapM GlobStep.ofName = .ok steps) (taken : ComponentsMatch patterns names)
    (seen : files.viewFrom place names = some none) :
    ∀ step ∈ steps, step.isLongName = false := by
  intro step listed
  obtain ⟨pattern, patternListed, read⟩ := exists_of_mapM_eq_ok made step listed
  rw [← Bool.not_eq_true, isLongName_iff_of_ofName read]
  rintro ⟨plain, long⟩
  have named := taken.mem_of_plain patternListed plain
  rw [isOverlong, tree.isLongName_of_seen seen pattern named] at long
  cases long

theorem lookupError?_eq_none_iff_forall {text : String} {glob : Glob}
    (noPoints : ".." ∉ (FilePath.ofText text).parts) (read : Glob.ofText text = .ok glob) :
    glob.lookupError? files root = none ↔
      ∀ before name after, (FilePath.ofText text).parts = before ++ name :: after →
        hasWildcard name = false → isOverlong name = true →
          ∀ names, ComponentsMatch before names → files.viewFrom place names ≠ some none := by
  obtain ⟨-, -, made, -⟩ := Glob.ofText_eq_ok_iff.mp read
  rw [tree.lookupError?_eq_none_iff (stayBelow_of_ofText noPoints read)]
  constructor
  · intro searchable before name after split plain long names taken directory
    rw [split] at made
    obtain ⟨front, back, madeFront, madeBack, steps⟩ := mapM_append_eq_ok_iff.mp made
    obtain ⟨step, rest, stepRead, -, rfl⟩ := mapM_cons_eq_ok_iff.mp madeBack
    have stepLong : step.isLongName = true :=
      (isLongName_iff_of_ofName stepRead).mpr ⟨plain, long⟩
    have frontShort := tree.isLongName_of_taken madeFront taken directory
    rw [steps, takeWhile_short frontShort stepLong] at searchable
    rcases searchable with short | nowhere
    · rw [short step (by simp)] at stepLong
      cases stepLong
    · exact nowhere names ((tree.leads_directory_iff madeFront).mpr ⟨taken, directory⟩)
  · intro searchable
    -- only the first overlong step counts: the ones before it are the longest short front
    cases found : glob.steps.find? GlobStep.isLongName with
    | none => exact .inl (by simpa using List.find?_eq_none.mp found)
    | some step =>
        obtain ⟨long, front, back, steps, short⟩ := List.find?_eq_some_iff_append.mp found
        rw [steps] at made ⊢
        rw [takeWhile_short (by simpa using short) long]
        obtain ⟨before, name, after, split, madeFront, plain, nameLong⟩ :=
          exists_overlong_of_mapM made long
        refine .inr fun names leads => ?_
        obtain ⟨taken, directory⟩ := (tree.leads_directory_iff madeFront).mp leads
        exact searchable before name after split plain nameLong names taken directory

/-- A pattern can be looked up exactly if it is searchable. -/
theorem exists_ofTextIn_iff {text : String} (noPoints : ".." ∉ (FilePath.ofText text).parts) :
    (∃ glob, Glob.ofTextIn files root text = .ok glob) ↔
      (files.viewFrom place).IsSearchable text := by
  simp only [Glob.ofTextIn_eq_ok_iff]
  constructor
  · rintro ⟨glob, read, faultless⟩
    exact ⟨exists_ofText_iff.mp ⟨glob, read⟩,
      (tree.lookupError?_eq_none_iff_forall noPoints read).mp faultless⟩
  · rintro ⟨pattern, short⟩
    obtain ⟨glob, read⟩ := exists_ofText_iff.mpr pattern
    exact ⟨glob, read, (tree.lookupError?_eq_none_iff_forall noPoints read).mpr short⟩

end OpensTree

/-! ## Files that are sought -/

/-- A pattern takes a file by its names below the root: its components take the names, and it ends
neither in a slash nor in a double star. -/
structure TakesFile (text : String) (names : List String) : Prop where
  components : ComponentsMatch (FilePath.ofText text).parts names
  noSlash : text.toList.getLast? ≠ some '/'
  noStars : (FilePath.ofText text).parts.getLast? ≠ some "**"

/-- A file that is sought, by its names below the root and its size: a pattern takes it, no
directory on the way to it is never searched or left out by its name, no pattern leaves out its
whole path, and it is small. -/
structure IsSought (included excluded names : List String) (size : Nat) : Prop where
  taken : ∃ text ∈ patternsFor included, TakesFile text names
  searched : ∀ directory ∈ names.dropLast, directory ∉ neverSearched
  kept : ∀ text ∈ excluded, Exclusion.isPathPattern text = false → text ∉ names.dropLast
  unmatched : ∀ text ∈ excluded, Exclusion.isPathPattern text = true →
    wildcardMatches text ("/".intercalate names) = false
  small : size ≤ sizeLimit

/-- The places of all files that are sought below a directory, each once and in increasing order,
name by name. -/
structure ListsSought (files : FileSystem) (directory included excluded : List String)
    (places : List (List String)) : Prop where
  increasing : places.Pairwise (· < ·)
  exact : ∀ place, place ∈ places ↔ ∃ names content, place = directory ++ names ∧
    files.at? place = some (.file content) ∧ IsSought included excluded names content.size

theorem covers_ofTexts_iff {excluded names : List String} (nonempty : names ≠ []) :
    (Exclusion.ofTexts excluded).covers names = false ↔
      (∀ directory ∈ names.dropLast, directory ∉ neverSearched) ∧
      (∀ text ∈ excluded, Exclusion.isPathPattern text = false → text ∉ names.dropLast) ∧
      ∀ text ∈ excluded, Exclusion.isPathPattern text = true →
        wildcardMatches text ("/".intercalate names) = false := by
  have text : FilePath.text ⟨0, names⟩ = "/".intercalate names := by
    cases names with
    | nil => exact absurd rfl nonempty
    | cons name names => exact FilePath.text_relative_cons name names
  unfold Exclusion.covers Exclusion.ofTexts
  simp only [text, Bool.or_eq_false_iff, List.any_eq_false, List.contains_iff_mem, List.mem_append,
    List.mem_filter, not_or, not_and, Bool.not_eq_true', Bool.not_eq_true, forall_and, and_imp]
  constructor
  · rintro ⟨⟨searched, kept⟩, unmatched⟩
    exact ⟨searched, fun text listed plain inside => kept text inside listed plain, unmatched⟩
  · rintro ⟨searched, kept, unmatched⟩
    exact ⟨⟨searched, fun text inside listed plain => kept text listed plain inside⟩, unmatched⟩

theorem patternsFor_of_ne_nil {included : List String} (nonempty : included ≠ []) :
    patternsFor included = included := by
  rw [patternsFor, if_neg (by simpa using nonempty)]

theorem noPoints_patternsFor {included : List String}
    (noPoints : ∀ text ∈ included, ".." ∉ (FilePath.ofText text).parts) :
    ∀ text ∈ patternsFor included, ".." ∉ (FilePath.ofText text).parts := by
  unfold patternsFor
  split
  · decide
  · exact noPoints

namespace OpensTree

variable {files : FileSystem} {root : FilePath} {place names : List String}
  {included excluded : List String} {globs : List Glob} (tree : OpensTree files root place)

include tree

/-- A pattern leads to the files that it takes. -/
theorem leads_file_iff {text : String} {glob : Glob} {content : FileContent}
    (read : Glob.ofText text = .ok glob)
    (seen : files.viewFrom place names = some (some content)) :
    (files.viewFrom place).Leads glob.directoriesOnly glob.steps [] names ↔
      TakesFile text names := by
  obtain ⟨-, -, made, ends⟩ := Glob.ofText_eq_ok_iff.mp read
  have admits (last : Bool) : (files.viewFrom place).admits last names ↔ last = true := by
    cases last <;> simp [TreeView.admits, seen]
  rw [tree.isTree.leads_iff made tree.view_nil, TreeView.Reaches]
  simp only [admits, ends, takesFiles, List.nil_append, exists_eq_left', Bool.and_eq_true,
    Bool.not_eq_true', beq_eq_false_iff_ne, bne_iff_ne]
  constructor
  · rintro ⟨components, noSlash, noStars⟩
    exact ⟨components, noSlash, noStars⟩
  · intro takes
    exact ⟨takes.components, takes.noSlash, takes.noStars⟩

theorem ne_nil_of_file {content : FileContent}
    (seen : files.viewFrom place names = some (some content)) : names ≠ [] := by
  rintro rfl
  rw [tree.view_nil] at seen
  cases seen

theorem finds_iff (made : (patternsFor included).mapM (Glob.ofTextIn files root) = .ok globs) :
    (files.viewFrom place).Finds globs (.ofTexts excluded) names ↔
      ∃ content, files.at? (place ++ names) = some (.file content) ∧
        IsSought included excluded names content.size := by
  constructor
  · rintro ⟨⟨uncovered, content, seen, small⟩, glob, listed, leads⟩
    obtain ⟨text, textListed, read⟩ := exists_of_mapM_eq_ok made glob listed
    have takes := (tree.leads_file_iff (Glob.ofTextIn_eq_ok_iff.mp read).1 seen).mp leads
    obtain ⟨searched, kept, unmatched⟩ :=
      (covers_ofTexts_iff (tree.ne_nil_of_file seen)).mp uncovered
    exact ⟨content, FileSystem.viewFrom_eq_file_iff.mp seen,
      ⟨text, textListed, takes⟩, searched, kept, unmatched, small⟩
  · rintro ⟨content, found, sought⟩
    have seen := FileSystem.viewFrom_eq_file_iff.mpr found
    obtain ⟨text, textListed, takes⟩ := sought.taken
    obtain ⟨glob, read⟩ := forall_of_mapM_eq_ok made text textListed
    have uncovered := (covers_ofTexts_iff (tree.ne_nil_of_file seen)).mpr
      ⟨sought.searched, sought.kept, sought.unmatched⟩
    exact ⟨⟨uncovered, content, seen, sought.small⟩, glob,
      mem_of_mapM_eq_ok made textListed read,
      (tree.leads_file_iff (Glob.ofTextIn_eq_ok_iff.mp read).1 seen).mpr takes⟩

/-! ## What a scan finds -/

variable {found : Discovery} (noPoints : ∀ text ∈ included, ".." ∉ (FilePath.ofText text).parts)

include noPoints

/-- A scan finds files exactly if all of its patterns are searchable. -/
theorem exists_discover_iff :
    (∃ found, discover files root included excluded = .ok found) ↔
      ∀ text ∈ patternsFor included, (files.viewFrom place).IsSearchable text := by
  simp only [tree.discover_eq, map_eq_ok_iff, exists_comm, exists_and_left, exists_eq', and_true,
    exists_mapM_eq_ok_iff]
  exact forall₂_congr fun text listed =>
    tree.exists_ofTextIn_iff (noPoints_patternsFor noPoints text listed)

theorem listsSought_of_discover
    (discovered : discover files root included excluded = .ok found) :
    ListsSought files place included excluded found.files := by
  rw [tree.discover_eq] at discovered
  obtain ⟨globs, made, rfl⟩ := map_eq_ok_iff.mp discovered
  have below : ∀ glob ∈ globs, StayBelow glob.steps := by
    intro glob listed
    obtain ⟨text, textListed, read⟩ := exists_of_mapM_eq_ok made glob listed
    exact stayBelow_of_ofText (noPoints_patternsFor noPoints text textListed)
      (Glob.ofTextIn_eq_ok_iff.mp read).1
  refine ⟨pairwise_sortedPlaces _, fun own => ?_⟩
  rw [tree.mem_discoverBelow_iff below]
  constructor
  · rintro ⟨names, rfl, finds⟩
    obtain ⟨content, there, sought⟩ := (tree.finds_iff made).mp finds
    exact ⟨names, content, rfl, there, sought⟩
  · rintro ⟨names, content, rfl, there, sought⟩
    exact ⟨names, rfl, (tree.finds_iff made).mpr ⟨content, there, sought⟩⟩

end OpensTree

/-! ## Other patterns -/

section Lists

variable {files : FileSystem} {directory included others excluded more names : List String}
  {size : Nat} {places placesToo : List (List String)}

theorem mem_patternsFor_congr (same : ∀ text, text ∈ others ↔ text ∈ included) (text : String) :
    text ∈ patternsFor others ↔ text ∈ patternsFor included := by
  cases included with
  | nil =>
      obtain rfl := List.eq_nil_iff_forall_not_mem.mpr fun own => by simpa using same own
      exact Iff.rfl
  | cons first rest =>
      have nonempty : others ≠ [] := List.ne_nil_of_mem ((same first).mpr List.mem_cons_self)
      rw [patternsFor_of_ne_nil nonempty, patternsFor_of_ne_nil (List.cons_ne_nil _ _)]
      exact same text

namespace IsSought

theorem of_included (sought : IsSought included excluded names size)
    (contained : ∀ text ∈ patternsFor included, text ∈ patternsFor others) :
    IsSought others excluded names size :=
  { sought with
    taken := sought.taken.imp fun text ⟨listed, takes⟩ => ⟨contained text listed, takes⟩ }

theorem of_excluded (sought : IsSought included more names size) (contained : excluded ⊆ more) :
    IsSought included excluded names size :=
  { sought with
    kept := fun text listed => sought.kept text (contained listed)
    unmatched := fun text listed => sought.unmatched text (contained listed) }

end IsSought

namespace ListsSought

theorem subset (lists : ListsSought files directory included excluded places)
    (listsToo : ListsSought files directory others more placesToo)
    (sought : ∀ names size, IsSought included excluded names size →
      IsSought others more names size) : places ⊆ placesToo := by
  intro place listed
  obtain ⟨names, content, equal, there, own⟩ := (lists.exact place).mp listed
  exact (listsToo.exact place).mpr ⟨names, content, equal, there, sought _ _ own⟩

theorem eq (lists : ListsSought files directory included excluded places)
    (listsToo : ListsSought files directory others more placesToo)
    (sought : ∀ names size, IsSought included excluded names size ↔
      IsSought others more names size) : places = placesToo := by
  refine List.Pairwise.eq_of_mem_iff lists.increasing listsToo.increasing fun place => ⟨?_, ?_⟩
  · exact fun listed => lists.subset listsToo (fun _ _ => (sought _ _).mp) listed
  · exact fun listed => listsToo.subset lists (fun _ _ => (sought _ _).mpr) listed

end ListsSought

end Lists

/-- Below a directory, with patterns without double points, a scan finds files exactly if all of its
patterns can be looked up, and then it finds exactly the files that are sought, in increasing
order. With the same patterns in another order or number it finds the same; leaving out more it
finds no more; and with more patterns, where there was one, it finds no less. -/
theorem discover_exact {files : FileSystem} {root : FilePath}
    {place included excluded : List String} (tree : OpensTree files root place)
    (noPoints : ∀ text ∈ included, ".." ∉ (FilePath.ofText text).parts) :
    ((∃ found, discover files root included excluded = .ok found) ↔
      ∀ text ∈ patternsFor included, (files.viewFrom place).IsSearchable text) ∧
    ∀ found, discover files root included excluded = .ok found →
      ListsSought files place included excluded found.files ∧
      (∀ others otherExcluded, (∀ text, text ∈ others ↔ text ∈ included) →
        (∀ text, text ∈ otherExcluded ↔ text ∈ excluded) →
        ∃ foundToo, discover files root others otherExcluded = .ok foundToo ∧
          foundToo.files = found.files) ∧
      (∀ more, excluded ⊆ more → ∃ foundToo, discover files root included more = .ok foundToo ∧
        foundToo.files ⊆ found.files) ∧
      ∀ more foundToo, included ≠ [] → included ⊆ more →
        (∀ text ∈ more, ".." ∉ (FilePath.ofText text).parts) →
        discover files root more excluded = .ok foundToo → found.files ⊆ foundToo.files := by
  refine ⟨tree.exists_discover_iff noPoints, fun found discovered => ?_⟩
  have searchable := (tree.exists_discover_iff noPoints).mp ⟨found, discovered⟩
  have lists := tree.listsSought_of_discover noPoints discovered
  refine ⟨lists, ?orderFree, ?leavingOut, ?adding⟩
  case orderFree =>
    intro others otherExcluded same sameExcluded
    have noPointsToo : ∀ text ∈ others, ".." ∉ (FilePath.ofText text).parts :=
      fun text listed => noPoints text ((same text).mp listed)
    obtain ⟨foundToo, discoveredToo⟩ := (tree.exists_discover_iff noPointsToo).mpr
      fun text listed => searchable text ((mem_patternsFor_congr same text).mp listed)
    refine ⟨foundToo, discoveredToo,
      (tree.listsSought_of_discover noPointsToo discoveredToo).eq lists fun names size => ?_⟩
    constructor
    · intro sought
      exact (sought.of_included fun text => (mem_patternsFor_congr same text).mp).of_excluded
        fun text => (sameExcluded text).mpr
    · intro sought
      exact (sought.of_included fun text => (mem_patternsFor_congr same text).mpr).of_excluded
        fun text => (sameExcluded text).mp
  case leavingOut =>
    intro more contained
    obtain ⟨foundToo, discoveredToo⟩ := (tree.exists_discover_iff noPoints).mpr searchable
    exact ⟨foundToo, discoveredToo, (tree.listsSought_of_discover noPoints discoveredToo).subset
      lists fun _ _ sought => sought.of_excluded contained⟩
  case adding =>
    intro more foundToo nonempty contained noPointsToo discoveredToo
    refine lists.subset (tree.listsSought_of_discover noPointsToo discoveredToo)
      fun _ _ sought => sought.of_included fun text => ?_
    have someToo : more ≠ [] := fun none => nonempty (List.subset_nil.mp (none ▸ contained))
    rw [patternsFor_of_ne_nil nonempty, patternsFor_of_ne_nil someToo]
    exact fun listed => contained listed

/-- A scan of the project with one file finds it once, however often it is sought. -/
theorem discover_waitingProject :
    ∃ found, discover waitingProject (.absolute []) ["docs/*.py", "*.py", "*.py"] ["docs"] =
        .ok found ∧
      found.files = [["main.py"]] ∧
      ListsSought waitingProject [] ["docs/*.py", "*.py", "*.py"] ["docs"] found.files ∧
      ∃ foundToo, discover waitingProject (.absolute []) ["*.py", "docs/*.py"] ["docs"] =
          .ok foundToo ∧
        foundToo.files = found.files := by
  have places : (discover waitingProject (.absolute []) ["docs/*.py", "*.py", "*.py"] ["docs"]).map
      Discovery.files = .ok [["main.py"]] := by
    decide +kernel
  obtain ⟨found, discovered, files⟩ := map_eq_ok_iff.mp places
  have noPoints : ∀ text ∈ ["docs/*.py", "*.py", "*.py"], ".." ∉ (FilePath.ofText text).parts := by
    decide
  obtain ⟨-, finds⟩ := discover_exact (holdsFile_projectOf waitingContent).opens noPoints
  obtain ⟨lists, orderFree, -, -⟩ := finds found discovered
  exact ⟨found, discovered, files, lists,
    orderFree ["*.py", "docs/*.py"] ["docs"] (by simp; tauto) (fun _ => Iff.rfl)⟩

/-! ## Patterns that are none -/

/-- A project with a note. -/
def notedProject : FileSystem :=
  ⟨.directory [("notes.txt", .file emptyContent)], [], false⟩

theorem areEntries_notedProject : AreEntries [("notes.txt", .file emptyContent)] := by
  decide

theorem opensTree_notedProject : OpensTree notedProject (.ofText ".") [] where
  proper := Entry.isProper_directory areEntries_notedProject
    (by simpa using Entry.isProper_file emptyContent)
  located := by decide +kernel
  directory := ⟨_, rfl⟩
  usable := by
    intro names entry found
    cases names with
    | nil => decide +kernel
    | cons name rest =>
        rw [List.nil_append, FileSystem.at?, Entry.descendant?_cons] at found
        obtain ⟨child, listed, below⟩ := Option.bind_eq_some_iff.mp found
        obtain ⟨rfl, rfl⟩ : name = "notes.txt" ∧ child = .file emptyContent := by
          simpa using areEntries_notedProject.lookup_eq_some_iff.mp listed
        cases rest with
        | nil => decide +kernel
        | cons next rest => cases below

/-- Two stars in a name are no pattern: the scan fails, although it could find that no file is
sought. -/
theorem discover_notedProject :
    OpensTree notedProject (.ofText ".") [] ∧
      (FilePath.ofText "**.py").slashes = 0 ∧ ".." ∉ (FilePath.ofText "**.py").parts ∧
      ∀ found, discover notedProject (.ofText ".") ["**.py"] [] ≠ .ok found := by
  refine ⟨opensTree_notedProject, by decide, by decide, fun found discovered => ?_⟩
  have failed : (discover notedProject (.ofText ".") ["**.py"] []).map Discovery.files =
      .error .starsInName := by
    decide +kernel
  rw [discovered] at failed
  cases failed

end DesignLint
