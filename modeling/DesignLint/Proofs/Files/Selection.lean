import DesignLint.Files.Glob
import DesignLint.Proofs.Files.Lookup
import Mathlib.Data.List.TakeWhile

/-!
# What file patterns take

What a pattern takes below a root depends on what is seen there and on nothing else: on the names
of files and directories, not on the root and not on the order in which directories are listed.
-/

namespace DesignLint

/-! ## What is seen -/

/-- What is seen of an entry: the content of a file, and nothing else of a directory. -/
def Entry.seen : Entry → Option FileContent
  | file content => some content
  | directory _ => none

/-- What is seen below a root: what there is under some names, if there is anything. -/
abbrev TreeView := List String → Option (Option FileContent)

/-- What is seen below a root of a file system. -/
def FileSystem.viewFrom (files : FileSystem) (root : List String) : TreeView := fun names =>
  (files.at? (root ++ names)).map Entry.seen

namespace FileSystem

variable {files : FileSystem} {root names : List String}

theorem viewFrom_eq_file_iff {content : FileContent} :
    files.viewFrom root names = some (some content) ↔
      files.at? (root ++ names) = some (.file content) := by
  unfold viewFrom
  rcases files.at? (root ++ names) with _ | ⟨own⟩ | ⟨entries⟩ <;> simp [Entry.seen]

theorem viewFrom_eq_directory_iff :
    files.viewFrom root names = some none ↔
      ∃ entries, files.at? (root ++ names) = some (.directory entries) := by
  unfold viewFrom
  rcases files.at? (root ++ names) with _ | ⟨own⟩ | ⟨entries⟩ <;> simp [Entry.seen]

theorem isSome_viewFrom :
    (files.viewFrom root names).isSome = (files.at? (root ++ names)).isSome := by
  simp [viewFrom]

end FileSystem

/-! ## Where steps lead -/

/-- Whether the next step of a pattern can be taken at a place: the last step takes whatever there
is, the others take directories. -/
def TreeView.admits (view : TreeView) (last : Bool) (names : List String) : Prop :=
  if last then (view names).isSome = true else view names = some none

theorem TreeView.isSome_of_admits {view : TreeView} {last : Bool} {names : List String}
    (admitted : view.admits last names) : (view names).isSome = true := by
  unfold admits at admitted
  split at admitted
  · exact admitted
  · rw [admitted]
    rfl

/-- Where the steps of a pattern lead from a place in a tree. -/
def TreeView.Leads (view : TreeView) (directoriesOnly : Bool) :
    List GlobStep → List String → List String → Prop
  | [], names, found => found = names
  | .named name :: rest, names, found =>
    view.admits (rest.isEmpty && !directoriesOnly) (names ++ [name]) ∧
      view.Leads directoriesOnly rest (names ++ [name]) found
  | .matching pattern :: rest, names, found =>
    ∃ name, wildcardMatches pattern name = true ∧
      view.admits (rest.isEmpty && !directoriesOnly) (names ++ [name]) ∧
      view.Leads directoriesOnly rest (names ++ [name]) found
  | .anyDepth :: rest, names, found =>
    ∃ inner, view (names ++ inner) = some none ∧
      view.Leads directoriesOnly rest (names ++ inner) found

/-- Whether the next step can be taken at an entry, when it is known what is seen there. -/
theorem FileSystem.admits_viewFrom_iff {files : FileSystem} {root names : List String} {last : Bool}
    {entry : Entry} (found : files.at? (root ++ names) = some entry) :
    (files.viewFrom root).admits last names ↔ (last || entry.isDirectory) = true := by
  unfold TreeView.admits FileSystem.viewFrom
  rw [found]
  cases last <;> cases entry <;> simp [Entry.seen, Entry.isDirectory]

theorem FileSystem.exists_of_admits {files : FileSystem} {root names : List String} {last : Bool}
    (admitted : (files.viewFrom root).admits last names) :
    ∃ entry, files.at? (root ++ names) = some entry := by
  rw [← Option.isSome_iff_exists, ← FileSystem.isSome_viewFrom]
  exact TreeView.isSome_of_admits admitted

/-- Steps none of which looks up double points. -/
def StayBelow (steps : List GlobStep) : Prop := GlobStep.named ".." ∉ steps

namespace OpensTree

variable {files : FileSystem} {root : FilePath} {place names : List String}
  (tree : OpensTree files root place)

include tree

theorem isDirectory_iff (noPoints : ".." ∉ names) :
    files.isDirectory (root.below names) = true ↔
      files.viewFrom place names = some none := by
  rw [FileSystem.isDirectory, tree.find?_eq noPoints, FileSystem.viewFrom_eq_directory_iff]
  rcases files.at? (place ++ names) with _ | ⟨own⟩ | ⟨entries⟩ <;> simp [Entry.isDirectory]

theorem has_eq (noPoints : ".." ∉ names) :
    files.has (root.below names) = (files.viewFrom place names).isSome := by
  rw [FileSystem.has, tree.find?_eq noPoints, FileSystem.isSome_viewFrom]

theorem file?_eq (noPoints : ".." ∉ names) :
    files.file? (root.below names) = (files.viewFrom place names).join := by
  rw [FileSystem.file?, tree.find?_eq noPoints, FileSystem.viewFrom]
  rcases files.at? (place ++ names) with _ | ⟨own⟩ | ⟨entries⟩ <;> rfl

/-- The entries of a directory are what is seen one name further on. -/
theorem mem_entriesAt_iff {child : String × Entry} (noPoints : ".." ∉ names) :
    child ∈ files.entriesAt (root.below names) ↔
      files.at? (place ++ (names ++ [child.1])) = some child.2 := by
  rw [FileSystem.entriesAt, tree.find?_eq noPoints, ← List.append_assoc,
    FileSystem.at?_append_singleton]
  cases found : files.at? (place ++ names) with
  | none => simp
  | some entry =>
      cases entry with
      | file content => simp [Entry.entries]
      | directory entries =>
          exact (AreEntries.lookup_eq_some_iff (tree.proper _ entries found)).symm

theorem mem_directoriesAt_iff {path : FilePath} (noPoints : ".." ∉ names) :
    path ∈ files.directoriesAt (root.below names) ↔
      ∃ inner, path = root.below (names ++ inner) ∧
        files.viewFrom place (names ++ inner) = some none := by
  have below : ∀ inner, files.at? (place ++ (names ++ inner)) =
      (files.at? (place ++ names)).bind (Entry.descendant? · inner) := by
    intro inner
    rw [← List.append_assoc, FileSystem.at?, Entry.descendant?_append]
    rfl
  simp only [FileSystem.directoriesAt, tree.find?_eq noPoints,
    FileSystem.viewFrom_eq_directory_iff, below]
  cases found : files.at? (place ++ names) with
  | none => simp
  | some entry =>
      have proper : entry.IsProper := tree.proper.of_descendant? found
      rw [List.mem_map]
      constructor
      · rintro ⟨inner, listed, rfl⟩
        exact ⟨inner, FilePath.below_below root names inner, proper.mem_directories_iff.mp listed⟩
      · rintro ⟨inner, rfl, foundBelow⟩
        exact ⟨inner, proper.mem_directories_iff.mpr foundBelow,
          FilePath.below_below root names inner⟩

/-! ### One step -/

section Steps

variable {directoriesOnly : Bool} {rest : List GlobStep} {path : FilePath}

theorem mem_selectFrom_named_iff {name : String} (noPoints : ".." ∉ names ++ [name]) :
    path ∈ selectFrom files directoriesOnly (.named name :: rest) (root.below names) ↔
      (files.viewFrom place).admits (rest.isEmpty && !directoriesOnly) (names ++ [name]) ∧
        path ∈ selectFrom files directoriesOnly rest (root.below (names ++ [name])) := by
  rw [selectFrom, TreeView.admits]
  simp only [FilePath.child_below, tree.has_eq noPoints]
  by_cases last : (rest.isEmpty && !directoriesOnly) = true
  · obtain rfl : rest = [] := by
      simpa using (Bool.and_eq_true_iff.mp last).1
    rw [if_pos last, if_pos last, selectFrom]
    split
    · rename_i something
      simp [something]
    · rename_i nothing
      simp [nothing]
  · rw [if_neg last, if_neg last]
    split
    · rename_i directory
      simp [(tree.isDirectory_iff noPoints).mp directory]
    · rename_i noDirectory
      rw [tree.isDirectory_iff noPoints] at noDirectory
      simp [noDirectory]

theorem mem_selectFrom_matching_iff {pattern : String} (noPoints : ".." ∉ names) :
    path ∈ selectFrom files directoriesOnly (.matching pattern :: rest)
        (root.below names) ↔
      ∃ name, wildcardMatches pattern name = true ∧
        (files.viewFrom place).admits (rest.isEmpty && !directoriesOnly) (names ++ [name]) ∧
        path ∈ selectFrom files directoriesOnly rest (root.below (names ++ [name])) := by
  rw [selectFrom]
  simp only [FilePath.child_below, List.mem_flatMap, List.mem_filter,
    tree.mem_entriesAt_iff noPoints]
  constructor
  · rintro ⟨⟨name, entry⟩, ⟨found, wanted⟩, member⟩
    obtain ⟨isMatch, admitted⟩ := Bool.and_eq_true_iff.mp wanted
    exact ⟨name, isMatch, (FileSystem.admits_viewFrom_iff found).mpr admitted, member⟩
  · rintro ⟨name, isMatch, admitted, member⟩
    obtain ⟨entry, found⟩ := FileSystem.exists_of_admits admitted
    exact ⟨(name, entry), ⟨found, Bool.and_eq_true_iff.mpr
      ⟨isMatch, (FileSystem.admits_viewFrom_iff found).mp admitted⟩⟩, member⟩

theorem mem_selectFrom_anyDepth_iff (noPoints : ".." ∉ names) :
    path ∈ selectFrom files directoriesOnly (.anyDepth :: rest) (root.below names) ↔
      ∃ inner, files.viewFrom place (names ++ inner) = some none ∧
        path ∈ selectFrom files directoriesOnly rest (root.below (names ++ inner)) := by
  rw [selectFrom, List.mem_eraseDups, List.mem_flatMap]
  constructor
  · rintro ⟨middle, listed, member⟩
    obtain ⟨inner, rfl, directory⟩ := (tree.mem_directoriesAt_iff noPoints).mp listed
    exact ⟨inner, directory, member⟩
  · rintro ⟨inner, directory, member⟩
    exact ⟨_, (tree.mem_directoriesAt_iff noPoints).mpr ⟨inner, rfl, directory⟩, member⟩

end Steps

/-! ### All steps -/

theorem noPoints_of_admits {last : Bool} (admitted : (files.viewFrom place).admits last names) :
    ".." ∉ names := by
  obtain ⟨entry, found⟩ := FileSystem.exists_of_admits admitted
  exact tree.noPoints_of_at? found

/-- A pattern takes what its steps lead to. -/
theorem mem_selectFrom_iff {directoriesOnly : Bool} {steps : List GlobStep} {path : FilePath}
    (below : StayBelow steps) (noPoints : ".." ∉ names) :
    path ∈ selectFrom files directoriesOnly steps (root.below names) ↔
      ∃ found, path = root.below found ∧
        (files.viewFrom place).Leads directoriesOnly steps names found := by
  induction steps generalizing names with
  | nil => simp [selectFrom, TreeView.Leads]
  | cons step rest inductionHypothesis =>
      have later : StayBelow rest := fun member => below (List.mem_cons_of_mem step member)
      cases step with
      | named name =>
          have different : ".." ≠ name := fun same => below (same ▸ List.mem_cons_self)
          have noPointsBelow : ".." ∉ names ++ [name] := by
            simpa using ⟨noPoints, different⟩
          have next := inductionHypothesis later noPointsBelow
          rw [tree.mem_selectFrom_named_iff noPointsBelow]
          constructor
          · rintro ⟨admitted, member⟩
            obtain ⟨place, rfl, leads⟩ := next.mp member
            exact ⟨place, rfl, admitted, leads⟩
          · rintro ⟨place, rfl, admitted, leads⟩
            exact ⟨admitted, next.mpr ⟨place, rfl, leads⟩⟩
      | matching pattern =>
          rw [tree.mem_selectFrom_matching_iff noPoints]
          constructor
          · rintro ⟨name, isMatch, admitted, member⟩
            obtain ⟨place, rfl, leads⟩ :=
              (inductionHypothesis later (tree.noPoints_of_admits admitted)).mp member
            exact ⟨place, rfl, name, isMatch, admitted, leads⟩
          · rintro ⟨place, rfl, name, isMatch, admitted, leads⟩
            have next := inductionHypothesis later (tree.noPoints_of_admits admitted)
            exact ⟨name, isMatch, admitted, next.mpr ⟨place, rfl, leads⟩⟩
      | anyDepth =>
          have next (inner : List String)
              (directory : (files.viewFrom place).admits false (names ++ inner)) :=
            inductionHypothesis later (tree.noPoints_of_admits directory)
          rw [tree.mem_selectFrom_anyDepth_iff noPoints]
          constructor
          · rintro ⟨inner, directory, member⟩
            obtain ⟨place, rfl, leads⟩ := (next inner directory).mp member
            exact ⟨place, rfl, inner, directory, leads⟩
          · rintro ⟨place, rfl, inner, directory, leads⟩
            exact ⟨inner, directory, (next inner directory).mpr ⟨place, rfl, leads⟩⟩

theorem view_nil : files.viewFrom place [] = some none := by
  obtain ⟨entries, found⟩ := tree.directory
  rw [FileSystem.viewFrom_eq_directory_iff, List.append_nil]
  exact ⟨entries, found⟩

theorem isDirectory_root : files.isDirectory root = true := by
  have directory := tree.isDirectory_iff List.not_mem_nil
  rw [FilePath.below_nil] at directory
  exact directory.mpr tree.view_nil

theorem mem_select_iff {glob : Glob} {path : FilePath} (below : StayBelow glob.steps) :
    path ∈ glob.select files root ↔
      ∃ names, path = root.below names ∧
        (files.viewFrom place).Leads glob.directoriesOnly glob.steps [] names := by
  have selected := @mem_selectFrom_iff files root place [] tree glob.directoriesOnly glob.steps path
    below List.not_mem_nil
  rw [FilePath.below_nil] at selected
  rw [Glob.select, if_pos tree.isDirectory_root]
  exact selected

/-- A pattern can be looked up, unless it looks up a name that no file can have and the steps before
lead anywhere. -/
theorem lookupError?_eq_none_iff {glob : Glob} (below : StayBelow glob.steps) :
    glob.lookupError? files root = none ↔
      ((∀ step ∈ glob.steps, step.isLongName = false) ∨
        ∀ names, ¬ (files.viewFrom place).Leads true
          (glob.steps.takeWhile fun step => !step.isLongName) [] names) := by
  have short : (∀ step ∈ glob.steps, step.isLongName = false) ↔
      glob.steps.takeWhile (fun step => !step.isLongName) = glob.steps := by
    simp [List.takeWhile_eq_self_iff]
  have stays : StayBelow (glob.steps.takeWhile fun step => !step.isLongName) := fun member =>
    below (List.takeWhile_subset _ member)
  rw [Glob.lookupError?]
  split
  · rename_i nothingLeft
    have whole : glob.steps.takeWhile (fun step => !step.isLongName) = glob.steps := by
      have initial :=
        List.takeWhile_prefix (fun step : GlobStep => !step.isLongName) (l := glob.steps)
      exact initial.eq_of_length_le (List.drop_eq_nil_iff.mp nothingLeft)
    simp [short, whole]
  · rename_i step rest next
    have notWhole : glob.steps.takeWhile (fun step => !step.isLongName) ≠ glob.steps := by
      intro whole
      rw [whole, List.drop_length] at next
      cases next
    rw [short, Option.map_eq_none_iff, List.head?_eq_none_iff, List.eq_nil_iff_forall_not_mem]
    constructor
    · intro empty
      refine .inr ?_
      intro names leads
      exact empty _ ((tree.mem_select_iff stays).mpr ⟨names, rfl, leads⟩)
    · rintro (whole | nowhere) path selected
      · exact notWhole whole
      · obtain ⟨names, -, leads⟩ := (tree.mem_select_iff stays).mp selected
        exact nowhere names leads

end OpensTree

/-- What is a pattern: a relative path with components, each of which is a step. -/
theorem Glob.ofText_eq_ok_iff {text : String} {glob : Glob} :
    Glob.ofText text = .ok glob ↔
      (FilePath.ofText text).slashes = 0 ∧ (FilePath.ofText text).parts ≠ [] ∧
        (FilePath.ofText text).parts.mapM GlobStep.ofName = .ok glob.steps ∧
        glob.directoriesOnly = (text.toList.getLast? == some '/') := by
  obtain ⟨steps, directoriesOnly⟩ := glob
  unfold Glob.ofText
  dsimp only
  split
  · rename_i empty
    obtain rfl := String.isEmpty_iff.mp empty
    have noParts : (FilePath.ofText "").parts = [] := by decide
    simp [noParts]
  · split
    · rename_i absolute
      simp [absolute]
    · rename_i relative
      rw [not_not] at relative
      split
      · rename_i noParts
        simp [List.isEmpty_iff.mp noParts]
      · rename_i parts
        rw [List.isEmpty_iff] at parts
        simp only [map_eq_ok_iff, Glob.mk.injEq, relative, parts, ne_eq, not_false_eq_true,
          true_and]
        constructor
        · rintro ⟨own, made, rfl, rfl⟩
          exact ⟨made, rfl⟩
        · rintro ⟨made, rfl⟩
          exact ⟨steps, made, rfl, rfl⟩

theorem stayBelow_of_ofText {text : String} {glob : Glob}
    (noPoints : ".." ∉ (FilePath.ofText text).parts) (read : Glob.ofText text = .ok glob) :
    StayBelow glob.steps := by
  obtain ⟨-, -, made, -⟩ := Glob.ofText_eq_ok_iff.mp read
  intro member
  obtain ⟨name, listed, step⟩ := exists_of_mapM_eq_ok made _ member
  unfold GlobStep.ofName at step
  split at step
  · cases step
  · split at step
    · cases step
    · split at step
      · cases step
      · cases step
        exact noPoints listed

theorem Glob.ofTextIn_eq_ok_iff {files : FileSystem} {directory : FilePath} {text : String}
    {glob : Glob} :
    Glob.ofTextIn files directory text = .ok glob ↔
      Glob.ofText text = .ok glob ∧ glob.lookupError? files directory = none := by
  unfold Glob.ofTextIn
  rw [bind_eq_ok_iff]
  constructor
  · rintro ⟨own, read, found⟩
    split at found
    · cases found
    · rename_i faultless
      cases found
      exact ⟨read, faultless⟩
  · rintro ⟨read, faultless⟩
    refine ⟨glob, read, ?_⟩
    rw [faultless]

end DesignLint
