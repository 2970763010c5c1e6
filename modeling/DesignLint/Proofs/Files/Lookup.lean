import DesignLint.Files.Path
import DesignLint.Files.Tree
import DesignLint.Proofs.Outcome
import Mathlib.Data.List.Basic
import Mathlib.Data.List.Induction

/-!
# Looking up files

Names that files can have are told apart by the texts of their paths. Where the entries of every
directory have different names, all of which are names that files can have, a path from the top
without double points leads to the place it names, or nowhere. It leads nowhere from a path that
cannot be used: one that is too long, above all.
-/

namespace DesignLint

/-! ## Names of files -/

/-- A name that a file can have. -/
structure IsFileName (name : String) : Prop where
  nonempty : name ≠ ""
  noPoint : name ≠ "."
  noPoints : name ≠ ".."
  noSlash : '/' ∉ name.toList

instance (name : String) : Decidable (IsFileName name) :=
  decidable_of_iff (name ≠ "" ∧ name ≠ "." ∧ name ≠ ".." ∧ '/' ∉ name.toList)
    ⟨fun ⟨nonempty, noPoint, noPoints, noSlash⟩ => ⟨nonempty, noPoint, noPoints, noSlash⟩,
      fun valid => ⟨valid.nonempty, valid.noPoint, valid.noPoints, valid.noSlash⟩⟩

namespace FilePath

/-- The path to some names below a path. -/
def below (path : FilePath) (names : List String) : FilePath := ⟨path.slashes, path.parts ++ names⟩

@[simp]
theorem slashes_below (path : FilePath) (names : List String) :
    (path.below names).slashes = path.slashes :=
  rfl

@[simp]
theorem parts_below (path : FilePath) (names : List String) :
    (path.below names).parts = path.parts ++ names :=
  rfl

@[simp]
theorem below_nil (path : FilePath) : path.below [] = path := by
  simp [below]

@[simp]
theorem child_below (path : FilePath) (names : List String) (name : String) :
    (path.below names).child name = path.below (names ++ [name]) := by
  simp [below, child]

theorem below_below (path : FilePath) (names others : List String) :
    (path.below names).below others = path.below (names ++ others) := by
  simp [below]

/-- Without double points, resolving goes straight down. -/
theorem foldl_step_eq {names parts : List String} (noPoints : ".." ∉ names) :
    names.foldl step parts = parts ++ names := by
  induction names generalizing parts with
  | nil => simp
  | cons name names inductionHypothesis =>
      obtain ⟨different, later⟩ : name ≠ ".." ∧ ".." ∉ names := by
        simpa [eq_comm] using noPoints
      rw [List.foldl_cons, inductionHypothesis later, step, if_neg different]
      simp

theorem resolve_below (path : FilePath) (names working : List String) :
    (path.below names).resolve working = names.foldl step (path.resolve working) :=
  List.foldl_append

theorem text_relative_cons (name : String) (names : List String) :
    text ⟨0, name :: names⟩ = "/".intercalate (name :: names) := by
  simp [text]

theorem intercalate_slash_injective {names others : List String} (nonempty : names ≠ [])
    (othersNonempty : others ≠ []) (valid : ∀ name ∈ names, '/' ∉ name.toList)
    (othersValid : ∀ name ∈ others, '/' ∉ name.toList)
    (equal : "/".intercalate names = "/".intercalate others) : names = others := by
  have characters := congrArg String.toList equal
  rw [String.toList_intercalate, String.toList_intercalate] at characters
  have pieces := congrArg (List.splitOn '/') characters
  have slash : "/".toList = ['/'] := rfl
  rw [slash, List.splitOn_intercalate '/' (by simpa using valid) (by simpa using nonempty),
    List.splitOn_intercalate '/' (by simpa using othersValid) (by simpa using othersNonempty)]
    at pieces
  exact List.map_injective_iff.mpr (fun _ _ => String.toList_inj.mp) pieces

theorem intercalate_slash_ne_point {names : List String} (nonempty : names ≠ [])
    (valid : ∀ name ∈ names, IsFileName name) : "/".intercalate names ≠ "." := by
  intro equal
  have single : names = ["."] := by
    apply intercalate_slash_injective nonempty (List.cons_ne_nil _ _)
      (fun name listed => (valid name listed).noSlash) (by simp)
    rw [equal, String.intercalate_singleton]
  exact (valid "." (single ▸ List.mem_singleton.mpr rfl)).noPoint rfl

/-- Relative paths with valid names differ as texts. -/
theorem eq_of_text_eq {names others : List String} (valid : ∀ name ∈ names, IsFileName name)
    (othersValid : ∀ name ∈ others, IsFileName name)
    (equal : text ⟨0, names⟩ = text ⟨0, others⟩) : names = others := by
  cases names with
  | nil =>
      cases others with
      | nil => rfl
      | cons other others =>
          rw [text_relative_cons] at equal
          exact absurd equal.symm
            (intercalate_slash_ne_point (List.cons_ne_nil _ _) othersValid)
  | cons name names =>
      cases others with
      | nil =>
          rw [text_relative_cons] at equal
          exact absurd equal (intercalate_slash_ne_point (List.cons_ne_nil _ _) valid)
      | cons other others =>
          rw [text_relative_cons, text_relative_cons] at equal
          exact intercalate_slash_injective (List.cons_ne_nil _ _) (List.cons_ne_nil _ _)
            (fun name listed => (valid name listed).noSlash)
            (fun name listed => (othersValid name listed).noSlash) equal

end FilePath

/-! ## Below a directory -/

theorem relativeTo?_eq_some_iff {directory place names : List String} :
    relativeTo? directory place = some names ↔ place = directory ++ names := by
  unfold relativeTo?
  split
  · rename_i within
    obtain ⟨rest, rfl⟩ := List.isPrefixOf_iff_prefix.mp within
    simp [eq_comm]
  · rename_i outside
    constructor
    · intro impossible
      cases impossible
    · rintro rfl
      exact absurd (List.isPrefixOf_iff_prefix.mpr (List.prefix_append directory names)) outside

theorem exists_relativeTo?_iff {directory place : List String} :
    (∃ names, relativeTo? directory place = some names) ↔ directory <+: place := by
  simp only [relativeTo?_eq_some_iff, List.IsPrefix, eq_comm]

@[simp]
theorem relativeTo?_append (directory names : List String) :
    relativeTo? directory (directory ++ names) = some names :=
  relativeTo?_eq_some_iff.mpr rfl

/-! ## Proper trees -/

/-- Entries with different names, all of which are names that files can have. -/
structure AreEntries (entries : List (String × Entry)) : Prop where
  distinct : (entries.map Prod.fst).Nodup
  names : ∀ name ∈ entries.map Prod.fst, IsFileName name

instance (entries : List (String × Entry)) : Decidable (AreEntries entries) :=
  decidable_of_iff ((entries.map Prod.fst).Nodup ∧ ∀ name ∈ entries.map Prod.fst, IsFileName name)
    ⟨fun ⟨distinct, names⟩ => ⟨distinct, names⟩, fun valid => ⟨valid.distinct, valid.names⟩⟩

/-- Under different names, what is listed is found. -/
theorem AreEntries.lookup_eq_some_iff {entries : List (String × Entry)} {name : String}
    {entry : Entry} (valid : AreEntries entries) :
    entries.lookup name = some entry ↔ (name, entry) ∈ entries := by
  rw [List.lookup_eq_some_iff]
  constructor
  · rintro ⟨before, after, rfl, -⟩
    exact List.mem_append_right before List.mem_cons_self
  · intro listed
    obtain ⟨before, after, rfl⟩ := List.append_of_mem listed
    refine ⟨before, after, rfl, ?_⟩
    intro other earlier
    rw [bne_iff_ne]
    rintro rfl
    have distinct := valid.distinct
    rw [List.map_append, List.nodup_append] at distinct
    exact distinct.2.2 other.1 (List.mem_map_of_mem earlier) other.1 List.mem_cons_self rfl

theorem AreEntries.of_perm {entries others : List (String × Entry)} (valid : AreEntries entries)
    (same : entries.Perm others) : AreEntries others where
  distinct := (same.map Prod.fst).nodup_iff.mp valid.distinct
  names := fun name listed => valid.names name ((same.map Prod.fst).mem_iff.mpr listed)

/-- The order of the entries does not change what is found. -/
theorem AreEntries.lookup_perm {entries others : List (String × Entry)} (valid : AreEntries entries)
    (same : entries.Perm others) (name : String) : entries.lookup name = others.lookup name := by
  apply Option.ext
  intro entry
  rw [valid.lookup_eq_some_iff, (valid.of_perm same).lookup_eq_some_iff, same.mem_iff]

namespace Entry

@[simp]
theorem descendant?_nil (entry : Entry) : entry.descendant? [] = some entry :=
  rfl

theorem descendant?_cons (entry : Entry) (name : String) (names : List String) :
    entry.descendant? (name :: names) =
      (entry.entries.lookup name).bind (descendant? · names) := by
  rw [descendant?]
  cases entry.entries.lookup name <;> rfl

theorem descendant?_append (entry : Entry) (names others : List String) :
    entry.descendant? (names ++ others) =
      (entry.descendant? names).bind (descendant? · others) := by
  induction names generalizing entry with
  | nil => rfl
  | cons name names inductionHypothesis =>
      rw [List.cons_append, descendant?_cons, descendant?_cons, Option.bind_assoc]
      exact congrArg _ (funext fun child => inductionHypothesis child)

/-- All directories in an entry have valid entries. -/
def IsProper (entry : Entry) : Prop :=
  ∀ names entries, entry.descendant? names = some (.directory entries) → AreEntries entries

theorem isProper_file (content : FileContent) : (file content).IsProper := by
  intro names entries found
  cases names with
  | nil => cases found
  | cons name names => cases found

theorem isProper_directory {entries : List (String × Entry)} (valid : AreEntries entries)
    (inner : ∀ child ∈ entries, child.2.IsProper) : (directory entries).IsProper := by
  intro names others found
  cases names with
  | nil =>
      cases found
      exact valid
  | cons name names =>
      rw [descendant?_cons] at found
      obtain ⟨child, listed, found⟩ := Option.bind_eq_some_iff.mp found
      exact inner _ (valid.lookup_eq_some_iff.mp listed) names others found

theorem IsProper.areEntries {entries : List (String × Entry)}
    (proper : (directory entries).IsProper) : AreEntries entries :=
  proper [] entries rfl

theorem IsProper.of_mem {entries : List (String × Entry)} {child : String × Entry}
    (proper : (directory entries).IsProper) (listed : child ∈ entries) : child.2.IsProper := by
  intro names others found
  apply proper (child.1 :: names)
  rw [descendant?_cons]
  exact Option.bind_eq_some_iff.mpr
    ⟨child.2, proper.areEntries.lookup_eq_some_iff.mpr listed, found⟩

theorem IsProper.of_descendant? {entry inner : Entry} {names : List String}
    (proper : entry.IsProper) (found : entry.descendant? names = some inner) : inner.IsProper := by
  intro others entries foundBelow
  apply proper (names ++ others)
  rw [descendant?_append]
  exact Option.bind_eq_some_iff.mpr ⟨inner, found, foundBelow⟩

/-- What is found under some names is found in directories with these names. -/
theorem IsProper.isFileName {entry inner : Entry} {names : List String} (proper : entry.IsProper)
    (found : entry.descendant? names = some inner) : ∀ name ∈ names, IsFileName name := by
  induction names generalizing entry with
  | nil => simp
  | cons name names inductionHypothesis =>
      rw [descendant?_cons] at found
      obtain ⟨child, listed, foundBelow⟩ := Option.bind_eq_some_iff.mp found
      cases entry with
      | file content => cases listed
      | directory entries =>
          have member := proper.areEntries.lookup_eq_some_iff.mp listed
          exact List.forall_mem_cons.mpr
            ⟨proper.areEntries.names name (List.mem_map_of_mem member),
              inductionHypothesis (proper.of_mem member) foundBelow⟩

/-! ## Directories in a tree -/

theorem mem_directoriesAmong {entries : List (String × Entry)} {names : List String} :
    names ∈ directoriesAmong entries ↔
      ∃ child ∈ entries, ∃ rest ∈ child.2.directories, names = child.1 :: rest := by
  induction entries with
  | nil => simp [directoriesAmong]
  | cons entry entries inductionHypothesis =>
      obtain ⟨name, entry⟩ := entry
      rw [directoriesAmong, List.mem_append, inductionHypothesis, List.mem_map,
        List.exists_mem_cons_iff]
      simp only [eq_comm]

/-- The listed directories are the ones that look-ups find. -/
theorem IsProper.mem_directories_iff {entry : Entry} {names : List String}
    (proper : entry.IsProper) :
    names ∈ entry.directories ↔ ∃ entries, entry.descendant? names = some (.directory entries) := by
  induction names generalizing entry with
  | nil =>
      cases entry with
      | file content => simp [directories]
      | directory entries => simp [directories]
  | cons name names inductionHypothesis =>
      cases entry with
      | file content => simp [directories, descendant?_cons, Entry.entries]
      | directory entries =>
          have valid := proper.areEntries
          rw [directories, List.mem_cons, mem_directoriesAmong, descendant?_cons]
          constructor
          · rintro (impossible | ⟨⟨other, child⟩, listed, rest, member, equal⟩)
            · cases impossible
            · cases equal
              obtain ⟨others, found⟩ := (inductionHypothesis (proper.of_mem listed)).mp member
              exact ⟨others, Option.bind_eq_some_iff.mpr
                ⟨child, valid.lookup_eq_some_iff.mpr listed, found⟩⟩
          · rintro ⟨others, found⟩
            obtain ⟨child, found, foundToo⟩ := Option.bind_eq_some_iff.mp found
            have listed := valid.lookup_eq_some_iff.mp found
            exact .inr ⟨(name, child), listed, names,
              (inductionHypothesis (proper.of_mem listed)).mpr ⟨others, foundToo⟩, rfl⟩

end Entry

/-! ## Paths that lead to their places -/

/-- No name of a path is too long, and neither is the path; it can be encoded and has no zero
character. -/
structure FilePath.IsUsable (path : FilePath) : Prop where
  faultless : path.fault? = none
  names : ∀ name ∈ path.parts, FilePath.isLongName name = false

instance (path : FilePath) : Decidable path.IsUsable :=
  decidable_of_iff (path.fault? = none ∧ ∀ name ∈ path.parts, FilePath.isLongName name = false)
    ⟨fun both => ⟨both.1, both.2⟩, fun usable => ⟨usable.faultless, usable.names⟩⟩

namespace FileSystem

variable {files : FileSystem} {place : List String}

theorem at?_append_singleton (files : FileSystem) (place : List String) (name : String) :
    files.at? (place ++ [name]) =
      (files.at? place).bind fun entry => entry.entries.lookup name := by
  rw [at?, Entry.descendant?_append]
  apply congrArg (Option.bind (files.at? place))
  funext entry
  rw [Entry.descendant?_cons]
  cases entry.entries.lookup name <;> rfl

/-- In a directory of one file nothing else is a file. -/
theorem at?_single_eq_file_iff {name : String} {content own : FileContent}
    {working : List String} {strict : Bool} :
    at? ⟨.directory [(name, .file content)], working, strict⟩ place = some (.file own) ↔
      place = [name] ∧ own = content := by
  cases place with
  | nil => simp [at?]
  | cons first rest =>
      rw [at?, Entry.descendant?_cons, Entry.entries, List.lookup_cons, List.lookup_nil]
      by_cases same : first = name
      · cases rest with
        | nil => simp [same, eq_comm]
        | cons next rest => simp [same, Entry.descendant?_cons, Entry.entries]
      · simp [beq_eq_false_iff_ne.mpr same, same]

/-- The directory above a place where something is. -/
theorem exists_directory_of_at?_append {name : String} {entry : Entry}
    (found : files.at? (place ++ [name]) = some entry) :
    ∃ entries, files.at? place = some (.directory entries) ∧ entries.lookup name = some entry := by
  rw [at?_append_singleton] at found
  obtain ⟨above, foundAbove, listed⟩ := Option.bind_eq_some_iff.mp found
  cases above with
  | file content => cases listed
  | directory entries => exact ⟨entries, foundAbove, listed⟩

/-- A step down to something with a usable name. -/
theorem enter_eq_ok {name : String} {entry : Entry} (different : name ≠ "..")
    (short : FilePath.isLongName name = false) (found : files.at? (place ++ [name]) = some entry) :
    files.enter place name = .ok (place ++ [name]) := by
  obtain ⟨entries, foundAbove, listed⟩ := exists_directory_of_at?_append found
  simp [enter, foundAbove, different, short, listed]

/-- A step of a look-up leads where the path resolves to. -/
theorem eq_step_of_enter {name : String} {next : List String}
    (entered : files.enter place name = .ok next) : next = FilePath.step place name := by
  unfold enter at entered
  split at entered
  · cases entered
  · cases entered
  · split at entered
    · rename_i points
      cases entered
      exact (if_pos points).symm
    · rename_i different
      split at entered
      · cases entered
      · split at entered
        · cases entered
          exact (if_neg different).symm
        · cases entered

/-- So does the whole look-up. -/
theorem eq_foldl_step_of_foldlM_enter {names found : List String}
    (entered : names.foldlM files.enter place = .ok found) :
    found = names.foldl FilePath.step place := by
  induction names generalizing place with
  | nil => exact (Except.ok.inj entered).symm
  | cons name names inductionHypothesis =>
      rw [List.foldlM_cons] at entered
      obtain ⟨next, first, later⟩ := bind_eq_ok_iff.mp entered
      rw [List.foldl_cons, ← eq_step_of_enter first]
      exact inductionHypothesis later

/-- A path that leads anywhere leads to the place that it resolves to. -/
theorem eq_resolve_of_locate {path : FilePath} (located : files.locate path = .ok place) :
    place = path.resolve files.working := by
  unfold locate at located
  split at located
  · cases located
  · exact eq_foldl_step_of_foldlM_enter located

/-- From a place, names lead down to what is there under them. -/
theorem foldlM_enter_eq_ok {names : List String} {entry : Entry} (noPoints : ".." ∉ names)
    (short : ∀ name ∈ names, FilePath.isLongName name = false)
    (found : files.at? (place ++ names) = some entry) :
    names.foldlM files.enter place = .ok (place ++ names) := by
  induction names using List.reverseRecOn generalizing entry with
  | nil => exact congrArg Except.ok (List.append_nil place).symm
  | append_singleton before name inductionHypothesis =>
      obtain ⟨noPointsBefore, different⟩ : ".." ∉ before ∧ name ≠ ".." := by
        simpa [eq_comm] using noPoints
      rw [← List.append_assoc] at found ⊢
      obtain ⟨entries, foundBefore, -⟩ := exists_directory_of_at?_append found
      have earlier := inductionHypothesis noPointsBefore
        (fun other member => short other (List.mem_append_left _ member)) foundBefore
      have shortName := short name (List.mem_append_right before List.mem_cons_self)
      have last := enter_eq_ok different shortName found
      rw [List.foldlM_append, earlier]
      exact bind_eq_ok_iff.mpr
        ⟨place ++ before, rfl, bind_eq_ok_iff.mpr ⟨place ++ before ++ [name], last, rfl⟩⟩

/-- A path that can be used is looked up from the place of a path above it. -/
theorem locate_below {path : FilePath} {names : List String}
    (located : files.locate path = .ok place) (usable : (path.below names).IsUsable) :
    files.locate (path.below names) = names.foldlM files.enter place := by
  unfold locate at located ⊢
  rw [usable.faultless]
  split at located
  · cases located
  · rw [FilePath.parts_below, FilePath.slashes_below, List.foldlM_append, located]
    rfl

end FileSystem

/-! ## The tree below a root -/

/-- A path to a directory of a proper file system, below which all files and directories have paths
that can be used. -/
structure OpensTree (files : FileSystem) (root : FilePath) (place : List String) : Prop where
  proper : files.top.IsProper
  located : files.locate root = .ok place
  directory : ∃ entries, files.at? place = some (.directory entries)
  usable : ∀ names entry, files.at? (place ++ names) = some entry → (root.below names).IsUsable

namespace OpensTree

variable {files : FileSystem} {root : FilePath} {place names : List String}
  (tree : OpensTree files root place)

include tree

theorem locate_eq_ok {entry : Entry} (noPoints : ".." ∉ names)
    (found : files.at? (place ++ names) = some entry) :
    files.locate (root.below names) = .ok (place ++ names) := by
  have usable := tree.usable names entry found
  rw [FileSystem.locate_below tree.located usable]
  refine FileSystem.foldlM_enter_eq_ok noPoints (fun name listed => ?_) found
  exact usable.names name (List.mem_append_right root.parts listed)

/-- A path without double points leads to what is at its place. -/
theorem find?_eq (noPoints : ".." ∉ names) :
    files.find? (root.below names) = files.at? (place ++ names) := by
  cases found : files.at? (place ++ names) with
  | some entry =>
      rw [FileSystem.find?, tree.locate_eq_ok noPoints found]
      exact found
  | none =>
      rw [FileSystem.find?]
      split
      · rfl
      · rename_i other located
        rw [FileSystem.eq_resolve_of_locate located, FilePath.resolve_below,
          ← FileSystem.eq_resolve_of_locate tree.located, FilePath.foldl_step_eq noPoints]
        exact found

theorem isFileName {entry : Entry} (found : files.at? (place ++ names) = some entry) :
    ∀ name ∈ names, IsFileName name := by
  intro name member
  exact tree.proper.isFileName found name (List.mem_append_right place member)

theorem noPoints_of_at? {entry : Entry} (found : files.at? (place ++ names) = some entry) :
    ".." ∉ names := by
  intro member
  exact (tree.isFileName found _ member).noPoints rfl

end OpensTree

/-- A directory of a proper file system, all the files and directories below which have paths that
can be used. -/
structure HoldsTree (files : FileSystem) (root : List String) : Prop where
  proper : files.top.IsProper
  directory : ∃ entries, files.at? root = some (.directory entries)
  usable : ∀ names entry, files.at? (root ++ names) = some entry →
    (FilePath.absolute (root ++ names)).IsUsable

/-- The path from the top opens the tree below a directory. -/
theorem HoldsTree.opens {files : FileSystem} {root : List String} (tree : HoldsTree files root) :
    OpensTree files (.absolute root) root where
  proper := tree.proper
  located := by
    obtain ⟨entries, found⟩ := tree.directory
    have usable := tree.usable [] _ (by rwa [List.append_nil])
    rw [List.append_nil] at usable
    have noPoints : ".." ∉ root := fun listed =>
      (tree.proper.isFileName found _ listed).noPoints rfl
    rw [FileSystem.locate, usable.faultless]
    exact FileSystem.foldlM_enter_eq_ok noPoints usable.names found
  directory := tree.directory
  usable := tree.usable

end DesignLint
