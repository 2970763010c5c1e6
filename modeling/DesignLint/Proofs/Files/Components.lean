import DesignLint.Proofs.Files.Selection

/-!
# Patterns component by component

A file pattern is told by its components. One without wildcards takes its own name, one with
wildcards any name that it matches, and a double star any number of names. A pattern takes what is
there under names that its components take, and only directories if it ends in a slash or in a
double star. A double point takes itself only, so a pattern goes up as often as it says.
-/

namespace DesignLint

/-! ## Components without wildcards -/

namespace Wildcard

/-- Characters that stand for themselves match themselves. -/
theorem matchesTokens_literals_iff {expected text : List Char} :
    matchesTokens (expected.map .literal) text = true ↔ text = expected := by
  induction expected generalizing text with
  | nil => simp [matchesTokens]
  | cons c expected inductionHypothesis =>
      cases text with
      | nil => simp [matchesTokens]
      | cons other text =>
          simp only [List.map_cons, matchesTokens, Token.accepts, Bool.and_eq_true, beq_iff_eq,
            inductionHypothesis, List.cons.injEq]
          rw [@eq_comm _ c other]

theorem readFrom_eq_literals {fuel : Nat} {pattern : List Char} (enough : pattern.length ≤ fuel)
    (plain : ∀ c ∈ pattern, c ≠ '*' ∧ c ≠ '?' ∧ c ≠ '[') :
    readFrom fuel pattern = pattern.map .literal := by
  induction pattern generalizing fuel with
  | nil => cases fuel <;> rfl
  | cons c rest inductionHypothesis =>
      obtain ⟨⟨star, question, bracket⟩, later⟩ := List.forall_mem_cons.mp plain
      cases fuel with
      | zero => cases enough
      | succ fuel =>
          rw [List.map_cons, ← inductionHypothesis (Nat.le_of_succ_le_succ enough) later]
          rw [readFrom]
          · exact star
          · exact question
          · exact bracket

end Wildcard

/-- A component without wildcards matches itself only. -/
theorem wildcardMatches_iff_eq {pattern name : String} (plain : hasWildcard pattern = false) :
    wildcardMatches pattern name = true ↔ name = pattern := by
  have characters : ∀ c ∈ pattern.toList, c ≠ '*' ∧ c ≠ '?' ∧ c ≠ '[' := by
    simpa [hasWildcard, and_assoc] using plain
  have literals : Wildcard.read pattern = pattern.toList.map .literal :=
    Wildcard.readFrom_eq_literals String.length_toList.le characters
  rw [wildcardMatches_eq, literals, Wildcard.matchesTokens_literals_iff, String.toList_inj]

/-! ## Components and names -/

/-- Names that the components of a pattern take. Wildcards stand for names of files, so they never
take double points. -/
inductive ComponentsMatch : List String → List String → Prop
  | nil : ComponentsMatch [] []
  | cons {pattern name : String} {patterns names : List String} (single : pattern ≠ "**")
      (accepted : wildcardMatches pattern name = true) (points : name = ".." → pattern = "..")
      (later : ComponentsMatch patterns names) :
    ComponentsMatch (pattern :: patterns) (name :: names)
  | stars {patterns names : List String} (later : ComponentsMatch patterns names) :
    ComponentsMatch ("**" :: patterns) names
  | deeper {name : String} {patterns names : List String} (down : name ≠ "..")
      (later : ComponentsMatch ("**" :: patterns) names) :
    ComponentsMatch ("**" :: patterns) (name :: names)

/-- Whether a pattern with some components can take files. -/
def takesFiles (directoriesOnly : Bool) (patterns : List String) : Bool :=
  !directoriesOnly && patterns.getLast? != some "**"

section Components

variable {pattern : String} {patterns names : List String}

theorem componentsMatch_nil_iff : ComponentsMatch [] names ↔ names = [] := by
  constructor
  · intro taken
    cases taken
    rfl
  · rintro rfl
    exact .nil

theorem componentsMatch_cons_iff (single : pattern ≠ "**") :
    ComponentsMatch (pattern :: patterns) names ↔
      ∃ name rest, names = name :: rest ∧ wildcardMatches pattern name = true ∧
        (name = ".." → pattern = "..") ∧ ComponentsMatch patterns rest := by
  constructor
  · intro taken
    cases taken with
    | cons _ accepted points later => exact ⟨_, _, rfl, accepted, points, later⟩
    | stars | deeper => exact absurd rfl single
  · rintro ⟨name, rest, rfl, accepted, points, later⟩
    exact .cons single accepted points later

theorem componentsMatch_stars_iff :
    ComponentsMatch ("**" :: patterns) names ↔
      ∃ inner rest, names = inner ++ rest ∧ ".." ∉ inner ∧ ComponentsMatch patterns rest := by
  constructor
  · intro taken
    induction names with
    | nil =>
        cases taken with
        | stars later => exact ⟨[], [], rfl, List.not_mem_nil, later⟩
    | cons name names inductionHypothesis =>
        cases taken with
        | cons single => exact absurd rfl single
        | stars later => exact ⟨[], name :: names, rfl, List.not_mem_nil, later⟩
        | deeper down later =>
            obtain ⟨inner, rest, rfl, noPoints, taken⟩ := inductionHypothesis later
            exact ⟨name :: inner, rest, rfl, by simpa [eq_comm] using ⟨down, noPoints⟩, taken⟩
  · rintro ⟨inner, rest, rfl, noPoints, later⟩
    induction inner with
    | nil => exact .stars later
    | cons name inner inductionHypothesis =>
        obtain ⟨down, noPointsBelow⟩ : name ≠ ".." ∧ ".." ∉ inner := by
          simpa [eq_comm] using noPoints
        exact .deeper down (inductionHypothesis noPointsBelow)

/-- Components that take no name are double stars. -/
theorem takesFiles_eq_false_of_nil {directoriesOnly : Bool} (taken : ComponentsMatch patterns [])
    (more : patterns ≠ []) : takesFiles directoriesOnly patterns = false := by
  have stars : patterns.getLast? = some "**" := by
    induction patterns with
    | nil => exact absurd rfl more
    | cons pattern patterns inductionHypothesis =>
        cases taken with
        | stars later =>
            cases patterns with
            | nil => rfl
            | cons next patterns =>
                rw [List.getLast?_cons_cons]
                exact inductionHypothesis later (List.cons_ne_nil _ _)
  simp [takesFiles, stars]

theorem takesFiles_cons_cons (directoriesOnly : Bool) (first second : String) :
    takesFiles directoriesOnly (first :: second :: patterns) =
      takesFiles directoriesOnly (second :: patterns) := by
  simp [takesFiles, List.getLast?_cons_cons]

end Components

/-! ## Steps -/

/-- A component is a double star, or it takes single names, by itself or with wildcards. -/
theorem GlobStep.cases_of_ofName {pattern : String} {step : GlobStep}
    (read : GlobStep.ofName pattern = .ok step) :
    (pattern = "**" ∧ step = .anyDepth) ∨
      (pattern ≠ "**" ∧ hasWildcard pattern = true ∧ step = .matching pattern) ∨
      (pattern ≠ "**" ∧ hasWildcard pattern = false ∧ step = .named pattern) := by
  unfold GlobStep.ofName at read
  split at read
  · rename_i same
    cases read
    exact .inl ⟨same, rfl⟩
  · rename_i single
    split at read
    · cases read
    · split at read
      · rename_i wild
        cases read
        exact .inr (.inl ⟨single, wild, rfl⟩)
      · rename_i plain
        cases read
        exact .inr (.inr ⟨single, by simpa using plain, rfl⟩)

/-! ## Where steps lead in any tree -/

section Steps

variable {files : FileSystem} {directoriesOnly : Bool} {start path : FilePath}
  (proper : files.top.IsProper)

include proper

theorem isProper_of_find? {entry : Entry} (found : files.find? start = some entry) :
    entry.IsProper := by
  unfold FileSystem.find? at found
  split at found
  · cases found
  · exact proper.of_descendant? found

theorem noPoints_of_mem_entriesAt {child : String × Entry}
    (listed : child ∈ files.entriesAt start) : child.1 ≠ ".." := by
  unfold FileSystem.entriesAt at listed
  split at listed
  · rename_i entry found
    cases entry with
    | file content => cases listed
    | directory entries =>
        have valid := (isProper_of_find? proper found).areEntries
        exact (valid.names child.1 (List.mem_map_of_mem listed)).noPoints
  · cases listed

theorem exists_names_of_mem_directoriesAt (listed : path ∈ files.directoriesAt start) :
    ∃ names, path = start.below names ∧ ".." ∉ names := by
  unfold FileSystem.directoriesAt at listed
  split at listed
  · rename_i entry found
    obtain ⟨names, member, rfl⟩ := List.mem_map.mp listed
    have valid := isProper_of_find? proper found
    obtain ⟨entries, foundBelow⟩ := valid.mem_directories_iff.mp member
    exact ⟨names, rfl, fun points => (valid.isFileName foundBelow _ points).noPoints rfl⟩
  · cases listed

/-- The paths that steps lead to are told by names that their components take. -/
theorem exists_names_of_mem_selectFrom {patterns : List String} {steps : List GlobStep}
    (made : patterns.mapM GlobStep.ofName = .ok steps)
    (selected : path ∈ selectFrom files directoriesOnly steps start) :
    ∃ names, path = start.below names ∧ ComponentsMatch patterns names := by
  induction patterns generalizing steps start with
  | nil =>
      cases made
      obtain rfl := List.mem_singleton.mp selected
      exact ⟨[], by simp, .nil⟩
  | cons pattern patterns inductionHypothesis =>
      obtain ⟨step, rest, read, later, rfl⟩ := mapM_cons_eq_ok_iff.mp made
      obtain ⟨rfl, rfl⟩ | ⟨single, -, rfl⟩ | ⟨single, plain, rfl⟩ := GlobStep.cases_of_ofName read
      case inl =>
        rw [selectFrom, List.mem_eraseDups, List.mem_flatMap] at selected
        obtain ⟨middle, listed, selectedBelow⟩ := selected
        obtain ⟨inner, rfl, noPoints⟩ := exists_names_of_mem_directoriesAt proper listed
        obtain ⟨names, rfl, taken⟩ := inductionHypothesis later selectedBelow
        exact ⟨inner ++ names, FilePath.below_below start inner names,
          componentsMatch_stars_iff.mpr ⟨inner, names, rfl, noPoints, taken⟩⟩
      case inr.inl =>
        rw [selectFrom, List.mem_flatMap] at selected
        obtain ⟨child, wanted, selectedBelow⟩ := selected
        obtain ⟨listed, accepted⟩ := List.mem_filter.mp wanted
        obtain ⟨names, rfl, taken⟩ := inductionHypothesis later selectedBelow
        refine ⟨child.1 :: names, FilePath.below_below start [child.1] names, ?_⟩
        exact .cons single (Bool.and_eq_true_iff.mp accepted).1
          (fun points => absurd points (noPoints_of_mem_entriesAt proper listed)) taken
      case inr.inr =>
        have selectedBelow :
            path ∈ selectFrom files directoriesOnly rest (start.child pattern) := by
          rw [selectFrom] at selected
          split at selected
          · rename_i last
            obtain rfl : rest = [] := by
              simpa using (Bool.and_eq_true_iff.mp last).1
            split at selected
            · exact selected
            · cases selected
          · split at selected
            · exact selected
            · cases selected
        obtain ⟨names, rfl, taken⟩ := inductionHypothesis later selectedBelow
        refine ⟨pattern :: names, FilePath.below_below start [pattern] names, ?_⟩
        exact .cons single ((wildcardMatches_iff_eq plain).mpr rfl) id taken

end Steps

/-! ## Where steps lead below a root -/

/-- What can be seen of a tree: what is above something is a directory, and names are ones that
files can have. -/
structure TreeView.IsTree (view : TreeView) : Prop where
  above : ∀ names name, (view (names ++ [name])).isSome = true → view names = some none
  names : ∀ names, (view names).isSome = true → ∀ name ∈ names, IsFileName name

theorem OpensTree.isTree {files : FileSystem} {root : FilePath} {place : List String}
    (tree : OpensTree files root place) : (files.viewFrom place).IsTree where
  above := by
    intro names name seen
    rw [FileSystem.isSome_viewFrom, Option.isSome_iff_exists] at seen
    obtain ⟨entry, found⟩ := seen
    rw [← List.append_assoc] at found
    obtain ⟨entries, foundAbove, -⟩ := FileSystem.exists_directory_of_at?_append found
    exact FileSystem.viewFrom_eq_directory_iff.mpr ⟨entries, foundAbove⟩
  names := by
    intro names seen
    rw [FileSystem.isSome_viewFrom, Option.isSome_iff_exists] at seen
    obtain ⟨entry, found⟩ := seen
    exact tree.isFileName found

/-- What components take below a directory: what is there under names that they take. -/
def TreeView.Reaches (view : TreeView) (directoriesOnly : Bool)
    (patterns names found : List String) : Prop :=
  ∃ rest, found = names ++ rest ∧ ComponentsMatch patterns rest ∧
    view.admits (takesFiles directoriesOnly patterns) found

namespace TreeView

variable {view : TreeView} {directoriesOnly : Bool} {names found : List String}

theorem admits_false_iff : view.admits false names ↔ view names = some none := by
  simp [admits]

theorem admits_of_directory {last : Bool} (directory : view names = some none) :
    view.admits last names := by
  unfold admits
  split
  · rw [directory]
    rfl
  · exact directory

namespace IsTree

variable (tree : view.IsTree)

include tree

theorem directory_of_append {rest : List String} (below : rest ≠ [])
    (seen : (view (names ++ rest)).isSome = true) : view names = some none := by
  induction rest using List.reverseRecOn with
  | nil => exact absurd rfl below
  | append_singleton before name inductionHypothesis =>
      rw [← List.append_assoc] at seen
      have directory := tree.above _ name seen
      cases before with
      | nil => rwa [List.append_nil] at directory
      | cons first before =>
          exact inductionHypothesis (List.cons_ne_nil _ _) (by rw [directory]; rfl)

theorem noPoints (seen : (view names).isSome = true) : ".." ∉ names := fun listed =>
  (tree.names names seen _ listed).noPoints rfl

/-- What is above a place that components lead to is a directory, unless it is the place itself. -/
theorem directory_of_takes {patterns rest : List String}
    (admitted : view.admits (takesFiles directoriesOnly patterns) (names ++ rest))
    (taken : ComponentsMatch patterns rest) (more : patterns ≠ []) : view names = some none := by
  cases rest with
  | nil =>
      rwa [takesFiles_eq_false_of_nil taken more, List.append_nil, admits_false_iff] at admitted
  | cons name rest =>
      exact tree.directory_of_append (List.cons_ne_nil _ _) (isSome_of_admits admitted)

section Single

variable {pattern : String} {step : GlobStep} (read : GlobStep.ofName pattern = .ok step)
  (single : pattern ≠ "**")

include read single

/-- A component that takes single names leads one name further. -/
theorem leads_single_iff {rest : List GlobStep} :
    view.Leads directoriesOnly (step :: rest) names found ↔
      ∃ name, wildcardMatches pattern name = true ∧ name ≠ ".." ∧
        view.admits (rest.isEmpty && !directoriesOnly) (names ++ [name]) ∧
        view.Leads directoriesOnly rest (names ++ [name]) found := by
  have different : ∀ {last : Bool} {name : String}, view.admits last (names ++ [name]) →
      name ≠ ".." := by
    rintro last name admitted rfl
    exact tree.noPoints (isSome_of_admits admitted) (by simp)
  obtain ⟨rfl, -⟩ | ⟨-, -, rfl⟩ | ⟨-, plain, rfl⟩ := GlobStep.cases_of_ofName read
  case inl => exact absurd rfl single
  case inr.inl =>
    constructor
    · rintro ⟨name, accepted, admitted, leads⟩
      exact ⟨name, accepted, different admitted, admitted, leads⟩
    · rintro ⟨name, accepted, -, admitted, leads⟩
      exact ⟨name, accepted, admitted, leads⟩
  case inr.inr =>
    constructor
    · rintro ⟨admitted, leads⟩
      exact ⟨pattern, (wildcardMatches_iff_eq plain).mpr rfl, different admitted, admitted, leads⟩
    · rintro ⟨name, accepted, -, admitted, leads⟩
      obtain rfl := (wildcardMatches_iff_eq plain).mp accepted
      exact ⟨admitted, leads⟩

/-- The last component, if it takes single names, takes whatever there is. -/
theorem leads_last_iff : view.Leads directoriesOnly [step] names found ↔
    view.Reaches directoriesOnly [pattern] names found := by
  have last : takesFiles directoriesOnly [pattern] = !directoriesOnly := by
    simp [takesFiles, single]
  rw [tree.leads_single_iff read single, Reaches]
  simp only [componentsMatch_cons_iff single, componentsMatch_nil_iff, last]
  constructor
  · rintro ⟨name, accepted, different, admitted, rfl⟩
    exact ⟨[name], rfl, ⟨name, [], rfl, accepted, (absurd · different), rfl⟩, admitted⟩
  · rintro ⟨_, rfl, ⟨name, _, rfl, accepted, -, rfl⟩, admitted⟩
    have different : name ≠ ".." := by
      rintro rfl
      exact tree.noPoints (isSome_of_admits admitted) (by simp)
    exact ⟨name, accepted, different, admitted, rfl⟩

/-- Any other component that takes single names takes directories, and the next one goes on from
there. -/
theorem leads_next_iff {next : String} {patterns : List String} {rest : List GlobStep}
    (more : rest ≠ []) (later : ∀ name, view (names ++ [name]) = some none →
      (view.Leads directoriesOnly rest (names ++ [name]) found ↔
        view.Reaches directoriesOnly (next :: patterns) (names ++ [name]) found)) :
    view.Leads directoriesOnly (step :: rest) names found ↔
      view.Reaches directoriesOnly (pattern :: next :: patterns) names found := by
  have goesOn : rest.isEmpty = false := by simpa using more
  rw [tree.leads_single_iff read single, Reaches, takesFiles_cons_cons]
  simp only [goesOn, Bool.false_and, admits_false_iff]
  constructor
  · rintro ⟨name, accepted, different, directory, leads⟩
    obtain ⟨tail, rfl, taken, admitted⟩ := (later name directory).mp leads
    exact ⟨name :: tail, by simp, .cons single accepted (absurd · different) taken, admitted⟩
  · rintro ⟨_, rfl, takenAll, admitted⟩
    obtain ⟨name, tail, rfl, accepted, -, taken⟩ := (componentsMatch_cons_iff single).mp takenAll
    have split : names ++ name :: tail = names ++ [name] ++ tail := by simp
    have directory : view (names ++ [name]) = some none :=
      tree.directory_of_takes (split ▸ admitted) taken (List.cons_ne_nil _ _)
    have different : name ≠ ".." := by
      rintro rfl
      exact tree.noPoints (by rw [directory]; rfl) (by simp)
    exact ⟨name, accepted, different, directory,
      (later name directory).mpr ⟨tail, split, taken, admitted⟩⟩

end Single

/-- A double star takes all directories below, and the next component goes on from there. -/
theorem leads_stars_iff {patterns : List String} {rest : List GlobStep}
    (later : ∀ inner, view (names ++ inner) = some none →
      (view.Leads directoriesOnly rest (names ++ inner) found ↔
        view.Reaches directoriesOnly patterns (names ++ inner) found)) :
    view.Leads directoriesOnly (.anyDepth :: rest) names found ↔
      view.Reaches directoriesOnly ("**" :: patterns) names found := by
  constructor
  · rintro ⟨inner, directory, leads⟩
    obtain ⟨tail, rfl, taken, admitted⟩ := (later inner directory).mp leads
    have noPoints : ".." ∉ inner := fun listed =>
      tree.noPoints (by rw [directory]; rfl) (List.mem_append_right names listed)
    refine ⟨inner ++ tail, List.append_assoc names inner tail,
      componentsMatch_stars_iff.mpr ⟨inner, tail, rfl, noPoints, taken⟩, ?_⟩
    cases patterns with
    | nil =>
        obtain rfl := componentsMatch_nil_iff.mp taken
        rw [List.append_nil]
        exact admits_of_directory directory
    | cons next patterns => rwa [takesFiles_cons_cons]
  · rintro ⟨whole, rfl, takenAll, admitted⟩
    obtain ⟨inner, tail, rfl, -, taken⟩ := componentsMatch_stars_iff.mp takenAll
    rw [← List.append_assoc] at admitted later ⊢
    suffices both : view (names ++ inner) = some none ∧
        view.admits (takesFiles directoriesOnly patterns) (names ++ inner ++ tail) from
      ⟨inner, both.1, (later inner both.1).mpr ⟨tail, rfl, taken, both.2⟩⟩
    cases patterns with
    | nil =>
        -- with nothing behind the star, what it takes is a directory itself
        obtain rfl := componentsMatch_nil_iff.mp taken
        rw [List.append_nil] at admitted ⊢
        have directory : view (names ++ inner) = some none := by
          simpa [takesFiles, admits_false_iff] using admitted
        exact ⟨directory, admits_of_directory directory⟩
    | cons next patterns =>
        rw [takesFiles_cons_cons] at admitted
        exact ⟨tree.directory_of_takes admitted taken (List.cons_ne_nil _ _), admitted⟩

/-- Steps lead to what their components take. -/
theorem leads_iff {patterns : List String} {steps : List GlobStep}
    (made : patterns.mapM GlobStep.ofName = .ok steps) (start : view names = some none) :
    view.Leads directoriesOnly steps names found ↔
      view.Reaches directoriesOnly patterns names found := by
  induction patterns generalizing steps names with
  | nil =>
      cases made
      simp only [Reaches, componentsMatch_nil_iff]
      constructor
      · intro same
        exact ⟨[], same.trans (List.append_nil names).symm, rfl, same ▸ admits_of_directory start⟩
      · rintro ⟨rest, rfl, rfl, -⟩
        exact List.append_nil names
  | cons pattern patterns inductionHypothesis =>
      obtain ⟨step, rest, read, later, rfl⟩ := mapM_cons_eq_ok_iff.mp made
      by_cases stars : pattern = "**"
      · subst stars
        cases read
        exact tree.leads_stars_iff fun _ directory => inductionHypothesis later directory
      · cases patterns with
        | nil =>
            cases later
            exact tree.leads_last_iff read stars
        | cons next patterns =>
            have more : rest ≠ [] := by
              obtain ⟨_, _, -, -, rfl⟩ := mapM_cons_eq_ok_iff.mp later
              exact List.cons_ne_nil _ _
            exact tree.leads_next_iff read stars more fun _ directory =>
              inductionHypothesis later directory

end IsTree

end TreeView

/-! ## Patterns -/

/-- A text that is a pattern: relative, with components, and with double stars as whole components
only. -/
structure IsPattern (text : String) : Prop where
  relative : (FilePath.ofText text).slashes = 0
  nonempty : (FilePath.ofText text).parts ≠ []
  stars : ∀ part ∈ (FilePath.ofText text).parts, part = "**" ∨ occurs ['*', '*'] part.toList = false

theorem GlobStep.exists_ofName_iff {name : String} :
    (∃ step, GlobStep.ofName name = .ok step) ↔
      name = "**" ∨ occurs ['*', '*'] name.toList = false := by
  unfold GlobStep.ofName
  split
  · rename_i same
    simp [same]
  · rename_i different
    split
    · rename_i twice
      simp [different, twice]
    · rename_i once
      split <;> simp [different, once]

theorem exists_ofText_iff {text : String} :
    (∃ glob, Glob.ofText text = .ok glob) ↔ IsPattern text := by
  have steps : (∃ steps, (FilePath.ofText text).parts.mapM GlobStep.ofName = .ok steps) ↔
      ∀ part ∈ (FilePath.ofText text).parts,
        part = "**" ∨ occurs ['*', '*'] part.toList = false := by
    simp only [exists_mapM_eq_ok_iff, GlobStep.exists_ofName_iff]
  constructor
  · rintro ⟨glob, read⟩
    obtain ⟨relative, nonempty, made, -⟩ := Glob.ofText_eq_ok_iff.mp read
    exact ⟨relative, nonempty, steps.mp ⟨_, made⟩⟩
  · intro pattern
    obtain ⟨made, madeEq⟩ := steps.mpr pattern.stars
    exact ⟨⟨made, text.toList.getLast? == some '/'⟩,
      Glob.ofText_eq_ok_iff.mpr ⟨pattern.relative, pattern.nonempty, madeEq, rfl⟩⟩

end DesignLint
