import DesignLint.Proofs.Files.Selection
import DesignLint.Scan.Discovery
import Mathlib.Data.List.Lex
import Mathlib.Data.List.Sort
import Mathlib.Data.String.Basic

/-!
# What a scan finds below a root

The files of a scan are the ones that a pattern takes, that nothing excludes, and that are small
enough, in increasing order and each one once. All of this is decided by what is seen below the
root; the root itself only stands before the names.
-/

namespace DesignLint

/-! ## The order of places -/

theorem partsBefore_iff {place other : List String} :
    partsBefore place other = true ↔ place < other := by
  induction place generalizing other with
  | nil => cases other <;> simp [partsBefore]
  | cons name names inductionHypothesis =>
      cases other with
      | nil => simp [partsBefore]
      | cons otherName otherNames =>
          rw [partsBefore, List.cons_lt_cons_iff]
          by_cases same : name = otherName
          · simp [same, inductionHypothesis]
          · simp [same]

theorem append_lt_append_left_iff {root names others : List String} :
    root ++ names < root ++ others ↔ names < others := by
  induction root with
  | nil => rfl
  | cons name root inductionHypothesis =>
      rw [List.cons_append, List.cons_append, List.cons_lt_cons_iff, inductionHypothesis]
      simp

theorem nodup_eraseDups (places : List (List String)) : places.eraseDups.Nodup := by
  induction measure : places.length using Nat.strong_induction_on generalizing places with
  | _ length inductionHypothesis =>
      cases places with
      | nil => exact List.nodup_nil
      | cons place places =>
          rw [List.eraseDups_cons, List.nodup_cons]
          refine ⟨by simp, inductionHypothesis _ ?_ _ rfl⟩
          rw [← measure, List.length_cons]
          exact Nat.lt_succ_of_le (List.length_filter_le _ _)

theorem mem_sortedPlaces {places : List (List String)} {place : List String} :
    place ∈ sortedPlaces places ↔ place ∈ places := by
  rw [sortedPlaces, List.mem_mergeSort, List.mem_eraseDups]

theorem pairwise_sortedPlaces (places : List (List String)) :
    (sortedPlaces places).Pairwise (· < ·) := by
  have ordered : ∀ a b : List String, (!partsBefore b a) = true ↔ a ≤ b := by
    intro a b
    rw [Bool.not_eq_true', ← Bool.not_eq_true, partsBefore_iff, not_lt]
  have sorted : (sortedPlaces places).Pairwise fun a b => (!partsBefore b a) = true := by
    apply List.pairwise_mergeSort
    · intro a b c
      rw [ordered, ordered, ordered]
      exact le_trans
    · intro a b
      rw [Bool.or_eq_true, ordered, ordered]
      exact le_total a b
  have distinct : (sortedPlaces places).Nodup :=
    (List.mergeSort_perm _ _).nodup_iff.mpr (nodup_eraseDups places)
  refine List.Pairwise.imp₂ ?_ sorted distinct
  intro a b notAfter different
  exact lt_of_le_of_ne ((ordered a b).mp notAfter) different

/-! ## The files that are found -/

/-- Where something is seen, steps lead to something that is seen. -/
theorem TreeView.Leads.isSome {view : TreeView} {directoriesOnly : Bool} {steps : List GlobStep}
    {names found : List String} (start : (view names).isSome = true)
    (leads : view.Leads directoriesOnly steps names found) : (view found).isSome = true := by
  induction steps generalizing names with
  | nil =>
      obtain rfl : found = names := leads
      exact start
  | cons step rest inductionHypothesis =>
      cases step with
      | named name =>
          obtain ⟨admits, later⟩ := leads
          exact inductionHypothesis (isSome_of_admits admits) later
      | matching pattern =>
          obtain ⟨name, -, admits, later⟩ := leads
          exact inductionHypothesis (isSome_of_admits admits) later
      | anyDepth =>
          obtain ⟨inner, directory, later⟩ := leads
          exact inductionHypothesis (by simp [directory]) later

/-- The patterns that count: the usual ones, where there are no others. -/
def patternsFor (included : List String) : List String :=
  if included.isEmpty then usualPatterns else included

/-- A small file that is not excluded. -/
def Exclusion.Takes (exclusion : Exclusion) (view : TreeView) (names : List String) : Prop :=
  exclusion.covers names = false ∧
    ∃ content, view names = some (some content) ∧ content.size ≤ sizeLimit

/-- A file that a scan takes, by its names below the root. -/
def TreeView.Finds (view : TreeView) (included : List Glob) (exclusion : Exclusion)
    (names : List String) : Prop :=
  exclusion.Takes view names ∧
    ∃ glob ∈ included, view.Leads glob.directoriesOnly glob.steps [] names

namespace OpensTree

variable {files : FileSystem} {root : FilePath} {place names : List String}
  (tree : OpensTree files root place)

include tree

theorem resolve_eq (noPoints : ".." ∉ names) :
    (root.below names).resolve files.working = place ++ names := by
  rw [FilePath.resolve_below, ← FileSystem.eq_resolve_of_locate tree.located,
    FilePath.foldl_step_eq noPoints]

theorem place?_candidate_eq_some_iff {exclusion : Exclusion} {found : List String}
    (noPoints : ".." ∉ names) :
    (exclusion.candidate files root (root.below names)).place? = some found ↔
      exclusion.Takes (files.viewFrom place) names ∧ found = place ++ names := by
  have below : (root.below names).parts.drop root.parts.length = names := List.drop_left
  unfold Exclusion.candidate Exclusion.Takes
  dsimp only
  rw [below, tree.file?_eq noPoints, tree.resolve_eq noPoints]
  cases excluded : exclusion.covers names with
  | true => simp [Candidate.place?]
  | false =>
      rcases files.viewFrom place names with _ | _ | content
      · simp [Candidate.place?]
      · simp [Candidate.place?]
      · by_cases large : sizeLimit < content.size
        · simp [large, Candidate.place?]
        · simp [large, Nat.le_of_not_lt large, Candidate.place?, eq_comm]

theorem mem_discoverBelow_iff {included : List Glob} {exclusion : Exclusion} {found : List String}
    (below : ∀ glob ∈ included, StayBelow glob.steps) :
    found ∈ (discoverBelow files root included exclusion).files ↔
      ∃ names, found = place ++ names ∧ (files.viewFrom place).Finds included exclusion names := by
  have stays : ∀ (glob : Glob) (names : List String),
      (files.viewFrom place).Leads glob.directoriesOnly glob.steps [] names → ".." ∉ names := by
    intro glob names leads
    have found := leads.isSome (by simp [tree.view_nil])
    rw [FileSystem.isSome_viewFrom, Option.isSome_iff_exists] at found
    obtain ⟨entry, found⟩ := found
    exact tree.noPoints_of_at? found
  rw [discoverBelow]
  simp only [mem_sortedPlaces, List.mem_filterMap, List.mem_map, List.mem_flatMap]
  constructor
  · rintro ⟨_, ⟨path, ⟨glob, listed, selected⟩, rfl⟩, taken⟩
    obtain ⟨names, rfl, leads⟩ := (tree.mem_select_iff (below glob listed)).mp selected
    obtain ⟨takes, rfl⟩ := (tree.place?_candidate_eq_some_iff (stays glob names leads)).mp taken
    exact ⟨names, rfl, takes, glob, listed, leads⟩
  · rintro ⟨names, rfl, takes, glob, listed, leads⟩
    refine ⟨_, ⟨root.below names, ⟨glob, listed, ?_⟩, rfl⟩, ?_⟩
    · exact (tree.mem_select_iff (below glob listed)).mpr ⟨names, rfl, leads⟩
    · exact (tree.place?_candidate_eq_some_iff (stays glob names leads)).mpr ⟨takes, rfl⟩

/-- The files of a scan stand below the root, in increasing order. -/
theorem exists_files_discoverBelow {included : List Glob} {exclusion : Exclusion}
    (below : ∀ glob ∈ included, StayBelow glob.steps) :
    ∃ listed : List (List String), listed.Pairwise (· < ·) ∧
      (∀ names, names ∈ listed ↔ (files.viewFrom place).Finds included exclusion names) ∧
      (discoverBelow files root included exclusion).files = listed.map (place ++ ·) := by
  have found (own : List String) := @mem_discoverBelow_iff files root place tree included exclusion
    own below
  obtain ⟨listed, places⟩ : ∃ listed : List (List String),
      (discoverBelow files root included exclusion).files = listed.map (place ++ ·) := by
    have back : ∀ own ∈ (discoverBelow files root included exclusion).files,
        ((place ++ ·) ∘ List.drop place.length) own = id own := by
      intro own member
      obtain ⟨names, rfl, -⟩ := (found own).mp member
      simp
    refine ⟨(discoverBelow files root included exclusion).files.map (List.drop place.length), ?_⟩
    rw [List.map_map, List.map_congr_left back, List.map_id]
  refine ⟨listed, ?_, ?_, places⟩
  · have sorted := pairwise_sortedPlaces
      (((included.flatMap fun glob => glob.select files root).map
        (exclusion.candidate files root)).filterMap Candidate.place?)
    change (discoverBelow files root included exclusion).files.Pairwise _ at sorted
    rw [places, List.pairwise_map] at sorted
    exact sorted.imp append_lt_append_left_iff.mp
  · intro names
    have own := found (place ++ names)
    rw [places, List.mem_map_of_injective (List.append_right_injective place)] at own
    rw [own]
    constructor
    · rintro ⟨others, equal, finds⟩
      rwa [List.append_cancel_left equal]
    · intro finds
      exact ⟨names, rfl, finds⟩

/-- The files of a scan, once it is known which ones are found. -/
theorem files_discoverBelow {included : List Glob} {exclusion : Exclusion}
    {listed : List (List String)} (below : ∀ glob ∈ included, StayBelow glob.steps)
    (sorted : listed.Pairwise (· < ·))
    (same : ∀ names, names ∈ listed ↔ (files.viewFrom place).Finds included exclusion names) :
    (discoverBelow files root included exclusion).files = listed.map (place ++ ·) := by
  obtain ⟨own, ownSorted, ownSame, places⟩ :=
    @exists_files_discoverBelow files root place tree included exclusion below
  have equal : listed = own := by
    apply List.Pairwise.eq_of_mem_iff sorted ownSorted
    intro names
    rw [same, ownSame]
  rw [equal]
  exact places

/-- A scan of a root looks up its patterns and takes what they find. -/
theorem discover_eq {included excluded : List String} :
    discover files root included excluded =
      ((patternsFor included).mapM (Glob.ofTextIn files root)).map fun globs =>
        discoverBelow files root globs (.ofTexts excluded) := by
  have noFile : files.file? root = none := by
    have none := tree.file?_eq List.not_mem_nil
    rw [tree.view_nil, FilePath.below_nil] at none
    exact none
  have asked : files.askingError? root = none := by
    rw [FileSystem.askingError?, tree.located]
  rw [discover, asked, noFile]
  rfl

end OpensTree

/-- An empty file. -/
def emptyContent : FileContent := .ofDocuments 0 (.ok "") none none

end DesignLint
