import DesignLint.Proofs.Schema.Agreement
import Mathlib.Data.List.Lex
import Mathlib.Data.List.Pairwise
import Mathlib.Data.String.Basic

/-!
# The order of listed violations

All violations of a schema are listed by their paths. The steps of two paths are compared as
texts, so positions in an array are compared digit by digit: number ten comes before number two.
The list is in the order of the document exactly if this makes no difference for the positions
at which its violations stand.
-/

namespace DesignLint

/-! ## The order of places in a document -/

/-- The order in which two parts of a document stand: a part comes before what is inside it, keys
come in the order of their characters, and positions in an array in the order of their numbers.
What has keys has no positions. -/
inductive DocumentPath.ComesBefore : DocumentPath → DocumentPath → Prop
  | inside (path : DocumentPath) (step : PathStep) (rest : DocumentPath) :
      ComesBefore path (path ++ step :: rest)
  | keys (above : DocumentPath) {a b : String} (less : a < b) (restA restB : DocumentPath) :
      ComesBefore (above ++ .key a :: restA) (above ++ .key b :: restB)
  | positions (above : DocumentPath) {i j : Nat} (less : i < j) (restA restB : DocumentPath) :
      ComesBefore (above ++ .index i :: restA) (above ++ .index j :: restB)

/-- The steps of a path without marks. -/
def DocumentPath.texts (path : DocumentPath) : List String := path.map PathStep.text

namespace SchemaError

/-- Violations in the order of the places at which they stand. -/
def InPathOrder (errors : List SchemaError) : Prop :=
  errors.Pairwise fun a b => ¬b.path.ComesBefore a.path

/-- Violations that part in an array only at positions whose digits compare as the numbers. -/
def PartByDigits (errors : List SchemaError) : Prop :=
  ∀ a ∈ errors, ∀ b ∈ errors, ∀ above i j restA restB,
    a.path = above ++ .index i :: restA → b.path = above ++ .index j :: restB → i < j →
      toString i < toString j

end SchemaError

/-! ## Paths as texts -/

namespace DocumentPath

variable {path other : DocumentPath}

theorem before_keys_iff {names others : List String} :
    DocumentPath.before (names.map .key) (others.map .key) = true ↔ names < others := by
  induction names generalizing others with
  | nil => cases others <;> simp [DocumentPath.before]
  | cons name names inductionHypothesis =>
      cases others with
      | nil => simp [DocumentPath.before]
      | cons otherName others =>
          rw [List.map_cons, List.map_cons, DocumentPath.before, List.cons_lt_cons_iff]
          by_cases same : name = otherName
          · simp [same, inductionHypothesis]
          · simp [same, PathStep.before]

theorem texts_append_lt (above : DocumentPath) (less : path.texts < other.texts) :
    texts (above ++ path) < texts (above ++ other) := by
  simp only [texts, List.map_append]
  exact List.Lex.append_left (· < ·) less _

theorem texts_cons_lt (a b : PathStep) (path other : DocumentPath) (less : a.text < b.text) :
    texts (a :: path) < texts (b :: other) :=
  List.cons_lt_cons_iff.mpr (.inl less)

/-- What comes before something else has the smaller texts, if the digits of positions compare as
the numbers where the two part. -/
theorem ComesBefore.texts_lt (earlier : path.ComesBefore other)
    (digits : ∀ above i j restA restB, path = above ++ .index i :: restA →
      other = above ++ .index j :: restB → i < j → toString i < toString j) :
    path.texts < other.texts := by
  cases earlier with
  | inside _ step rest =>
      have longer : texts [] < texts (step :: rest) := List.nil_lt_cons _ _
      simpa only [List.append_nil] using texts_append_lt path longer
  | @keys above a b less restA restB =>
      exact texts_append_lt above (texts_cons_lt (.key a) (.key b) restA restB less)
  | @positions above i j less restA restB =>
      exact texts_append_lt above (texts_cons_lt (.index i) (.index j) restA restB
        (digits above i j restA restB rfl rfl less))

/-- Two paths that part in an array compare by the digits of the positions. -/
theorem toString_le_of_texts_le {above restA restB : DocumentPath} {i j : Nat}
    (ordered : texts (above ++ .index i :: restA) ≤ texts (above ++ .index j :: restB)) :
    toString i ≤ toString j := by
  rw [← not_lt] at ordered ⊢
  exact fun less =>
    ordered (texts_append_lt above (texts_cons_lt (.index j) (.index i) restB restA less))

end DocumentPath

theorem toString_injective {i j : Nat} (same : toString i = toString j) : i = j := by
  have digits : Nat.toDigits 10 i = Nat.toDigits 10 j := by
    simpa only [Nat.toString_eq_ofList_toDigits, String.ofList_inj] using same
  rw [← Nat.ofDigitChars_ten_toDigits (n := i), digits, Nat.ofDigitChars_ten_toDigits]

/-! ## The listing -/

namespace SchemaError

variable {errors : List SchemaError}

/-- Two different members of a list stand in one of the two orders. -/
theorem pairwise_or {R : SchemaError → SchemaError → Prop} (pairwise : errors.Pairwise R)
    {a b : SchemaError} (aListed : a ∈ errors) (bListed : b ∈ errors) (apart : a ≠ b) :
    R a b ∨ R b a :=
  have : Std.Symm fun a b => R a b ∨ R b a := ⟨fun _ _ => Or.symm⟩
  (pairwise.imp fun related => .inl related : errors.Pairwise fun a b => R a b ∨ R b a).forall
    aListed bListed apart

theorem inPathOrder_iff_partByDigits
    (sorted : errors.Pairwise fun a b => a.path.texts ≤ b.path.texts) :
    InPathOrder errors ↔ PartByDigits errors := by
  constructor
  · intro inOrder a aListed b bListed above i j restA restB aPath bPath less
    have earlier : a.path.ComesBefore b.path := by
      rw [aPath, bPath]
      exact .positions above less restA restB
    have apart : a ≠ b := by
      rintro rfl
      simp [aPath, less.ne] at bPath
    -- the later one of the two is not listed first, so the texts are in order
    have ordered : a.path.texts ≤ b.path.texts := by
      rcases pairwise_or (sorted.and inOrder) aListed bListed apart with listed | listed
      · exact listed.1
      · exact absurd earlier listed.2
    rw [aPath, bPath] at ordered
    exact lt_of_le_of_ne (DocumentPath.toString_le_of_texts_le ordered)
      fun same => less.ne (toString_injective same)
  · intro byDigits
    refine sorted.imp_of_mem fun {a b} aListed bListed ordered earlier => ?_
    refine absurd (earlier.texts_lt ?_) (not_lt.mpr ordered)
    exact byDigits b bListed a aListed

theorem partByDigits_of_lt_ten
    (small : ∀ error ∈ errors, ∀ number, .index number ∈ error.path → number < 10) :
    PartByDigits errors := by
  intro a aListed b bListed above i j restA restB aPath bPath less
  have bound : j < 10 := small b bListed j (by simp [bPath])
  have digits : ∀ j < 10, ∀ i < j, toString i < toString j := by decide
  exact digits j bound i less

end SchemaError

namespace BundledSchema

variable (bundled : BundledSchema) (document : Json)

theorem listedBefore_iff {a b : SchemaError} :
    listedBefore a b = true ↔ a.path.texts ≤ b.path.texts := by
  have texts (path : DocumentPath) : (path.map fun step => PathStep.key step.text) =
      path.texts.map .key := by
    simp [DocumentPath.texts, Function.comp_def]
  rw [listedBefore, texts, texts, Bool.not_eq_true', ← Bool.not_eq_true,
    DocumentPath.before_keys_iff, not_lt]

theorem pairwise_errors :
    (bundled.errors document).Pairwise fun a b => a.path.texts ≤ b.path.texts := by
  unfold errors
  split
  · exact List.pairwise_singleton _ _
  · refine (List.pairwise_mergeSort ?_ ?_ _).imp listedBefore_iff.mp
    · intro a b c
      simp only [listedBefore_iff]
      exact le_trans
    · intro a b
      rw [Bool.or_eq_true, listedBefore_iff, listedBefore_iff]
      exact le_total _ _

/-- The violations by a document are listed in the order of their paths as texts. This is the
order of the document exactly if no two of them part at positions of an array whose digits
compare the other way; it is so while no array has more than ten items. -/
theorem errors_inOrder_iff :
    (¬bundled.IsOfOtherVersion document →
      (bundled.errors document).Perm (bundled.schema.errors document)) ∧
    ((bundled.errors document).Pairwise fun a b => a.path.texts ≤ b.path.texts) ∧
    (SchemaError.InPathOrder (bundled.errors document) ↔
      SchemaError.PartByDigits (bundled.errors document)) ∧
    ((∀ error ∈ bundled.errors document, ∀ number, .index number ∈ error.path → number < 10) →
      SchemaError.InPathOrder (bundled.errors document)) := by
  have sorted := bundled.pairwise_errors document
  have inOrder := SchemaError.inPathOrder_iff_partByDigits sorted
  refine ⟨fun usual => ?_, sorted, inOrder, fun small =>
    inOrder.mpr (SchemaError.partByDigits_of_lt_ten small)⟩
  rw [errors, versionError?_eq_none usual]
  exact List.mergeSort_perm _ _

/-- The schema for the results of scans. -/
def runResults : BundledSchema :=
  ⟨RunResultSchema.name, some RunResultSchema.version, RunResultSchema.schema⟩

/-- A result with eleven findings that are none. -/
def elevenFindings : Json := .object [
  ("schema_version", .string RunResultSchema.version),
  ("run", .object [("run_id", .string "run"), ("created_at", .string "then"),
    ("tool_version", .string "1"), ("engine_version", .string "1"), ("config", .object [])]),
  ("summary", .object [("files_scanned", .int 0), ("counts", .object [("findings_total", .int 11),
    ("by_severity", .object []), ("by_type", .object []), ("by_rule", .object [])])]),
  ("findings", .array (List.replicate 11 .null))]

/-- The last of eleven findings is listed before the third. -/
theorem not_inPathOrder_elevenFindings :
    ¬SchemaError.InPathOrder (runResults.errors elevenFindings) := by
  have usual : ¬runResults.IsOfOtherVersion elevenFindings := by
    rintro ⟨version, entries, asked, same, unlike⟩
    cases asked
    cases same
    exact unlike rfl
  have paths : (runResults.schema.errors elevenFindings).map (·.path) =
      (List.range 11).map fun number => [.key "findings", .index number] := by
    decide +kernel
  have listed (number : Nat) (small : number < 11) :
      ∃ error ∈ runResults.errors elevenFindings,
        error.path = [.key "findings", .index number] := by
    have member : [PathStep.key "findings", .index number] ∈
        (runResults.schema.errors elevenFindings).map (·.path) := by
      rw [paths]
      exact List.mem_map.mpr ⟨number, List.mem_range.mpr small, rfl⟩
    obtain ⟨error, found, path⟩ := List.mem_map.mp member
    exact ⟨error, (mem_errors_iff usual).mpr found, path⟩
  rw [SchemaError.inPathOrder_iff_partByDigits (pairwise_errors _ _)]
  intro byDigits
  obtain ⟨third, thirdListed, thirdPath⟩ := listed 2 (by decide)
  obtain ⟨last, lastListed, lastPath⟩ := listed 10 (by decide)
  have reversed := byDigits third thirdListed last lastListed [.key "findings"] 2 10 [] []
    thirdPath lastPath (by decide)
  exact absurd reversed (by decide)

end BundledSchema

end DesignLint
