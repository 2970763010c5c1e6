import DesignLint.Proofs.Config.Fields
import DesignLint.Schema.Bundle

/-!
# Two ways to check a document

A check of a document against its schema either ends with the one violation that speaks for
all of them, or lists them all. Both find something wrong with the same documents, and the
violation that speaks is one of the list, as near to the root as any other. Only a document of
another version is told apart: there the list names the place of the version, and nothing else.
-/

namespace DesignLint

/-! ## The violation that speaks for all -/

namespace SchemaError

variable {errors : List SchemaError} {error best other : SchemaError}

/-- Of two violations, the one that speaks. -/
def preferred (best other : SchemaError) : SchemaError := if best.yields other then other else best

theorem leading_cons (error : SchemaError) (errors : List SchemaError) :
    leading (error :: errors) = some (errors.foldl preferred error) :=
  rfl

theorem length_preferred_le_left : (preferred best other).path.length ≤ best.path.length := by
  unfold preferred
  split
  · rename_i yields
    simp only [SchemaError.yields, Bool.or_eq_true, Bool.and_eq_true, decide_eq_true_eq,
      beq_iff_eq] at yields
    omega
  · exact le_rfl

theorem length_preferred_le_right : (preferred best other).path.length ≤ other.path.length := by
  unfold preferred
  split
  · exact le_rfl
  · rename_i stays
    simp only [SchemaError.yields, Bool.or_eq_true, decide_eq_true_eq, not_or] at stays
    omega

/-- The violation that is left is one of those that were compared, and none was nearer to the
root. -/
theorem foldl_preferred (errors : List SchemaError) (best : SchemaError) :
    errors.foldl preferred best ∈ best :: errors ∧
      ∀ other ∈ best :: errors,
        (errors.foldl preferred best).path.length ≤ other.path.length := by
  induction errors generalizing best with
  | nil => simp
  | cons next errors inductionHypothesis =>
      obtain ⟨listed, nearest⟩ := inductionHypothesis (preferred best next)
      have ahead := nearest _ List.mem_cons_self
      rw [List.foldl_cons]
      constructor
      · rcases List.mem_cons.mp listed with same | later
        · rw [same]
          unfold preferred
          split <;> simp
        · exact List.mem_cons_of_mem _ (List.mem_cons_of_mem _ later)
      · intro other compared
        rcases List.mem_cons.mp compared with rfl | behind
        · exact ahead.trans length_preferred_le_left
        · rcases List.mem_cons.mp behind with rfl | later
          · exact ahead.trans length_preferred_le_right
          · exact nearest other (List.mem_cons_of_mem _ later)

theorem mem_of_leading_eq_some (leads : leading errors = some error) : error ∈ errors := by
  cases errors with
  | nil => cases leads
  | cons first errors =>
      rw [leading_cons, Option.some.injEq] at leads
      exact leads ▸ (foldl_preferred errors first).1

theorem length_le_of_leading_eq_some (leads : leading errors = some error) :
    ∀ other ∈ errors, error.path.length ≤ other.path.length := by
  cases errors with
  | nil => cases leads
  | cons first errors =>
      rw [leading_cons, Option.some.injEq] at leads
      exact leads ▸ (foldl_preferred errors first).2

end SchemaError

/-! ## Versions -/

namespace Json

theorem same_string_iff {document : Json} {text : String} :
    document.same (.string text) = true ↔ document = .string text := by
  cases document <;> simp [same]

end Json

namespace BundledSchema

/-- An object that does not name the version of the schema, whether it names another one or
none. -/
def IsOfOtherVersion (bundled : BundledSchema) (document : Json) : Prop :=
  ∃ version entries, bundled.version = some version ∧ document = .object entries ∧
    entries.lookup "schema_version" ≠ some (.string version)

variable {bundled : BundledSchema} {document : Json}

theorem versionError?_of_other (other : bundled.IsOfOtherVersion document) :
    ∃ found version, bundled.versionError? document = some ⟨[], found, .wrongVersion version⟩ := by
  obtain ⟨version, entries, asked, rfl, unlike⟩ := other
  have differs : ¬((entries.lookup "schema_version").getD .null).same (.string version) = true := by
    rw [Json.same_string_iff]
    intro same
    cases found : entries.lookup "schema_version" with
    | none => simp [found] at same
    | some value =>
        rw [found, Option.getD_some] at same
        exact unlike (same ▸ found)
  refine ⟨(entries.lookup "schema_version").getD .null, version, ?_⟩
  simp only [versionError?, asked]
  rw [if_neg differs]

theorem versionError?_eq_none (usual : ¬bundled.IsOfOtherVersion document) :
    bundled.versionError? document = none := by
  unfold versionError?
  split
  · rename_i version entries asked
    by_cases named : entries.lookup "schema_version" = some (.string version)
    · rw [named]
      exact if_pos (Json.same_string_iff.mpr rfl)
    · exact absurd ⟨version, entries, asked, rfl, named⟩ usual
  · rfl

/-! ## Agreement -/

theorem mem_errors_iff (usual : ¬bundled.IsOfOtherVersion document) {error : SchemaError} :
    error ∈ bundled.errors document ↔ error ∈ bundled.schema.errors document := by
  rw [errors, versionError?_eq_none usual]
  exact (List.mergeSort_perm _ _).mem_iff

theorem firstError?_eq (usual : ¬bundled.IsOfOtherVersion document) :
    bundled.firstError? document = bundled.schema.firstError document := by
  rw [firstError?, versionError?_eq_none usual]

/-- What it means that the two ways to check a document agree. -/
structure AgreesOn (bundled : BundledSchema) (document : Json) : Prop where
  refused : (∃ error, bundled.firstError? document = some error) ↔ bundled.errors document ≠ []
  listed : ¬bundled.IsOfOtherVersion document → ∀ error,
    bundled.firstError? document = some error →
      error.line ∈ (bundled.errors document).map SchemaError.line ∧
      ∀ other ∈ bundled.errors document, error.path.length ≤ other.path.length
  version : bundled.IsOfOtherVersion document → ∃ error,
    bundled.firstError? document = some error ∧ DocumentPath.text error.path = "$" ∧
      (bundled.errors document).map SchemaError.line =
        ["$.schema_version: " ++ error.message]

theorem agreesOn_of_other (other : bundled.IsOfOtherVersion document) :
    bundled.AgreesOn document := by
  obtain ⟨found, version, wrong⟩ := versionError?_of_other other
  have first : bundled.firstError? document = some ⟨[], found, .wrongVersion version⟩ := by
    rw [firstError?, wrong]
  have all : bundled.errors document =
      [⟨[.key "schema_version"], found, .wrongVersion version⟩] := by
    rw [errors, wrong]
  refine ⟨?_, fun usual => absurd other usual, fun _ => ⟨_, first, rfl, ?_⟩⟩
  · simp [first, all]
  · rw [all]
    rfl

theorem agreesOn_of_usual (usual : ¬bundled.IsOfOtherVersion document) :
    bundled.AgreesOn document := by
  refine ⟨⟨?_, ?_⟩, fun _ error first => ?_, fun other => absurd other usual⟩
  · rintro ⟨error, first⟩
    rw [firstError?_eq usual] at first
    exact List.ne_nil_of_mem ((mem_errors_iff usual).mpr (SchemaError.mem_of_leading_eq_some first))
  · intro wrong
    obtain ⟨error, listed⟩ := List.exists_mem_of_ne_nil _ wrong
    rw [firstError?_eq usual, ← Option.ne_none_iff_exists']
    intro silent
    rw [mem_errors_iff usual, Schema.firstError_eq_none_iff.mp silent] at listed
    cases listed
  · rw [firstError?_eq usual] at first
    refine ⟨List.mem_map_of_mem ((mem_errors_iff usual).mpr
      (SchemaError.mem_of_leading_eq_some first)), fun other listed => ?_⟩
    exact SchemaError.length_le_of_leading_eq_some first other ((mem_errors_iff usual).mp listed)

end BundledSchema

/-- For the results of scans, the two ways to check a document agree on every document. -/
theorem bundledSchema?_agreesOn : ∃ bundled,
    bundledSchema? "run_result.schema.json" = some bundled ∧
      bundled.version = some "run_result_v1" ∧ bundled.schema = RunResultSchema.schema ∧
      ∀ document, bundled.AgreesOn document := by
  let bundled : BundledSchema :=
    ⟨RunResultSchema.name, some RunResultSchema.version, RunResultSchema.schema⟩
  refine ⟨bundled, rfl, rfl, rfl, fun document => ?_⟩
  by_cases other : bundled.IsOfOtherVersion document
  · exact BundledSchema.agreesOn_of_other other
  · exact BundledSchema.agreesOn_of_usual other

end DesignLint
