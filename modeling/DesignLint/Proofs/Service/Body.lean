import DesignLint.Proofs.Outcome
import DesignLint.Service.Body

/-!
# What documents ask for

Every field of a document is read on its own. A document asks for a scan exactly if each of its
fields has a form for what is asked.
-/

namespace DesignLint.Service

/-! ## Fields -/

section Fields

variable {entries : JsonObject} {name : String}

theorem requiredText_eq_ok_iff {text : String} :
    requiredText entries name = .ok text ↔ entries.lookup name = some (.string text) := by
  unfold requiredText
  rcases entries.lookup name with _ | value
  · simp
  · cases value <;> simp

/-- A text that may be left out is given, or it is left out or null. -/
theorem optionalText_eq_ok_iff {text : Option String} :
    optionalText entries name = .ok text ↔
      entries.lookup name = text.map .string ∨ entries.lookup name = some .null ∧ text = none := by
  unfold optionalText
  rcases entries.lookup name with _ | value
  · cases text <;> simp
  · cases value <;> cases text <;> simp

theorem optionalMapping_eq_ok_iff {mapping : JsonObject} :
    optionalMapping entries name = .ok mapping ↔
      entries.lookup name = some (.object mapping) ∨
        entries.lookup name = none ∧ mapping = [] := by
  unfold optionalMapping
  rcases entries.lookup name with _ | value
  · simp [eq_comm]
  · cases value <;> simp

theorem optionalFlag_eq_ok_iff {flag : Bool} :
    optionalFlag entries name = .ok flag ↔
      (∃ value, entries.lookup name = some value ∧ readFlag value = .ok flag) ∨
        entries.lookup name = none ∧ flag = false := by
  unfold optionalFlag
  rcases entries.lookup name with _ | value
  · simp [eq_comm]
  · cases read : readFlag value <;> simp [read]

end Fields

/-! ## Documents -/

/-- The documents that ask for the scan of a project. Everything but the path may be left out. -/
structure WritesProjectBody (entries : JsonObject) (body : ProjectBody) : Prop where
  path : entries.lookup "repo_path" = some (.string body.path)
  projectId : entries.lookup "project_id" = body.projectId.map .string ∨
    entries.lookup "project_id" = some .null ∧ body.projectId = none
  preset : entries.lookup "preset" = body.preset.map .string ∨
    entries.lookup "preset" = some .null ∧ body.preset = none
  rules : entries.lookup "rules" = some (.object body.rules) ∨
    entries.lookup "rules" = none ∧ body.rules = []
  reproducible : (∃ value, entries.lookup "ci_mode" = some value ∧
      readFlag value = .ok body.reproducible) ∨
    entries.lookup "ci_mode" = none ∧ body.reproducible = false

theorem readProjectBody_eq_ok_iff {entries : JsonObject} {body : ProjectBody} :
    readProjectBody (some (.object entries)) = .ok body ↔ WritesProjectBody entries body := by
  constructor
  · intro read
    unfold readProjectBody at read
    simp only [bodyEntries, bind, Except.bind] at read
    split at read
    · rename_i path projectId preset rules reproducible
      cases read
      exact ⟨requiredText_eq_ok_iff.mp path, optionalText_eq_ok_iff.mp projectId,
        optionalText_eq_ok_iff.mp preset, optionalMapping_eq_ok_iff.mp rules,
        optionalFlag_eq_ok_iff.mp reproducible⟩
    · cases read
  · intro writes
    unfold readProjectBody
    simp only [bodyEntries, requiredText_eq_ok_iff.mpr writes.path,
      optionalText_eq_ok_iff.mpr writes.projectId, optionalText_eq_ok_iff.mpr writes.preset,
      optionalMapping_eq_ok_iff.mpr writes.rules, optionalFlag_eq_ok_iff.mpr writes.reproducible,
      bind, Except.bind]
    rfl

end DesignLint.Service
