import DesignLint.Proofs.Rule.Moved

/-!
# Analyzers that fail

An analyzer fails in a module for two reasons. Two rules quote expressions of the source, and some
expressions cannot be written. And every finding needs a fingerprint, which is taken of texts that
may have no encoding. There is no third reason.
-/

namespace DesignLint

open Check Syntax

/-- The expressions of a module that the violations of a rule quote. -/
def RuleOptions.quotedIn (options : RuleOptions) (module : Module) : List Expr :=
  match options with
  | .conditions options => (allConditions module.tree).filter options.rejects
  | .literals options =>
    ((literalsOf module.tree).filter fun number => !options.exempts number).filterMap Literal.expr?
  | _ => []

theorem exists_conditionViolation_eq_error_iff {options : ConditionOptions} {test : Expr} :
    (∃ error, conditionViolation options test = .error error) ↔
      ∃ error, test.sourceText = .error error :=
  exists_bind_pure_eq_error_iff

theorem exists_literalViolation_eq_error_iff {target : Expr} :
    (∃ error, literalViolation target = .error error) ↔
      ∃ error, target.sourceText = .error error :=
  exists_bind_pure_eq_error_iff

/-- The violations of a rule can be taken unless one of them quotes an expression that cannot be
written. -/
theorem exists_violations_eq_error_iff {options : RuleOptions} {module : Module} :
    (∃ error, options.violations module = .error error) ↔
      ∃ expr ∈ options.quotedIn module, ∃ error, expr.sourceText = .error error := by
  cases options with
  | conditions options =>
      simp only [RuleOptions.violations, RuleOptions.quotedIn, complexConditions,
        exists_mapM_eq_error_iff, exists_conditionViolation_eq_error_iff]
  | literals options =>
      simp only [RuleOptions.violations, RuleOptions.quotedIn, unnamedNumbers,
        exists_mapM_eq_error_iff, exists_literalViolation_eq_error_iff]
  -- the other rules quote nothing
  | _ => simp [RuleOptions.violations, RuleOptions.quotedIn]

namespace Analyzer

/-- Why an analyzer fails in a module under a path. -/
inductive FailsOn (analyzer : Analyzer) (module : Module) (path : String) : Prop
  | unwritable {expr : Expr} {error : SourceTextError}
      (quoted : expr ∈ analyzer.options.quotedIn module)
      (unwritten : expr.sourceText = .error error)
  | unencodable {violations : List Violation} {violation : Violation} {c : Char}
      (reported : analyzer.options.violations module = .ok violations)
      (listed : violation ∈ violations)
      (member : c ∈ (fingerprintText violation.ruleId.text path violation.symbol
        violation.snippet).toList)
      (standsIn : Surrogate.isStandIn c = true)

theorem fingerprintError?_eq_none_iff {path : String} {violations : List Violation} :
    fingerprintError? path violations = none ↔ ∀ violation ∈ violations,
      ∀ c ∈ (fingerprintText violation.ruleId.text path violation.symbol
        violation.snippet).toList, Surrogate.isStandIn c = false := by
  simp only [fingerprintError?, List.findSome?_eq_none_iff, encodingError?_eq_none_iff]

/-- Under a path that is one, an analyzer has findings in a module or it fails. -/
theorem exists_checkText_iff {analyzer : Analyzer} {module : Module} {path : String}
    (usable : isUsablePath path = true) :
    (∃ findings, analyzer.checkText (.ok module) path = .ok findings) ↔
      ¬analyzer.FailsOn module path := by
  simp only [checkText_eq_ok_iff, usable, true_and]
  constructor
  · rintro ⟨-, violations, reported, encodable, -⟩ fails
    cases fails with
    | unwritable quoted unwritten =>
        obtain ⟨error, failed⟩ := exists_violations_eq_error_iff.mpr ⟨_, quoted, _, unwritten⟩
        cases reported.symm.trans failed
    | unencodable again listed member standsIn =>
        cases reported.symm.trans again
        have plain := fingerprintError?_eq_none_iff.mp encodable _ listed _ member
        exact Bool.false_ne_true (plain.symm.trans standsIn)
  · intro succeeds
    cases reported : analyzer.options.violations module with
    | error error =>
        obtain ⟨expr, quoted, own, unwritten⟩ := exists_violations_eq_error_iff.mp ⟨error, reported⟩
        exact absurd (.unwritable quoted unwritten) succeeds
    | ok violations =>
        refine ⟨_, violations, rfl, ?_, rfl⟩
        refine fingerprintError?_eq_none_iff.mpr fun violation listed c member => ?_
        by_contra standsIn
        exact succeeds (.unencodable reported listed member (Bool.not_eq_false _ ▸ standsIn))

/-- A failure in a module is no fault of the parser. -/
theorem ne_unparsed_of_checkText {analyzer : Analyzer} {module : Module} {path : String}
    (usable : isUsablePath path = true) {error : CheckError}
    (failed : analyzer.checkText (.ok module) path = .error error) (reason : ParseError) :
    error ≠ .unparsed reason := by
  rintro rfl
  have parsed : ParseResult.under (.ok module) path = .ok module := if_pos usable
  unfold checkText rawFindings at failed
  rw [parsed] at failed
  cases reported : analyzer.options.violations module with
  | error own => simp [reported, bind, Except.bind] at failed
  | ok violations =>
      cases encodable : fingerprintError? path violations <;>
        simp [reported, encodable, bind, Except.bind, pure, Except.pure] at failed

end Analyzer

end DesignLint
