import DesignLint.Finding.Basic
import DesignLint.Rule.Options
import DesignLint.Syntax.Basic
import DesignLint.Text.Utf8

/-!
# Analyzers

A rule with options and a severity is an analyzer. It turns the violations of
its rule into findings, brings them into source order and numbers them. The
identifier of a finding joins its fingerprint with its number. Scores of cohesion
are rounded like doubles unless told otherwise.
-/

namespace DesignLint

open Check Syntax

/-! ## Violations of a rule -/

/-- The violations of a rule in a module. -/
def RuleOptions.violations (options : RuleOptions) (module : Module)
    (rounding : Cohesion.Rounding := Cohesion.Rounding.binary64) :
    Except SourceTextError (List Violation) :=
  match options with
  | functionCohesion options => .ok (looseFunctions options module.tree rounding)
  | classCohesion options => .ok (looseClasses options module.tree rounding)
  | conditions options => complexConditions options module.tree
  | nesting options => .ok (deepNesting options module.tree)
  | fanOut options => .ok (highFanOut options module.tree)
  | parameters options => .ok (longSignatures options module.tree)
  | imports options => .ok (importViolations options module)
  | literals options => unnamedNumbers options module.tree
  | booleans options => .ok (booleanParameters options module.tree)
  | naming options => .ok (meaninglessNames options module.tree)
  | lateVariables options => .ok (Check.lateVariables options module.tree)
  | lateArguments options => .ok (Check.lateArguments options module.tree)

/-! ## Analyzers -/

/-- A rule to be checked. -/
structure Analyzer where
  options : RuleOptions
  severity : Severity
deriving DecidableEq, Repr

/-- The version of all analyzers. -/
def analyzerVersion : String := "1.0.0"

/-- Why a text could not be checked. -/
inductive CheckError where
  | unparsed (error : ParseError)
  | noSourceText (error : SourceTextError)
  | unencodable (error : EncodingError)
deriving DecidableEq, Repr

/-- A number with at least four digits. -/
def fourDigits (number : Nat) : String :=
  let digits := toString number
  String.ofList (List.replicate (4 - digits.length) '0') ++ digits

/-- The identifier of a finding from its fingerprint and its number. -/
def findingId (stem fingerprint : String) (number : Nat) : String :=
  stem ++ "_" ++ String.ofList ((fingerprint.toList.drop 7).take 8) ++ "_" ++ fourDigits number

namespace Analyzer

/-- The rule that an analyzer checks. -/
def rule (analyzer : Analyzer) : Rule := analyzer.options.rule

/-- The finding for a violation in a file, without an identifier. -/
def findingOf (analyzer : Analyzer) (path : String) (violation : Violation) : Finding := {
  id := ""
  family := analyzer.rule.family
  severity := analyzer.severity
  confidence := analyzer.rule.confidence
  message := violation.message
  location := ⟨path, violation.lineStart, violation.lineEnd, violation.column⟩
  fingerprint := fingerprint violation.ruleId.text path violation.symbol violation.snippet
  snippet := violation.snippet
  metadata := ("rule_id", .string violation.ruleId.text) :: ("rule", .string analyzer.rule.name)
    :: violation.details }

/-- Findings in source order with their identifiers. -/
def numbered (analyzer : Analyzer) (findings : List Finding) : List Finding :=
  (inSourceOrder findings).zipIdx.map fun (finding, number) =>
    { finding with id := findingId analyzer.rule.idStem finding.fingerprint number }

/-- The error of taking the fingerprint of one of some violations in a file. -/
def fingerprintError? (path : String) (violations : List Violation) : Option EncodingError :=
  violations.findSome? fun violation => Utf8.encodingError?
    (fingerprintText violation.ruleId.text path violation.symbol violation.snippet)

/-- The findings in a module, without identifiers, in the order of the check. Each needs
a fingerprint. -/
def rawFindings (analyzer : Analyzer) (module : Module) (path : String)
    (rounding : Cohesion.Rounding := Cohesion.Rounding.binary64) :
    Except CheckError (List Finding) := do
  let violations ← (analyzer.options.violations module rounding).mapError .noSourceText
  match fingerprintError? path violations with
  | some error => .error (.unencodable error)
  | none => return violations.map (analyzer.findingOf path)

/-- The findings in one text. -/
def checkText (analyzer : Analyzer) (parsed : ParseResult) (path : String) :
    Except CheckError (List Finding) := do
  let module ← (parsed.under path).mapError .unparsed
  return analyzer.numbered (← analyzer.rawFindings module path)

end Analyzer

end DesignLint
