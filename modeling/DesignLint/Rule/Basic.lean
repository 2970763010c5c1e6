import DesignLint.Finding.Family
import DesignLint.Number.Basic

/-!
# The rules

There are twelve rules. Each has a name for configuration files and one or two
identifiers for its findings.
-/

namespace DesignLint

/-- The rules. -/
inductive Rule where
  | functionCohesion | classCohesion
  | conditions | nesting
  | fanOut | parameters | imports
  | literals
  | booleans
  | naming
  | lateVariables | lateArguments
deriving DecidableEq, Repr

/-- The identifiers of findings. -/
inductive RuleId where
  | cohFunction | cohClass
  | cpxConditional | cpxNesting
  | cplFanOutFunction | cplFanOutClass | cplParams | cplImports
  | magNumber
  | boolParam
  | namTooShort | namDisallowed
  | lateVariable | lateArgument
deriving DecidableEq, Repr

/-- An identifier as findings show it. -/
def RuleId.text : RuleId → String
  | cohFunction => "COH_FUNCTION_001"
  | cohClass => "COH_CLASS_001"
  | cpxConditional => "CPX_CONDITIONAL_001"
  | cpxNesting => "CPX_NESTING_001"
  | cplFanOutFunction => "CPL_FANOUT_FUNCTION_001"
  | cplFanOutClass => "CPL_FANOUT_CLASS_001"
  | cplParams => "CPL_PARAMS_001"
  | cplImports => "CPL_IMPORTS_001"
  | magNumber => "MAG_NUMBER_001"
  | boolParam => "BOOL_PARAM_001"
  | namTooShort => "NAM_TOO_SHORT_001"
  | namDisallowed => "NAM_DISALLOWED_001"
  | lateVariable => "LATE_VARIABLE_001"
  | lateArgument => "LATE_ARGUMENT_001"

namespace Rule

/-- All rules in the order in which they are introduced. -/
def all : List Rule :=
  [functionCohesion, classCohesion, conditions, nesting, fanOut, parameters, imports, literals,
   booleans, naming, lateVariables, lateArguments]

/-- The name of a rule. -/
def name : Rule → String
  | functionCohesion => "low-function-cohesion"
  | classCohesion => "low-class-cohesion"
  | conditions => "no-complex-conditionals"
  | nesting => "max-nesting-depth"
  | fanOut => "high-fan-out"
  | parameters => "high-parameter-coupling"
  | imports => "high-import-coupling"
  | literals => "no-magic-numbers-except-zero-one"
  | booleans => "no-boolean-params"
  | naming => "enforce-meaningful-names"
  | lateVariables => "no-late-variable-usage"
  | lateArguments => "no-late-argument-usage"

/-- The rule with a name. -/
def ofName? (name : String) : Option Rule := all.find? fun rule => rule.name == name

/-- All rules in increasing order of their names. -/
def alphabetical : List Rule :=
  [naming, fanOut, imports, parameters, classCohesion, functionCohesion, nesting, booleans,
   conditions, lateArguments, lateVariables, literals]

/-- The identifiers of the findings of a rule. -/
def ids : Rule → List RuleId
  | functionCohesion => [.cohFunction]
  | classCohesion => [.cohClass]
  | conditions => [.cpxConditional]
  | nesting => [.cpxNesting]
  | fanOut => [.cplFanOutFunction, .cplFanOutClass]
  | parameters => [.cplParams]
  | imports => [.cplImports]
  | literals => [.magNumber]
  | booleans => [.boolParam]
  | naming => [.namTooShort, .namDisallowed]
  | lateVariables => [.lateVariable]
  | lateArguments => [.lateArgument]

/-- What a rule asks for. -/
def description : Rule → String
  | functionCohesion => "Functions whose blocks do not share variables should be split."
  | classCohesion => "Classes whose methods do not share members should be split."
  | conditions => "Conditions should not chain too many and/or operators."
  | nesting => "Limit how deeply control structures nest."
  | fanOut => "Functions and classes should not call too many external targets."
  | parameters => "Functions should not take too many parameters."
  | imports => "Modules should not depend on too many other modules."
  | literals => "Numbers other than 0 and 1 should be named constants."
  | booleans => "Avoid boolean flag parameters."
  | naming => "Names should be long and specific enough to be meaningful."
  | lateVariables => "Declare variables close to where they are first used."
  | lateArguments => "Use arguments close to the function signature."

/-- The family of a rule. -/
def family : Rule → Family
  | functionCohesion | classCohesion => .cohesion
  | conditions | nesting => .complexity
  | fanOut | parameters | imports => .coupling
  | literals => .magicNumbers
  | booleans => .booleanParams
  | naming => .naming
  | lateVariables | lateArguments => .lateUsage

/-- What the identifiers of a rule's findings begin with. -/
def idStem : Rule → String
  | functionCohesion | classCohesion => "coh"
  | conditions => "cx"
  | nesting => "nest"
  | fanOut => "fan"
  | parameters => "par"
  | imports => "imp"
  | literals => "mag"
  | booleans => "bool"
  | naming => "nam"
  | lateVariables | lateArguments => "late"

/-- How sure a rule is of its findings, in hundredths. -/
def confidencePercent : Rule → Nat
  | functionCohesion | classCohesion | booleans => 80
  | conditions | nesting | parameters => 95
  | fanOut => 85
  | imports => 90
  | literals | lateVariables | lateArguments => 70
  | naming => 75

/-- How sure a rule is of its findings. -/
def confidence (rule : Rule) : Number :=
  .float (Binary64.nearest (mkRat rule.confidencePercent 100))

/-- The name of the analyzer that checks a rule. -/
def analyzerName : Rule → String
  | functionCohesion => "FunctionCohesionAnalyzer"
  | classCohesion => "ClassCohesionAnalyzer"
  | conditions => "ComplexConditionalsAnalyzer"
  | nesting => "NestingDepthAnalyzer"
  | fanOut => "FanOutAnalyzer"
  | parameters => "ParameterCouplingAnalyzer"
  | imports => "ImportCouplingAnalyzer"
  | literals => "MagicNumberAnalyzer"
  | booleans => "BooleanParamsAnalyzer"
  | naming => "MeaningfulNamesAnalyzer"
  | lateVariables => "LateVariableUsageAnalyzer"
  | lateArguments => "LateArgumentUsageAnalyzer"

/-- The rule that an analyzer checks. -/
def ofAnalyzerName? (name : String) : Option Rule :=
  all.find? fun rule => rule.analyzerName == name

end Rule

end DesignLint
