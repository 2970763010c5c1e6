import DesignLint.Json.Basic
import DesignLint.Rule.Basic
import DesignLint.Syntax.Basic

/-!
# Violations

What a check finds in one module, before it is known in which file the module
stands and how much the rule matters.
-/

namespace DesignLint

/-- One breach of a rule in a module. -/
structure Violation where
  ruleId : RuleId
  lineStart : Int
  lineEnd : Int
  column : Int
  symbol : String
  message : String
  snippet : String
  details : JsonObject

/-- The name of a place for which there is no better symbol. -/
def placeSymbol (position : Syntax.Position) : String :=
  "L" ++ toString position.line ++ ":" ++ toString position.column

end DesignLint
