import DesignLint.Config.Resolution

/-!
# Checking one text

One text is checked against a preset with overrides. The configuration is
resolved first; the text only matters when some rule is enabled. The findings
of all rules come in the order of the text.
-/

namespace DesignLint

/-- Why a text gets no findings. -/
inductive SourceScanError where
  | config (error : ConfigError)
  | check (error : CheckError)

/-- The path of a text that is no file. -/
def unnamedPath : String := "<string>"

/-- The findings of analyzers in one text, analyzer by analyzer. -/
def checkAll (analyzers : List Analyzer) (parsed : Syntax.ParseResult) (path : String) :
    Except CheckError (List Finding) :=
  (analyzers.mapM fun (analyzer : Analyzer) => analyzer.checkText parsed path).map List.flatten

/-- The findings of the rules of a preset with overrides in one text. -/
def scanText (parsed : Syntax.ParseResult) (path preset : String) (overrides : JsonObject) :
    Except SourceScanError (List Finding) := do
  let table ← (layeredRules preset overrides).mapError .config
  let analyzers ← table.analyzers.mapError .config
  let findings ← (checkAll analyzers parsed path).mapError .check
  return findings.mergeSort Finding.lineOrder

end DesignLint
