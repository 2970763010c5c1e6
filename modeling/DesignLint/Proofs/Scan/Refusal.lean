import DesignLint.Proofs.Config.Resolution
import DesignLint.Proofs.Rule.Failure
import DesignLint.Scan.Source

/-!
# Texts that are refused

A text that has no module is refused by the first analyzer that is asked about it, and by
nothing else. A check with all rules off asks none, so it takes every text and finds nothing in
it. An override is needed for this: no preset has all rules off, and a rule that no override names
keeps its level. A text that has a module is only refused over a failure of an analyzer.
-/

namespace DesignLint

open Syntax

/-! ## Analyzers -/

section Analyzers

variable {parsed : ParseResult} {path : String} {error : ParseError}

theorem Analyzer.checkText_of_unparsed {analyzer : Analyzer}
    (unparsed : parsed.under path = .error error) :
    analyzer.checkText parsed path = .error (.unparsed error) := by
  rw [checkText, unparsed]
  rfl

theorem checkAll_nil (parsed : ParseResult) (path : String) : checkAll [] parsed path = .ok [] :=
  rfl

/-- The first analyzer already refuses the text. -/
theorem checkAll_of_unparsed {analyzers : List Analyzer} (asked : analyzers ≠ [])
    (unparsed : parsed.under path = .error error) :
    checkAll analyzers parsed path = .error (.unparsed error) := by
  cases analyzers with
  | nil => exact absurd rfl asked
  | cons analyzer analyzers =>
      rw [checkAll, List.mapM_cons, Analyzer.checkText_of_unparsed unparsed]
      rfl

/-- Analyzers have findings in a module, unless one of them fails. -/
theorem exists_checkAll_iff {analyzers : List Analyzer} {module : Module}
    (usable : isUsablePath path = true) :
    (∃ findings, checkAll analyzers (.ok module) path = .ok findings) ↔
      ∀ analyzer ∈ analyzers, ¬analyzer.FailsOn module path := by
  simp only [← Analyzer.exists_checkText_iff usable]
  constructor
  · rintro ⟨findings, checked⟩
    obtain ⟨found, mapped, -⟩ := map_eq_ok_iff.mp checked
    exact forall_of_mapM_eq_ok mapped
  · intro succeeds
    obtain ⟨found, mapped⟩ := exists_mapM_eq_ok succeeds
    exact ⟨found.flatten, map_eq_ok_iff.mpr ⟨found, mapped, rfl⟩⟩

/-- A failure in a module is no fault of the parser. -/
theorem ne_unparsed_of_checkAll {analyzers : List Analyzer} {module : Module} {failure : CheckError}
    (usable : isUsablePath path = true)
    (failed : checkAll analyzers (.ok module) path = .error failure) (reason : ParseError) :
    failure ≠ .unparsed reason := by
  rw [checkAll, map_eq_error_iff] at failed
  obtain ⟨analyzer, -, analyzerFailed⟩ := exists_of_mapM_eq_error failed
  exact Analyzer.ne_unparsed_of_checkText usable analyzerFailed reason

end Analyzers

/-! ## Resolved settings -/

theorem layeredRules_preset (preset : Preset) :
    layeredRules preset.name [] = .ok preset.table := by
  have mapping : JsonObject.IsMapping [] := .nil
  exact (layeredRules_eq_ok_iff mapping).mpr
    ⟨preset, rfl, by simp, fun _ => .kept (by simp), preset.hasValidOptions⟩

section Resolved

variable {preset : String} {overrides : JsonObject} {table : RuleTable}

/-- Resolved settings have analyzers. -/
theorem exists_analyzers_of_layeredRules (once : (Json.object overrides).NamesKeysOnce)
    (layered : layeredRules preset overrides = .ok table) :
    ∃ analyzers, table.analyzers = .ok analyzers ∧ table.ServedBy analyzers := by
  obtain ⟨known, -, -, leaves, valid⟩ := (layeredRules_eq_ok_iff once.isMapping).mp layered
  have mappings (rule : Rule) : (table rule).options.IsMapping :=
    (leaves rule).isMapping_options once
  obtain ⟨analyzers, made, -⟩ := RuleTable.exists_analyzers valid mappings
  exact ⟨analyzers, made, RuleTable.servedBy_of_analyzers valid mappings made⟩

theorem RuleTable.ServedBy.eq_nil_iff {analyzers : List Analyzer}
    (served : table.ServedBy analyzers) : analyzers = [] ↔ ∀ rule, (table rule).level = .off := by
  rw [← List.map_eq_nil_iff (f := Analyzer.rule), List.eq_nil_iff_forall_not_mem]
  exact forall_congr' fun rule => (not_congr (served.enabled rule)).trans not_not

/-- With resolved settings, only the analyzers decide. -/
theorem scanText_eq_of_resolved {analyzers : List Analyzer} (parsed : ParseResult) (path : String)
    (layered : layeredRules preset overrides = .ok table) (made : table.analyzers = .ok analyzers) :
    scanText parsed path preset overrides =
      ((checkAll analyzers parsed path).map fun findings =>
        findings.mergeSort Finding.lineOrder).mapError .check := by
  unfold scanText
  simp only [layered, made, mapError_ok, bind, Except.bind]
  cases checkAll analyzers parsed path with
  | error error => rfl
  | ok findings => rfl

/-- Settings that leave a level where the preset has another have it from an override. -/
theorem Preset.Leaves.exists_written {preset : Preset} {rule : Rule} {setting : RuleSetting}
    (leaves : preset.Leaves overrides rule setting)
    (changed : setting.level ≠ (preset.table rule).level) :
    ∃ value written, (rule.name, value) ∈ overrides ∧ value.WritesSetting written ∧
      written.level = some setting.level := by
  cases leaves with
  | kept => exact absurd rfl changed
  | @overridden value written listed writes =>
      refine ⟨value, written, listed, writes, ?_⟩
      cases level : written.level with
      | none => simp [WrittenSetting.on, level] at changed
      | some own => simp [WrittenSetting.on, level]

end Resolved

/-! ## Texts that are refused -/

section Unparsed

variable {preset path : String} {overrides : JsonObject} {table : RuleTable}
  {parsed : ParseResult} {error : ParseError}

theorem scanText_of_enabled (once : (Json.object overrides).NamesKeysOnce)
    (layered : layeredRules preset overrides = .ok table)
    (unparsed : parsed.under path = .error error) (enabled : ∃ rule, (table rule).level ≠ .off) :
    scanText parsed path preset overrides = .error (.check (.unparsed error)) := by
  obtain ⟨analyzers, made, served⟩ := exists_analyzers_of_layeredRules once layered
  have asked : analyzers ≠ [] := fun none => by
    obtain ⟨rule, on⟩ := enabled
    exact on (served.eq_nil_iff.mp none rule)
  rw [scanText_eq_of_resolved parsed path layered made, checkAll_of_unparsed asked unparsed]
  rfl

/-- Every preset by itself has a rule on. -/
theorem scanText_preset_of_unparsed (preset : Preset)
    (unparsed : parsed.under path = .error error) :
    scanText parsed path preset.name [] = .error (.check (.unparsed error)) := by
  have nesting : (preset.table .nesting).level ≠ .off := by
    cases preset <;> decide
  exact scanText_of_enabled (.object .nil (by simp)) (layeredRules_preset preset) unparsed
    ⟨.nesting, nesting⟩

end Unparsed

/-- A text without a module is refused for the reason of the parser where some rule is on. With all
rules off it is taken, and nothing is found in it. This is so only where the overrides turn off
every rule that the preset has on. -/
theorem scanText_of_unparsed {preset path : String} {overrides : JsonObject} {table : RuleTable}
    {parsed : ParseResult} {error : ParseError} (once : (Json.object overrides).NamesKeysOnce)
    (layered : layeredRules preset overrides = .ok table)
    (unparsed : parsed.under path = .error error) :
    ((∃ rule, (table rule).level ≠ .off) →
        scanText parsed path preset overrides = .error (.check (.unparsed error))) ∧
      ((∀ rule, (table rule).level = .off) →
        scanText parsed path preset overrides = .ok [] ∧
        ∃ known : Preset, preset = known.name ∧ ∀ rule, (known.table rule).level ≠ .off →
          ∃ value written, (rule.name, value) ∈ overrides ∧ value.WritesSetting written ∧
            written.level = some .off) := by
  refine ⟨scanText_of_enabled once layered unparsed, fun allOff => ⟨?taken, ?overridden⟩⟩
  case taken =>
    obtain ⟨analyzers, made, served⟩ := exists_analyzers_of_layeredRules once layered
    obtain rfl := served.eq_nil_iff.mpr allOff
    rw [scanText_eq_of_resolved parsed path layered made, checkAll_nil]
    simp [Except.map]
  case overridden =>
    obtain ⟨known, named, -, leaves, -⟩ := (layeredRules_eq_ok_iff once.isMapping).mp layered
    refine ⟨known, named, fun rule on => ?_⟩
    have changed : (table rule).level ≠ (known.table rule).level := by
      rw [allOff rule]
      exact on.symm
    have written := (leaves rule).exists_written changed
    rwa [allOff rule] at written

/-- Overrides that turn off the two rules of the relaxed preset. -/
def nothingChecked : JsonObject :=
  [("max-nesting-depth", .string "off"), ("no-complex-conditionals", .bool false)]

theorem namesKeysOnce_nothingChecked : (Json.object nothingChecked).NamesKeysOnce :=
  .object (by decide) (List.forall_mem_cons.mpr
    ⟨.string _, List.forall_mem_singleton.mpr (.bool false)⟩)

/-- Nothing is left to refuse a text that cannot be parsed. -/
theorem scanText_nothingChecked : ∃ table,
    layeredRules "relaxed" nothingChecked = .ok table ∧
      scanText (.error (.syntaxError (some 1) "invalid syntax")) unnamedPath "relaxed"
        nothingChecked = .ok [] := by
  let table := (Preset.relaxed.table.set .nesting ⟨.off, [("maxDepth", .nat 4)]⟩).set
    .conditions ⟨.off, [("maxOperators", .nat 4)]⟩
  have laid : Preset.relaxed.table.overrideAll nothingChecked = .ok table := rfl
  have valid : table.HasValidOptions := by
    intro rule
    rw [← Option.isNone_iff_eq_none]
    cases rule <;> decide +kernel
  have layered : layeredRules "relaxed" nothingChecked = .ok table :=
    bind_eq_ok_iff.mpr ⟨table, laid, RuleTable.validated_eq_ok_iff.mpr ⟨rfl, valid⟩⟩
  have unparsed : ParseResult.under (.error (.syntaxError (some 1) "invalid syntax")) unnamedPath =
      .error (.syntaxError (some 1) "invalid syntax") :=
    if_pos (by decide)
  obtain ⟨-, taken⟩ := scanText_of_unparsed namesKeysOnce_nothingChecked layered unparsed
  have allOff : ∀ rule, (table rule).level = .off := by
    intro rule
    cases rule <;> rfl
  exact ⟨table, layered, (taken allOff).1⟩

end DesignLint
