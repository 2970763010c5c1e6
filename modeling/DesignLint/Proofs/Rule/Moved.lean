import DesignLint.Proofs.Check.Moved
import DesignLint.Proofs.Check.MovedCalls
import DesignLint.Proofs.Check.MovedCohesion
import DesignLint.Proofs.Check.Placed
import DesignLint.Proofs.Json.Encoding

/-!
# Findings in moved code

Analyzers find the same things in moved code, in the same order. A finding keeps its
fingerprint exactly if its symbol is not made from a line. Four rules have no better
symbol than a place, or add a line to a name; the fingerprints of their findings are
taken of another text wherever the code stands.
-/

namespace DesignLint

open Syntax

/-! ## Violations -/

/-- How far the first lines of a rule's violations move with the code. The violation by the
imports of a module is always on its first line. -/
def RuleOptions.shift (lines : Nat) : RuleOptions → Nat
  | imports _ => 0
  | _ => lines

/-- Whether the symbols of a rule's violations are made from lines. -/
def Rule.namesLine (rule : Rule) : Bool := rule.ids.any RuleId.namesLine

section Violations

variable (lines : Nat)

theorem violations_moved (options : RuleOptions) {module : Module}
    (parsed : module.isParsed = true) (rounding : Cohesion.Rounding) :
    Corresponds (List.Forall₂ (Violation.Moves (options.shift lines)))
      (options.violations module rounding)
      (options.violations (module.moved lines) rounding) := by
  have parsedParts := List.all_eq_true.mp parsed
  cases options with
  | imports options => exact .ok (Check.importViolations_moved lines options module)
  | functionCohesion options =>
      simp only [RuleOptions.violations, Module.tree_moved]
      exact .ok (Check.looseFunctions_moved lines options parsedParts rounding)
  | classCohesion options =>
      simp only [RuleOptions.violations, Module.tree_moved]
      exact .ok (Check.looseClasses_moved lines options parsedParts rounding)
  | conditions options =>
      simp only [RuleOptions.violations, Module.tree_moved]
      exact Check.complexConditions_moved lines options module.tree
  | nesting options =>
      simp only [RuleOptions.violations, Module.tree_moved]
      exact .ok (Check.deepNesting_moved lines options module.tree)
  | fanOut options =>
      simp only [RuleOptions.violations, Module.tree_moved]
      exact .ok (Check.highFanOut_moved lines options parsedParts)
  | parameters options =>
      simp only [RuleOptions.violations, Module.tree_moved]
      exact .ok (Check.longSignatures_moved lines options module.tree)
  | literals options =>
      simp only [RuleOptions.violations, Module.tree_moved]
      exact Check.unnamedNumbers_moved lines options module.tree
  | booleans options =>
      simp only [RuleOptions.violations, Module.tree_moved]
      exact .ok (Check.booleanParameters_moved lines options module.tree)
  | naming options =>
      simp only [RuleOptions.violations, Module.tree_moved]
      exact .ok (Check.meaninglessNames_moved lines options module.tree)
  | lateVariables options =>
      simp only [RuleOptions.violations, Module.tree_moved]
      exact .ok (Check.lateVariables_moved lines options module.tree)
  | lateArguments options =>
      simp only [RuleOptions.violations, Module.tree_moved]
      exact .ok (Check.lateArguments_moved lines options module.tree)

end Violations

/-! ## Order -/

/-- Sorting keeps lists related whose elements compare alike. -/
theorem forall₂_mergeSort {α β : Type} {R : α → β → Prop} {le : α → α → Bool}
    {le' : β → β → Bool} {items : List α} {others : List β}
    (same : ∀ a b a' b', R a a' → R b b' → le a b = le' a' b')
    (related : List.Forall₂ R items others) :
    List.Forall₂ R (items.mergeSort le) (others.mergeSort le') := by
  have lengths := related.length_eq
  obtain ⟨-, pairs⟩ := List.forall₂_iff_zip.mp related
  have sameOnPairs : ∀ a ∈ items.zip others, ∀ b ∈ items.zip others,
      le a.1 b.1 = le' a.2 b.2 := fun a inA b inB =>
    same _ _ _ _ (pairs inA) (pairs inB)
  have left := List.map_mergeSort (r := fun a b => le a.1 b.1) (s := le) (f := Prod.fst)
    (l := items.zip others) (fun a _ b _ => rfl)
  have right := List.map_mergeSort (r := fun a b => le a.1 b.1) (s := le') (f := Prod.snd)
    (l := items.zip others) sameOnPairs
  rw [List.map_fst_zip lengths.le] at left
  rw [List.map_snd_zip lengths.ge] at right
  rw [← left, ← right, List.forall₂_map_left_iff, List.forall₂_map_right_iff]
  refine List.forall₂_same.mpr fun pair member => pairs ?_
  exact (List.mergeSort_perm _ _).mem_iff.mp member

/-! ## Fingerprints -/

theorem LineMoves.ne {lines : Nat} {before after : String} (moves : LineMoves lines before after)
    (positive : 0 < lines) : after ≠ before := by
  obtain ⟨front, line, back, rfl, rfl⟩ := moves
  intro equal
  have characters := congrArg String.toList equal
  simp only [String.toList_append, List.append_assoc, List.append_cancel_left_eq,
    List.append_cancel_right_eq, String.toList_inj] at characters
  have sameDigits : Nat.toDigits 10 (line + lines) = Nat.toDigits 10 line := by
    simpa [toString, Nat.repr_eq_ofList_toDigits, String.ofList_inj] using characters
  have sameLine := congrArg (Nat.ofDigitChars 10 · 0) sameDigits
  simp only [Nat.ofDigitChars_toDigits (by decide : 1 < 10) (by decide : 10 ≤ 10)] at sameLine
  omega

theorem isStandIn_eq_false_of_isDigit {c : Char} (digit : c.isDigit = true) :
    Surrogate.isStandIn c = false := by
  have small : c.toNat - Surrogate.standInOffset = 0 := by
    simp only [Char.isDigit, Bool.and_eq_true, decide_eq_true_eq] at digit
    have bound : c.toNat ≤ 57 := digit.2
    simp only [Surrogate.standInOffset]
    omega
  rw [Surrogate.isStandIn, small]
  rfl

theorem LineMoves.isStandIn {lines : Nat} {before after : String}
    (moves : LineMoves lines before after)
    (encodable : ∀ c ∈ before.toList, Surrogate.isStandIn c = false) :
    ∀ c ∈ after.toList, Surrogate.isStandIn c = false := by
  obtain ⟨front, line, back, rfl, rfl⟩ := moves
  intro c member
  simp only [String.toList_append, List.mem_append] at encodable member
  rcases member with (inFront | inLine) | inBack
  · exact encodable c (.inl (.inl inFront))
  · have digit : c.isDigit = true := by
      refine Nat.isDigit_of_mem_toDigits (by decide : 0 < 10) (by decide) (n := line + lines) ?_
      simpa [toString, Nat.repr_eq_ofList_toDigits] using inLine
    exact isStandIn_eq_false_of_isDigit digit
  · exact encodable c (.inr inBack)

theorem fingerprintText_eq (ruleId path symbol snippet : String) :
    fingerprintText ruleId path symbol snippet =
      (ruleId ++ "|" ++ forwardSlashes path ++ "|") ++ symbol ++ ("|" ++ Unicode.trim snippet) := by
  simp [fingerprintText, String.intercalate_cons_cons, String.append_assoc]

theorem LineMoves.fingerprintText_ne {lines : Nat} {before after : String}
    (moves : LineMoves lines before after) (positive : 0 < lines) (ruleId path snippet : String) :
    fingerprintText ruleId path after snippet ≠ fingerprintText ruleId path before snippet := by
  intro equal
  have characters := congrArg String.toList equal
  simp only [fingerprintText_eq, String.toList_append, List.append_cancel_left_eq,
    List.append_cancel_right_eq, String.toList_inj] at characters
  exact moves.ne positive characters

/-- Where the fingerprint of a violation can be taken, so can that of the violation in moved
code: a line adds nothing but digits. -/
theorem Violation.Moves.encodingError?_eq_none {lines : Nat} {before after : Violation}
    (moves : before.Moves lines after) (path : String)
    (encodable : Utf8.encodingError?
      (fingerprintText before.ruleId.text path before.symbol before.snippet) = none) :
    Utf8.encodingError?
      (fingerprintText after.ruleId.text path after.symbol after.snippet) = none := by
  rw [encodingError?_eq_none_iff, fingerprintText_eq] at encodable ⊢
  simp only [String.toList_append, List.forall_mem_append] at encodable ⊢
  rw [moves.ruleId, moves.snippet]
  refine ⟨⟨encodable.1.1, ?_⟩, encodable.2⟩
  have symbol := moves.symbol
  split at symbol
  · exact symbol.isStandIn encodable.1.2
  · rw [symbol]
    exact encodable.1.2

theorem fingerprintError?_moved {lines : Nat} {violations others : List Violation}
    (moved : List.Forall₂ (Violation.Moves lines) violations others) (path : String)
    (encodable : Analyzer.fingerprintError? path violations = none) :
    Analyzer.fingerprintError? path others = none := by
  unfold Analyzer.fingerprintError? at encodable ⊢
  induction moved with
  | nil => rfl
  | cons moves _ inductionHypothesis =>
      rw [List.findSome?_cons] at encodable ⊢
      split at encodable
      · cases encodable
      · rename_i first
        rw [moves.encodingError?_eq_none path first]
        exact inductionHypothesis encodable

theorem mem_of_mem_trim {c : Char} {text : String} (listed : c ∈ (Unicode.trim text).toList) :
    c ∈ text.toList := by
  rw [Unicode.trim, String.toList_ofList, List.mem_reverse] at listed
  have inFront := (List.dropWhile_sublist Unicode.isBlank).mem listed
  exact (List.dropWhile_sublist Unicode.isBlank).mem (List.mem_reverse.mp inFront)

/-- Texts without lone surrogates have fingerprints. -/
theorem fingerprintError?_eq_none {path : String} {violations : List Violation}
    (plain : ∀ violation ∈ violations,
      ∀ text ∈ [violation.ruleId.text, forwardSlashes path, violation.symbol, violation.snippet],
        text.toList.all (fun c => !Surrogate.isStandIn c) = true) :
    Analyzer.fingerprintError? path violations = none := by
  refine List.findSome?_eq_none_iff.mpr fun violation listed => ?_
  have texts := plain violation listed
  simp only [List.forall_mem_cons, List.all_eq_true, Bool.not_eq_true'] at texts
  obtain ⟨ruleId, place, symbol, snippet, -⟩ := texts
  have bar : ∀ c ∈ "|".toList, Surrogate.isStandIn c = false :=
    List.forall_mem_singleton.mpr (by decide)
  rw [encodingError?_eq_none_iff, fingerprintText_eq]
  simp only [String.toList_append, List.forall_mem_append]
  exact ⟨⟨⟨⟨⟨ruleId, bar⟩, place⟩, bar⟩, symbol⟩, bar, fun c listed =>
    snippet c (mem_of_mem_trim listed)⟩

/-! ## Findings -/

/-- Two findings whose fingerprints are taken of texts that differ in a line, which is some lines
further down in the second one. -/
def Finding.NamesLine (path : String) (lines : Nat) (before after : Finding) : Prop :=
  ∃ ruleId symbol raised snippet, LineMoves lines symbol raised ∧
    (0 < lines →
      fingerprintText ruleId path raised snippet ≠ fingerprintText ruleId path symbol snippet) ∧
    before.fingerprint = DesignLint.fingerprint ruleId path symbol snippet ∧
    after.fingerprint = DesignLint.fingerprint ruleId path raised snippet

/-- What becomes of the fingerprint of a rule's finding. -/
def Rule.Keeps (rule : Rule) (path : String) (lines : Nat) (before after : Finding) : Prop :=
  if rule.namesLine then Finding.NamesLine path lines before after
  else after.fingerprint = before.fingerprint

section Findings

variable {analyzer : Analyzer} {path : String} {lines : Nat}

theorem key_findingOf (violation : Violation) :
    (analyzer.findingOf path violation).key =
      ⟨path, violation.lineStart, violation.column, violation.ruleId.text⟩ := rfl

/-- The findings for violations of which one stands in the place of the other in moved code. -/
def Analyzer.FindingsMove (analyzer : Analyzer) (path : String) (shift : Nat)
    (before after : Finding) : Prop :=
  ∃ violation other, violation.IsOf analyzer.rule ∧ Violation.Moves shift violation other ∧
    before = analyzer.findingOf path violation ∧ after = analyzer.findingOf path other

theorem before_moved (a b : FindingKey) (shift : Int) :
    FindingKey.before { a with line := a.line + shift } { b with line := b.line + shift } =
      a.before b := by
  unfold FindingKey.before FindingKey.beforeInFile
  by_cases sameLine : a.line = b.line
  · simp [sameLine]
  · have movedApart : a.line + shift ≠ b.line + shift := by omega
    simp only [ne_eq, sameLine, movedApart, not_false_eq_true, if_true,
      Int.add_lt_add_iff_right]

theorem sourceOrder_moved {shift : Nat} {a b a' b' : Finding}
    (first : analyzer.FindingsMove path shift a a')
    (second : analyzer.FindingsMove path shift b b') :
    a.sourceOrder b = a'.sourceOrder b' := by
  obtain ⟨violation, other, -, moves, rfl, rfl⟩ := first
  obtain ⟨violation', other', -, moves', rfl, rfl⟩ := second
  simp only [Finding.sourceOrder, key_findingOf, moves.lineStart, moves'.lineStart, moves.column,
    moves'.column, moves.ruleId, moves'.ruleId]
  rw [← before_moved _ _ (shift : Int)]

theorem namesLine_of_mem_ids {rule : Rule} {ruleId : RuleId} (listed : ruleId ∈ rule.ids) :
    rule.namesLine = ruleId.namesLine := by
  cases rule <;> simp [Rule.ids] at listed <;> rcases listed with rfl | rfl <;> rfl

theorem keeps_of_findingsMove {shift : Nat}
    (sameShift : analyzer.rule.namesLine = true → shift = lines) {before after : Finding}
    (moves : analyzer.FindingsMove path shift before after) :
    analyzer.rule.Keeps path lines before after := by
  obtain ⟨violation, other, isOf, moves, rfl, rfl⟩ := moves
  have symbol := moves.symbol
  rw [← namesLine_of_mem_ids isOf.ruleId] at symbol
  unfold Rule.Keeps
  split
  · rename_i names
    rw [if_pos names, sameShift names] at symbol
    refine ⟨violation.ruleId.text, violation.symbol, other.symbol, violation.snippet, symbol,
      fun positive => symbol.fingerprintText_ne positive _ _ _, rfl, ?_⟩
    rw [← moves.ruleId, ← moves.snippet]
    rfl
  · rename_i names
    rw [if_neg names] at symbol
    simp only [Analyzer.findingOf, moves.ruleId, moves.snippet, symbol]

theorem forall₂_zipIdx_map {α β γ δ : Type} {R : α → β → Prop} {S : γ → δ → Prop}
    {f : α × Nat → γ} {g : β × Nat → δ}
    (maps : ∀ a b number, R a b → S (f (a, number)) (g (b, number)))
    {items : List α} {others : List β} (related : List.Forall₂ R items others) (first : Nat) :
    List.Forall₂ S ((items.zipIdx first).map f) ((others.zipIdx first).map g) := by
  induction related generalizing first with
  | nil => exact .nil
  | cons both _ inductionHypothesis =>
      exact .cons (maps _ _ first both) (inductionHypothesis (first + 1))

theorem numbered_moved {shift : Nat} (sameShift : analyzer.rule.namesLine = true → shift = lines)
    {findings others : List Finding}
    (moved : List.Forall₂ (analyzer.FindingsMove path shift) findings others) :
    List.Forall₂ (analyzer.rule.Keeps path lines) (analyzer.numbered findings)
      (analyzer.numbered others) := by
  have sorted : List.Forall₂ (analyzer.FindingsMove path shift) (inSourceOrder findings)
      (inSourceOrder others) :=
    forall₂_mergeSort (fun _ _ _ _ first second => sourceOrder_moved first second) moved
  refine forall₂_zipIdx_map (fun before after number moves => ?_) sorted 0
  have keeps := keeps_of_findingsMove sameShift moves
  exact keeps

end Findings

theorem Syntax.ParseResult.under_eq_ok_iff {parsed : ParseResult} {path : String}
    {module : Module} :
    parsed.under path = .ok module ↔ isUsablePath path = true ∧ parsed = .ok module := by
  unfold ParseResult.under
  split <;> simp_all

/-- The findings in a module, where its path is one and the violations of the rule and all their
fingerprints can be taken. -/
theorem checkText_eq_ok_iff {analyzer : Analyzer} {module : Module} {path : String}
    {findings : List Finding} :
    analyzer.checkText (.ok module) path = .ok findings ↔
      isUsablePath path = true ∧ ∃ violations, analyzer.options.violations module = .ok violations ∧
        Analyzer.fingerprintError? path violations = none ∧
        analyzer.numbered (violations.map (analyzer.findingOf path)) = findings := by
  unfold Analyzer.checkText Analyzer.rawFindings
  cases usable : isUsablePath path with
  | false => simp [ParseResult.under, usable, bind, Except.bind]
  | true =>
      cases reported : analyzer.options.violations module with
      | error e => simp [ParseResult.under, usable, reported, bind, Except.bind]
      | ok violations =>
          cases failed : Analyzer.fingerprintError? path violations <;>
            simp [ParseResult.under, usable, reported, bind, Except.bind, failed, pure,
              Except.pure]

/-- Fingerprints in moved code. All findings are found again in the same order. Where the rule
does not make symbols from lines, they have the fingerprints that they had. Where it does, every
single one has a fingerprint that is taken of another line. -/
theorem Analyzer.checkText_moved (analyzer : Analyzer) {module : Module}
    (parsed : module.isParsed = true) (path : String) (lines : Nat) {findings : List Finding}
    (checked : analyzer.checkText (.ok module) path = .ok findings) :
    ∃ moved, analyzer.checkText (.ok (module.moved lines)) path = .ok moved ∧
      if analyzer.rule.namesLine then
        List.Forall₂ (Finding.NamesLine path lines) findings moved
      else moved.map (·.fingerprint) = findings.map (·.fingerprint) := by
  have moved := violations_moved lines analyzer.options parsed Cohesion.Rounding.binary64
  have ofRule := fun violations => @RuleOptions.isOf_of_violations analyzer.options module
    Cohesion.Rounding.binary64 violations
  have sameShift : analyzer.rule.namesLine = true → analyzer.options.shift lines = lines := by
    unfold Analyzer.rule
    cases analyzer.options <;>
      simp [RuleOptions.rule, RuleOptions.shift, Rule.namesLine, Rule.ids, RuleId.namesLine]
  obtain ⟨usable, violations, reported, encodable, rfl⟩ := checkText_eq_ok_iff.mp checked
  obtain ⟨others, reportedMoved, moves⟩ : ∃ others,
      analyzer.options.violations (module.moved lines) = .ok others ∧
        List.Forall₂ (Violation.Moves (analyzer.options.shift lines)) violations others := by
    rw [reported] at moved
    generalize analyzer.options.violations (module.moved lines) = after at moved ⊢
    cases moved with
    | ok moves => exact ⟨_, rfl, moves⟩
  have isOf := RuleOptions.isOf_of_violations reported
  have found : List.Forall₂ (analyzer.FindingsMove path (analyzer.options.shift lines))
      (violations.map (analyzer.findingOf path)) (others.map (analyzer.findingOf path)) := by
    rw [List.forall₂_map_left_iff, List.forall₂_map_right_iff]
    exact ((List.forall₂_and_left _ _).mpr ⟨isOf, moves⟩).imp fun violation other both =>
      ⟨violation, other, both.1, both.2, rfl, rfl⟩
  have keeps := numbered_moved sameShift found
  refine ⟨_, checkText_eq_ok_iff.mpr ⟨usable, others, reportedMoved,
    fingerprintError?_moved moves path encodable, rfl⟩, ?_⟩
  split
  · rename_i names
    exact keeps.imp fun _ _ kept => by simpa only [Rule.Keeps, names, if_true] using kept
  · rename_i names
    rw [← List.forall₂_eq_eq_eq, List.forall₂_map_left_iff, List.forall₂_map_right_iff]
    exact keeps.flip.imp fun _ _ kept => by simpa [Rule.Keeps, names, Function.flip_def] using kept

/-- A module of one branch, which is too deep for an analyzer that allows no depth. -/
def oneBranch : Module :=
  ⟨[.ifStmt ⟨1, 0, some 2⟩ (.name ⟨1, 3, some 1⟩ "ready" .load) [.passStmt ⟨2, 4, some 2⟩] []]⟩

/-- The analyzer that allows no control statement at all. -/
def noControl : Analyzer := ⟨.nesting ⟨0⟩, .medium⟩

/-- The branch is found one line further down as well, under a fingerprint of another line. -/
theorem checkText_oneBranch :
    oneBranch.isParsed = true ∧
    ∃ findings, noControl.checkText (.ok oneBranch) "main.py" = .ok findings ∧
      findings.length = 1 ∧
      ∃ moved, noControl.checkText (.ok (oneBranch.moved 1)) "main.py" = .ok moved ∧
        if noControl.rule.namesLine then
          List.Forall₂ (Finding.NamesLine "main.py" 1) findings moved
        else moved.map (·.fingerprint) = findings.map (·.fingerprint) := by
  have parsed : oneBranch.isParsed = true := by decide
  have encodable : Analyzer.fingerprintError? "main.py"
      (Check.deepNesting ⟨0⟩ oneBranch.tree) = none := by
    refine fingerprintError?_eq_none ?_
    decide +kernel
  have checked := checkText_eq_ok_iff.mpr
    ⟨by decide, Check.deepNesting ⟨0⟩ oneBranch.tree,
      (rfl : noControl.options.violations oneBranch = _),
      encodable, rfl⟩
  refine ⟨parsed, _, checked, ?_, noControl.checkText_moved parsed "main.py" 1 checked⟩
  have found : (Check.deepNesting ⟨0⟩ oneBranch.tree).length = 1 := by decide
  simp [Analyzer.numbered, inSourceOrder, found]

end DesignLint
