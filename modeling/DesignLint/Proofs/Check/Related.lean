import DesignLint.Check.Violation
import DesignLint.Proofs.Outcome
import DesignLint.Proofs.Syntax.Moved
import Mathlib.Data.List.Forall2
import Mathlib.Data.List.Perm.Basic

/-!
# Related violations

Lists and computations whose results are related one by one, and the relation of
a violation to the one that moved code has in its place. Four checks make the
symbol of a violation from a line; these symbols change with the line.
-/

namespace DesignLint

open Syntax

/-! ## Related results -/

section Related

variable {α β γ ε : Type} {R : α → β → Prop}

theorem forall₂_filterMap {f : γ → Option α} {g : γ → Option β} {items : List γ}
    (related : ∀ item ∈ items, Option.Rel R (f item) (g item)) :
    List.Forall₂ R (items.filterMap f) (items.filterMap g) := by
  induction items with
  | nil => exact .nil
  | cons item items inductionHypothesis =>
      have rest := inductionHypothesis fun other member =>
        related other (List.mem_cons_of_mem item member)
      have first := related item List.mem_cons_self
      rw [List.filterMap_cons, List.filterMap_cons]
      cases left : f item <;> cases right : g item <;> rw [left, right] at first
      · exact rest
      · cases first
      · cases first
      · cases first with
        | some both => exact .cons both rest

theorem forall₂_flatMap {f : γ → List α} {g : γ → List β} {items : List γ}
    (related : ∀ item ∈ items, List.Forall₂ R (f item) (g item)) :
    List.Forall₂ R (items.flatMap f) (items.flatMap g) := by
  induction items with
  | nil => exact .nil
  | cons item items inductionHypothesis =>
      rw [List.flatMap_cons, List.flatMap_cons]
      exact List.rel_append (related item List.mem_cons_self)
        (inductionHypothesis fun other member => related other (List.mem_cons_of_mem item member))

theorem forall₂_map {f : γ → α} {g : γ → β} {items : List γ}
    (related : ∀ item ∈ items, R (f item) (g item)) :
    List.Forall₂ R (items.map f) (items.map g) := by
  rw [List.forall₂_map_left_iff, List.forall₂_map_right_iff]
  exact List.forall₂_same.mpr related

/-- What is made of some items of a list is related one by one to the items it is made of. -/
theorem forall₂_filter_filterMap {keep : α → Bool} {f : α → Option β} {items : List α}
    (each : ∀ item ∈ items,
      if keep item then ∃ made, f item = some made ∧ R item made else f item = none) :
    List.Forall₂ R (items.filter keep) (items.filterMap f) := by
  induction items with
  | nil => exact .nil
  | cons item items inductionHypothesis =>
      have rest := inductionHypothesis fun other member =>
        each other (List.mem_cons_of_mem item member)
      have first := each item List.mem_cons_self
      split at first
      · rename_i kept
        obtain ⟨made, found, related⟩ := first
        rw [List.filter_cons_of_pos kept, List.filterMap_cons_some found]
        exact .cons related rest
      · rename_i dropped
        rw [List.filter_cons_of_neg dropped, List.filterMap_cons_none first]
        exact rest

/-- What is related to the parts of some items is related to the items that have these parts. -/
theorem forall₂_of_filterMap {f : γ → Option α} {items : List γ} {made : List β}
    (each : ∀ item ∈ items, ∃ part, f item = some part)
    (related : List.Forall₂ R (items.filterMap f) made) :
    List.Forall₂ (fun item made => ∃ part, f item = some part ∧ R part made) items made := by
  induction items generalizing made with
  | nil =>
      cases related
      exact .nil
  | cons item items inductionHypothesis =>
      obtain ⟨part, found⟩ := each item List.mem_cons_self
      rw [List.filterMap_cons_some found] at related
      cases related with
      | cons first rest =>
          exact .cons ⟨part, found, first⟩ (inductionHypothesis
            (fun other member => each other (List.mem_cons_of_mem item member)) rest)

/-- What is made of some items one by one, in any order. -/
def ReportsEach (R : α → β → Prop) (items : List α) (made : List β) : Prop :=
  ∃ listed, List.Forall₂ R items listed ∧ listed.Perm made

/-- The items may be taken in any order. -/
theorem ReportsEach.of_perm {items listed : List α} {made : List β} (perm : items.Perm listed)
    (related : List.Forall₂ R listed made) : ReportsEach R items made :=
  List.perm_comp_forall₂ perm related

theorem forall₂_trans {S : β → γ → Prop} {items : List α} {made : List β} {others : List γ}
    (first : List.Forall₂ R items made) (second : List.Forall₂ S made others) :
    List.Forall₂ (fun item other => ∃ one, R item one ∧ S one other) items others := by
  induction first generalizing others with
  | nil =>
      cases second
      exact .nil
  | cons own _ inductionHypothesis =>
      cases second with
      | cons next rest => exact .cons ⟨_, own, next⟩ (inductionHypothesis rest)

/-- What is made one by one of what is made of some items is made of these items. -/
theorem ReportsEach.trans {S : β → γ → Prop} {items : List α} {made : List β} {others : List γ}
    (reports : ReportsEach R items made) (related : List.Forall₂ S made others) :
    ReportsEach (fun item other => ∃ one, R item one ∧ S one other) items others := by
  obtain ⟨listed, first, perm⟩ := reports
  obtain ⟨rest, second, restPerm⟩ := List.perm_comp_forall₂ perm related
  exact ⟨rest, forall₂_trans first second, restPerm⟩

/-- Two computations with the same error, or with related results. -/
inductive Corresponds (R : α → β → Prop) : Except ε α → Except ε β → Prop where
  | ok {a : α} {b : β} (related : R a b) : Corresponds R (.ok a) (.ok b)
  | error (e : ε) : Corresponds R (.error e) (.error e)

theorem corresponds_mapM {f : γ → Except ε α} {g : γ → Except ε β} {items : List γ}
    (related : ∀ item ∈ items, Corresponds R (f item) (g item)) :
    Corresponds (List.Forall₂ R) (items.mapM f) (items.mapM g) := by
  induction items with
  | nil => exact .ok .nil
  | cons item items inductionHypothesis =>
      have rest := inductionHypothesis fun other member =>
        related other (List.mem_cons_of_mem item member)
      have first := related item List.mem_cons_self
      rw [List.mapM_cons, List.mapM_cons]
      generalize f item = left at first ⊢
      generalize g item = right at first ⊢
      generalize items.mapM f = lefts at rest ⊢
      generalize items.mapM g = rights at rest ⊢
      cases first with
      | error e => exact .error e
      | ok both =>
          cases rest with
          | error e => exact .error e
          | ok others => exact .ok (.cons both others)

/-- Where all steps over a list together succeed, the results are those of the items in order. -/
theorem forall₂_of_mapM_eq_ok {f : α → Except ε β} {items : List α} {results : List β}
    (mapped : items.mapM f = .ok results) :
    List.Forall₂ (fun item result => f item = .ok result) items results := by
  induction items generalizing results with
  | nil =>
      cases mapped
      exact .nil
  | cons item items inductionHypothesis =>
      obtain ⟨result, others, first, later, rfl⟩ := mapM_cons_eq_ok_iff.mp mapped
      exact .cons first (inductionHypothesis later)

end Related

/-! ## Violations -/

/-- Whether the symbols of violations are made from a line. -/
def RuleId.namesLine : RuleId → Bool
  | .cpxConditional | .cpxNesting | .magNumber | .lateVariable => true
  | _ => false

/-- A symbol that is made from a line, and the one for some lines further down. -/
def LineMoves (lines : Nat) (before after : String) : Prop :=
  ∃ front line back, before = front ++ toString line ++ back ∧
    after = front ++ toString (line + lines : Nat) ++ back

/-- A violation, and the one that the moved code has in its place. -/
structure Violation.Moves (lines : Nat) (before after : Violation) : Prop where
  ruleId : after.ruleId = before.ruleId
  lineStart : after.lineStart = before.lineStart + lines
  column : after.column = before.column
  snippet : after.snippet = before.snippet
  symbol : if before.ruleId.namesLine then LineMoves lines before.symbol after.symbol
    else after.symbol = before.symbol

theorem placeSymbol_moved (lines : Nat) (position : Position) :
    LineMoves lines (placeSymbol position) (placeSymbol (position.moved lines)) :=
  ⟨"L", position.line, ":" ++ toString position.column, by
    simp [placeSymbol, String.append_assoc], by
    simp [placeSymbol, Position.moved, String.append_assoc]⟩

end DesignLint
