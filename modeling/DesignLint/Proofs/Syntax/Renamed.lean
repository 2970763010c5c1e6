import DesignLint.Proofs.Syntax.Edited
import DesignLint.Syntax.Names
import DesignLint.Text.Search
import Mathlib.Data.List.TakeWhile
import Mathlib.Logic.Equiv.Basic

/-!
# Code with other names

A renaming gives every identifier of a piece of code another name, and no two the same. What the
syntax makes of names follows the renaming: what an import binds, which method is static, and
which name a method gives to its object.
-/

namespace DesignLint.Syntax

/-! ## Renamings -/

/-- Whether a character may stand in an identifier. -/
def isIdentifierCharacter (c : Char) : Bool := c == '_' || c.isAlphanum || decide (127 < c.toNat)

/-- Whether a text has the form of an identifier. -/
def isIdentifier (text : String) : Bool :=
  !text.isEmpty && text.toList.all isIdentifierCharacter

/-- The identifiers that mean something to the analysis of cohesion. -/
def meaningfulNames : List String := ["__init__", "__new__", "staticmethod"]

/-- A renaming of identifiers. Texts that are none stay as they are, and so do the identifiers that
mean something. The names of keyword arguments are not looked at, and may become anything. -/
structure Renaming where
  apply : String → String
  injective : Function.Injective apply
  others : ∀ text, isIdentifier text = false → apply text = text
  kept : ∀ name ∈ meaningfulNames, apply name = name
  keyword : String → String

namespace Renaming

/-- The renaming that exchanges two identifiers. -/
def swap (first second : String)
    (identifiers : ∀ name ∈ [first, second], isIdentifier name = true)
    (free : ∀ name ∈ [first, second], name ∉ meaningfulNames) : Renaming where
  apply := Equiv.swap first second
  injective := (Equiv.swap first second).injective
  others text none := by
    apply Equiv.swap_apply_of_ne_of_ne <;> rintro rfl <;> simp [none] at identifiers
  kept name listed := by
    apply Equiv.swap_apply_of_ne_of_ne <;> rintro rfl <;> simp [listed] at free
  keyword := id

variable (fresh : Renaming)

/-- The edit that renames: dotted names are renamed component by component. -/
def edit : Edit where
  position := id
  name := fresh.apply
  keyword := fresh.keyword
  dotted text := ".".intercalate ((splitText '.' text).map fresh.apply)

@[simp]
theorem name_edit : fresh.edit.name = fresh.apply :=
  rfl

@[simp]
theorem position_edit (position : Position) : fresh.edit.position position = position :=
  rfl

/-! ## Single names -/

variable {fresh} {name other : String}

theorem apply_eq_apply_iff : fresh.apply name = fresh.apply other ↔ name = other :=
  fresh.injective.eq_iff

/-- A name that a renaming keeps is the new name of no other one. -/
theorem apply_eq_iff_of_fixed (fixed : fresh.apply other = other) :
    fresh.apply name = other ↔ name = other := by
  constructor
  · intro equal
    exact fresh.injective (equal.trans fixed.symm)
  · rintro rfl
    exact fixed

theorem apply_beq_of_mem (meaningful : other ∈ meaningfulNames) :
    (fresh.apply name == other) = (name == other) := by
  rw [Bool.eq_iff_iff, beq_iff_eq, beq_iff_eq,
    apply_eq_iff_of_fixed (fresh.kept other meaningful)]

/-- The new name of an identifier is an identifier. -/
theorem isIdentifier_apply (identifier : isIdentifier name = true) :
    isIdentifier (fresh.apply name) = true := by
  by_contra none
  have kept := fresh.others _ (Bool.not_eq_true _ ▸ none)
  rw [apply_eq_apply_iff] at kept
  exact none (kept.symm ▸ identifier)

theorem isIdentifier_eq_false_of_mem {c : Char} (within : c ∈ name.toList)
    (foreign : isIdentifierCharacter c = false) : isIdentifier name = false := by
  rw [isIdentifier, Bool.and_eq_false_iff]
  right
  rw [List.all_eq_false]
  exact ⟨c, within, by simp [foreign]⟩

@[simp]
theorem apply_empty : fresh.apply "" = "" :=
  fresh.others "" rfl

@[simp]
theorem apply_eq_empty_iff : fresh.apply name = "" ↔ name = "" :=
  apply_eq_iff_of_fixed apply_empty

@[simp]
theorem isEmpty_apply : (fresh.apply name).isEmpty = name.isEmpty := by
  rw [Bool.eq_iff_iff, String.isEmpty_iff, String.isEmpty_iff, apply_eq_empty_iff]

theorem apply_star : fresh.apply "*" = "*" :=
  fresh.others "*" (by decide)

/-! ## Dotted names -/

/-- No part of a dotted name gets a dot. -/
theorem noDot_apply (noDot : '.' ∉ name.toList) : '.' ∉ (fresh.apply name).toList := by
  cases identifier : isIdentifier name with
  | false => rwa [fresh.others name identifier]
  | true =>
      intro within
      have none := isIdentifier_eq_false_of_mem within rfl
      rw [isIdentifier_apply identifier] at none
      cases none

end Renaming

/-- The text before the first separator is the first piece. -/
theorem exists_pieces_eq_cons (separator : Char) (text : List Char) :
    ∃ rest, pieces separator text = text.takeWhile (· != separator) :: rest := by
  induction text with
  | nil => exact ⟨[], rfl⟩
  | cons c text inductionHypothesis =>
      obtain ⟨rest, split⟩ := inductionHypothesis
      rw [pieces]
      by_cases ends : c = separator
      · exact ⟨_, by simp [ends]; rfl⟩
      · exact ⟨rest, by simp [ends, split]⟩

theorem exists_splitText_eq_cons (dotted : String) :
    ∃ rest, splitText '.' dotted = firstComponent dotted :: rest := by
  obtain ⟨rest, split⟩ := exists_pieces_eq_cons '.' dotted.toList
  exact ⟨rest.map String.ofList, by rw [splitText, split]; rfl⟩

theorem noDot_firstComponent (dotted : String) : '.' ∉ (firstComponent dotted).toList := by
  rw [firstComponent, String.toList_ofList]
  intro within
  have before := List.mem_takeWhile_imp within
  simp at before

/-- A name without dots in front of others is their first component. -/
theorem firstComponent_intercalate {name : String} (noDot : '.' ∉ name.toList)
    (names : List String) : firstComponent (".".intercalate (name :: names)) = name := by
  have ahead : ∀ c ∈ name.toList, (c != '.') = true := by
    intro c within
    simp only [bne_iff_ne]
    rintro rfl
    exact noDot within
  rw [firstComponent]
  cases names with
  | nil =>
      rw [String.intercalate_singleton, List.takeWhile_eq_self_iff.mpr ahead, String.ofList_toList]
  | cons second names =>
      rw [String.intercalate_cons_cons, String.toList_append, String.toList_append,
        List.append_assoc, List.takeWhile_append_of_pos ahead]
      simp

namespace Renaming

variable {fresh : Renaming}

@[simp]
theorem firstComponent_edit (dotted : String) :
    firstComponent (fresh.edit.dotted dotted) = fresh.apply (firstComponent dotted) := by
  obtain ⟨rest, split⟩ := exists_splitText_eq_cons dotted
  simp only [edit, split, List.map_cons]
  exact firstComponent_intercalate (noDot_apply (noDot_firstComponent dotted)) _

end Renaming

section Renamed

variable (fresh : Renaming)

@[simp]
theorem Alias.boundName_renamed (item : Alias) :
    (item.edited fresh.edit).boundName = fresh.apply item.boundName := by
  obtain ⟨position, name, asName⟩ := item
  cases asName with
  | none => simp [Alias.edited, Alias.boundName]
  | some other =>
      by_cases empty : other.isEmpty <;> simp [Alias.edited, Alias.boundName, empty]

/-! ## Receivers -/

@[simp]
theorem isStaticDecorator_renamed (decorator : Expr) :
    isStaticDecorator (decorator.edited fresh.edit) = isStaticDecorator decorator := by
  have static (name : String) :
      (fresh.apply name == "staticmethod") = (name == "staticmethod") :=
    Renaming.apply_beq_of_mem (by simp [meaningfulNames])
  cases decorator <;> simp [Expr.edited, isStaticDecorator, static]

theorem Parameters.positional_edited (edit : Edit) (parameters : Parameters) :
    (parameters.edited edit).positional = parameters.positional.map (Parameter.edited edit) := by
  cases parameters
  simp [Parameters.edited, Parameters.positional]

@[simp]
theorem selfName_renamed (parameters : Parameters) (decorators : List Expr) :
    selfName (parameters.edited fresh.edit) (decorators.map (Expr.edited fresh.edit)) =
      (selfName parameters decorators).map fresh.apply := by
  have sameStatic : (decorators.map (Expr.edited fresh.edit)).any isStaticDecorator =
      decorators.any isStaticDecorator := by
    simp [List.any_map, Function.comp_def]
  rw [selfName, sameStatic, selfName]
  split
  · rfl
  · simp [Parameters.positional_edited, List.head?_map, Function.comp_def]

end Renamed

end DesignLint.Syntax
