import DesignLint.Proofs.Cohesion.MemberCredit
import DesignLint.Proofs.Cohesion.NameCredit

/-!
# Frames of blocks

Opening a block puts an empty frame on its unit, and closing it turns the frame into a
block. A unit or block that has just been reached has used nothing.
-/

namespace DesignLint.Cohesion

open DesignLint.Syntax

variable {tree : SyntaxTree} {place unit block other : SyntaxPlace}
variable {places late path : List SyntaxPlace}

/-! ## Opening and closing blocks -/

theorem isBlockOf_eq_false_of_homeOf?_ne (has : tree.HasPlace block) (unitHas : tree.HasPlace unit)
    (away : homeOf? block ≠ some unit) : isBlockOf unit block = false := by
  rw [Bool.eq_false_iff]
  exact fun isBlock => away (homeOf?_eq_some_of_isBlockOf has unitHas isBlock)

theorem isBlockOf_eq_false_of_not_mem_around (has : tree.HasPlace block)
    (unitHas : tree.HasPlace unit) (apart : unit ∉ block.around) : isBlockOf unit block = false :=
  isBlockOf_eq_false_of_homeOf?_ne has unitHas fun home =>
    apart (mem_around_of_mem_unitsAround (mem_unitsAround_of_homeOf?_eq_some home))

/-- A block being entered puts its frame on its unit. -/
theorem openUnitAt_cons_of_isBlockOf (isBlock : isBlockOf unit block = true) :
    openUnitAt places late (block :: path) unit =
      { openUnitAt places late path unit with
        frames := usageOf places block :: (openUnitAt places late path unit).frames } := by
  simp [openUnitAt, isBlock]

theorem openUnitAt_cons_of_not_isBlockOf (notBlock : isBlockOf unit block = false) :
    openUnitAt places late (block :: path) unit = openUnitAt places late path unit := by
  simp [openUnitAt, notBlock]

theorem numberedBlocks_append_singleton (frames : List OpenBlock) (frame : OpenBlock) :
    numberedBlocks (frames ++ [frame]) =
      numberedBlocks frames ++ (frame.extract? (numberedBlocks frames).length).toList := by
  simp [numberedBlocks]

/-- A block being left becomes a block of its unit. -/
theorem addBlock_openUnitAt (isBlock : isBlockOf unit block = true) :
    ((openUnitAt places late path unit).addBlock (usageOf places block)).1 =
      openUnitAt places (late ++ [block]) path unit := by
  have blocksEq : (openUnitAt places (late ++ [block]) path unit).blocks =
      (openUnitAt places late path unit).blocks ++
        ((usageOf places block).extract?
          (openUnitAt places late path unit).blocks.length).toList := by
    simp [openUnitAt, unitAt, isBlock, numberedBlocks_append_singleton]
  have stage : (openUnitAt places late path unit).stage = .accumulating := rfl
  have rest : openUnitAt places (late ++ [block]) path unit =
      { openUnitAt places late path unit with
        blocks := (openUnitAt places (late ++ [block]) path unit).blocks } := rfl
  rw [rest, blocksEq, CodeUnit.addBlock, if_pos stage]
  cases (usageOf places block).extract? (openUnitAt places late path unit).blocks.length <;> simp

theorem unitAt_append_of_not_isBlockOf (notBlock : isBlockOf unit block = false) :
    unitAt places (late ++ [block]) unit = unitAt places late unit := by
  simp [unitAt, notBlock]

theorem openUnitAt_append_of_not_isBlockOf (notBlock : isBlockOf unit block = false) :
    openUnitAt places (late ++ [block]) path unit = openUnitAt places late path unit := by
  simp [openUnitAt, unitAt_append_of_not_isBlockOf notBlock]

theorem homeOf?_ne_of_mem_unitsAside (parked : unit ∈ unitsAside place) :
    homeOf? place ≠ some unit := by
  intro home
  have inside := (List.mem_filter.mp (mem_unitsAround_of_homeOf?_eq_some home)).2
  have outside := (List.mem_filter.mp parked).2
  simp only [isUnitAround, isUnitAside, Bool.and_eq_true, Bool.not_eq_true'] at inside outside
  simp [inside.2] at outside

/-- The units that a place lies in, split into the nearest one and the others, of which
the place is no block. -/
theorem unitsAround_eq_nil_or_cons (has : tree.HasPlace place) :
    unitsAround place = [] ∨ ∃ home outer, unitsAround place = home :: outer ∧
      homeOf? place = some home ∧ (kindAt? home).isSome ∧
      ∀ unit ∈ outer, isBlockOf unit place = false := by
  cases units : unitsAround place with
  | nil => exact .inl rfl
  | cons home outer =>
      have homeEq : homeOf? place = some home := by simp [homeOf?, units]
      have distinct : (home :: outer).Nodup := by
        rw [← units]
        exact has.nodup_around.filter _
      refine .inr ⟨home, outer, rfl, homeEq,
        kindAt?_isSome_of_mem_unitsAround (units ▸ List.mem_cons_self), ?_⟩
      intro unit member
      have within : unit ∈ unitsAround place := by simp [units, member]
      refine isBlockOf_eq_false_of_homeOf?_ne has
        (has.around (mem_around_of_mem_unitsAround within)) fun same => ?_
      rw [homeEq, Option.some.injEq] at same
      exact (List.nodup_cons.mp distinct).1 (same ▸ member)

theorem map_openUnitAt_cons_of_not_isBlockOf {units : List SyntaxPlace}
    (notBlock : ∀ unit ∈ units, isBlockOf unit place = false) :
    units.map (openUnitAt places late (place :: path)) = units.map (openUnitAt places late path) :=
  List.map_congr_left fun unit member => openUnitAt_cons_of_not_isBlockOf (notBlock unit member)

theorem map_openUnitAt_append_of_not_isBlockOf {units : List SyntaxPlace}
    (notBlock : ∀ unit ∈ units, isBlockOf unit place = false) :
    units.map (openUnitAt places (late ++ [place]) path) =
      units.map (openUnitAt places late path) :=
  List.map_congr_left fun unit member => openUnitAt_append_of_not_isBlockOf (notBlock unit member)

theorem isBlockOf_of_control (control : isControl place = true) (home : homeOf? place = some unit) :
    isBlockOf unit place = decide (kindAt? unit = some .function) := by
  have noMethod := methodAt?_eq_none_of_kindAt?_eq_none (kindAt?_eq_none_of_isControl control)
  cases kindEq : kindAt? unit with
  | none => simp [isBlockOf, kindEq]
  | some kind => cases kind <;> simp [isBlockOf, kindEq, control, noMethod, home]

/-- The nearest unit of a method is its class. -/
theorem home_of_methodAt? (stands : StandsForSyntax tree) (has : tree.HasPlace place)
    (method : (methodAt? place).isSome) (home : homeOf? place = some unit) :
    kindAt? unit = some .class ∧ isBlockOf unit place = true := by
  obtain ⟨above, aboveHas, isClass, isBlock, -⟩ := exists_isBlockOf_of_methodAt? stands has method
  rw [homeOf?_eq_some_of_isBlockOf has aboveHas isBlock] at home
  cases home
  exact ⟨isClass, isBlock⟩

theorem isBlockOf_eq_false_of_plain (notControl : isControl place = false)
    (noMethod : methodAt? place = none) : isBlockOf unit place = false := by
  simp only [isBlockOf, notControl, noMethod]
  split <;> simp

section Frames

variable {κ : Type} {state : OpenUnits κ} {type : BlockType} {span : Span} {info : Method}

/-- A control block that is closed leaves its function as it was, with one more block. -/
theorem closeBlock_cons {unit : CodeUnit} {units aside : List CodeUnit} {headers : List κ}
    (function : unit.kind = .function) (top : unit.frames ≠ []) (frame : OpenBlock) :
    (OpenUnits.closeBlock
        ⟨{ unit with frames := frame :: unit.frames } :: units, aside, headers⟩).1 =
      ⟨(unit.addBlock frame).1 :: units, aside, headers⟩ := by
  obtain ⟨kind, name, span, receiver, blocks, declared, frames, stage⟩ := unit
  obtain rfl : kind = .function := function
  cases frames with
  | nil => simp at top
  | cons next frames => rfl

/-- A method that is closed leaves its class as it was, with one more block. -/
theorem closeMethod_cons {unit : CodeUnit} {units aside : List CodeUnit} {headers : List κ}
    (isClass : unit.kind = .class) (frame : OpenBlock) :
    (OpenUnits.closeMethod
        ⟨{ unit with frames := frame :: unit.frames } :: units, aside, headers⟩).1 =
      ⟨(unit.addBlock frame).1 :: units, aside, headers⟩ := by
  obtain ⟨kind, name, span, receiver, blocks, declared, frames, stage⟩ := unit
  obtain rfl : kind = .class := isClass
  rfl

theorem openBlock_eq (has : tree.HasPlace place) (control : isControl place = true)
    (frame : usageOf places place = { type := some type, span := span })
    (opened : state.units = (unitsAround place).map (openUnitAt places late path)) :
    state.openBlock type span =
      { state with
        units := (unitsAround place).map (openUnitAt places late (place :: path)) } := by
  rcases unitsAround_eq_nil_or_cons has with units | ⟨home, outer, units, homeEq, isUnit, notBlock⟩
  · obtain ⟨openUnits, aside, headers⟩ := state
    obtain rfl : openUnits = [] := by simpa [units] using opened
    simp [OpenUnits.openBlock, units]
  · have kindEq := openUnitAt_kind places late path isUnit
    have isBlock := isBlockOf_of_control control homeEq
    rw [units] at opened
    rw [OpenUnits.openBlock, opened, List.map_cons, units, List.map_cons,
      map_openUnitAt_cons_of_not_isBlockOf notBlock]
    by_cases function : kindAt? home = some .function
    · rw [function, Option.some.injEq] at kindEq
      simp only [function, decide_true] at isBlock
      simp [kindEq, openUnitAt_cons_of_isBlockOf isBlock, frame]
    · simp only [function, decide_false] at isBlock
      rw [← kindEq, Option.some.injEq] at function
      simp only [function, if_false, openUnitAt_cons_of_not_isBlockOf isBlock, ← List.map_cons,
        ← opened]

theorem closeBlock_eq (has : tree.HasPlace place) (control : isControl place = true)
    (opened : state.units = (unitsAround place).map (openUnitAt places late (place :: path))) :
    state.closeBlock.1 =
      { state with
        units := (unitsAround place).map (openUnitAt places (late ++ [place]) path) } := by
  rcases unitsAround_eq_nil_or_cons has with units | ⟨home, outer, units, homeEq, isUnit, notBlock⟩
  · obtain ⟨openUnits, aside, headers⟩ := state
    obtain rfl : openUnits = [] := by simpa [units] using opened
    simp [OpenUnits.closeBlock, units]
  · have kindEq := openUnitAt_kind places late path isUnit
    have isBlock := isBlockOf_of_control control homeEq
    rw [units, List.map_cons, map_openUnitAt_cons_of_not_isBlockOf notBlock] at opened
    rw [units, List.map_cons, map_openUnitAt_append_of_not_isBlockOf notBlock]
    obtain ⟨openUnits, aside, headers⟩ := state
    by_cases function : kindAt? home = some .function
    · rw [function, Option.some.injEq] at kindEq
      simp only [function, decide_true] at isBlock
      have top : (openUnitAt places late path home).frames ≠ [] := by
        simp [openUnitAt, function]
      rw [openUnitAt_cons_of_isBlockOf isBlock] at opened
      obtain rfl := opened
      rw [closeBlock_cons kindEq top, addBlock_openUnitAt isBlock]
    · simp only [function, decide_false] at isBlock
      rw [openUnitAt_cons_of_not_isBlockOf isBlock] at opened
      rw [openUnitAt_append_of_not_isBlockOf isBlock]
      obtain rfl := opened
      rw [← kindEq, Option.some.injEq] at function
      simp only [OpenUnits.closeBlock]
      split
      · rename_i isFunction _
        exact (function isFunction).elim
      · rfl

theorem openMethod_eq (stands : StandsForSyntax tree) (has : tree.HasPlace place)
    (method : (methodAt? place).isSome)
    (frame : usageOf places place =
      { type := some .method
        span := span
        name := info.name
        receiver := info.receiver
        isConstructor := info.isConstructor })
    (opened : state.units = (unitsAround place).map (openUnitAt places late path)) :
    state.openMethod info.name span info.receiver info.isConstructor =
      { state with
        units := (unitsAround place).map (openUnitAt places late (place :: path)) } := by
  rcases unitsAround_eq_nil_or_cons has with units | ⟨home, outer, units, homeEq, isUnit, notBlock⟩
  · obtain ⟨above, -, -, -, -, around, -⟩ := exists_class_of_methodAt? stands has method
    simp [units] at around
  · obtain ⟨isClass, isBlock⟩ := home_of_methodAt? stands has method homeEq
    have kindEq := openUnitAt_kind places late path isUnit
    rw [isClass, Option.some.injEq] at kindEq
    rw [units] at opened
    rw [OpenUnits.openMethod, opened, List.map_cons, units, List.map_cons,
      map_openUnitAt_cons_of_not_isBlockOf notBlock]
    simp [kindEq, openUnitAt_cons_of_isBlockOf isBlock, frame]

theorem closeMethod_eq (stands : StandsForSyntax tree) (has : tree.HasPlace place)
    (method : (methodAt? place).isSome)
    (opened : state.units = (unitsAround place).map (openUnitAt places late (place :: path))) :
    state.closeMethod.1 =
      { state with
        units := (unitsAround place).map (openUnitAt places (late ++ [place]) path) } := by
  rcases unitsAround_eq_nil_or_cons has with units | ⟨home, outer, units, homeEq, isUnit, notBlock⟩
  · obtain ⟨above, -, -, -, -, around, -⟩ := exists_class_of_methodAt? stands has method
    simp [units] at around
  · obtain ⟨isClass, isBlock⟩ := home_of_methodAt? stands has method homeEq
    have kindEq := openUnitAt_kind places late path isUnit
    rw [isClass, Option.some.injEq] at kindEq
    rw [units, List.map_cons, map_openUnitAt_cons_of_not_isBlockOf notBlock,
      openUnitAt_cons_of_isBlockOf isBlock] at opened
    rw [units, List.map_cons, map_openUnitAt_append_of_not_isBlockOf notBlock]
    obtain ⟨openUnits, aside, headers⟩ := state
    obtain rfl := opened
    rw [closeMethod_cons kindEq, addBlock_openUnitAt isBlock]

end Frames

/-! ## Units just reached -/

theorem not_mem_around_of_mem_path (has : tree.HasPlace place) (on : other ∈ place.path) :
    place ∉ other.around := by
  intro inside
  have above := (has.address_prefix_of_mem_path on).length_le
  have below := ((has.of_mem_path on).address_of_mem_around inside).2
  omega

section Unseen

variable (has : tree.HasPlace place)
  (unseen : ∀ other ∈ places, tree.HasPlace other ∧ place ∉ other.around)

include has unseen

theorem namesUsed_eq_nil_of_unseen (credit : Credit) :
    namesUsed places place.address credit = [] := by
  have noneUsed : places.filterMap (usedName? place.address credit) = [] :=
    List.filterMap_eq_nil_iff.mpr fun other member =>
      usedName?_eq_none_of_not_mem_around (unseen other member).1 has (unseen other member).2 credit
  simp [namesUsed, noneUsed, NameSet.ofNames]

theorem membersUsed_eq_nil_of_unseen : membersUsed places place.address = [] := by
  have noneUsed : places.filterMap (usedMember? place.address) = [] :=
    List.filterMap_eq_nil_iff.mpr fun other member =>
      usedMember?_eq_none_of_not_mem_around (unseen other member).1 has (unseen other member).2
  simp [membersUsed, noneUsed, NameSet.ofNames]

/-- A block that has just been reached has used nothing. -/
theorem usageOf_eq_of_unseen : usageOf places place = usageOf [] place := by
  have fresh : ∀ other ∈ ([] : List SyntaxPlace), tree.HasPlace other ∧ place ∉ other.around := by
    simp
  simp only [usageOf, namesUsed_eq_nil_of_unseen has unseen,
    membersUsed_eq_nil_of_unseen has unseen, namesUsed_eq_nil_of_unseen has fresh,
    membersUsed_eq_nil_of_unseen has fresh]

/-- A unit that has just been reached is empty. -/
theorem openUnitAt_eq_of_unseen (lateListed : ∀ other ∈ late, other ∈ places) :
    openUnitAt places late place.path place = openUnitAt [] [] [] place := by
  have fresh : ∀ other ∈ ([] : List SyntaxPlace), tree.HasPlace other ∧ place ∉ other.around := by
    simp
  have noBlock : late.filter (isBlockOf place) = [] :=
    List.filter_eq_nil_iff.mpr fun other member => by
      have below := unseen other (lateListed other member)
      simp [isBlockOf_eq_false_of_not_mem_around below.1 has below.2]
  have noFrame : place.path.filter (isBlockOf place) = [] :=
    List.filter_eq_nil_iff.mpr fun other on => by
      simp [isBlockOf_eq_false_of_not_mem_around (has.of_mem_path on) has
        (not_mem_around_of_mem_path has on)]
  simp only [openUnitAt, unitAt, topLevelOf, noBlock, noFrame, List.filter_nil, List.map_nil,
    namesUsed_eq_nil_of_unseen has unseen, namesUsed_eq_nil_of_unseen has fresh]

end Unseen

end DesignLint.Cohesion
