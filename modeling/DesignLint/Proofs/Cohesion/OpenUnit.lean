import DesignLint.Proofs.Cohesion.Attribution
import DesignLint.Proofs.Cohesion.NameSet

/-!
# Units in the middle of a traversal

The unit at a place as far as a traversal has come: with the names and members of the
places reached, the blocks of the places left, and frames for the blocks on the way.
A new place changes only the blocks around it.
-/

namespace DesignLint.Cohesion

open DesignLint.Syntax

variable {tree : SyntaxTree} {place unit block other : SyntaxPlace}

/-! ## Homes -/

theorem kindAt?_isSome_of_mem_unitsAround (opened : unit ∈ unitsAround place) :
    (kindAt? unit).isSome = true := by
  have around := (List.mem_filter.mp opened).2
  simp only [isUnitAround, Bool.and_eq_true] at around
  exact around.1

theorem mem_around_of_mem_unitsAround (opened : unit ∈ unitsAround place) : unit ∈ place.around :=
  (List.mem_filter.mp opened).1

theorem mem_unitsAround_of_homeOf?_eq_some (home : homeOf? place = some unit) :
    unit ∈ unitsAround place :=
  List.mem_of_mem_head? (by rw [← homeOf?, home]; rfl)

theorem homeOf?_eq_some_of_isBlockOf (has : tree.HasPlace block) (unitHas : tree.HasPlace unit)
    (isBlock : isBlockOf unit block = true) : homeOf? block = some unit := by
  simp only [isBlockOf, Bool.and_eq_true, Option.any_eq_true, beq_iff_eq] at isBlock
  obtain ⟨-, home, homeEq, same⟩ := isBlock
  have around := mem_around_of_mem_unitsAround (mem_unitsAround_of_homeOf?_eq_some homeEq)
  rw [homeEq, (has.around around).eq_of_address_eq unitHas same]

/-- A block belongs to one unit. -/
theorem eq_of_isBlockOf (has : tree.HasPlace block) (unitHas : tree.HasPlace unit)
    (otherHas : tree.HasPlace other) (isBlock : isBlockOf unit block = true)
    (otherBlock : isBlockOf other block = true) : unit = other := by
  have home := homeOf?_eq_some_of_isBlockOf has unitHas isBlock
  rw [homeOf?_eq_some_of_isBlockOf has otherHas otherBlock] at home
  cases home
  rfl

theorem isControl_of_isBlockOf (function : kindAt? unit = some .function)
    (isBlock : isBlockOf unit block = true) : isControl block = true := by
  simp only [isBlockOf, function, Bool.and_eq_true] at isBlock
  exact isBlock.1

theorem kindAt?_eq_none_of_isControl (control : isControl block = true) : kindAt? block = none := by
  obtain ⟨type, span, element⟩ := isControl_iff.mp control
  rw [kindAt?, element]

/-! ## Spots -/

/-- The spot of a place is its nearest function or a block of that function around
the place. -/
theorem exists_of_spotOf?_eq_some {spot : Address} (spotEq : spotOf? place = some spot) :
    ∃ home outer, homeOf? place = some home ∧ kindAt? home = some .function ∧
      outer ∈ place.around ∧ outer.address = spot ∧
      (outer = home ∧ place.around.find? (isBlockOf home) = none ∨
        place.around.find? (isBlockOf home) = some outer) := by
  unfold spotOf? at spotEq
  split at spotEq
  · rename_i home homeEq
    split at spotEq
    · rename_i function
      cases found : place.around.find? (isBlockOf home) with
      | none =>
          have around := mem_around_of_mem_unitsAround (mem_unitsAround_of_homeOf?_eq_some homeEq)
          exact ⟨home, home, homeEq, function, around, by simpa [found] using spotEq,
            .inl ⟨rfl, found⟩⟩
      | some outer =>
          exact ⟨home, outer, homeEq, function, List.mem_of_find?_eq_some found,
            by simpa [found] using spotEq, .inr found⟩
    · simp at spotEq
  · simp at spotEq

theorem usedName?_eq_none_of_spotOf?_ne {spot : Address} {credit : Credit}
    (elsewhere : spotOf? place ≠ some spot) : usedName? spot credit place = none := by
  unfold usedName?
  split <;> simp [elsewhere]

/-- A place uses names only for spots around it. -/
theorem usedName?_eq_none_of_not_mem_around (has : tree.HasPlace place)
    (otherHas : tree.HasPlace other) (apart : other ∉ place.around) (credit : Credit) :
    usedName? other.address credit place = none := by
  apply usedName?_eq_none_of_spotOf?_ne
  intro spotEq
  obtain ⟨-, outer, -, -, around, same, -⟩ := exists_of_spotOf?_eq_some spotEq
  exact apart ((has.around around).eq_of_address_eq otherHas same ▸ around)

/-- A place uses members only for methods around it. -/
theorem usedMember?_eq_none_of_not_mem_around (has : tree.HasPlace place)
    (otherHas : tree.HasPlace other) (apart : other ∉ place.around) :
    usedMember? other.address place = none := by
  unfold usedMember?
  split
  · rename_i receiver member access
    rw [if_neg]
    intro inCharge
    obtain ⟨method, found, same⟩ := Option.map_eq_some_iff.mp inCharge
    have around := List.mem_of_find?_eq_some found
    exact apart ((has.around around).eq_of_address_eq otherHas same ▸ around)
  · rfl

/-! ## One more place -/

variable {places : List SyntaxPlace}

theorem namesUsed_append_of_eq_none {spot : Address} {credit : Credit}
    (unused : usedName? spot credit place = none) :
    namesUsed (places ++ [place]) spot credit = namesUsed places spot credit := by
  simp [namesUsed, unused]

theorem namesUsed_append_of_eq_some {spot : Address} {credit : Credit} {name : String}
    (used : usedName? spot credit place = some name) :
    namesUsed (places ++ [place]) spot credit = (namesUsed places spot credit).add name := by
  simp [namesUsed, used, NameSet.ofNames_append_singleton]

theorem membersUsed_append_of_eq_none {method : Address}
    (unused : usedMember? method place = none) :
    membersUsed (places ++ [place]) method = membersUsed places method := by
  simp [membersUsed, unused]

theorem membersUsed_append_of_eq_some {method : Address} {member : String}
    (used : usedMember? method place = some member) :
    membersUsed (places ++ [place]) method = (membersUsed places method).add member := by
  simp [membersUsed, used, NameSet.ofNames_append_singleton]

/-- The usage of a block does not change by a place that uses nothing for it. -/
theorem usageOf_append_of_unused
    (names : isControl block = true → ∀ credit, usedName? block.address credit place = none)
    (member : (methodAt? block).isSome → usedMember? block.address place = none) :
    usageOf (places ++ [place]) block = usageOf places block := by
  unfold usageOf
  split
  · rename_i type span element
    have control : isControl block = true := by simp [isControl, element]
    rw [namesUsed_append_of_eq_none (names control _),
      namesUsed_append_of_eq_none (names control _)]
  · rename_i element
    have method : (methodAt? block).isSome := by simp [methodAt?, element]
    rw [membersUsed_append_of_eq_none (member method)]
  · rfl

theorem usageOf_append_of_not_mem_around (has : tree.HasPlace place)
    (blockHas : tree.HasPlace block) (apart : block ∉ place.around) :
    usageOf (places ++ [place]) block = usageOf places block :=
  usageOf_append_of_unused
    (fun _ credit => usedName?_eq_none_of_not_mem_around has blockHas apart credit)
    (fun _ => usedMember?_eq_none_of_not_mem_around has blockHas apart)

/-! ## Open units -/

/-- What the top level of a function uses. -/
def topLevelOf (places : List SyntaxPlace) (unit : SyntaxPlace) : OpenBlock :=
  { type := none
    span := spanAt unit
    reads := namesUsed places unit.address .read
    writes := namesUsed places unit.address .write }

/-- The unit at a place while a traversal stands below it: the closed blocks, and a
frame for each block on the way. -/
def openUnitAt (places late path : List SyntaxPlace) (unit : SyntaxPlace) : CodeUnit :=
  { unitAt places late unit with
    frames := (path.filter (isBlockOf unit)).map (usageOf places) ++
      if kindAt? unit = some .function then [topLevelOf places unit] else []
    stage := .accumulating }

variable {late path : List SyntaxPlace}

theorem openUnitAt_kind (places late path : List SyntaxPlace) (isUnit : (kindAt? unit).isSome) :
    some (openUnitAt places late path unit).kind = kindAt? unit := by
  obtain ⟨kind, kindEq⟩ := Option.isSome_iff_exists.mp isUnit
  simp [openUnitAt, unitAt, kindEq]

theorem map_usageOf_append_of_closed
    (closed : ∀ block ∈ late, usageOf (places ++ [place]) block = usageOf places block)
    (unit : SyntaxPlace) :
    (late.filter (isBlockOf unit)).map (usageOf (places ++ [place])) =
      (late.filter (isBlockOf unit)).map (usageOf places) :=
  List.map_congr_left fun block member => closed block (List.mem_filter.mp member).1

/-- An open unit does not change by a place that uses nothing for it. -/
theorem openUnitAt_append_of_unused (closed : ∀ block ∈ late, usageOf (places ++ [place]) block =
      usageOf places block)
    (frames : ∀ block ∈ path, isBlockOf unit block → usageOf (places ++ [place]) block =
      usageOf places block)
    (top : kindAt? unit = some .function → ∀ credit, usedName? unit.address credit place = none) :
    openUnitAt (places ++ [place]) late path unit = openUnitAt places late path unit := by
  have blocksEq := map_usageOf_append_of_closed closed unit
  have framesEq : (path.filter (isBlockOf unit)).map (usageOf (places ++ [place])) =
      (path.filter (isBlockOf unit)).map (usageOf places) :=
    List.map_congr_left fun block member =>
      frames block (List.mem_filter.mp member).1 (List.mem_filter.mp member).2
  by_cases function : kindAt? unit = some .function
  · have namesEq (credit : Credit) : namesUsed (places ++ [place]) unit.address credit =
        namesUsed places unit.address credit :=
      namesUsed_append_of_eq_none (top function credit)
    simp [openUnitAt, unitAt, topLevelOf, blocksEq, framesEq, namesEq]
  · simp [openUnitAt, unitAt, blocksEq, framesEq, function]

theorem usedName?_eq_none_of_nameAt? {spot : Address} {credit : Credit}
    (noName : nameAt? place = none) :
    usedName? spot credit place = none := by
  simp [usedName?, noName]

theorem usedMember?_eq_none_of_accessAt? {method : Address} (noAccess : accessAt? place = none) :
    usedMember? method place = none := by
  simp [usedMember?, noAccess]

theorem openUnitAt_append_of_idle (noName : nameAt? place = none)
    (noAccess : accessAt? place = none) :
    openUnitAt (places ++ [place]) late path unit = openUnitAt places late path unit := by
  have same (block : SyntaxPlace) : usageOf (places ++ [place]) block = usageOf places block :=
    usageOf_append_of_unused (fun _ _ => usedName?_eq_none_of_nameAt? noName)
      (fun _ => usedMember?_eq_none_of_accessAt? noAccess)
  exact openUnitAt_append_of_unused (fun block _ => same block) (fun block _ _ => same block)
    (fun _ _ => usedName?_eq_none_of_nameAt? noName)

end DesignLint.Cohesion
