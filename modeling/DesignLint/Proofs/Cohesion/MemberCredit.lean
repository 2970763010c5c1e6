import DesignLint.Proofs.Cohesion.OpenUnit

/-!
# Crediting an access

Crediting an access to the first open class whose method has the receiver has the effect
that the place of the access has on the lexical description of the open units.
-/

namespace DesignLint.Cohesion

open DesignLint.Syntax

variable {tree : SyntaxTree} {place unit block other : SyntaxPlace}
variable {places late path : List SyntaxPlace}

/-! ## Members -/

theorem methodAt?_isSome_of_isBlockOf (isClass : kindAt? unit = some .class)
    (isBlock : isBlockOf unit block = true) : (methodAt? block).isSome = true := by
  simp only [isBlockOf, isClass, Bool.and_eq_true] at isBlock
  exact isBlock.1

theorem methodAt?_isSome_of_receiverAt? {receiver : String}
    (through : receiverAt? block = some receiver) : (methodAt? block).isSome = true := by
  obtain ⟨method, methodEq, -⟩ := Option.bind_eq_some_iff.mp through
  simp [methodEq]

/-- A method is a block of the class right above it. -/
theorem exists_isBlockOf_of_methodAt? (stands : StandsForSyntax tree) (has : tree.HasPlace block)
    (method : (methodAt? block).isSome) :
    ∃ unit, tree.HasPlace unit ∧ kindAt? unit = some .class ∧ isBlockOf unit block = true ∧
      block.around = unit.path ∧ block.address.length = unit.address.length + 1 := by
  obtain ⟨unit, unitHas, isClass, around, length, units, -⟩ :=
    exists_class_of_methodAt? stands has method
  exact ⟨unit, unitHas, isClass, by simp [isBlockOf, isClass, method, homeOf?, units], around,
    length⟩

theorem length_of_isBlockOf (stands : StandsForSyntax tree) (has : tree.HasPlace block)
    (unitHas : tree.HasPlace unit) (isClass : kindAt? unit = some .class)
    (isBlock : isBlockOf unit block = true) :
    block.address.length = unit.address.length + 1 := by
  obtain ⟨above, aboveHas, -, aboveBlock, -, length⟩ := exists_isBlockOf_of_methodAt? stands has
    (methodAt?_isSome_of_isBlockOf isClass isBlock)
  rwa [eq_of_isBlockOf has unitHas aboveHas isBlock aboveBlock]

/-- A class has at most one method around a place. -/
theorem filter_isBlockOf_eq_singleton (stands : StandsForSyntax tree) (has : tree.HasPlace place)
    (unitHas : tree.HasPlace unit) (isClass : kindAt? unit = some .class)
    (around : block ∈ place.around) (isBlock : isBlockOf unit block = true) :
    place.around.filter (isBlockOf unit) = [block] := by
  have listed : block ∈ place.around.filter (isBlockOf unit) :=
    List.mem_filter.mpr ⟨around, isBlock⟩
  have length (inner : SyntaxPlace) (member : inner ∈ place.around.filter (isBlockOf unit)) :
      inner.address.length = unit.address.length + 1 := by
    obtain ⟨innerAround, innerBlock⟩ := List.mem_filter.mp member
    exact length_of_isBlockOf stands (has.around innerAround) unitHas isClass innerBlock
  have apart := has.pairwise_around.filter (isBlockOf unit)
  cases blocks : place.around.filter (isBlockOf unit) with
  | nil => simp [blocks] at listed
  | cons first rest =>
      cases rest with
      | nil => simpa [blocks, eq_comm] using listed
      | cons second more =>
          rw [blocks] at apart length
          have shorter := (List.pairwise_cons.mp apart).1 second (by simp)
          have firstLength := length first (by simp)
          have secondLength := length second (by simp)
          omega

section Access

variable {receiver member : String}

/-- An open class owns a receiver if its method around the place has it. -/
theorem owns_openUnitAt_iff (stands : StandsForSyntax tree) (has : tree.HasPlace place)
    (unitHas : tree.HasPlace unit) (isUnit : (kindAt? unit).isSome) :
    OpenUnits.owns receiver (openUnitAt places late place.around unit) = true ↔
      kindAt? unit = some .class ∧ ∃ block ∈ place.around,
        isBlockOf unit block = true ∧ receiverAt? block = some receiver := by
  have kindEq := openUnitAt_kind places late place.around isUnit
  have frame (block : SyntaxPlace) (method : (methodAt? block).isSome) :
      (usageOf places block).receiver = receiverAt? block := by
    unfold methodAt? at method
    split at method
    · rename_i info _ _ element
      cases info with
      | none => simp at method
      | some info => simp [usageOf, receiverAt?, methodAt?, element]
    · simp at method
  by_cases isClass : kindAt? unit = some .class
  · rw [isClass, Option.some.injEq] at kindEq
    simp only [OpenUnits.owns, kindEq, isClass, true_and, beq_self_eq_true, Bool.true_and,
      beq_iff_eq]
    by_cases within : ∃ block ∈ place.around, isBlockOf unit block = true
    · obtain ⟨block, around, isBlock⟩ := within
      have only := filter_isBlockOf_eq_singleton stands has unitHas isClass around isBlock
      have blockFrame := frame block (methodAt?_isSome_of_isBlockOf isClass isBlock)
      have head : (openUnitAt places late place.around unit).frames = [usageOf places block] := by
        simp [openUnitAt, only, isClass]
      rw [head]
      constructor
      · intro through
        exact ⟨block, around, isBlock, by simpa [blockFrame] using through⟩
      · rintro ⟨inner, innerAround, innerBlock, through⟩
        have same : inner ∈ place.around.filter (isBlockOf unit) :=
          List.mem_filter.mpr ⟨innerAround, innerBlock⟩
        obtain rfl : inner = block := by simpa [only] using same
        simpa [blockFrame] using through
    · have noBlock : place.around.filter (isBlockOf unit) = [] :=
        List.filter_eq_nil_iff.mpr fun block around isBlock => within ⟨block, around, isBlock⟩
      simp only [openUnitAt, noBlock, isClass]
      constructor
      · simp
      · rintro ⟨block, around, isBlock, -⟩
        exact (within ⟨block, around, isBlock⟩).elim
  · rw [← kindEq, Option.some.injEq] at isClass
    simp [OpenUnits.owns, isClass, ← kindEq]

theorem creditMember_of_forall_not_owns {units : List CodeUnit}
    (noOwner : ∀ unit ∈ units, OpenUnits.owns receiver unit = false) :
    OpenUnits.creditMember receiver member units = units := by
  induction units with
  | nil => rfl
  | cons unit units inductionHypothesis =>
      simp [OpenUnits.creditMember, noOwner unit List.mem_cons_self,
        inductionHypothesis fun other within => noOwner other (List.mem_cons_of_mem _ within)]

/-- Only the first owner of a receiver is credited. -/
theorem creditMember_append_cons {near far : List CodeUnit} {owner : CodeUnit}
    (noOwner : ∀ unit ∈ near, OpenUnits.owns receiver unit = false)
    (owns : OpenUnits.owns receiver owner = true) :
    OpenUnits.creditMember receiver member (near ++ owner :: far) =
      near ++ owner.mapFrame (fun frame => { frame with members := frame.members.add member })
        :: far := by
  induction near with
  | nil => simp [OpenUnits.creditMember, owns]
  | cons unit units inductionHypothesis =>
      simp [OpenUnits.creditMember, noOwner unit List.mem_cons_self,
        inductionHypothesis fun other within => noOwner other (List.mem_cons_of_mem _ within)]

theorem nameAt?_eq_none_of_accessAt?_eq_some (access : accessAt? place = some (receiver, member)) :
    nameAt? place = none := by
  unfold accessAt? at access
  unfold nameAt?
  split at access <;> simp_all

/-- An access counts only for the method in charge. -/
theorem openUnitAt_append_of_not_in_charge (has : tree.HasPlace place)
    (closed : ∀ block ∈ late, usageOf (places ++ [place]) block = usageOf places block)
    (access : accessAt? place = some (receiver, member))
    (notMine : ∀ method, methodInCharge? place receiver = some method →
      isBlockOf unit method = false) :
    openUnitAt (places ++ [place]) late place.around unit =
      openUnitAt places late place.around unit := by
  have noName := nameAt?_eq_none_of_accessAt?_eq_some access
  refine openUnitAt_append_of_unused closed (fun block on isBlock => ?_)
    (fun _ _ => usedName?_eq_none_of_nameAt? noName)
  refine usageOf_append_of_unused (fun _ _ => usedName?_eq_none_of_nameAt? noName) (fun _ => ?_)
  simp only [usedMember?, access]
  rw [if_neg]
  intro inCharge
  obtain ⟨method, found, same⟩ := Option.map_eq_some_iff.mp inCharge
  have around := List.mem_of_find?_eq_some found
  obtain rfl := (has.around around).eq_of_address_eq (has.around on) same
  simp [notMine _ found] at isBlock

theorem usageOf_append_of_in_charge (access : accessAt? place = some (receiver, member))
    (found : methodInCharge? place receiver = some block) :
    usageOf (places ++ [place]) block =
      { usageOf places block with members := (usageOf places block).members.add member } := by
  have used : usedMember? block.address place = some member := by
    simp [usedMember?, access, found]
  have through : receiverAt? block = some receiver := by
    simpa using List.find?_some found
  have method := methodAt?_isSome_of_receiverAt? through
  unfold methodAt? at method
  split at method
  · rename_i info _ _ element
    cases info with
    | none => simp at method
    | some info => simp [usageOf, element, membersUsed_append_of_eq_some used]
  · simp at method

/-- A place below a method lies in the class of the method. -/
theorem exists_mem_unitsAround_of_methodAt? (stands : StandsForSyntax tree)
    (has : tree.HasPlace place) (around : block ∈ place.around)
    (method : (methodAt? block).isSome) :
    ∃ unit ∈ unitsAround place, kindAt? unit = some .class ∧ isBlockOf unit block = true := by
  have blockHas := has.around around
  obtain ⟨unit, unitHas, isClass, isBlock, blockAround, length⟩ :=
    exists_isBlockOf_of_methodAt? stands blockHas method
  have unitBlock : unit ∈ block.around := by simp [blockAround, Visit.path]
  have home := homeOf?_eq_some_of_isBlockOf blockHas unitHas isBlock
  have outside := (List.mem_filter.mp (mem_unitsAround_of_homeOf?_eq_some home)).2
  have element := elementAt?_isSome_of_methodAt? method
  refine ⟨unit, List.mem_filter.mpr ⟨?_, ?_⟩, isClass, isBlock⟩
  · have inside := (blockHas.address_of_mem_around unitBlock).1.trans
      (has.address_of_mem_around around).1
    rcases Visit.mem_path_iff.mp (has.mem_path_of_isPrefix unitHas inside) with rfl | unitAround
    · have := (has.address_of_mem_around around).2
      omega
    · exact unitAround
  · simp only [isUnitAround, isClass, Bool.and_eq_true, Bool.not_eq_true', Option.isSome_some,
      true_and] at outside ⊢
    exact not_liesInHeader_of_mem_around stands has around element unitBlock outside

/-- The method in charge is the nearest one with the receiver. -/
theorem length_le_of_methodInCharge? (has : tree.HasPlace place)
    (found : methodInCharge? place receiver = some block) (around : other ∈ place.around)
    (through : receiverAt? other = some receiver) :
    other.address.length ≤ block.address.length := by
  obtain ⟨-, near, far, split, nearer⟩ := List.find?_eq_some_iff_append.mp found
  have shorter := has.pairwise_around
  rw [split] at around shorter
  rcases List.mem_append.mp around with within | within
  · simpa [through] using nearer other within
  · rcases List.mem_cons.mp within with rfl | within
    · exact Nat.le_refl _
    · have apart := (List.pairwise_cons.mp (List.pairwise_append.mp shorter).2.1).1 other within
      omega

/-- The class of the method in charge collects the member. -/
theorem openUnitAt_append_of_in_charge (stands : StandsForSyntax tree) (has : tree.HasPlace place)
    (closed : ∀ block ∈ late, usageOf (places ++ [place]) block = usageOf places block)
    (access : accessAt? place = some (receiver, member))
    (found : methodInCharge? place receiver = some block) (unitHas : tree.HasPlace unit)
    (isClass : kindAt? unit = some .class) (isBlock : isBlockOf unit block = true) :
    openUnitAt (places ++ [place]) late place.around unit =
      (openUnitAt places late place.around unit).mapFrame
        (fun frame => { frame with members := frame.members.add member }) := by
  have only := filter_isBlockOf_eq_singleton stands has unitHas isClass
    (List.mem_of_find?_eq_some found) isBlock
  have blocksEq := map_usageOf_append_of_closed closed unit
  simp [openUnitAt, unitAt, only, isClass, CodeUnit.mapFrame, blocksEq,
    usageOf_append_of_in_charge access found]

/-- A class without a method around the place that has the receiver owns no access through it. -/
theorem owns_openUnitAt_eq_false (stands : StandsForSyntax tree) (has : tree.HasPlace place)
    (opened : unit ∈ unitsAround place)
    (noMethod : kindAt? unit = some .class → ∀ block ∈ place.around,
      isBlockOf unit block = true → receiverAt? block ≠ some receiver) :
    OpenUnits.owns receiver (openUnitAt places late place.around unit) = false := by
  have unitHas := has.around (mem_around_of_mem_unitsAround opened)
  rw [Bool.eq_false_iff, ne_eq,
    owns_openUnitAt_iff stands has unitHas (kindAt?_isSome_of_mem_unitsAround opened)]
  rintro ⟨isClass, block, around, isBlock, through⟩
  exact noMethod isClass block around isBlock through

/-- An access that no method is in charge of is dropped. -/
theorem creditMember_map_openUnitAt_of_eq_none (stands : StandsForSyntax tree)
    (has : tree.HasPlace place)
    (closed : ∀ block ∈ late, usageOf (places ++ [place]) block = usageOf places block)
    (access : accessAt? place = some (receiver, member))
    (absent : methodInCharge? place receiver = none) :
    OpenUnits.creditMember receiver member
        ((unitsAround place).map (openUnitAt places late place.around)) =
      (unitsAround place).map (openUnitAt (places ++ [place]) late place.around) := by
  have noMethod := List.find?_eq_none.mp absent
  rw [creditMember_of_forall_not_owns]
  · refine List.map_congr_left fun unit _ => ?_
    exact (openUnitAt_append_of_not_in_charge has closed access fun method other => by
      simp [absent] at other).symm
  · simp only [List.mem_map, forall_exists_index, and_imp, forall_apply_eq_imp_iff₂]
    intro unit opened
    apply owns_openUnitAt_eq_false stands has opened
    intro _ block around _ through
    exact noMethod block around (by simp [through])

/-- An access changes no unit but the class of the method in charge. -/
theorem openUnitAt_append_of_length_ne {owner : SyntaxPlace} (has : tree.HasPlace place)
    (closed : ∀ block ∈ late, usageOf (places ++ [place]) block = usageOf places block)
    (access : accessAt? place = some (receiver, member))
    (found : methodInCharge? place receiver = some block) (ownerHas : tree.HasPlace owner)
    (isBlock : isBlockOf owner block = true) (unitHas : tree.HasPlace unit)
    (apart : unit.address.length ≠ owner.address.length) :
    openUnitAt (places ++ [place]) late place.around unit =
      openUnitAt places late place.around unit := by
  have blockHas := has.around (List.mem_of_find?_eq_some found)
  apply openUnitAt_append_of_not_in_charge has closed access
  intro inCharge same
  obtain rfl : block = inCharge := by simpa [found] using same
  rw [Bool.eq_false_iff]
  intro unitBlock
  have same := eq_of_isBlockOf blockHas unitHas ownerHas unitBlock isBlock
  exact apart (congrArg (·.address.length) same)

/-- The classes nearer than that of the method in charge own no access through its receiver. -/
theorem owns_openUnitAt_eq_false_of_nearer {owner : SyntaxPlace} (stands : StandsForSyntax tree)
    (has : tree.HasPlace place) (found : methodInCharge? place receiver = some block)
    (ownerHas : tree.HasPlace owner) (isClass : kindAt? owner = some .class)
    (isBlock : isBlockOf owner block = true) (opened : unit ∈ unitsAround place)
    (nearer : owner.address.length < unit.address.length) :
    OpenUnits.owns receiver (openUnitAt places late place.around unit) = false := by
  have unitHas := has.around (mem_around_of_mem_unitsAround opened)
  have blockHas := has.around (List.mem_of_find?_eq_some found)
  apply owns_openUnitAt_eq_false stands has opened
  intro unitClass other around otherBlock through
  have bound := length_le_of_methodInCharge? has found around through
  have otherLength := length_of_isBlockOf stands (has.around around) unitHas unitClass otherBlock
  have blockLength := length_of_isBlockOf stands blockHas ownerHas isClass isBlock
  omega

/-- An access is credited to the method in charge of it. -/
theorem creditMember_map_openUnitAt_of_eq_some (stands : StandsForSyntax tree)
    (has : tree.HasPlace place)
    (closed : ∀ block ∈ late, usageOf (places ++ [place]) block = usageOf places block)
    (access : accessAt? place = some (receiver, member))
    (found : methodInCharge? place receiver = some block) :
    OpenUnits.creditMember receiver member
        ((unitsAround place).map (openUnitAt places late place.around)) =
      (unitsAround place).map (openUnitAt (places ++ [place]) late place.around) := by
  have unitHas {unit : SyntaxPlace} (opened : unit ∈ unitsAround place) : tree.HasPlace unit :=
    has.around (mem_around_of_mem_unitsAround opened)
  have through : receiverAt? block = some receiver := by simpa using List.find?_some found
  have around := List.mem_of_find?_eq_some found
  obtain ⟨owner, opened, isClass, isBlock⟩ := exists_mem_unitsAround_of_methodAt? stands has
    around (methodAt?_isSome_of_receiverAt? through)
  obtain ⟨near, far, split⟩ := List.append_of_mem opened
  have shorter : (unitsAround place).Pairwise fun near far =>
      far.address.length < near.address.length :=
    has.pairwise_around.filter _
  rw [split] at shorter
  obtain ⟨-, farther, nearer⟩ := List.pairwise_append.mp shorter
  have unchanged (unit : SyntaxPlace) (within : unit ∈ unitsAround place)
      (apart : unit.address.length ≠ owner.address.length) :
      openUnitAt places late place.around unit =
        openUnitAt (places ++ [place]) late place.around unit :=
    (openUnitAt_append_of_length_ne has closed access found (unitHas opened) isBlock
      (unitHas within) apart).symm
  have noOwner : ∀ unit ∈ near.map (openUnitAt places late place.around),
      OpenUnits.owns receiver unit = false := by
    simp only [List.mem_map, forall_exists_index, and_imp, forall_apply_eq_imp_iff₂]
    intro unit within
    exact owns_openUnitAt_eq_false_of_nearer stands has found (unitHas opened) isClass isBlock
      (by simp [split, within]) (nearer unit within owner List.mem_cons_self)
  have owns : OpenUnits.owns receiver (openUnitAt places late place.around owner) = true :=
    (owns_openUnitAt_iff stands has (unitHas opened)
        (kindAt?_isSome_of_mem_unitsAround opened)).mpr
      ⟨isClass, block, around, isBlock, through⟩
  have nearEq : near.map (openUnitAt places late place.around) =
      near.map (openUnitAt (places ++ [place]) late place.around) :=
    List.map_congr_left fun unit within => unchanged unit (by simp [split, within])
      (by have := nearer unit within owner List.mem_cons_self; omega)
  have farEq : far.map (openUnitAt places late place.around) =
      far.map (openUnitAt (places ++ [place]) late place.around) :=
    List.map_congr_left fun unit within => unchanged unit (by simp [split, within])
      (by have := (List.pairwise_cons.mp farther).1 unit within; omega)
  rw [split, List.map_append, List.map_cons, creditMember_append_cons noOwner owns, nearEq,
    farEq, ← openUnitAt_append_of_in_charge stands has closed access found (unitHas opened)
      isClass isBlock, List.map_append, List.map_cons]

/-- Crediting an access at a place adds the place to what the open units collect. -/
theorem creditMember_map_openUnitAt (stands : StandsForSyntax tree) (has : tree.HasPlace place)
    (closed : ∀ block ∈ late, usageOf (places ++ [place]) block = usageOf places block)
    (access : accessAt? place = some (receiver, member)) :
    OpenUnits.creditMember receiver member
        ((unitsAround place).map (openUnitAt places late place.around)) =
      (unitsAround place).map (openUnitAt (places ++ [place]) late place.around) := by
  cases found : methodInCharge? place receiver with
  | none => exact creditMember_map_openUnitAt_of_eq_none stands has closed access found
  | some method => exact creditMember_map_openUnitAt_of_eq_some stands has closed access found

end Access

end DesignLint.Cohesion
