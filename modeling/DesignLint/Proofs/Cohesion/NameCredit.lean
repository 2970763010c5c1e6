import DesignLint.Proofs.Cohesion.OpenUnit

/-!
# Crediting a name

Crediting a name to the innermost open function has the effect that the place of the
name has on the lexical description of the open units.
-/

namespace DesignLint.Cohesion

open DesignLint.Syntax

variable {tree : SyntaxTree} {place unit block other : SyntaxPlace}
variable {places late path : List SyntaxPlace}

section Name

variable {name : String} {binding : Binding}

/-- The spot of a place belongs to its nearest unit, a function. -/
theorem homeOf?_eq_some_of_spotOf? (has : tree.HasPlace place) (unitHas : tree.HasPlace unit)
    (blockHas : tree.HasPlace block) (spotEq : spotOf? place = some block.address)
    (mine : block = unit ∧ (kindAt? unit).isSome ∨ isBlockOf unit block ∧ isControl block) :
    homeOf? place = some unit ∧ kindAt? unit = some .function := by
  obtain ⟨home, outer, homeEq, function, around, same, position⟩ := exists_of_spotOf?_eq_some spotEq
  obtain rfl := (has.around around).eq_of_address_eq blockHas same
  rcases mine with ⟨rfl, isUnit⟩ | ⟨isBlock, control⟩ <;>
    rcases position with ⟨rfl, -⟩ | found
  · exact ⟨homeEq, function⟩
  · have control := isControl_of_isBlockOf function (List.find?_some found)
    simp [kindAt?_eq_none_of_isControl control] at isUnit
  · simp [kindAt?_eq_none_of_isControl control] at function
  · have homeHas := has.around (mem_around_of_mem_unitsAround
      (mem_unitsAround_of_homeOf?_eq_some homeEq))
    have blockHome := homeOf?_eq_some_of_isBlockOf blockHas homeHas (List.find?_some found)
    rw [homeOf?_eq_some_of_isBlockOf blockHas unitHas isBlock] at blockHome
    cases blockHome
    exact ⟨homeEq, function⟩

/-- A name counts only for the nearest unit, and only if that is a function. -/
theorem openUnitAt_append_of_away (has : tree.HasPlace place) (around : unit ∈ place.around)
    (isUnit : (kindAt? unit).isSome)
    (closed : ∀ block ∈ late, usageOf (places ++ [place]) block = usageOf places block)
    (noAccess : accessAt? place = none)
    (away : homeOf? place = some unit → kindAt? unit ≠ some .function) :
    openUnitAt (places ++ [place]) late place.around unit =
      openUnitAt places late place.around unit := by
  have unitHas := has.around around
  apply openUnitAt_append_of_unused closed
  · intro block on isBlock
    refine usageOf_append_of_unused (fun control credit => ?_)
      (fun _ => usedMember?_eq_none_of_accessAt? noAccess)
    refine usedName?_eq_none_of_spotOf?_ne fun spotEq => ?_
    obtain ⟨home, function⟩ := homeOf?_eq_some_of_spotOf? has unitHas (has.around on) spotEq
      (.inr ⟨isBlock, control⟩)
    exact away home function
  · intro function credit
    refine usedName?_eq_none_of_spotOf?_ne fun spotEq => ?_
    exact away (homeOf?_eq_some_of_spotOf? has unitHas unitHas spotEq (.inl ⟨rfl, isUnit⟩)).1
      function

theorem map_openUnitAt_append_of_away (has : tree.HasPlace place)
    (closed : ∀ block ∈ late, usageOf (places ++ [place]) block = usageOf places block)
    (noAccess : accessAt? place = none) {units : List SyntaxPlace}
    (around : ∀ unit ∈ units, unit ∈ place.around ∧ (kindAt? unit).isSome)
    (away : ∀ unit ∈ units, homeOf? place = some unit → kindAt? unit ≠ some .function) :
    units.map (openUnitAt (places ++ [place]) late place.around) =
      units.map (openUnitAt places late place.around) :=
  List.map_congr_left fun unit member =>
    openUnitAt_append_of_away has (around unit member).1 (around unit member).2 closed
      noAccess (away unit member)

/-- A frame in which a name has been used. -/
def useInFrame (credit : Credit) (name : String) (frame : OpenBlock) : OpenBlock :=
  match credit with
  | .read => { frame with reads := frame.reads.add name }
  | .write => { frame with writes := frame.writes.add name }
  | .skip => frame

theorem useName_eq (unit : CodeUnit) (credit : Credit) (name : String) :
    OpenUnits.useName unit credit name =
      { unit.mapFrame (useInFrame credit name) with
        declared :=
          if credit = .write ∧ unit.frames.length = 1 then unit.declared.add name
          else unit.declared } := by
  rcases unit with ⟨kind, unitName, span, receiver, blocks, declared, frames, stage⟩
  cases frames with
  | nil => cases credit <;> simp [OpenUnits.useName, CodeUnit.mapFrame]
  | cons frame frames =>
      cases credit with
      | read => simp [OpenUnits.useName, CodeUnit.mapFrame, useInFrame]
      | write =>
          by_cases top : frames.length = 0 <;>
            simp [OpenUnits.useName, CodeUnit.mapFrame, useInFrame, top]
      | skip => simp [OpenUnits.useName, CodeUnit.mapFrame, useInFrame]

theorem accessAt?_eq_none_of_nameAt?_eq_some (used : nameAt? place = some (name, binding)) :
    accessAt? place = none := by
  unfold nameAt? at used
  unfold accessAt?
  split at used <;> simp_all

/-- A name counts at its spot, in one way. -/
theorem usedName?_of_spotOf? {spot : Address} {credit : Credit}
    (used : nameAt? place = some (name, binding)) (spotEq : spotOf? place = some spot) :
    usedName? spot credit place =
      if creditAt place name binding = credit then some name else none := by
  simp [usedName?, used, spotEq]

theorem namesUsed_append_of_spotOf? {spot : Address} {credit : Credit}
    (used : nameAt? place = some (name, binding)) (spotEq : spotOf? place = some spot) :
    namesUsed (places ++ [place]) spot credit =
      if creditAt place name binding = credit then (namesUsed places spot credit).add name
      else namesUsed places spot credit := by
  have counted : usedName? spot credit place = _ := usedName?_of_spotOf? used spotEq
  by_cases same : creditAt place name binding = credit
  · rw [if_pos same] at counted ⊢
    exact namesUsed_append_of_eq_some counted
  · rw [if_neg same] at counted ⊢
    exact namesUsed_append_of_eq_none counted

theorem topLevelOf_append (used : nameAt? place = some (name, binding))
    (spotEq : spotOf? place = some unit.address) :
    topLevelOf (places ++ [place]) unit =
      useInFrame (creditAt place name binding) name (topLevelOf places unit) := by
  simp only [topLevelOf, namesUsed_append_of_spotOf? used spotEq]
  cases creditAt place name binding <;> simp [useInFrame]

theorem usageOf_append_of_spotOf? (control : isControl block = true)
    (used : nameAt? place = some (name, binding)) (spotEq : spotOf? place = some block.address) :
    usageOf (places ++ [place]) block =
      useInFrame (creditAt place name binding) name (usageOf places block) := by
  obtain ⟨type, span, element⟩ := isControl_iff.mp control
  simp only [usageOf, element, namesUsed_append_of_spotOf? used spotEq]
  cases creditAt place name binding <;> simp [useInFrame]

/-- A name is used in the innermost frame of the nearest unit, if that is a function. -/
theorem openUnitAt_append_of_homeOf? (has : tree.HasPlace place)
    (closed : ∀ block ∈ late, usageOf (places ++ [place]) block = usageOf places block)
    (used : nameAt? place = some (name, binding)) (home : homeOf? place = some unit)
    (function : kindAt? unit = some .function) :
    openUnitAt (places ++ [place]) late place.around unit =
      OpenUnits.useName (openUnitAt places late place.around unit)
        (creditAt place name binding) name := by
  have around := mem_around_of_mem_unitsAround (mem_unitsAround_of_homeOf?_eq_some home)
  have unitHas := has.around around
  have noAccess := accessAt?_eq_none_of_nameAt?_eq_some used
  have blocksEq := map_usageOf_append_of_closed closed unit
  rw [useName_eq]
  cases frames : place.around.filter (isBlockOf unit) with
  | nil =>
      have spotEq : spotOf? place = some unit.address := by
        have noBlock : place.around.find? (isBlockOf unit) = none := by
          rw [← List.head?_filter, frames, List.head?_nil]
        simp [spotOf?, home, function, noBlock]
      simp only [openUnitAt, unitAt, frames, function, CodeUnit.mapFrame, blocksEq,
        topLevelOf_append used spotEq, namesUsed_append_of_spotOf? used spotEq]
      simp
  | cons block blocks =>
      have found : place.around.find? (isBlockOf unit) = some block := by
        rw [← List.head?_filter, frames, List.head?_cons]
      have spotEq : spotOf? place = some block.address := by
        simp [spotOf?, home, function, found]
      have control := isControl_of_isBlockOf function (List.find?_some found)
      have blockHas := has.around (List.mem_of_find?_eq_some found)
      have distinct : (block :: blocks).Nodup := by
        rw [← frames]
        exact has.nodup_around.filter _
      have topEq (credit : Credit) : usedName? unit.address credit place = none := by
        refine usedName?_eq_none_of_spotOf?_ne fun atUnit => ?_
        have same := unitHas.eq_of_address_eq blockHas (by simpa [spotEq] using atUnit.symm)
        simp [same, kindAt?_eq_none_of_isControl control] at function
      have others : blocks.map (usageOf (places ++ [place])) = blocks.map (usageOf places) := by
        refine List.map_congr_left fun inner member => ?_
        have innerHas : tree.HasPlace inner := by
          have listed : inner ∈ place.around.filter (isBlockOf unit) := by simp [frames, member]
          exact has.around (List.mem_filter.mp listed).1
        refine usageOf_append_of_unused (fun _ credit => ?_)
          (fun _ => usedMember?_eq_none_of_accessAt? noAccess)
        refine usedName?_eq_none_of_spotOf?_ne fun atInner => ?_
        have same := blockHas.eq_of_address_eq innerHas (by simpa [spotEq] using atInner)
        exact (List.nodup_cons.mp distinct).1 (same ▸ member)
      simp only [openUnitAt, unitAt, topLevelOf, frames, function, CodeUnit.mapFrame, blocksEq,
        List.map_cons, usageOf_append_of_spotOf? control used spotEq, others,
        namesUsed_append_of_eq_none (topEq _)]
      simp

end Name

section State

variable {name : String} {binding : Binding} {κ : Type} {state : OpenUnits κ}

/-- The receivers in scope are those of the functions around a place. -/
theorem creditOf_eq (opened : state.units = (unitsAround place).map (openUnitAt places late path)) :
    state.creditOf name binding = creditAt place name binding := by
  have kinds : (fun unit : CodeUnit => unit.kind != .class) ∘ openUnitAt places late path =
      fun unit => kindAt? unit != some .class := by
    funext unit
    cases kindEq : kindAt? unit with
    | none =>
        simp only [Function.comp_apply, openUnitAt, unitAt, kindEq]
        rfl
    | some kind =>
        simp only [Function.comp_apply, openUnitAt, unitAt, kindEq]
        cases kind <;> rfl
  have receivers : state.receiversInScope = NameSet.ofNames (receiversAround place) := by
    simp only [OpenUnits.receiversInScope, opened, List.takeWhile_map, kinds, List.filterMap_map,
      receiversAround]
    rfl
  simp [OpenUnits.creditOf, creditAt, receivers, List.contains_eq_mem]

/-- Crediting a name at a place adds the place to what the open units collect. -/
theorem creditName_fst_eq (has : tree.HasPlace place)
    (closed : ∀ block ∈ late, usageOf (places ++ [place]) block = usageOf places block)
    (used : nameAt? place = some (name, binding))
    (opened : state.units = (unitsAround place).map (openUnitAt places late place.around)) :
    (state.creditName name binding).1 =
      { state with
        units := (unitsAround place).map (openUnitAt (places ++ [place]) late place.around) } := by
  have noAccess := accessAt?_eq_none_of_nameAt?_eq_some used
  have around (unit : SyntaxPlace) (member : unit ∈ unitsAround place) :
      unit ∈ place.around ∧ (kindAt? unit).isSome :=
    ⟨mem_around_of_mem_unitsAround member, kindAt?_isSome_of_mem_unitsAround member⟩
  by_cases inFunction : ∃ home, homeOf? place = some home ∧ kindAt? home = some .function
  · obtain ⟨home, homeEq, function⟩ := inFunction
    obtain ⟨outer, units⟩ : ∃ outer, unitsAround place = home :: outer :=
      List.head?_eq_some_iff.mp homeEq
    have distinct : (home :: outer).Nodup := by
      rw [← units]
      exact has.nodup_around.filter _
    have outerEq : outer.map (openUnitAt (places ++ [place]) late place.around) =
        outer.map (openUnitAt places late place.around) := by
      refine map_openUnitAt_append_of_away has closed noAccess
        (fun unit member => around unit (by simp [units, member])) fun unit member same => ?_
      obtain rfl : home = unit := by simpa [homeEq] using same
      exact absurd member (List.nodup_cons.mp distinct).1
    have credit : state.creditOf name binding = creditAt place name binding := creditOf_eq opened
    rw [units] at opened ⊢
    have homeOpen : (openUnitAt places late place.around home).kind = .function ∧
        (openUnitAt places late place.around home).frames ≠ [] := by
      simp [openUnitAt, unitAt, function]
    have innermost : state.innermostFunction = some (openUnitAt places late place.around home) := by
      simp [OpenUnits.innermostFunction, OpenUnits.innermost, opened, homeOpen]
    rw [OpenUnits.creditName, innermost]
    simp only [OpenUnits.setInnermost, opened, List.map_cons, credit, outerEq,
      openUnitAt_append_of_homeOf? has closed used homeEq function]
  · have noFunction : state.innermostFunction = none := by
      rw [OpenUnits.innermostFunction, OpenUnits.innermost, opened, List.head?_map, ← homeOf?]
      cases homeEq : homeOf? place with
      | none => rfl
      | some home =>
          have isUnit := (around home (mem_unitsAround_of_homeOf?_eq_some homeEq)).2
          have kindEq := openUnitAt_kind places late place.around isUnit
          have notFunction : (openUnitAt places late place.around home).kind ≠ .function := by
            intro function
            exact inFunction ⟨home, homeEq, by rw [← kindEq, function]⟩
          simp [notFunction]
    rw [OpenUnits.creditName, noFunction, map_openUnitAt_append_of_away has closed noAccess around
      fun unit _ home function => inFunction ⟨unit, home, function⟩, ← opened]

end State

end DesignLint.Cohesion
