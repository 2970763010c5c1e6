import DesignLint.Proofs.Cohesion.BlockFrames
import DesignLint.Proofs.Syntax.Place

/-!
# The traversal collects what is lexically there

The invariant of a traversal describes the open, parked and closed units by the places
reached and left so far. Each event preserves it, so a traversal of a whole tree closes
the units of the tree with exactly the blocks that attribution gives them.
-/

namespace DesignLint.Cohesion

open DesignLint.Syntax

variable {tree : SyntaxTree} {place unit block other : SyntaxPlace}
variable {places late path : List SyntaxPlace}

/-! ## What a run has collected -/

/-- A run in the middle of a traversal. The places reached so far are listed in
`places`, those left so far in `late`; the open and parked units are those at the
given places, with frames for the blocks on `path`. -/
structure Describes (places late opened parked path : List SyntaxPlace) (run : Run) : Prop where
  units : run.state.units = opened.map (openUnitAt places late path)
  aside : run.state.aside = parked.map (openUnitAt places late path)
  headers : ∀ address, address ∈ run.state.headers ↔
    ∃ unit ∈ places, address ∈ headerAddressesAt unit
  closed : run.closed =
    ((late.filter fun unit => (kindAt? unit).isSome).map (unitAt places late)).reverse

/-- What a traversal that is about to reach a place knows: the places around it have
been reached, and nothing at or below it. -/
structure Reaches (tree : SyntaxTree) (places late : List SyntaxPlace) (place : SyntaxPlace) :
    Prop where
  has : tree.HasPlace place
  listed : ∀ other ∈ places, tree.HasPlace other
  around : ∀ other ∈ place.around, other ∈ places
  fresh : ∀ other ∈ places, place ∉ other.path
  left : ∀ other ∈ late, other ∈ places
  apart : ∀ other ∈ late, other ∉ place.path

namespace Reaches

variable (reaches : Reaches tree places late place)

include reaches

/-- Places that have been left collect nothing from a new place. -/
theorem usageOf_append (within : block ∈ late) :
    usageOf (places ++ [place]) block = usageOf places block :=
  usageOf_append_of_not_mem_around reaches.has (reaches.listed block (reaches.left block within))
    fun around => reaches.apart block within (Visit.mem_path_iff.mpr (.inr around))

theorem unitAt_append (within : unit ∈ late) :
    unitAt (places ++ [place]) late unit = unitAt places late unit := by
  have unitHas := reaches.listed unit (reaches.left unit within)
  have blocksEq := map_usageOf_append_of_closed (fun _ => reaches.usageOf_append) unit
  have unused : usedName? unit.address .write place = none :=
    usedName?_eq_none_of_not_mem_around reaches.has unitHas
      (fun around => reaches.apart unit within (Visit.mem_path_iff.mpr (.inr around))) _
  simp [unitAt, blocksEq, namesUsed_append_of_eq_none unused]

theorem unseen (other : SyntaxPlace) (member : other ∈ places ++ [place]) :
    tree.HasPlace other ∧ place ∉ other.around := by
  rcases List.mem_append.mp member with member | member
  · exact ⟨reaches.listed other member, fun around =>
      reaches.fresh other member (Visit.mem_path_iff.mpr (.inr around))⟩
  · obtain rfl := List.mem_singleton.mp member
    exact ⟨reaches.has, not_mem_around_of_mem_path reaches.has (by simp [Visit.path])⟩

end Reaches

/-! ## Reaching a place -/

theorem headerAddressesAt_eq_nil (noUnit : kindAt? place = none) :
    headerAddressesAt place = [] := by
  simp [headerAddressesAt, headerAt_eq_nil_of_kindAt?_eq_none noUnit, headerAddresses]

theorem unitsAt_eq_unitsAround (noUnit : kindAt? place = none) :
    unitsAt place = unitsAround place := by
  simp [unitsAt_eq, noUnit]

theorem unitsAt_eq_cons (isUnit : (kindAt? place).isSome) :
    unitsAt place = place :: unitsAround place := by
  simp [unitsAt_eq, isUnit]

section Enter

variable {state : OpenUnits Address}

/-- A name or an access at a place is credited, and nothing else changes. -/
theorem credited_eq_of_plain (notControl : isControl place = false) (noUnit : kindAt? place = none)
    (credited : state.units =
      (unitsAround place).map (openUnitAt (places ++ [place]) late place.around)) :
    state =
      ⟨(unitsAt place).map (openUnitAt (places ++ [place]) late place.path), state.aside,
        headerAddressesAt place ++ state.headers⟩ := by
  have notBlock (unit : SyntaxPlace) : isBlockOf unit place = false :=
    isBlockOf_eq_false_of_plain notControl (methodAt?_eq_none_of_kindAt?_eq_none noUnit)
  rw [unitsAt_eq_unitsAround noUnit, headerAddressesAt_eq_nil noUnit, Visit.path,
    map_openUnitAt_cons_of_not_isBlockOf fun unit _ => notBlock unit, ← credited]
  rfl

/-- Places without a name or an access change no open unit. -/
theorem map_openUnitAt_append_of_idle (noName : nameAt? place = none)
    (noAccess : accessAt? place = none) (units : List SyntaxPlace) :
    units.map (openUnitAt (places ++ [place]) late path) =
      units.map (openUnitAt places late path) :=
  List.map_congr_left fun _ _ => openUnitAt_append_of_idle noName noAccess

/-- A definition binds its name in the unit that it stands in; a lambda binds none. -/
theorem bindName_eq (reaches : Reaches tree places late place) {name : String} {span : Span}
    {method : Option Method} {bindsName : Bool} {header : Header}
    (elementEq : elementAt? place = some (.function name span method bindsName header))
    (opened : state.units = (unitsAround place).map (openUnitAt places late place.around)) :
    (if bindsName then (state.creditName name .store).1 else state) =
      { state with
        units := (unitsAround place).map (openUnitAt (places ++ [place]) late place.around) } := by
  cases bindsName with
  | true =>
      exact creditName_fst_eq reaches.has (fun _ => reaches.usageOf_append)
        (by simp [nameAt?, elementEq]) opened
  | false =>
      rw [map_openUnitAt_append_of_idle (by simp [nameAt?, elementEq])
        (by simp [accessAt?, elementEq]), ← opened]
      rfl

/-- A unit that has just been reached is a unit that has just been opened. -/
theorem Reaches.openUnitAt_eq_openedUnit (reaches : Reaches tree places late place)
    {kind : UnitKind} (isUnit : kindAt? place = some kind) :
    openUnitAt (places ++ [place]) late place.path place =
      OpenUnits.openedUnit kind (unitNameAt place) (spanAt place) (receiverAt? place) := by
  rw [openUnitAt_eq_of_unseen reaches.has reaches.unseen
    fun other within => List.mem_append_left _ (reaches.left other within)]
  cases kind <;>
    simp [openUnitAt, unitAt, OpenUnits.openedUnit, isUnit, numberedBlocks, topLevelOf, namesUsed,
      NameSet.ofNames]

/-- Reaching a control statement opens a block. -/
theorem enterElement_controlBlock_eq (reaches : Reaches tree places late place) {type : BlockType}
    {span : Span} (elementEq : elementAt? place = some (.controlBlock type span))
    (opened : state.units = (unitsAround place).map (openUnitAt places late place.around)) :
    enterElement state place.address (.controlBlock type span) =
      ⟨(unitsAt place).map (openUnitAt (places ++ [place]) late place.path), state.aside,
        headerAddressesAt place ++ state.headers⟩ := by
  have control : isControl place = true := by simp [isControl, elementEq]
  have noUnit := kindAt?_eq_none_of_isControl control
  have idle : state.units =
      (unitsAround place).map (openUnitAt (places ++ [place]) late place.around) := by
    rw [opened, map_openUnitAt_append_of_idle (by simp [nameAt?, elementEq])
      (by simp [accessAt?, elementEq])]
  have frame : usageOf (places ++ [place]) place = { type := some type, span := span } := by
    rw [usageOf_eq_of_unseen reaches.has reaches.unseen]
    simp [usageOf, elementEq, namesUsed, NameSet.ofNames]
  rw [enterElement, openBlock_eq reaches.has control frame idle, unitsAt_eq_unitsAround noUnit,
    headerAddressesAt_eq_nil noUnit]
  rfl

/-- Reaching a class binds its name and opens a unit. -/
theorem enterElement_class_eq (reaches : Reaches tree places late place) {name : String}
    {span : Span} {header : Header}
    (elementEq : elementAt? place = some (.class name span header))
    (opened : state.units = (unitsAround place).map (openUnitAt places late place.around)) :
    enterElement state place.address (.class name span header) =
      ⟨(unitsAt place).map (openUnitAt (places ++ [place]) late place.path), state.aside,
        headerAddressesAt place ++ state.headers⟩ := by
  have isUnit : kindAt? place = some .class := by simp [kindAt?, elementEq]
  have used : nameAt? place = some (name, .store) := by simp [nameAt?, elementEq]
  have noMethod : methodAt? place = none := by simp [methodAt?, elementEq]
  have notBlock (unit : SyntaxPlace) : isBlockOf unit place = false :=
    isBlockOf_eq_false_of_plain (by simp [isControl, elementEq]) noMethod
  rw [enterElement, creditName_fst_eq reaches.has (fun _ => reaches.usageOf_append) used opened,
    unitsAt_eq_cons (by simp [isUnit]), List.map_cons, reaches.openUnitAt_eq_openedUnit isUnit,
    Visit.path, map_openUnitAt_cons_of_not_isBlockOf fun unit _ => notBlock unit]
  simp [OpenUnits.openUnit, OpenUnits.addHeader, unitNameAt, spanAt, receiverAt?, noMethod,
    elementEq, headerAddressesAt, headerAt]

/-- Reaching a function binds its name, opens a block of the class if the function is a method,
and opens a unit. -/
theorem enterElement_function_eq (stands : StandsForSyntax tree)
    (reaches : Reaches tree places late place) {name : String} {span : Span}
    {method : Option Method} {bindsName : Bool} {header : Header}
    (elementEq : elementAt? place = some (.function name span method bindsName header))
    (opened : state.units = (unitsAround place).map (openUnitAt places late place.around)) :
    enterElement state place.address (.function name span method bindsName header) =
      ⟨(unitsAt place).map (openUnitAt (places ++ [place]) late place.path), state.aside,
        headerAddressesAt place ++ state.headers⟩ := by
  have isUnit : kindAt? place = some .function := by simp [kindAt?, elementEq]
  have methodEq : methodAt? place = method := by simp [methodAt?, elementEq]
  have unitEq : openUnitAt (places ++ [place]) late (place :: place.around) place =
      OpenUnits.openedUnit .function name span (method.bind (·.receiver)) := by
    rw [← Visit.path, reaches.openUnitAt_eq_openedUnit isUnit]
    simp [unitNameAt, spanAt, receiverAt?, methodEq, elementEq]
  have addresses : headerAddressesAt place = headerAddresses place.address header := by
    simp [headerAddressesAt, headerAt, elementEq]
  rw [unitsAt_eq_cons (by simp [isUnit]), List.map_cons, Visit.path, unitEq, addresses]
  cases method with
  | none =>
      simp only [enterElement, bindName_eq reaches elementEq opened]
      rw [map_openUnitAt_cons_of_not_isBlockOf fun unit _ =>
        isBlockOf_eq_false_of_plain (by simp [isControl, elementEq]) methodEq]
      rfl
  | some info =>
      have frame : usageOf (places ++ [place]) place =
          { type := some .method
            span := span
            name := info.name
            receiver := info.receiver
            isConstructor := info.isConstructor } := by
        rw [usageOf_eq_of_unseen reaches.has reaches.unseen]
        simp [usageOf, elementEq, membersUsed, NameSet.ofNames]
      have opens : OpenUnits.openMethod
            ⟨(unitsAround place).map (openUnitAt (places ++ [place]) late place.around),
              state.aside, state.headers⟩ info.name span info.receiver info.isConstructor =
          ⟨(unitsAround place).map
              (openUnitAt (places ++ [place]) late (place :: place.around)),
            state.aside, state.headers⟩ :=
        openMethod_eq stands reaches.has (by simp [methodEq]) frame rfl
      simp only [enterElement, bindName_eq reaches elementEq opened, opens]
      rfl

/-- Reaching an element opens what stands there. -/
theorem enterElement_eq (stands : StandsForSyntax tree) (reaches : Reaches tree places late place)
    {element : Element} (elementEq : elementAt? place = some element)
    (opened : state.units = (unitsAround place).map (openUnitAt places late place.around)) :
    enterElement state place.address element =
      ⟨(unitsAt place).map (openUnitAt (places ++ [place]) late place.path), state.aside,
        headerAddressesAt place ++ state.headers⟩ := by
  have closed : ∀ block ∈ late, usageOf (places ++ [place]) block = usageOf places block :=
    fun _ => reaches.usageOf_append
  cases element with
  | identifier name binding =>
      have used : nameAt? place = some (name, binding) := by simp [nameAt?, elementEq]
      rw [enterElement, creditName_fst_eq reaches.has closed used opened]
      exact credited_eq_of_plain (by simp [isControl, elementEq]) (by simp [kindAt?, elementEq]) rfl
  | memberAccess receiver member =>
      have access : accessAt? place = some (receiver, member) := by simp [accessAt?, elementEq]
      rw [enterElement, OpenUnits.creditAccess, opened,
        creditMember_map_openUnitAt stands reaches.has closed access]
      exact credited_eq_of_plain (by simp [isControl, elementEq]) (by simp [kindAt?, elementEq]) rfl
  | controlBlock type span => exact enterElement_controlBlock_eq reaches elementEq opened
  | «class» name span header => exact enterElement_class_eq reaches elementEq opened
  | function name span method bindsName header =>
      exact enterElement_function_eq stands reaches elementEq opened

end Enter

/-! ## Leaving a place -/

/-- Leaving a place where no block stands changes no unit around it. -/
theorem map_openUnitAt_path_of_plain (notControl : isControl place = false)
    (noMethod : methodAt? place = none) :
    (unitsAround place).map (openUnitAt places late place.path) =
      (unitsAround place).map (openUnitAt places (late ++ [place]) place.around) := by
  have notBlock (unit : SyntaxPlace) : isBlockOf unit place = false :=
    isBlockOf_eq_false_of_plain notControl noMethod
  rw [Visit.path, map_openUnitAt_cons_of_not_isBlockOf fun unit _ => notBlock unit,
    map_openUnitAt_append_of_not_isBlockOf fun unit _ => notBlock unit]

/-- Leaving a function closes its unit, and its block if it is a method. -/
theorem exitElement_function_eq (stands : StandsForSyntax tree) (has : tree.HasPlace place)
    {run : Run} {name : String} {span : Span} {method : Option Method} {bindsName : Bool}
    {header : Header}
    (elementEq : elementAt? place = some (.function name span method bindsName header))
    (inside : run.state.units = (unitsAt place).map (openUnitAt places late place.path)) :
    exitElement run (.function name span method bindsName header) =
      ⟨⟨(unitsAround place).map (openUnitAt places (late ++ [place]) place.around),
          run.state.aside, run.state.headers⟩,
        unitAt places late place :: run.closed⟩ := by
  have isUnit : (kindAt? place).isSome := by simp [kindAt?, elementEq]
  have methodEq : methodAt? place = method := by simp [methodAt?, elementEq]
  obtain ⟨⟨units, aside, headers⟩, closed⟩ := run
  obtain rfl := inside
  rw [unitsAt_eq_cons isUnit, List.map_cons]
  cases method with
  | none =>
      rw [map_openUnitAt_path_of_plain (by simp [isControl, elementEq]) methodEq]
      simp [exitElement, OpenUnits.closeUnit, openUnitAt, unitAt]
  | some info =>
      have closes : (OpenUnits.closeMethod
            ⟨(unitsAround place).map (openUnitAt places late place.path), aside, headers⟩).1 =
          ⟨(unitsAround place).map (openUnitAt places (late ++ [place]) place.around),
            aside, headers⟩ :=
        closeMethod_eq stands has (by simp [methodEq]) rfl
      simp [exitElement, OpenUnits.closeUnit, closes, openUnitAt, unitAt]

/-- Leaving an element closes what stands there. -/
theorem exitElement_eq (stands : StandsForSyntax tree) (has : tree.HasPlace place) {run : Run}
    {element : Element} (elementEq : elementAt? place = some element)
    (inside : run.state.units = (unitsAt place).map (openUnitAt places late place.path)) :
    exitElement run element =
      ⟨⟨(unitsAround place).map (openUnitAt places (late ++ [place]) place.around),
          run.state.aside, run.state.headers⟩,
        (if (kindAt? place).isSome then [unitAt places late place] else []) ++ run.closed⟩ := by
  cases element with
  | identifier name binding =>
      have noUnit : kindAt? place = none := by simp [kindAt?, elementEq]
      rw [exitElement, ← map_openUnitAt_path_of_plain (by simp [isControl, elementEq])
        (by simp [methodAt?, elementEq]), ← unitsAt_eq_unitsAround noUnit, ← inside]
      simp [noUnit]
  | memberAccess receiver member =>
      have noUnit : kindAt? place = none := by simp [kindAt?, elementEq]
      rw [exitElement, ← map_openUnitAt_path_of_plain (by simp [isControl, elementEq])
        (by simp [methodAt?, elementEq]), ← unitsAt_eq_unitsAround noUnit, ← inside]
      simp [noUnit]
  | controlBlock type span =>
      have control : isControl place = true := by simp [isControl, elementEq]
      have noUnit := kindAt?_eq_none_of_isControl control
      obtain ⟨⟨units, aside, headers⟩, closed⟩ := run
      obtain rfl := inside
      have closes : (OpenUnits.closeBlock
            ⟨(unitsAround place).map (openUnitAt places late place.path), aside, headers⟩).1 =
          ⟨(unitsAround place).map (openUnitAt places (late ++ [place]) place.around),
            aside, headers⟩ :=
        closeBlock_eq has control rfl
      simp [exitElement, unitsAt_eq_unitsAround noUnit, noUnit, closes]
  | «class» name span header =>
      have isUnit : (kindAt? place).isSome := by simp [kindAt?, elementEq]
      obtain ⟨⟨units, aside, headers⟩, closed⟩ := run
      obtain rfl := inside
      rw [unitsAt_eq_cons isUnit, List.map_cons,
        map_openUnitAt_path_of_plain (by simp [isControl, elementEq])
          (by simp [methodAt?, elementEq])]
      simp [exitElement, OpenUnits.closeUnit, isUnit, openUnitAt, unitAt]
  | function name span method bindsName header =>
      have isUnit : (kindAt? place).isSome := by simp [kindAt?, elementEq]
      rw [exitElement_function_eq stands has elementEq inside, if_pos isUnit]
      rfl

/-! ## Steps -/

/-- What reaching an element does to a run, apart from headers. -/
def reachElement (run : Run) (place : SyntaxPlace) : Run :=
  match elementAt? place with
  | some element => { run with state := enterElement run.state place.address element }
  | none => run

/-- What leaving an element does to a run, apart from headers. -/
def leaveElement (run : Run) (place : SyntaxPlace) : Run :=
  match elementAt? place with
  | some element => exitElement run element
  | none => run

theorem eq_nil_of_elementAt?_eq_none (noElement : elementAt? place = none) :
    kindAt? place = none ∧ isControl place = false ∧ nameAt? place = none ∧
      accessAt? place = none := by
  simp [kindAt?, isControl, nameAt?, accessAt?, noElement]

/-- Parked units collect nothing. -/
theorem openUnitAt_append_of_mem_unitsAside (stands : StandsForSyntax tree)
    (has : tree.HasPlace place)
    (closed : ∀ block ∈ late, usageOf (places ++ [place]) block = usageOf places block)
    (parked : unit ∈ unitsAside place) :
    openUnitAt (places ++ [place]) late place.around unit =
      openUnitAt places late place.around unit := by
  have around := (List.mem_filter.mp parked).1
  have isAside := (List.mem_filter.mp parked).2
  simp only [isUnitAside, Bool.and_eq_true] at isAside
  cases access : accessAt? place with
  | none =>
      exact openUnitAt_append_of_away has around isAside.1 closed access fun home =>
        (homeOf?_ne_of_mem_unitsAside parked home).elim
  | some pair =>
      refine openUnitAt_append_of_not_in_charge has closed access fun method found => ?_
      have through : receiverAt? method = some pair.1 := by simpa using List.find?_some found
      have methodAround := List.mem_of_find?_eq_some found
      obtain ⟨owner, opened, -, isBlock⟩ := exists_mem_unitsAround_of_methodAt? stands has
        methodAround (methodAt?_isSome_of_receiverAt? through)
      refine isBlockOf_eq_false_of_homeOf?_ne (has.around methodAround) (has.around around)
        fun home => ?_
      rw [homeOf?_eq_some_of_isBlockOf (has.around methodAround)
        (has.around (mem_around_of_mem_unitsAround opened)) isBlock] at home
      cases home
      have outside := (List.mem_filter.mp opened).2
      simp only [isUnitAround, Bool.and_eq_true, Bool.not_eq_true'] at outside
      simp [outside.2] at isAside

theorem Describes.reach (stands : StandsForSyntax tree) (reaches : Reaches tree places late place)
    {run : Run}
    (before : Describes places late (unitsAround place) (unitsAside place) place.around run) :
    Describes (places ++ [place]) late (unitsAt place) (unitsAside place) place.path
      (reachElement run place) := by
  have closed : ∀ block ∈ late, usageOf (places ++ [place]) block = usageOf places block :=
    fun block within => reaches.usageOf_append within
  have parked : (unitsAside place).map (openUnitAt places late place.around) =
      (unitsAside place).map (openUnitAt (places ++ [place]) late place.path) := by
    refine List.map_congr_left fun unit member => ?_
    have around := (List.mem_filter.mp member).1
    rw [Visit.path, openUnitAt_cons_of_not_isBlockOf (isBlockOf_eq_false_of_homeOf?_ne reaches.has
      (reaches.has.around around) (homeOf?_ne_of_mem_unitsAside member)),
      openUnitAt_append_of_mem_unitsAside stands reaches.has closed member]
  have settled : run.closed = ((late.filter fun unit => (kindAt? unit).isSome).map
      (unitAt (places ++ [place]) late)).reverse := by
    rw [before.closed]
    congr 1
    exact List.map_congr_left fun unit member =>
      (reaches.unitAt_append (List.mem_filter.mp member).1).symm
  unfold reachElement
  cases elementEq : elementAt? place with
  | none =>
      obtain ⟨noUnit, notControl, noName, noAccess⟩ := eq_nil_of_elementAt?_eq_none elementEq
      have idle : run.state.units =
          (unitsAround place).map (openUnitAt (places ++ [place]) late place.around) := by
        rw [before.units, map_openUnitAt_append_of_idle noName noAccess]
      have same := credited_eq_of_plain notControl noUnit idle
      refine ⟨congrArg OpenUnits.units same, by rw [before.aside, parked],
        fun address => ?_, settled⟩
      simp [before.headers, headerAddressesAt_eq_nil noUnit]
  | some element =>
      have same := enterElement_eq stands reaches elementEq before.units
      refine ⟨by simp [same], by simp [same, before.aside, parked], fun address => ?_, settled⟩
      simp [same, before.headers, or_comm]

theorem Describes.leave (stands : StandsForSyntax tree) (has : tree.HasPlace place)
    (apart : ∀ other ∈ late, tree.HasPlace other ∧ other ∉ place.around) {run : Run}
    (inside : Describes places late (unitsAt place) (unitsAside place) place.path run) :
    Describes places (late ++ [place]) (unitsAround place) (unitsAside place) place.around
      (leaveElement run place) := by
  have notInside : isBlockOf place place = false :=
    isBlockOf_eq_false_of_not_mem_around has has
      (not_mem_around_of_mem_path has (by simp [Visit.path]))
  have parked : (unitsAside place).map (openUnitAt places late place.path) =
      (unitsAside place).map (openUnitAt places (late ++ [place]) place.around) := by
    have notBlock (unit : SyntaxPlace) (member : unit ∈ unitsAside place) :
        isBlockOf unit place = false :=
      isBlockOf_eq_false_of_homeOf?_ne has (has.around (List.mem_filter.mp member).1)
        (homeOf?_ne_of_mem_unitsAside member)
    rw [Visit.path, map_openUnitAt_cons_of_not_isBlockOf notBlock,
      map_openUnitAt_append_of_not_isBlockOf notBlock]
  have settled : ((late.filter fun unit => (kindAt? unit).isSome).map
        (unitAt places (late ++ [place]))).reverse = run.closed := by
    rw [inside.closed]
    congr 1
    refine List.map_congr_left fun unit member => unitAt_append_of_not_isBlockOf ?_
    obtain ⟨unitHas, notAround⟩ := apart unit (List.mem_filter.mp member).1
    exact isBlockOf_eq_false_of_not_mem_around has unitHas notAround
  unfold leaveElement
  cases elementEq : elementAt? place with
  | none =>
      obtain ⟨noUnit, notControl, -, -⟩ := eq_nil_of_elementAt?_eq_none elementEq
      have notBlock (unit : SyntaxPlace) : isBlockOf unit place = false :=
        isBlockOf_eq_false_of_plain notControl (methodAt?_eq_none_of_kindAt?_eq_none noUnit)
      refine ⟨?_, by rw [inside.aside, parked], inside.headers, ?_⟩
      · rw [inside.units, unitsAt_eq_unitsAround noUnit, Visit.path,
          map_openUnitAt_cons_of_not_isBlockOf fun unit _ => notBlock unit,
          map_openUnitAt_append_of_not_isBlockOf fun unit _ => notBlock unit]
      · simp [noUnit, ← settled]
  | some element =>
      have same := exitElement_eq stands has elementEq inside.units
      refine ⟨by simp [same], by simp [same, inside.aside, parked],
        fun address => by simp [same, inside.headers], ?_⟩
      cases kindEq : kindAt? place with
      | none => simp [same, kindEq, ← settled]
      | some kind => simp [same, kindEq, ← settled, unitAt_append_of_not_isBlockOf notInside]

/-! ## Events -/

/-- A traversal reaches or leaves a place. -/
def eventAt (phase : Phase) (place : SyntaxPlace) : Event Occurrence :=
  ⟨phase, place.tree, place.context.head?, place.address⟩

theorem step_enter (run : Run) (place : SyntaxPlace) :
    run.step (eventAt .enter place) =
      reachElement
        (if run.state.inHeader place.address then { run with state := run.state.setAside } else run)
        place := by
  unfold Run.step reachElement elementAt? eventAt
  cases run.state.inHeader place.address <;>
    cases elementOf? place.tree place.context.head? <;> simp

theorem step_exit (run : Run) (place : SyntaxPlace) :
    run.step (eventAt .exit place) =
      if run.state.inHeader place.address then
        { leaveElement run place with state := (leaveElement run place).state.takeBack.1 }
      else leaveElement run place := by
  rfl

theorem inHeader_iff_mem {κ : Type} [DecidableEq κ] {state : OpenUnits κ} {key : κ} :
    state.inHeader key = true ↔ key ∈ state.headers := by
  simp [OpenUnits.inHeader]

section Child

variable {index : Nat} {subtree : SyntaxTree} {run : Run} {opened parked path : List SyntaxPlace}

/-- A place is marked if it is a part of the header of a unit around it. -/
theorem inHeader_iff (has : tree.HasPlace place) (index : Nat)
    (listed : ∀ other ∈ places, tree.HasPlace other) (on : ∀ other ∈ place.path, other ∈ places)
    (describes : Describes places late opened parked path run) :
    run.state.inHeader (place.address ++ [index]) = true ↔
      ∃ unit ∈ place.path, place.address ++ [index] ∈ headerAddressesAt unit := by
  rw [inHeader_iff_mem, describes.headers]
  constructor
  · rintro ⟨unit, member, inHeader⟩
    refine ⟨unit, ?_, inHeader⟩
    obtain ⟨part, equal, headerPart⟩ := mem_headerAddressesAt inHeader
    have nonempty : part ≠ [] := by cases headerPart <;> simp
    have isPrefix : unit.address <+: place.address := by
      have below : unit.address <+: place.address ++ [index] := ⟨part, equal.symm⟩
      rcases List.prefix_concat_iff.mp below with same | shorter
      · rw [same] at equal
        exact absurd (List.self_eq_append_right.mp equal) nonempty
      · exact shorter
    exact has.mem_path_of_isPrefix (listed unit member) isPrefix
  · rintro ⟨unit, member, inHeader⟩
    exact ⟨unit, on unit member, inHeader⟩

/-- Reaching a child opens what stands there, for the units that the child lies in. -/
theorem Describes.step_enter (stands : StandsForSyntax tree) (has : tree.HasPlace place)
    (reaches : Reaches tree places late (place.child index subtree))
    (describes : Describes places late (unitsAt place) (unitsAside place) place.path run) :
    Describes (places ++ [place.child index subtree]) late (unitsAt (place.child index subtree))
      (unitsAside (place.child index subtree)) (place.child index subtree).path
      (run.step (eventAt .enter (place.child index subtree))) := by
  have marked := inHeader_iff has index reaches.listed (Visit.child_around .. ▸ reaches.around)
    describes
  rw [Cohesion.step_enter]
  apply Describes.reach stands reaches
  rw [Visit.child_around]
  by_cases inHeader : run.state.inHeader (place.child index subtree).address = true
  · obtain ⟨unit, on, member⟩ := marked.mp inHeader
    obtain ⟨units, aside⟩ := unitsAround_child_of_mem stands has subtree on member
    rw [if_pos inHeader]
    have state := describes.units
    rw [units, List.map_cons] at state
    refine ⟨?_, ?_, ?_, describes.closed⟩
    · simp [OpenUnits.setAside, state]
    · simp [OpenUnits.setAside, state, aside, describes.aside]
    · simpa [OpenUnits.setAside, state] using describes.headers
  · have notPart : ∀ unit ∈ place.path, place.address ++ [index] ∉ headerAddressesAt unit :=
      fun unit on member => inHeader (marked.mpr ⟨unit, on, member⟩)
    obtain ⟨units, aside⟩ := unitsAround_child_of_forall_not_mem subtree notPart
    rw [if_neg inHeader, units, aside]
    exact describes

/-- Leaving a child closes what stands there and restores the units of its parent. -/
theorem Describes.step_exit (stands : StandsForSyntax tree) (has : tree.HasPlace place)
    (found : place.tree.children[index]? = some subtree)
    (listed : ∀ other ∈ places, tree.HasPlace other) (on : ∀ other ∈ place.path, other ∈ places)
    (apart : ∀ other ∈ late, tree.HasPlace other ∧ other ∉ place.path)
    (inside : Describes places late (unitsAt (place.child index subtree))
      (unitsAside (place.child index subtree)) (place.child index subtree).path run) :
    Describes places (late ++ [place.child index subtree]) (unitsAt place) (unitsAside place)
      place.path (run.step (eventAt .exit (place.child index subtree))) := by
  have marked := inHeader_iff has index listed on inside
  have left := inside.leave stands (.child has found) (by simpa using apart)
  rw [Visit.child_around] at left
  rw [Cohesion.step_exit]
  by_cases inHeader : run.state.inHeader (place.child index subtree).address = true
  · obtain ⟨unit, on, member⟩ := marked.mp inHeader
    obtain ⟨units, aside⟩ := unitsAround_child_of_mem stands has subtree on member
    rw [if_pos inHeader]
    have state := left.aside
    rw [aside, List.map_cons] at state
    refine ⟨?_, ?_, ?_, left.closed⟩
    · simp [OpenUnits.takeBack, state, units, left.units]
    · simp [OpenUnits.takeBack, state]
    · simpa [OpenUnits.takeBack, state] using left.headers
  · have notPart : ∀ unit ∈ place.path, place.address ++ [index] ∉ headerAddressesAt unit :=
      fun unit on member => inHeader (marked.mpr ⟨unit, on, member⟩)
    obtain ⟨units, aside⟩ := unitsAround_child_of_forall_not_mem subtree notPart
    rw [if_neg inHeader, ← units, ← aside]
    exact left

end Child

/-! ## The whole traversal -/

/-- What a traversal that stands at a place and is about to reach its child number `next`
knows: the places on the way have been reached and not left, and nothing in a child
from that number on has been reached. -/
structure StandsAt (tree : SyntaxTree) (places late : List SyntaxPlace) (place : SyntaxPlace)
    (next : Nat) : Prop where
  has : tree.HasPlace place
  listed : ∀ other ∈ places, tree.HasPlace other
  path : ∀ other ∈ place.path, other ∈ places
  fresh : ∀ other ∈ places, ∀ index, next ≤ index → ¬place.address ++ [index] <+: other.address
  left : ∀ other ∈ late, other ∈ places
  apart : ∀ other ∈ late, other ∉ place.path

theorem StandsAt.reaches {next : Nat} {subtree : SyntaxTree}
    (stands : StandsAt tree places late place next)
    (found : place.tree.children[next]? = some subtree) :
    Reaches tree places late (place.child next subtree) where
  has := .child stands.has found
  listed := stands.listed
  around := by simpa using stands.path
  fresh other member on :=
    stands.fresh other member next (Nat.le_refl next)
      ((stands.listed other member).address_prefix_of_mem_path on)
  left := stands.left
  apart other member on := by
    rcases Visit.mem_path_iff.mp on with rfl | around
    · exact stands.fresh _ (stands.left _ member) next (Nat.le_refl next) List.prefix_rfl
    · exact stands.apart other member (by simpa using around)

/-- A place that has just been reached is where the traversal stands. -/
theorem Reaches.standsAt (reaches : Reaches tree places late place) :
    StandsAt tree (places ++ [place]) late place 0 where
  has := reaches.has
  listed other member := (reaches.unseen other member).1
  path other on := by
    rcases Visit.mem_path_iff.mp on with rfl | around
    · simp
    · simp [reaches.around other around]
  fresh other member index _ below := by
    have isPrefix : place.address <+: other.address := (List.prefix_append ..).trans below
    rcases List.mem_append.mp member with member | member
    · exact reaches.fresh other member
        ((reaches.listed other member).mem_path_of_isPrefix reaches.has isPrefix)
    · obtain rfl := List.mem_singleton.mp member
      have := below.length_le
      simp only [List.length_append, List.length_cons, List.length_nil] at this
      omega
  left other member := List.mem_append_left _ (reaches.left other member)
  apart := reaches.apart

/-- What has been reached at a child was on the way to the place itself, or is apart from it. -/
theorem StandsAt.of_child {index next : Nat} {subtree : SyntaxTree}
    (inside : StandsAt tree places late (place.child index subtree) next) :
    (∀ other ∈ place.path, other ∈ places) ∧
      ∀ other ∈ late, tree.HasPlace other ∧ other ∉ place.path := by
  have onChild {other : SyntaxPlace} (on : other ∈ place.path) :
      other ∈ (place.child index subtree).path :=
    Visit.mem_path_iff.mpr (.inr (by simpa using on))
  refine ⟨fun other on => inside.path other (onChild on), fun other member => ?_⟩
  exact ⟨inside.listed other (inside.left other member),
    fun on => inside.apart other member (onChild on)⟩

/-- Once a child has been left, the traversal stands before the next one. -/
theorem StandsAt.next {next : Nat} {subtree : SyntaxTree}
    (stands : StandsAt tree places late place next)
    (found : place.tree.children[next]? = some subtree) :
    StandsAt tree (places ++ (place.child next subtree).places)
      (late ++ (place.child next subtree).latePlaces) place (next + 1) where
  has := stands.has
  listed other member := by
    rcases List.mem_append.mp member with member | member
    · exact stands.listed other member
    · exact ((Tree.HasPlace.child stands.has found).of_mem_places member).1
  path other on := List.mem_append_left _ (stands.path other on)
  fresh other member index later below := by
    rcases List.mem_append.mp member with member | member
    · exact stands.fresh other member index (by omega) below
    · obtain ⟨otherHas, on⟩ := (Tree.HasPlace.child stands.has found).of_mem_places member
      have inChild : place.address ++ [next] <+: other.address :=
        otherHas.address_prefix_of_mem_path on
      have same := List.prefix_of_prefix_length_le below inChild (by simp)
      rw [List.prefix_append_right_inj] at same
      have := (List.cons_prefix_cons.mp same).1
      omega
  left other member := by
    rcases List.mem_append.mp member with member | member
    · exact List.mem_append_left _ (stands.left other member)
    · exact List.mem_append_right _ (Visit.mem_latePlaces.mp member)
  apart other member on := by
    rcases List.mem_append.mp member with member | member
    · exact stands.apart other member on
    · obtain ⟨otherHas, onChild⟩ := (Tree.HasPlace.child stands.has found).of_mem_places
        (Visit.mem_latePlaces.mp member)
      have below := (otherHas.address_prefix_of_mem_path onChild).length_le
      have above := (stands.has.address_prefix_of_mem_path on).length_le
      simp only [Visit.child, List.length_append, List.length_cons, List.length_nil] at below
      omega

/-- A traversal that stands before a child passes it. -/
def Passes (tree subtree : SyntaxTree) : Prop :=
  ∀ ⦃places late : List SyntaxPlace⦄ ⦃place : SyntaxPlace⦄ ⦃next : Nat⦄ ⦃run : Run⦄,
    StandsAt tree places late place next → place.tree.children[next]? = some subtree →
    Describes places late (unitsAt place) (unitsAside place) place.path run →
    Describes (places ++ (place.child next subtree).places)
      (late ++ (place.child next subtree).latePlaces) (unitsAt place) (unitsAside place) place.path
      ((subtree.events (some place.tree) (place.address ++ [next])).foldl Run.step run)

/-- A traversal that stands before the last children passes them one after another. -/
theorem Passes.all {trees : List SyntaxTree} (each : ∀ subtree ∈ trees, Passes tree subtree)
    {next : Nat} {run : Run} (stands : StandsAt tree places late place next)
    (rest : place.tree.children.drop next = trees)
    (describes : Describes places late (unitsAt place) (unitsAside place) place.path run) :
    StandsAt tree (places ++ place.placesFrom next trees) (late ++ place.latePlacesFrom next trees)
        place (next + trees.length) ∧
      Describes (places ++ place.placesFrom next trees) (late ++ place.latePlacesFrom next trees)
        (unitsAt place) (unitsAside place) place.path
        ((Tree.eventsAll place.tree place.address next trees).foldl Run.step run) := by
  induction trees generalizing places late next run with
  | nil => simpa [Tree.eventsAll] using And.intro stands describes
  | cons subtree trees inductionHypothesis =>
      have found : place.tree.children[next]? = some subtree := by
        rw [← List.head?_drop, rest, List.head?_cons]
      have restAfter : place.tree.children.drop (next + 1) = trees := by
        rw [← List.drop_drop, rest]
        rfl
      have passed := each subtree List.mem_cons_self stands found describes
      have after := inductionHypothesis
        (fun other member => each other (List.mem_cons_of_mem _ member)) (stands.next found)
        restAfter passed
      rw [Visit.placesFrom_cons, Visit.latePlacesFrom_cons, Tree.eventsAll, List.foldl_append,
        ← List.append_assoc, ← List.append_assoc, List.length_cons, Nat.add_comm trees.length 1,
        ← Nat.add_assoc]
      exact after

/-- Passing a child reaches it, passes its children and leaves it. -/
theorem passes (syntaxTree : StandsForSyntax tree) (subtree : SyntaxTree) :
    Passes tree subtree := by
  induction subtree using Tree.inductionOnChildren with
  | node label children inductionHypothesis =>
      intro places late place next run stands found describes
      have reaches := stands.reaches found
      have entered := describes.step_enter syntaxTree stands.has reaches
      obtain ⟨inside, collected⟩ := Passes.all inductionHypothesis reaches.standsAt rfl entered
      obtain ⟨on, apart⟩ := inside.of_child
      have exited := collected.step_exit syntaxTree stands.has found inside.listed on apart
      rw [Visit.places_eq, Visit.latePlaces_eq, Tree.events, List.foldl_append, ← List.append_assoc,
        List.append_cons places]
      exact exited

/-- The places of a tree where units stand, in the order in which the units end. -/
def unitPlaces (tree : SyntaxTree) : List SyntaxPlace :=
  tree.latePlaces.filter fun unit => (kindAt? unit).isSome

theorem walk_eq (tree : SyntaxTree) :
    tree.walk =
      eventAt .enter (Visit.whole tree) ::
        Tree.eventsAll (Visit.whole tree).tree (Visit.whole tree).address 0 tree.children ++
        [eventAt .exit (Visit.whole tree)] := by
  cases tree with
  | node label children => rw [Tree.walk_eq_events, Tree.events]; rfl

/-- The root of a tree is no part of a header. -/
theorem inHeader_whole_eq_false (tree : SyntaxTree) {opened parked path : List SyntaxPlace}
    {run : Run} (describes : Describes places late opened parked path run) :
    run.state.inHeader (Visit.whole tree).address = false := by
  rw [Bool.eq_false_iff, ne_eq, inHeader_iff_mem, describes.headers]
  rintro ⟨unit, -, inHeader⟩
  obtain ⟨part, equal, headerPart⟩ := mem_headerAddressesAt inHeader
  cases headerPart <;> simp [Visit.whole] at equal

/-- Before anything is reached, nothing is open. -/
theorem describes_empty (tree : SyntaxTree) :
    Describes [] [] (unitsAround (Visit.whole tree)) (unitsAside (Visit.whole tree))
      (Visit.whole tree).around {} := by
  have around : (Visit.whole tree).around = [] := rfl
  refine ⟨?_, ?_, ?_, ?_⟩ <;> simp [unitsAround, unitsAside, around, OpenUnits.empty]

theorem reaches_whole (tree : SyntaxTree) : Reaches tree [] [] (Visit.whole tree) := by
  have around : (Visit.whole tree).around = [] := rfl
  refine ⟨.whole, ?_, ?_, ?_, ?_, ?_⟩ <;> simp [around]

/-- A traversal that reaches the root stands there. -/
theorem describes_step_enter_whole (syntaxTree : StandsForSyntax tree) :
    Describes [Visit.whole tree] [] (unitsAt (Visit.whole tree)) (unitsAside (Visit.whole tree))
      (Visit.whole tree).path (Run.step {} (eventAt .enter (Visit.whole tree))) := by
  rw [step_enter, inHeader_whole_eq_false tree (describes_empty tree), if_neg Bool.false_ne_true]
  exact (describes_empty tree).reach syntaxTree (reaches_whole tree)

/-- A traversal that leaves the root leaves nothing open. -/
theorem Describes.step_exit_whole {run : Run} (syntaxTree : StandsForSyntax tree)
    (describes : Describes places late (unitsAt (Visit.whole tree)) (unitsAside (Visit.whole tree))
      (Visit.whole tree).path run)
    (listed : ∀ other ∈ late, tree.HasPlace other) :
    Describes places (late ++ [Visit.whole tree]) [] [] []
      (run.step (eventAt .exit (Visit.whole tree))) := by
  rw [Cohesion.step_exit, inHeader_whole_eq_false tree describes, if_neg Bool.false_ne_true]
  exact describes.leave syntaxTree .whole fun other member => ⟨listed other member, by simp⟩

/-- A traversal of a whole tree closes the units of the tree, each with what the places
of the tree use. -/
theorem closedUnits_eq (syntaxTree : StandsForSyntax tree) :
    closedUnits tree = (unitPlaces tree).map (unitAt tree.places tree.latePlaces) := by
  have rest : (Visit.whole tree).tree.children.drop 0 = tree.children := rfl
  obtain ⟨inside, collected⟩ := Passes.all (fun subtree _ => passes syntaxTree subtree)
    (reaches_whole tree).standsAt rest (describes_step_enter_whole syntaxTree)
  have closed := (collected.step_exit_whole syntaxTree fun other member =>
    inside.listed other (inside.left other member)).closed
  have places : tree.places = [Visit.whole tree] ++ (Visit.whole tree).placesFrom 0 tree.children :=
    (Visit.whole tree).places_eq
  have late : tree.latePlaces =
      (Visit.whole tree).latePlacesFrom 0 tree.children ++ [Visit.whole tree] :=
    (Visit.whole tree).latePlaces_eq
  rw [List.nil_append, List.nil_append, ← places, ← late] at closed
  rw [closedUnits, walk_eq, List.foldl_append, List.foldl_cons, List.foldl_cons, List.foldl_nil]
  exact (congrArg List.reverse closed).trans (List.reverse_reverse _)

end DesignLint.Cohesion
