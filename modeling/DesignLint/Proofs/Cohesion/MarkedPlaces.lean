import DesignLint.Proofs.Cohesion.Marks
import DesignLint.Proofs.Cohesion.Traversal

/-!
# Marks of a traversal

The events of a traversal as operations on the open units, each marked with the address of
the node that it reaches or leaves. What the marks are at a place is read off the tree.
-/

namespace DesignLint.Cohesion

open DesignLint.Syntax

/-! ## Events as operations -/

/-- The operations of reaching an element at an address. -/
def enterOperations (address : Address) : Element → List (Operation Address)
  | .function name span method bindsName header =>
    (if bindsName then [.identifier name .store] else [])
      ++ (method.map fun info =>
        Operation.openMethod info.name span info.receiver info.isConstructor).toList
      ++ [.openUnit .function name span (method.bind (·.receiver)),
        .addHeader (headerAddresses address header)]
  | .class name span header =>
    [.identifier name .store, .openUnit .class name span none,
      .addHeader (headerAddresses address header)]
  | .controlBlock type span => [.openBlock type span]
  | .identifier name binding => [.identifier name binding]
  | .memberAccess receiver member => [.member receiver member]

/-- The operations of leaving an element. -/
def exitOperations : Element → List (Operation Address)
  | .function _ _ method _ _ => .closeUnit :: if method.isSome then [.closeMethod] else []
  | .class _ _ _ => [.closeUnit]
  | .controlBlock _ _ => [.closeBlock]
  | .identifier _ _ => []
  | .memberAccess _ _ => []

/-- The operations of an event. A part of a header is visited with its unit parked. -/
def operationsOf (inHeader : Bool) (event : Event Occurrence) : List (Operation Address) :=
  let element := elementOf? event.tree event.parent
  match event.phase with
  | .enter =>
    (if inHeader then [.setAside] else []) ++ element.elim [] (enterOperations event.address)
  | .exit => element.elim [] exitOperations ++ if inHeader then [.takeBack] else []

theorem enterElement_eq_performAll (state : OpenUnits Address) (address : Address)
    (element : Element) :
    enterElement state address element = state.performAll (enterOperations address element) := by
  cases element with
  | function name span method bindsName header => cases bindsName <;> cases method <;> rfl
  | _ => rfl

theorem exitElement_eq_performAll (run : Run) (element : Element) :
    (exitElement run element).state = run.state.performAll (exitOperations element) := by
  cases element with
  | function name span method bindsName header => cases method <;> rfl
  | _ => rfl

/-- An event does to the open units what its operations do. -/
theorem state_step_eq_performAll (run : Run) (event : Event Occurrence) :
    (run.step event).state =
      run.state.performAll (operationsOf (run.state.inHeader event.address) event) := by
  unfold Run.step operationsOf
  cases event.phase with
  | enter =>
      cases elementOf? event.tree event.parent with
      | none => cases run.state.inHeader event.address <;> rfl
      | some element =>
          cases run.state.inHeader event.address <;>
            exact enterElement_eq_performAll _ event.address element
  | exit =>
      cases elementOf? event.tree event.parent with
      | none => cases run.state.inHeader event.address <;> rfl
      | some element =>
          cases run.state.inHeader event.address <;>
            simp [exitElement_eq_performAll, OpenUnits.performAll, OpenUnits.perform]

/-- A traversal together with the marks of its operations. -/
structure Traced where
  run : Run := {}
  marks : Marks Address := {}

/-- One event of a traversal. Its operations are marked with the address of its node. -/
def Traced.step (traced : Traced) (event : Event Occurrence) : Traced where
  run := traced.run.step event
  marks := traced.marks.followAll event.address
    (operationsOf (traced.run.state.inHeader event.address) event)

/-- A traversal after some events. -/
def trace (events : List (Event Occurrence)) : Traced := events.foldl Traced.step {}

theorem run_foldl_step (traced : Traced) (events : List (Event Occurrence)) :
    (events.foldl Traced.step traced).run = events.foldl Run.step traced.run := by
  induction events generalizing traced with
  | nil => rfl
  | cons event events inductionHypothesis => exact inductionHypothesis (traced.step event)

theorem Traced.fit_step {traced : Traced} (fit : traced.marks.Fit traced.run.state)
    (event : Event Occurrence) : (traced.step event).marks.Fit (traced.step event).run.state := by
  rw [Traced.step, state_step_eq_performAll]
  exact fit.followAll event.address _

/-! ## Marks at a place -/

variable {tree : SyntaxTree} {place unit : SyntaxPlace} {path : List SyntaxPlace}
variable {marks : Marks Address}

/-- The marks of the unit at a place while a traversal stands below it: its own, and
those of the blocks on the way. -/
def marksAt (path : List SyntaxPlace) (unit : SyntaxPlace) : UnitMarks Address where
  kind := (kindAt? unit).getD .function
  unit := unit.address
  frames := (path.filter (isBlockOf unit)).map (·.address) ++
    if kindAt? unit = some .function then [unit.address] else []

theorem marksAt_cons_of_isBlockOf (isBlock : isBlockOf unit place = true) :
    marksAt (place :: path) unit =
      { marksAt path unit with frames := place.address :: (marksAt path unit).frames } := by
  simp [marksAt, isBlock]

theorem marksAt_cons_of_not_isBlockOf (notBlock : isBlockOf unit place = false) :
    marksAt (place :: path) unit = marksAt path unit := by
  simp [marksAt, notBlock]

theorem map_marksAt_cons_of_not_isBlockOf {units : List SyntaxPlace}
    (notBlock : ∀ unit ∈ units, isBlockOf unit place = false) :
    units.map (marksAt (place :: path)) = units.map (marksAt path) :=
  List.map_congr_left fun unit member => marksAt_cons_of_not_isBlockOf (notBlock unit member)

/-- No block of a unit lies on the way to the unit. -/
theorem filter_isBlockOf_path_eq_nil (has : tree.HasPlace place) :
    place.path.filter (isBlockOf place) = [] :=
  List.filter_eq_nil_iff.mpr fun other on => by
    simp [isBlockOf_eq_false_of_not_mem_around (has.of_mem_path on) has
      (not_mem_around_of_mem_path has on)]

/-- A unit that has just been reached has the marks of a unit that has just been opened. -/
theorem marksAt_path_self (has : tree.HasPlace place) {kind : UnitKind}
    (isUnit : kindAt? place = some kind) :
    marksAt place.path place =
      ⟨kind, place.address, if kind = .function then [place.address] else []⟩ := by
  simp [marksAt, filter_isBlockOf_path_eq_nil has, isUnit]

/-! ## Blocks and their marks -/

/-- What stands at a place is a block of its nearest unit exactly if that unit is of one kind. -/
def IsBlockFor (kind : UnitKind) (place : SyntaxPlace) : Prop :=
  ∀ home, homeOf? place = some home → isBlockOf home place = decide (kindAt? home = some kind)

theorem isBlockFor_of_control (control : isControl place = true) : IsBlockFor .function place :=
  fun _ home => isBlockOf_of_control control home

theorem isBlockFor_of_method (stands : StandsForSyntax tree) (has : tree.HasPlace place)
    (method : (methodAt? place).isSome) : IsBlockFor .class place := fun home homeEq => by
  obtain ⟨isClass, isBlock⟩ := home_of_methodAt? stands has method homeEq
  simp [isClass, isBlock]

/-- Opening a block marks a frame of its unit. -/
theorem mapFrames_cons_eq (has : tree.HasPlace place) {kind : UnitKind}
    (block : IsBlockFor kind place)
    (opened : marks.units = (unitsAround place).map (marksAt path)) :
    marks.mapFrames kind (place.address :: ·) =
      { marks with units := (unitsAround place).map (marksAt (place :: path)) } := by
  obtain ⟨units, aside, closed⟩ := marks
  obtain rfl := opened
  rcases unitsAround_eq_nil_or_cons has with units | ⟨home, outer, units, homeEq, isUnit, notBlock⟩
  · simp [Marks.mapFrames, units]
  · obtain ⟨found, kindEq⟩ := Option.isSome_iff_exists.mp isUnit
    have isBlock := block home homeEq
    rw [units, List.map_cons, List.map_cons, map_marksAt_cons_of_not_isBlockOf notBlock,
      Marks.mapFrames]
    by_cases same : found = kind
    · rw [marksAt_cons_of_isBlockOf (by simp [isBlock, kindEq, same])]
      simp [marksAt, kindEq, same]
    · rw [marksAt_cons_of_not_isBlockOf (by simp [isBlock, kindEq, same])]
      simp [marksAt, kindEq, same]

/-- Closing a block takes the mark from its unit. -/
theorem mapFrames_eq_of_closed (has : tree.HasPlace place) {kind : UnitKind}
    (block : IsBlockFor kind place) {change : List Address → List Address}
    (takes : ∀ home, kindAt? home = some kind →
      change (place.address :: (marksAt path home).frames) = (marksAt path home).frames)
    (opened : marks.units = (unitsAround place).map (marksAt (place :: path))) :
    marks.mapFrames kind change =
      { marks with units := (unitsAround place).map (marksAt path) } := by
  obtain ⟨units, aside, closed⟩ := marks
  obtain rfl := opened
  rcases unitsAround_eq_nil_or_cons has with units | ⟨home, outer, units, homeEq, isUnit, notBlock⟩
  · simp [Marks.mapFrames, units]
  · obtain ⟨found, kindEq⟩ := Option.isSome_iff_exists.mp isUnit
    have isBlock := block home homeEq
    rw [units, List.map_cons, List.map_cons, map_marksAt_cons_of_not_isBlockOf notBlock,
      Marks.mapFrames]
    have kindOfMarks : (marksAt path home).kind = found := by simp [marksAt, kindEq]
    by_cases same : found = kind
    · subst same
      rw [marksAt_cons_of_isBlockOf (by simp [isBlock, kindEq])]
      simp only [kindOfMarks, takes home kindEq, if_true]
      rw [← kindOfMarks]
    · rw [marksAt_cons_of_not_isBlockOf (by simp [isBlock, kindEq, same])]
      simp [kindOfMarks, same]

/-! ## Marks of an element -/

/-- What is no block leaves the marks of the units as they are. -/
theorem map_marksAt_path_of_plain (notControl : isControl place = false)
    (noMethod : methodAt? place = none) (units : List SyntaxPlace) :
    units.map (marksAt place.path) = units.map (marksAt place.around) :=
  map_marksAt_cons_of_not_isBlockOf fun _ _ => isBlockOf_eq_false_of_plain notControl noMethod

theorem marks_eq_of_plain (notControl : isControl place = false) (noUnit : kindAt? place = none)
    (opened : marks.units = (unitsAround place).map (marksAt place.around)) :
    { marks with units := (unitsAt place).map (marksAt place.path) } = marks := by
  rw [unitsAt_eq_unitsAround noUnit, map_marksAt_path_of_plain notControl
    (methodAt?_eq_none_of_kindAt?_eq_none noUnit), ← opened]

/-- Reaching an element marks what is opened there. -/
theorem followAll_enterOperations_eq (stands : StandsForSyntax tree) (has : tree.HasPlace place)
    {element : Element} (elementEq : elementAt? place = some element)
    (opened : marks.units = (unitsAround place).map (marksAt place.around)) :
    marks.followAll place.address (enterOperations place.address element) =
      { marks with units := (unitsAt place).map (marksAt place.path) } := by
  cases element with
  | identifier name binding =>
      exact (marks_eq_of_plain (by simp [isControl, elementEq]) (by simp [kindAt?, elementEq])
        opened).symm
  | memberAccess receiver member =>
      exact (marks_eq_of_plain (by simp [isControl, elementEq]) (by simp [kindAt?, elementEq])
        opened).symm
  | controlBlock type span =>
      have control : isControl place = true := by simp [isControl, elementEq]
      rw [unitsAt_eq_unitsAround (kindAt?_eq_none_of_isControl control), Visit.path]
      exact mapFrames_cons_eq has (isBlockFor_of_control control) opened
  | «class» name span header =>
      have isUnit : kindAt? place = some .class := by simp [kindAt?, elementEq]
      rw [unitsAt_eq_cons (by simp [isUnit]), List.map_cons, marksAt_path_self has isUnit,
        map_marksAt_path_of_plain (by simp [isControl, elementEq])
          (by simp [methodAt?, elementEq]), ← opened]
      rfl
  | function name span method bindsName header =>
      have isUnit : kindAt? place = some .function := by simp [kindAt?, elementEq]
      have methodEq : methodAt? place = method := by simp [methodAt?, elementEq]
      rw [unitsAt_eq_cons (by simp [isUnit]), List.map_cons, marksAt_path_self has isUnit]
      cases method with
      | none =>
          rw [map_marksAt_path_of_plain (by simp [isControl, elementEq]) methodEq, ← opened]
          cases bindsName <;> rfl
      | some info =>
          -- the frame of the class is opened before the unit of the method
          have framed := mapFrames_cons_eq has
            (isBlockFor_of_method stands has (by simp [methodEq])) opened
          rw [Visit.path]
          cases bindsName <;>
            simp [enterOperations, Marks.followAll, Marks.follow, framed]

/-- Leaving an element takes the marks of what was opened there. -/
theorem followAll_exitOperations_eq (stands : StandsForSyntax tree) (has : tree.HasPlace place)
    {element : Element} (elementEq : elementAt? place = some element)
    (inside : marks.units = (unitsAt place).map (marksAt place.path)) :
    marks.followAll place.address (exitOperations element) =
      { marks with
        units := (unitsAround place).map (marksAt place.around)
        closed := (if (kindAt? place).isSome then [place.address] else []) ++ marks.closed } := by
  obtain ⟨units, aside, closed⟩ := marks
  obtain rfl := inside
  cases element with
  | identifier name binding =>
      have noUnit : kindAt? place = none := by simp [kindAt?, elementEq]
      rw [unitsAt_eq_unitsAround noUnit, noUnit, map_marksAt_path_of_plain
        (by simp [isControl, elementEq]) (by simp [methodAt?, elementEq])]
      rfl
  | memberAccess receiver member =>
      have noUnit : kindAt? place = none := by simp [kindAt?, elementEq]
      rw [unitsAt_eq_unitsAround noUnit, noUnit, map_marksAt_path_of_plain
        (by simp [isControl, elementEq]) (by simp [methodAt?, elementEq])]
      rfl
  | controlBlock type span =>
      have control : isControl place = true := by simp [isControl, elementEq]
      have noUnit := kindAt?_eq_none_of_isControl control
      rw [unitsAt_eq_unitsAround noUnit, noUnit]
      refine mapFrames_eq_of_closed has (isBlockFor_of_control control) (fun home function => ?_)
        rfl
      -- the frame of the top level is below every other frame of a function
      cases frames : (marksAt place.around home).frames with
      | nil => simp [marksAt, function] at frames
      | cons frame rest => rfl
  | «class» name span header =>
      have isUnit : (kindAt? place).isSome := by simp [kindAt?, elementEq]
      rw [unitsAt_eq_cons isUnit, List.map_cons, if_pos isUnit, map_marksAt_path_of_plain
        (by simp [isControl, elementEq]) (by simp [methodAt?, elementEq])]
      rfl
  | function name span method bindsName header =>
      have isUnit : (kindAt? place).isSome := by simp [kindAt?, elementEq]
      have methodEq : methodAt? place = method := by simp [methodAt?, elementEq]
      rw [unitsAt_eq_cons isUnit, List.map_cons, if_pos isUnit]
      cases method with
      | none =>
          rw [map_marksAt_path_of_plain (by simp [isControl, elementEq]) methodEq]
          rfl
      | some info =>
          exact mapFrames_eq_of_closed has
            (isBlockFor_of_method stands has (by simp [methodEq])) (fun _ _ => rfl) rfl

/-- The marks of parked units do not change by what stands at a place. -/
theorem map_marksAt_path_of_parked (has : tree.HasPlace place) :
    (unitsAside place).map (marksAt place.path) = (unitsAside place).map (marksAt place.around) :=
  map_marksAt_cons_of_not_isBlockOf fun _ parked =>
    isBlockOf_eq_false_of_homeOf?_ne has (has.around (List.mem_filter.mp parked).1)
      (homeOf?_ne_of_mem_unitsAside parked)

/-! ## Marks of a place -/

/-- The operations of reaching what stands at a place. -/
def enterOperationsAt (place : SyntaxPlace) : List (Operation Address) :=
  (elementAt? place).elim [] (enterOperations place.address)

/-- The operations of leaving what stands at a place. -/
def exitOperationsAt (place : SyntaxPlace) : List (Operation Address) :=
  (elementAt? place).elim [] exitOperations

theorem followAll_enterOperationsAt_eq (marks : Marks Address) (stands : StandsForSyntax tree)
    (has : tree.HasPlace place)
    (opened : marks.units = (unitsAround place).map (marksAt place.around)) :
    marks.followAll place.address (enterOperationsAt place) =
      { marks with units := (unitsAt place).map (marksAt place.path) } := by
  unfold enterOperationsAt
  cases elementEq : elementAt? place with
  | none =>
      obtain ⟨noUnit, notControl, -, -⟩ := eq_nil_of_elementAt?_eq_none elementEq
      exact (marks_eq_of_plain notControl noUnit opened).symm
  | some element => exact followAll_enterOperations_eq stands has elementEq opened

theorem followAll_exitOperationsAt_eq (stands : StandsForSyntax tree) (has : tree.HasPlace place)
    (inside : marks.units = (unitsAt place).map (marksAt place.path)) :
    marks.followAll place.address (exitOperationsAt place) =
      { marks with
        units := (unitsAround place).map (marksAt place.around)
        closed := (if (kindAt? place).isSome then [place.address] else []) ++ marks.closed } := by
  unfold exitOperationsAt
  cases elementEq : elementAt? place with
  | none =>
      obtain ⟨noUnit, notControl, -, -⟩ := eq_nil_of_elementAt?_eq_none elementEq
      rw [unitsAt_eq_unitsAround noUnit, map_marksAt_path_of_plain notControl
        (methodAt?_eq_none_of_kindAt?_eq_none noUnit)] at inside
      rw [noUnit, ← inside]
      rfl
  | some element => exact followAll_exitOperations_eq stands has elementEq inside

end DesignLint.Cohesion
