import DesignLint.Proofs.Cohesion.MarkedPlaces
import DesignLint.Proofs.Syntax.Place
import Mathlib.Data.List.Forall2
import Mathlib.Data.List.Nodup

/-!
# The discipline of a traversal

Reaching and leaving are matched by convention only, so the marks show that they do match.
While a traversal stands at a place, the open and the parked units are those that the tree
tells, each with the mark of its own node. Leaving a place closes what was opened when it was
reached. At the end nothing is open and every unit has been closed once.
-/

namespace DesignLint.Cohesion

open DesignLint.Syntax

variable {tree : SyntaxTree} {place unit : SyntaxPlace}
variable {places late opened parked path : List SyntaxPlace} {traced : Traced}

/-! ## Marks in step with a traversal -/

/-- A marked traversal whose open and parked units are those at given places, with frames for
the blocks on `path`, after the places in `late` have been left. -/
structure Follows (places late opened parked path : List SyntaxPlace) (traced : Traced) :
    Prop where
  describes : Describes places late opened parked path traced.run
  units : traced.marks.units = opened.map (marksAt path)
  aside : traced.marks.aside = parked.map (marksAt path)
  closed : traced.marks.closed =
    ((late.filter fun unit => (kindAt? unit).isSome).map (·.address)).reverse

/-- A place that has been left adds the mark of its unit to those of the closed units. -/
theorem closedMarks_append (late : List SyntaxPlace) (place : SyntaxPlace) :
    (if (kindAt? place).isSome then [place.address] else []) ++
        ((late.filter fun unit => (kindAt? unit).isSome).map (·.address)).reverse =
      (((late ++ [place]).filter fun unit => (kindAt? unit).isSome).map (·.address)).reverse := by
  cases kindEq : kindAt? place <;> simp [kindEq]

/-- The marks of a part of a header are taken with its unit parked. -/
theorem marks_step_enter (traced : Traced) (place : SyntaxPlace) :
    (traced.step (eventAt .enter place)).marks =
      (if traced.run.state.inHeader place.address then
          traced.marks.follow place.address (Operation.setAside : Operation Address)
        else traced.marks).followAll place.address (enterOperationsAt place) := by
  by_cases inHeader : traced.run.state.inHeader place.address = true <;>
    simp [Traced.step, operationsOf, eventAt, inHeader, Marks.followAll, enterOperationsAt,
      elementAt?]

theorem marks_step_exit (traced : Traced) (place : SyntaxPlace) :
    (traced.step (eventAt .exit place)).marks =
      if traced.run.state.inHeader place.address then
        (traced.marks.followAll place.address (exitOperationsAt place)).follow place.address
          (Operation.takeBack : Operation Address)
      else traced.marks.followAll place.address (exitOperationsAt place) := by
  by_cases inHeader : traced.run.state.inHeader place.address = true <;>
    simp [Traced.step, operationsOf, eventAt, inHeader, Marks.followAll, exitOperationsAt,
      elementAt?]

section Child

variable {index : Nat} {subtree : SyntaxTree}

/-- Reaching a child marks what is opened there. -/
theorem Follows.step_enter (stands : StandsForSyntax tree) (has : tree.HasPlace place)
    (reaches : Reaches tree places late (place.child index subtree))
    (follows : Follows places late (unitsAt place) (unitsAside place) place.path traced) :
    Follows (places ++ [place.child index subtree]) late (unitsAt (place.child index subtree))
      (unitsAside (place.child index subtree)) (place.child index subtree).path
      (traced.step (eventAt .enter (place.child index subtree))) := by
  have marked := inHeader_iff has index reaches.listed (Visit.child_around .. ▸ reaches.around)
    follows.describes
  have aside := map_marksAt_path_of_parked reaches.has
  have entered (marks : Marks Address) :=
    followAll_enterOperationsAt_eq marks stands reaches.has
  simp only [Visit.child_around] at aside entered
  have describes := follows.describes.step_enter stands has reaches
  by_cases inHeader : traced.run.state.inHeader (place.child index subtree).address = true
  · obtain ⟨unit, on, member⟩ := marked.mp inHeader
    obtain ⟨unitsEq, asideEq⟩ := unitsAround_child_of_mem stands has subtree on member
    have units := follows.units
    rw [unitsEq, List.map_cons] at units
    have marks := marks_step_enter traced (place.child index subtree)
    simp only [inHeader, if_true, Marks.follow, units] at marks
    rw [entered _ rfl] at marks
    refine ⟨describes, by rw [marks], ?_, by rw [marks, follows.closed]⟩
    rw [marks, aside, asideEq, List.map_cons, follows.aside]
  · have notPart : ∀ unit ∈ place.path, place.address ++ [index] ∉ headerAddressesAt unit :=
      fun unit on member => inHeader (marked.mpr ⟨unit, on, member⟩)
    obtain ⟨unitsEq, asideEq⟩ := unitsAround_child_of_forall_not_mem subtree notPart
    have marks := marks_step_enter traced (place.child index subtree)
    rw [if_neg inHeader, entered _ (by rw [follows.units, unitsEq])] at marks
    refine ⟨describes, by rw [marks], ?_, by rw [marks, follows.closed]⟩
    rw [marks, aside, asideEq, follows.aside]

/-- Leaving a child takes the marks of what was opened there, and those of its parent are
restored. -/
theorem Follows.step_exit (stands : StandsForSyntax tree) (has : tree.HasPlace place)
    (found : place.tree.children[index]? = some subtree)
    (listed : ∀ other ∈ places, tree.HasPlace other) (on : ∀ other ∈ place.path, other ∈ places)
    (apart : ∀ other ∈ late, tree.HasPlace other ∧ other ∉ place.path)
    (inside : Follows places late (unitsAt (place.child index subtree))
      (unitsAside (place.child index subtree)) (place.child index subtree).path traced) :
    Follows places (late ++ [place.child index subtree]) (unitsAt place) (unitsAside place)
      place.path (traced.step (eventAt .exit (place.child index subtree))) := by
  have childHas : tree.HasPlace (place.child index subtree) := .child has found
  have marked := inHeader_iff has index listed on inside.describes
  have aside := inside.aside
  have exited := followAll_exitOperationsAt_eq stands childHas inside.units
  rw [map_marksAt_path_of_parked childHas, Visit.child_around] at aside
  rw [Visit.child_around, inside.closed] at exited
  have describes := inside.describes.step_exit stands has found listed on apart
  rw [closedMarks_append] at exited
  by_cases inHeader : traced.run.state.inHeader (place.child index subtree).address = true
  · obtain ⟨unit, on, member⟩ := marked.mp inHeader
    obtain ⟨unitsEq, asideEq⟩ := unitsAround_child_of_mem stands has subtree on member
    rw [asideEq, List.map_cons] at aside
    have marks := marks_step_exit traced (place.child index subtree)
    simp only [inHeader, if_true, exited, Marks.follow, aside] at marks
    refine ⟨describes, ?_, by rw [marks], by rw [marks]⟩
    rw [marks, unitsEq, List.map_cons]
  · have notPart : ∀ unit ∈ place.path, place.address ++ [index] ∉ headerAddressesAt unit :=
      fun unit on member => inHeader (marked.mpr ⟨unit, on, member⟩)
    obtain ⟨unitsEq, asideEq⟩ := unitsAround_child_of_forall_not_mem subtree notPart
    have marks := marks_step_exit traced (place.child index subtree)
    rw [if_neg inHeader, exited] at marks
    refine ⟨describes, ?_, ?_, by rw [marks]⟩
    · rw [marks, unitsEq]
    · rw [marks, aside, asideEq]

end Child

/-! ## Standing at a place -/

/-- An open or parked unit while a traversal stands at a place: it is the unit that the tree tells.
A class has a frame exactly while one of its methods is visited, and never two. -/
structure IsOpenAt (place unit : SyntaxPlace) (entry : CodeUnit) : Prop where
  kind : kindAt? unit = some entry.kind
  name : entry.name = unitNameAt unit
  span : entry.span = spanAt unit
  frames : entry.kind = .class → entry.frames.length ≤ 1 ∧
    (entry.frames ≠ [] ↔
      ∃ method ∈ place.path, (methodAt? method).isSome ∧ method.around.head? = some unit)

/-- A traversal stands at a place: the open units are those that the place lies in and the one
that stands there, the parked units those in whose header it lies. Their marks and those of
their frames are the addresses of the nodes that they belong to. -/
structure StandsIn (place : SyntaxPlace) (traced : Traced) : Prop where
  units : List.Forall₂ (IsOpenAt place) (unitsAt place) traced.run.state.units
  aside : List.Forall₂ (IsOpenAt place) (unitsAside place) traced.run.state.aside
  unitMarks : traced.marks.units = (unitsAt place).map (marksAt place.path)
  asideMarks : traced.marks.aside = (unitsAside place).map (marksAt place.path)

/-- The blocks of a class are the methods right below it. -/
theorem isBlockOf_class_iff (stands : StandsForSyntax tree) (has : tree.HasPlace place)
    (unitHas : tree.HasPlace unit) (isClass : kindAt? unit = some .class) :
    isBlockOf unit place = true ↔
      (methodAt? place).isSome ∧ place.around.head? = some unit := by
  constructor
  · intro isBlock
    have method := methodAt?_isSome_of_isBlockOf isClass isBlock
    obtain ⟨above, aboveHas, -, aboveBlock, around, -⟩ :=
      exists_isBlockOf_of_methodAt? stands has method
    obtain rfl := eq_of_isBlockOf has unitHas aboveHas isBlock aboveBlock
    exact ⟨method, by rw [around]; rfl⟩
  · rintro ⟨method, head⟩
    obtain ⟨above, -, -, aboveBlock, around, -⟩ := exists_isBlockOf_of_methodAt? stands has method
    obtain rfl : above = unit := by simpa [around, Visit.path] using head
    exact aboveBlock

/-- No two methods of a class lie around each other. -/
theorem length_filter_isBlockOf_le_one (stands : StandsForSyntax tree) (has : tree.HasPlace place)
    (unitHas : tree.HasPlace unit) (isClass : kindAt? unit = some .class) :
    (place.path.filter (isBlockOf unit)).length ≤ 1 := by
  have length (block : SyntaxPlace) (listed : block ∈ place.path.filter (isBlockOf unit)) :
      block.address.length = unit.address.length + 1 := by
    obtain ⟨on, isBlock⟩ := List.mem_filter.mp listed
    exact length_of_isBlockOf stands (has.of_mem_path on) unitHas isClass isBlock
  have apart := has.pairwise_path.filter (isBlockOf unit)
  rcases blocks : place.path.filter (isBlockOf unit) with _ | ⟨first, _ | ⟨second, rest⟩⟩
  · simp
  · simp
  · rw [blocks] at apart length
    have shorter := (List.pairwise_cons.mp apart).1 second (by simp)
    have firstLength := length first (by simp)
    have secondLength := length second (by simp)
    omega

theorem isOpenAt_openUnitAt (stands : StandsForSyntax tree) (has : tree.HasPlace place)
    (unitHas : tree.HasPlace unit) (isUnit : (kindAt? unit).isSome) :
    IsOpenAt place unit (openUnitAt places late place.path unit) where
  kind := (openUnitAt_kind places late place.path isUnit).symm
  name := rfl
  span := rfl
  frames ofClass := by
    have isClass : kindAt? unit = some .class :=
      ofClass ▸ (openUnitAt_kind places late place.path isUnit).symm
    have frames : (openUnitAt places late place.path unit).frames =
        (place.path.filter (isBlockOf unit)).map (usageOf places) := by
      simp [openUnitAt, isClass]
    rw [frames, List.length_map]
    refine ⟨length_filter_isBlockOf_le_one stands has unitHas isClass, ?_⟩
    rw [ne_eq, List.map_eq_nil_iff, List.filter_eq_nil_iff]
    simp only [not_forall, not_not]
    constructor
    · rintro ⟨method, on, isBlock⟩
      exact ⟨method, on,
        (isBlockOf_class_iff stands (has.of_mem_path on) unitHas isClass).mp isBlock⟩
    · rintro ⟨method, on, isMethod⟩
      exact ⟨method, on,
        (isBlockOf_class_iff stands (has.of_mem_path on) unitHas isClass).mpr isMethod⟩

theorem Follows.standsIn (stands : StandsForSyntax tree) (has : tree.HasPlace place)
    (follows : Follows places late (unitsAt place) (unitsAside place) place.path traced) :
    StandsIn place traced where
  units := by
    rw [follows.describes.units, List.forall₂_map_right_iff, List.forall₂_same]
    intro unit listed
    obtain ⟨on, isAround⟩ := List.mem_filter.mp listed
    simp only [isUnitAround, Bool.and_eq_true] at isAround
    exact isOpenAt_openUnitAt stands has (has.of_mem_path on) isAround.1
  aside := by
    rw [follows.describes.aside, List.forall₂_map_right_iff, List.forall₂_same]
    intro unit listed
    obtain ⟨around, isAside⟩ := List.mem_filter.mp listed
    simp only [isUnitAside, Bool.and_eq_true] at isAside
    exact isOpenAt_openUnitAt stands has (has.around around) isAside.1
  unitMarks := follows.units
  asideMarks := follows.aside

/-! ## Leaving a place -/

/-- Leaving a place closes what was opened when it was reached: the unit there, the frame of
a block, and the frame of a method. What was open around the place is open again. -/
structure Leaves (place : SyntaxPlace) (earlier later : Traced) : Prop where
  inside : StandsIn place earlier
  unit : (kindAt? place).isSome → ∃ own marks entry entries,
    earlier.marks.units = own :: marks ∧ own.unit = place.address ∧
      earlier.run.state.units = entry :: entries ∧
      later.marks.closed = own.unit :: earlier.marks.closed ∧
      later.run.closed =
        { entry with frames := [], stage := .finalizing } :: earlier.run.closed
  noUnit : kindAt? place = none →
    later.marks.closed = earlier.marks.closed ∧ later.run.closed = earlier.run.closed
  control : isControl place = true →
    (∃ home frames outer, homeOf? place = some home ∧ kindAt? home = some .function ∧
      earlier.marks.units = ⟨.function, home.address, place.address :: frames⟩ :: outer ∧
      later.marks =
        { earlier.marks with units := ⟨.function, home.address, frames⟩ :: outer }) ∨
    (∀ home, homeOf? place = some home → kindAt? home ≠ some .function) ∧
      later.marks = earlier.marks
  method : (methodAt? place).isSome → ∃ own home outer,
    place.around.head? = some home ∧ kindAt? home = some .class ∧
      earlier.marks.units = own :: ⟨.class, home.address, [place.address]⟩ :: outer ∧
      later.marks.units = ⟨.class, home.address, []⟩ :: outer
  restores :
    match place.around.head? with
    | some above => StandsIn above later
    | none => later.run.state.units = [] ∧ later.run.state.aside = []

/-- Leaving a unit gives it back without its frames; nothing else is given back. -/
theorem closed_step_exit (run : Run) (place : SyntaxPlace) :
    (run.step (eventAt .exit place)).closed =
      (if (kindAt? place).isSome then run.state.closeUnit.2.toList else []) ++ run.closed := by
  rw [Cohesion.step_exit]
  have left : (leaveElement run place).closed =
      (if (kindAt? place).isSome then run.state.closeUnit.2.toList else []) ++ run.closed := by
    unfold leaveElement kindAt?
    cases elementAt? place with
    | none => rfl
    | some element => cases element <;> simp [exitElement]
  split <;> exact left

theorem marks_step_exit_of_not_inHeader (stands : StandsForSyntax tree)
    (has : tree.HasPlace place)
    (inside : traced.marks.units = (unitsAt place).map (marksAt place.path))
    (outside : traced.run.state.inHeader place.address = false) :
    (traced.step (eventAt .exit place)).marks =
      { traced.marks with
        units := (unitsAround place).map (marksAt place.around)
        closed :=
          (if (kindAt? place).isSome then [place.address] else []) ++ traced.marks.closed } := by
  rw [marks_step_exit, if_neg (by simp [outside]),
    followAll_exitOperationsAt_eq stands has inside]

/-- Leaving a place takes the mark of its unit. -/
theorem closed_marks_step_exit (stands : StandsForSyntax tree) (has : tree.HasPlace place)
    (inside : traced.marks.units = (unitsAt place).map (marksAt place.path)) :
    (traced.step (eventAt .exit place)).marks.closed =
      (if (kindAt? place).isSome then [place.address] else []) ++ traced.marks.closed := by
  rw [marks_step_exit, followAll_exitOperationsAt_eq stands has inside]
  split
  · simp only [Marks.follow]
    split <;> rfl
  · rfl

/-- The frame of a control statement is the innermost one of its function. -/
theorem leaves_control (stands : StandsForSyntax tree) (has : tree.HasPlace place)
    (control : isControl place = true)
    (inside : traced.marks.units = (unitsAt place).map (marksAt place.path))
    (outside : traced.run.state.inHeader place.address = false) :
    let later := traced.step (eventAt .exit place)
    (∃ home frames outer, homeOf? place = some home ∧ kindAt? home = some .function ∧
      traced.marks.units = ⟨.function, home.address, place.address :: frames⟩ :: outer ∧
      later.marks =
        { traced.marks with units := ⟨.function, home.address, frames⟩ :: outer }) ∨
    (∀ home, homeOf? place = some home → kindAt? home ≠ some .function) ∧
      later.marks = traced.marks := by
  have noUnit := kindAt?_eq_none_of_isControl control
  have marks := marks_step_exit_of_not_inHeader stands has inside outside
  simp only [noUnit, Option.isSome_none, Bool.false_eq_true, if_false, List.nil_append] at marks
  rw [unitsAt_eq_unitsAround noUnit] at inside
  rcases unitsAround_eq_nil_or_cons has with units | ⟨home, outer, units, homeEq, -, notBlock⟩
  · refine .inr ⟨fun home homeEq => ?_, ?_⟩
    · simp [homeOf?, units] at homeEq
    · simp only [units, List.map_nil] at inside marks
      rw [marks, ← inside]
  · have isBlock := isBlockOf_of_control control homeEq
    rw [units, List.map_cons, Visit.path, map_marksAt_cons_of_not_isBlockOf notBlock] at inside
    rw [units, List.map_cons] at marks
    by_cases function : kindAt? home = some .function
    · rw [marksAt_cons_of_isBlockOf (by simp [isBlock, function])] at inside
      refine .inl ⟨home, (marksAt place.around home).frames,
        outer.map (marksAt place.around), homeEq, function, ?_, ?_⟩
      · simp [inside, marksAt, function]
      · simp [marks, marksAt, function]
    · rw [marksAt_cons_of_not_isBlockOf (by simp [isBlock, function])] at inside
      refine .inr ⟨fun other otherEq => ?_, ?_⟩
      · obtain rfl : home = other := Option.some.inj (homeEq.symm.trans otherEq)
        exact function
      · rw [marks, ← inside]

/-- The frame of a method is the only one of its class. -/
theorem leaves_method (stands : StandsForSyntax tree) (has : tree.HasPlace place)
    (method : (methodAt? place).isSome)
    (inside : traced.marks.units = (unitsAt place).map (marksAt place.path))
    (outside : traced.run.state.inHeader place.address = false) :
    ∃ own home outer, place.around.head? = some home ∧ kindAt? home = some .class ∧
      traced.marks.units = own :: ⟨.class, home.address, [place.address]⟩ :: outer ∧
      (traced.step (eventAt .exit place)).marks.units = ⟨.class, home.address, []⟩ :: outer := by
  have isUnit : (kindAt? place).isSome := by
    rw [Option.isSome_iff_ne_none]
    intro noUnit
    simp [methodAt?_eq_none_of_kindAt?_eq_none noUnit] at method
  obtain ⟨home, homeHas, isClass, around, -, units, -⟩ :=
    exists_class_of_methodAt? stands has method
  have marks := marks_step_exit_of_not_inHeader stands has inside outside
  have homeEq : homeOf? place = some home := by simp [homeOf?, units]
  have isBlock := (home_of_methodAt? stands has method homeEq).2
  have notBlock : ∀ unit ∈ unitsAround home, isBlockOf unit place = false := by
    rcases unitsAround_eq_nil_or_cons has with none | ⟨found, outer, cons, -, -, notBlock⟩
    · simp [none] at units
    · obtain ⟨rfl, rfl⟩ := List.cons.inj (cons.symm.trans units)
      exact notBlock
  have homeMarks : marksAt place.around home = ⟨.class, home.address, []⟩ := by
    rw [around, marksAt_path_self homeHas isClass]
    rfl
  refine ⟨marksAt place.path place, home, (unitsAround home).map (marksAt place.around),
    by rw [around]; rfl, isClass, ?_, ?_⟩
  · rw [inside, unitsAt_eq_cons isUnit, units, List.map_cons, List.map_cons]
    nth_rewrite 2 3 [Visit.path]
    rw [map_marksAt_cons_of_not_isBlockOf notBlock, marksAt_cons_of_isBlockOf isBlock, homeMarks]
  · rw [marks, units, List.map_cons, homeMarks]

theorem Follows.leaves (stands : StandsForSyntax tree) (has : tree.HasPlace place)
    (follows : Follows places late (unitsAt place) (unitsAside place) place.path traced)
    (outside : holdsStatements place.tree.label.node = true →
      traced.run.state.inHeader place.address = false)
    (restores :
      match place.around.head? with
      | some above => StandsIn above (traced.step (eventAt .exit place))
      | none =>
        (traced.step (eventAt .exit place)).run.state.units = [] ∧
          (traced.step (eventAt .exit place)).run.state.aside = []) :
    Leaves place traced (traced.step (eventAt .exit place)) where
  inside := follows.standsIn stands has
  unit isUnit := by
    have closed := closed_step_exit traced.run place
    have closedMarks := closed_marks_step_exit stands has follows.units
    have units := follows.describes.units
    have marks := follows.units
    rw [unitsAt_eq_cons isUnit, List.map_cons] at units marks
    rw [if_pos isUnit] at closed closedMarks
    refine ⟨_, _, _, _, marks, rfl, units, closedMarks, closed.trans ?_⟩
    simp [OpenUnits.closeUnit, units]
  noUnit noUnit := by
    have closed := closed_step_exit traced.run place
    have closedMarks := closed_marks_step_exit stands has follows.units
    rw [noUnit] at closed closedMarks
    exact ⟨closedMarks, closed⟩
  control control :=
    leaves_control stands has control follows.units
      (outside (holdsStatements_of_isControl control))
  method method :=
    leaves_method stands has method follows.units (outside (holdsStatements_of_methodAt? method))
  restores := restores

/-! ## Every event -/

/-- An event reaches or leaves a place of a tree. After reaching it the traversal stands there, and
leaving it closes what was opened there. -/
def Orderly (tree : SyntaxTree) (traced : Traced) (event : Event Occurrence) : Prop :=
  ∃ place, tree.HasPlace place ∧ event = eventAt event.phase place ∧
    match event.phase with
    | .enter => StandsIn place (traced.step event)
    | .exit => Leaves place traced (traced.step event)

/-- Every event of a sequence is orderly. -/
def Throughout (tree : SyntaxTree) : Traced → List (Event Occurrence) → Prop
  | _, [] => True
  | traced, event :: events =>
    Orderly tree traced event ∧ Throughout tree (traced.step event) events

theorem throughout_append {first second : List (Event Occurrence)} :
    Throughout tree traced (first ++ second) ↔
      Throughout tree traced first ∧ Throughout tree (first.foldl Traced.step traced) second := by
  induction first generalizing traced with
  | nil => simp [Throughout]
  | cons event first inductionHypothesis =>
      simp [Throughout, inductionHypothesis, and_assoc]

theorem Throughout.orderly {before after : List (Event Occurrence)} {event : Event Occurrence}
    (throughout : Throughout tree traced (before ++ event :: after)) :
    Orderly tree (before.foldl Traced.step traced) event :=
  (throughout_append.mp throughout).2.1

/-- A traversal that stands before a child passes it with every event orderly. -/
def PassesOrderly (tree subtree : SyntaxTree) : Prop :=
  ∀ ⦃places late : List SyntaxPlace⦄ ⦃place : SyntaxPlace⦄ ⦃next : Nat⦄ ⦃traced : Traced⦄,
    StandsAt tree places late place next → place.tree.children[next]? = some subtree →
    Follows places late (unitsAt place) (unitsAside place) place.path traced →
    Throughout tree traced (subtree.events (some place.tree) (place.address ++ [next])) ∧
      Follows (places ++ (place.child next subtree).places)
        (late ++ (place.child next subtree).latePlaces) (unitsAt place) (unitsAside place)
        place.path
        ((subtree.events (some place.tree) (place.address ++ [next])).foldl Traced.step traced)

/-- A traversal that stands before the last children passes them one after another. -/
theorem PassesOrderly.all {trees : List SyntaxTree}
    (each : ∀ subtree ∈ trees, PassesOrderly tree subtree) {next : Nat}
    (stands : StandsAt tree places late place next)
    (rest : place.tree.children.drop next = trees)
    (follows : Follows places late (unitsAt place) (unitsAside place) place.path traced) :
    StandsAt tree (places ++ place.placesFrom next trees) (late ++ place.latePlacesFrom next trees)
        place (next + trees.length) ∧
      Throughout tree traced (Tree.eventsAll place.tree place.address next trees) ∧
      Follows (places ++ place.placesFrom next trees) (late ++ place.latePlacesFrom next trees)
        (unitsAt place) (unitsAside place) place.path
        ((Tree.eventsAll place.tree place.address next trees).foldl Traced.step traced) := by
  induction trees generalizing places late next traced with
  | nil => simpa [Tree.eventsAll, Throughout] using And.intro stands follows
  | cons subtree trees inductionHypothesis =>
      have found : place.tree.children[next]? = some subtree := by
        rw [← List.head?_drop, rest, List.head?_cons]
      have restAfter : place.tree.children.drop (next + 1) = trees := by
        rw [← List.drop_drop, rest]
        rfl
      obtain ⟨first, passed⟩ := each subtree List.mem_cons_self stands found follows
      obtain ⟨standsAfter, others, after⟩ := inductionHypothesis
        (fun other member => each other (List.mem_cons_of_mem _ member)) (stands.next found)
        restAfter passed
      rw [Visit.placesFrom_cons, Visit.latePlacesFrom_cons, Tree.eventsAll, List.foldl_append,
        ← List.append_assoc, ← List.append_assoc, List.length_cons, Nat.add_comm trees.length 1,
        ← Nat.add_assoc]
      exact ⟨standsAfter, throughout_append.mpr ⟨first, others⟩, after⟩

/-- Statements are no parts of headers. -/
theorem inHeader_eq_false_of_holdsStatements (stands : StandsForSyntax tree)
    (has : tree.HasPlace place) {index : Nat} {subtree : SyntaxTree} {run : Run}
    (found : place.tree.children[index]? = some subtree)
    (listed : ∀ other ∈ places, tree.HasPlace other) (on : ∀ other ∈ place.path, other ∈ places)
    (describes : Describes places late opened parked path run)
    (holds : holdsStatements subtree.label.node = true) :
    run.state.inHeader (place.child index subtree).address = false := by
  rw [Bool.eq_false_iff]
  intro inHeader
  obtain ⟨unit, onPath, member⟩ := (inHeader_iff has index listed on describes).mp inHeader
  obtain ⟨expr, isExpr⟩ := exists_expr_of_mem_headerAddressesAt stands (.child has found)
    (has.of_mem_path onPath) member
  change subtree.label.node = .expr expr at isExpr
  simp [isExpr, holdsStatements] at holds

/-- Passing a child reaches it, passes its children and leaves it. -/
theorem passesOrderly (syntaxTree : StandsForSyntax tree) (subtree : SyntaxTree) :
    PassesOrderly tree subtree := by
  induction subtree using Tree.inductionOnChildren with
  | node label children inductionHypothesis =>
      intro places late place next traced stands found follows
      have reaches := stands.reaches found
      have entered := follows.step_enter syntaxTree stands.has reaches
      obtain ⟨inside, between, collected⟩ :=
        PassesOrderly.all inductionHypothesis reaches.standsAt rfl entered
      obtain ⟨on, apart⟩ := inside.of_child
      have exited := collected.step_exit syntaxTree stands.has found inside.listed on apart
      have enters : Orderly tree traced
          (eventAt .enter (place.child next (.node label children))) :=
        ⟨_, reaches.has, rfl, entered.standsIn syntaxTree reaches.has⟩
      have leaves := collected.leaves syntaxTree reaches.has
        (inHeader_eq_false_of_holdsStatements syntaxTree stands.has found inside.listed on
          collected.describes)
        (by rw [Visit.child_around]; exact exited.standsIn syntaxTree stands.has)
      rw [Visit.places_eq, Visit.latePlaces_eq, Tree.events, List.foldl_append,
        ← List.append_assoc, List.append_cons places]
      refine ⟨throughout_append.mpr ⟨⟨enters, between⟩, ⟨_, reaches.has, rfl, ?_⟩, trivial⟩, exited⟩
      exact leaves

/-! ## The whole traversal -/

theorem fit_foldl_step (fit : traced.marks.Fit traced.run.state)
    (events : List (Event Occurrence)) :
    (events.foldl Traced.step traced).marks.Fit (events.foldl Traced.step traced).run.state := by
  induction events generalizing traced with
  | nil => exact fit
  | cons event events inductionHypothesis => exact inductionHypothesis (traced.fit_step fit event)

/-- The marks of a traversal that reaches the root are those of the root. -/
theorem follows_whole (syntaxTree : StandsForSyntax tree) :
    Follows [Visit.whole tree] [] (unitsAt (Visit.whole tree)) (unitsAside (Visit.whole tree))
      (Visit.whole tree).path (Traced.step {} (eventAt .enter (Visit.whole tree))) := by
  have outside := inHeader_whole_eq_false tree (describes_empty tree)
  have marks := marks_step_enter {} (Visit.whole tree)
  rw [if_neg (by simp [outside]), followAll_enterOperationsAt_eq _ syntaxTree .whole rfl] at marks
  exact ⟨describes_step_enter_whole syntaxTree, by rw [marks], by rw [marks]; rfl,
    by rw [marks]; rfl⟩

/-- A traversal that leaves the root leaves nothing open. -/
theorem Follows.leave_whole (syntaxTree : StandsForSyntax tree)
    (listed : ∀ other ∈ late, tree.HasPlace other)
    (collected : Follows places late (unitsAt (Visit.whole tree)) (unitsAside (Visit.whole tree))
      (Visit.whole tree).path traced) :
    Leaves (Visit.whole tree) traced (traced.step (eventAt .exit (Visit.whole tree))) ∧
      Follows places (late ++ [Visit.whole tree]) [] [] []
        (traced.step (eventAt .exit (Visit.whole tree))) := by
  have outside := inHeader_whole_eq_false tree collected.describes
  have left := collected.describes.step_exit_whole syntaxTree listed
  have marks := marks_step_exit_of_not_inHeader syntaxTree .whole collected.units outside
  refine ⟨collected.leaves syntaxTree .whole (fun _ => outside) ⟨left.units, left.aside⟩,
    left, by rw [marks]; rfl, by rw [marks, collected.aside]; rfl, ?_⟩
  rw [marks, collected.closed]
  exact closedMarks_append late (Visit.whole tree)

/-- The events of a whole traversal are orderly, and at the end nothing is open. -/
theorem throughout_walk (syntaxTree : StandsForSyntax tree) :
    Throughout tree {} tree.walk ∧
      Follows tree.places tree.latePlaces [] [] [] (trace tree.walk) := by
  have entered := follows_whole syntaxTree
  have rest : (Visit.whole tree).tree.children.drop 0 = tree.children := rfl
  obtain ⟨inside, between, collected⟩ := PassesOrderly.all
    (fun subtree _ => passesOrderly syntaxTree subtree) (reaches_whole tree).standsAt rest entered
  obtain ⟨leaves, left⟩ := collected.leave_whole syntaxTree fun other member =>
    inside.listed other (inside.left other member)
  have places : tree.places = [Visit.whole tree] ++ (Visit.whole tree).placesFrom 0 tree.children :=
    (Visit.whole tree).places_eq
  have late : tree.latePlaces =
      (Visit.whole tree).latePlacesFrom 0 tree.children ++ [Visit.whole tree] :=
    (Visit.whole tree).latePlaces_eq
  rw [List.nil_append, List.nil_append, ← places, ← late] at left
  rw [walk_eq]
  constructor
  · exact throughout_append.mpr
      ⟨⟨⟨_, .whole, rfl, entered.standsIn syntaxTree .whole⟩, between⟩, ⟨_, .whole, rfl, leaves⟩,
        trivial⟩
  · rw [trace, List.foldl_append]
    exact left

/-- Every opening of a traversal is matched. Each entry of the state has a mark of its own. Every
place is reached and left: after reaching it the open and the parked units are those that the
tree tells, and leaving it closes what was opened when it was reached. At the end nothing is
open or parked, and every unit of the tree has been closed once. -/
theorem walk_isOrderly (syntaxTree : StandsForSyntax tree) :
    (∀ events, (trace events).run = events.foldl Run.step {} ∧
      (trace events).marks.Fit (trace events).run.state) ∧
    (∀ place, tree.HasPlace place → ∀ phase, eventAt phase place ∈ tree.walk) ∧
    (∀ before event after, tree.walk = before ++ event :: after →
      Orderly tree (trace before) event) ∧
    (trace tree.walk).run.state.units = [] ∧ (trace tree.walk).run.state.aside = [] ∧
    closedUnits tree = (unitPlaces tree).map (unitAt tree.places tree.latePlaces) ∧
    (trace tree.walk).marks.closed.reverse = (unitPlaces tree).map (·.address) ∧
    ∀ place, tree.HasPlace place → (kindAt? place).isSome →
      (trace tree.walk).marks.closed.count place.address = 1 := by
  obtain ⟨throughout, follows⟩ := throughout_walk syntaxTree
  have closed : (trace tree.walk).marks.closed.reverse = (unitPlaces tree).map (·.address) := by
    rw [follows.closed, List.reverse_reverse]
    rfl
  refine ⟨fun events => ⟨run_foldl_step {} events, fit_foldl_step ⟨rfl, rfl⟩ events⟩,
    fun place has phase => has.event_mem_walk phase,
    fun before event after split => (split ▸ throughout).orderly,
    follows.describes.units, follows.describes.aside, closedUnits_eq syntaxTree, closed,
    fun place has isUnit => ?_⟩
  have distinct : ((unitPlaces tree).map (·.address)).Nodup :=
    (Tree.HasPlace.whole.nodup_map_address).sublist (List.filter_sublist.map _)
  have listed : place ∈ unitPlaces tree := List.mem_filter.mpr ⟨has.mem_latePlaces, isUnit⟩
  rw [← List.count_reverse, closed]
  exact List.count_eq_one_of_mem distinct (List.mem_map_of_mem listed)

/-- A class with a method that has a function as a default and a branch. -/
def storeWithDefault : Module :=
  let default : Expr := .lambda ⟨2, 25, none⟩ (.mk [] [] none [] [] none [])
    (.name ⟨2, 33, none⟩ "limit" .load)
  let branch : Stmt := .ifStmt ⟨3, 8, some 4⟩ (.name ⟨3, 11, none⟩ "ready" .load)
    [.passStmt ⟨4, 12, none⟩] []
  ⟨[.classDef ⟨1, 0, some 4⟩ "Store" [] []
    [.functionDef ⟨2, 4, some 4⟩ false "load"
      (.mk [] [.mk ⟨2, 13, none⟩ "self" none, .mk ⟨2, 19, none⟩ "limit" none] none [] [] none
        [default])
      [branch] [] none] []]⟩

/-- The function in the header ends first, while the method is parked. -/
theorem walk_isOrderly_storeWithDefault :
    StandsForSyntax storeWithDefault.tree ∧
      (∀ before event after, storeWithDefault.tree.walk = before ++ event :: after →
        Orderly storeWithDefault.tree (trace before) event) ∧
      ((trace (storeWithDefault.tree.walk.take 9)).run.state.aside.map (·.name) = ["load"]) ∧
      (trace storeWithDefault.tree.walk).run.state.units = [] ∧
      (trace storeWithDefault.tree.walk).run.state.aside = [] ∧
      (trace storeWithDefault.tree.walk).marks.closed.reverse = [[0, 0, 0, 2], [0, 0], [0]] := by
  obtain ⟨-, -, orderly, units, aside, -⟩ := walk_isOrderly (.module storeWithDefault)
  exact ⟨.module storeWithDefault, orderly, by decide +kernel, units, aside, by decide +kernel⟩

end DesignLint.Cohesion
