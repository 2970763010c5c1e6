import DesignLint.Proofs.Cohesion.Innermost

/-!
# Who opened what

Marks follow the open units and their frames through a history of operations: every
entry carries the mark of the operation that opened it, and takes the mark along when it is
parked or closed. Marks are no part of the state and no operation reads them. At every
moment there is one mark for each open unit, parked unit and frame.
-/

namespace DesignLint.Cohesion

variable {κ μ : Type}

/-! ## Marks -/

/-- The kind of an open unit, the mark of the operation that opened it, and the marks of those that
opened its frames, innermost first. The first frame of a function is opened with it. -/
structure UnitMarks (μ : Type) where
  kind : UnitKind
  unit : μ
  frames : List μ
deriving DecidableEq, Repr

/-- The marks of the open units, of the parked ones, and of the closed ones, latest first. -/
structure Marks (μ : Type) where
  units : List (UnitMarks μ) := []
  aside : List (UnitMarks μ) := []
  closed : List μ := []
deriving DecidableEq, Repr

/-- A list without its first entry, unless that is also the last one. -/
def tailOfMany {α : Type} : List α → List α
  | _ :: next :: rest => next :: rest
  | entries => entries

theorem length_tailOfMany {α : Type} (entries : List α) :
    (tailOfMany entries).length = entries.length - if 2 ≤ entries.length then 1 else 0 := by
  rcases entries with _ | ⟨first, _ | ⟨second, rest⟩⟩ <;> simp [tailOfMany]

namespace Marks

/-- Changes the marks of the frames of the innermost unit, if that has a given kind. -/
def mapFrames (marks : Marks μ) (kind : UnitKind) (change : List μ → List μ) : Marks μ :=
  match marks.units with
  | [] => marks
  | unit :: units =>
    if unit.kind = kind then
      { marks with units := { unit with frames := change unit.frames } :: units }
    else marks

/-- The marks after an operation with a mark of its own. -/
def follow (marks : Marks μ) (mark : μ) : Operation κ → Marks μ
  | .openUnit kind _ _ _ =>
    let frames := if kind = .function then [mark] else []
    { marks with units := ⟨kind, mark, frames⟩ :: marks.units }
  | .closeUnit =>
    match marks.units with
    | [] => marks
    | unit :: units => { marks with units := units, closed := unit.unit :: marks.closed }
  | .openBlock _ _ => marks.mapFrames .function (mark :: ·)
  | .closeBlock => marks.mapFrames .function tailOfMany
  | .openMethod _ _ _ _ => marks.mapFrames .class (mark :: ·)
  | .closeMethod => marks.mapFrames .class List.tail
  | .setAside =>
    match marks.units with
    | [] => marks
    | unit :: units => { marks with units := units, aside := unit :: marks.aside }
  | .takeBack =>
    match marks.aside with
    | [] => marks
    | unit :: aside => { marks with units := unit :: marks.units, aside := aside }
  | .reset => { marks with units := [], aside := [] }
  | .addHeader _ | .identifier _ _ | .member _ _ => marks

/-- The marks after operations that share a mark. -/
def followAll (marks : Marks μ) (mark : μ) (operations : List (Operation κ)) : Marks μ :=
  operations.foldl (fun marks operation => marks.follow mark operation) marks

end Marks

/-! ## One mark for each entry -/

/-- The kind of a unit and the number of its frames. -/
def CodeUnit.shape (unit : CodeUnit) : UnitKind × Nat := (unit.kind, unit.frames.length)

/-- The kind of a marked unit and the number of the marks of its frames. -/
def UnitMarks.shape (unit : UnitMarks μ) : UnitKind × Nat := (unit.kind, unit.frames.length)

section Shape

variable (unit : CodeUnit)

@[simp]
theorem shape_mapFrame (change : OpenBlock → OpenBlock) :
    (unit.mapFrame change).shape = unit.shape := by
  obtain ⟨kind, name, span, receiver, blocks, declared, frames, stage⟩ := unit
  cases frames <;> rfl

@[simp]
theorem shape_useName (credit : Credit) (name : String) :
    (OpenUnits.useName unit credit name).shape = unit.shape := by
  cases credit with
  | read => exact shape_mapFrame unit _
  | write =>
      simp only [OpenUnits.useName]
      split <;> exact shape_mapFrame unit _
  | skip => rfl

@[simp]
theorem shape_withName (credit : Credit) (name : String) :
    (unit.withName credit name).shape = unit.shape := by
  unfold CodeUnit.withName
  split
  · exact shape_useName unit credit name
  · rfl

@[simp]
theorem shape_addBlock (frame : OpenBlock) : (unit.addBlock frame).1.shape = unit.shape := by
  unfold CodeUnit.addBlock
  split
  · split <;> rfl
  · rfl

theorem map_shape_creditMember (receiver member : String) (units : List CodeUnit) :
    (OpenUnits.creditMember receiver member units).map CodeUnit.shape =
      units.map CodeUnit.shape := by
  induction units with
  | nil => rfl
  | cons unit units inductionHypothesis =>
      unfold OpenUnits.creditMember
      split
      · rw [List.map_cons, List.map_cons, shape_mapFrame]
      · rw [List.map_cons, List.map_cons, inductionHypothesis]

end Shape

/-- There is a mark for each entry of a state. -/
structure Marks.Fit (marks : Marks μ) (state : OpenUnits κ) : Prop where
  units : marks.units.map UnitMarks.shape = state.units.map CodeUnit.shape
  aside : marks.aside.map UnitMarks.shape = state.aside.map CodeUnit.shape

/-- A change of a unit and one of marks go together: units of one kind lose and gain frames as
the marks do, other units are left alone. -/
structure GoTogether (kind : UnitKind) (change : List μ → List μ)
    (unitChange : CodeUnit → CodeUnit) : Prop where
  shape : ∀ (unit : CodeUnit) (frames : List μ), unit.kind = kind →
    frames.length = unit.frames.length → (unitChange unit).shape = (kind, (change frames).length)
  other : ∀ unit : CodeUnit, unit.kind ≠ kind → unitChange unit = unit

theorem goTogether_withFrame (kind : UnitKind) (frame : OpenBlock) (mark : μ) :
    GoTogether kind (mark :: ·) (·.withFrame kind frame) where
  shape unit frames ofKind length := by
    simp [CodeUnit.withFrame, CodeUnit.shape, ofKind, length]
  other unit other := by simp [CodeUnit.withFrame, other]

theorem goTogether_withoutControl :
    GoTogether (μ := μ) .function tailOfMany CodeUnit.withoutControl where
  shape unit frames function length := by
    rw [length_tailOfMany, length]
    obtain ⟨kind, name, span, receiver, blocks, declared, opened, stage⟩ := unit
    obtain rfl : kind = .function := function
    rcases opened with _ | ⟨frame, _ | ⟨next, opened⟩⟩
    · rfl
    · rfl
    · simp only [CodeUnit.withoutControl, shape_addBlock]
      simp [CodeUnit.shape]
  other unit other := by
    unfold CodeUnit.withoutControl
    split
    · contradiction
    · rfl

theorem goTogether_withoutMethod :
    GoTogether (μ := μ) .class List.tail CodeUnit.withoutMethod where
  shape unit frames isClass length := by
    rw [List.length_tail, length]
    obtain ⟨kind, name, span, receiver, blocks, declared, opened, stage⟩ := unit
    obtain rfl : kind = .class := isClass
    cases opened with
    | nil => rfl
    | cons frame opened =>
        simp only [CodeUnit.withoutMethod, shape_addBlock]
        simp [CodeUnit.shape]
  other unit other := by
    unfold CodeUnit.withoutMethod
    split
    · contradiction
    · rfl

namespace Marks.Fit

variable {marks : Marks μ} {state : OpenUnits κ}

theorem eq_nil (fit : marks.Fit state) (none : state.units = []) : marks.units = [] := by
  simpa [none] using fit.units

theorem exists_cons {unit : CodeUnit} {units : List CodeUnit} (fit : marks.Fit state)
    (opened : state.units = unit :: units) :
    ∃ own rest, marks.units = own :: rest ∧ own.shape = unit.shape ∧
      rest.map UnitMarks.shape = units.map CodeUnit.shape := by
  have shapes := fit.units
  rw [opened, List.map_cons] at shapes
  exact List.map_eq_cons_iff.mp shapes

/-- Frames of the innermost unit come and go with their marks. -/
theorem mapFrames (fit : marks.Fit state) {kind : UnitKind} {change : List μ → List μ}
    {unitChange : CodeUnit → CodeUnit} (together : GoTogether kind change unitChange) :
    (marks.mapFrames kind change).Fit (state.mapInnermost unitChange) := by
  cases opened : state.units with
  | nil =>
      have none : marks.mapFrames kind change = marks := by
        simp [Marks.mapFrames, fit.eq_nil opened]
      have same : state.mapInnermost unitChange = state := by simp [OpenUnits.mapInnermost, opened]
      rwa [none, same]
  | cons unit units =>
      obtain ⟨own, rest, marked, ownShape, restShapes⟩ := fit.exists_cons opened
      obtain ⟨kindEq, length⟩ : own.kind = unit.kind ∧ own.frames.length = unit.frames.length :=
        Prod.mk.inj ownShape
      refine ⟨?_, ?_⟩
      · rw [Marks.mapFrames, OpenUnits.mapInnermost, opened, marked]
        by_cases ofKind : unit.kind = kind
        · have shape := together.shape unit own.frames ofKind length
          simp [kindEq, ofKind, restShapes, shape, UnitMarks.shape]
        · have same := together.other unit ofKind
          simp [kindEq, ofKind, restShapes, same, marked, ownShape]
      · have aside : (marks.mapFrames kind change).aside = marks.aside := by
          rw [Marks.mapFrames, marked]
          dsimp only
          split <;> rfl
        rw [aside, OpenUnits.mapInnermost, opened]
        exact fit.aside

theorem mapInnermost_of_shape_eq (fit : marks.Fit state) {change : CodeUnit → CodeUnit}
    (same : ∀ unit, (change unit).shape = unit.shape) :
    marks.Fit (state.mapInnermost change) := by
  obtain ⟨units, aside, headers⟩ := state
  cases units with
  | nil => exact fit
  | cons unit units =>
      refine ⟨?_, fit.aside⟩
      rw [fit.units, OpenUnits.mapInnermost, List.map_cons, List.map_cons, same]

/-- The marks fit after every operation. -/
theorem follow (fit : marks.Fit state) (mark : μ) (operation : Operation κ) :
    (marks.follow mark operation).Fit (state.perform operation).1 := by
  cases operation with
  | openUnit kind name span receiver =>
      refine ⟨?_, fit.aside⟩
      cases kind <;>
        simp [Marks.follow, OpenUnits.perform, OpenUnits.openUnit, OpenUnits.openedUnit, fit.units,
          UnitMarks.shape, CodeUnit.shape]
  | closeUnit =>
      obtain ⟨units, aside, headers⟩ := state
      cases units with
      | nil =>
          simp only [Marks.follow, fit.eq_nil rfl]
          exact fit
      | cons unit units =>
          obtain ⟨own, rest, opened, -, restShapes⟩ := fit.exists_cons rfl
          simp only [Marks.follow, opened]
          exact ⟨restShapes, fit.aside⟩
  | openBlock type span =>
      rw [OpenUnits.perform, OpenUnits.openBlock_eq_mapInnermost]
      exact fit.mapFrames (goTogether_withFrame ..)
  | closeBlock =>
      rw [OpenUnits.perform, OpenUnits.closeBlock_eq_mapInnermost]
      exact fit.mapFrames goTogether_withoutControl
  | openMethod name span receiver isConstructor =>
      rw [OpenUnits.perform, OpenUnits.openMethod_eq_mapInnermost]
      exact fit.mapFrames (goTogether_withFrame ..)
  | closeMethod =>
      rw [OpenUnits.perform, OpenUnits.closeMethod_eq_mapInnermost]
      exact fit.mapFrames goTogether_withoutMethod
  | addHeader keys => exact ⟨fit.units, fit.aside⟩
  | setAside =>
      obtain ⟨units, aside, headers⟩ := state
      cases units with
      | nil =>
          simp only [Marks.follow, fit.eq_nil rfl]
          exact fit
      | cons unit units =>
          obtain ⟨own, rest, opened, ownShape, restShapes⟩ := fit.exists_cons rfl
          simp only [Marks.follow, opened]
          exact ⟨restShapes, by simp [OpenUnits.perform, OpenUnits.setAside, ownShape, fit.aside]⟩
  | takeBack =>
      obtain ⟨units, aside, headers⟩ := state
      have shapes := fit.aside
      cases aside with
      | nil =>
          have none : marks.aside = [] := by simpa using shapes
          simp only [Marks.follow, none]
          exact fit
      | cons unit aside =>
          rw [List.map_cons] at shapes
          obtain ⟨own, rest, parked, ownShape, restShapes⟩ := List.map_eq_cons_iff.mp shapes
          simp only [Marks.follow, parked]
          exact ⟨by simp [OpenUnits.perform, OpenUnits.takeBack, ownShape, fit.units], restShapes⟩
  | reset => exact ⟨rfl, rfl⟩
  | identifier name binding =>
      rw [OpenUnits.perform, OpenUnits.creditName_eq_mapInnermost]
      exact fit.mapInnermost_of_shape_eq fun unit => shape_withName unit _ _
  | member receiver member =>
      exact ⟨fit.units.trans (map_shape_creditMember receiver member state.units).symm, fit.aside⟩

/-- The marks fit after every sequence of operations. -/
theorem followAll (fit : marks.Fit state) (mark : μ) (operations : List (Operation κ)) :
    (marks.followAll mark operations).Fit (state.performAll operations) := by
  induction operations generalizing marks state with
  | nil => exact fit
  | cons operation operations inductionHypothesis =>
      exact inductionHypothesis (fit.follow mark operation)

end Marks.Fit

end DesignLint.Cohesion
