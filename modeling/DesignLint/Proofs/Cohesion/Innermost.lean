import DesignLint.Cohesion.History

/-!
# Operations on the innermost unit

Opening and closing a block or a method and crediting a name change the innermost unit and
nothing else. What they do to that unit is written here without the stack around it; where they
do not apply they leave it alone.

Every operation is written once more, step by step, where taking the innermost entry of a stack
fails if the stack is empty. Each operation first looks whether there is an entry, so none ever
fails.
-/

namespace DesignLint.Cohesion

variable {κ : Type}

/-! ## Changes of a unit -/

namespace CodeUnit

variable (unit : CodeUnit)

/-- A unit with one more frame, if it is of a given kind. -/
def withFrame (kind : UnitKind) (frame : OpenBlock) : CodeUnit :=
  if unit.kind = kind then { unit with frames := frame :: unit.frames } else unit

/-- A function after its innermost control block has been closed. The frame of its top level
stays. -/
def withoutControl : CodeUnit :=
  match unit.kind, unit.frames with
  | .function, frame :: next :: frames => ({ unit with frames := next :: frames }.addBlock frame).1
  | _, _ => unit

/-- A class after its innermost method has been closed. -/
def withoutMethod : CodeUnit :=
  match unit.kind, unit.frames with
  | .class, frame :: frames => ({ unit with frames := frames }.addBlock frame).1
  | _, _ => unit

/-- A unit in which a name has been used, if it is a function with an open frame. -/
def withName (credit : Credit) (name : String) : CodeUnit :=
  if unit.kind = .function ∧ unit.frames ≠ [] then OpenUnits.useName unit credit name else unit

end CodeUnit

/-! ## Operations as changes -/

namespace OpenUnits

variable (state : OpenUnits κ)

/-- Changes the innermost unit. -/
def mapInnermost (change : CodeUnit → CodeUnit) : OpenUnits κ :=
  match state.units with
  | [] => state
  | unit :: units => { state with units := change unit :: units }

theorem openBlock_eq_mapInnermost (type : BlockType) (span : Span) :
    state.openBlock type span =
      state.mapInnermost (·.withFrame .function { type := some type, span := span }) := by
  obtain ⟨units, aside, headers⟩ := state
  cases units with
  | nil => rfl
  | cons unit units =>
      simp only [openBlock, mapInnermost, CodeUnit.withFrame]
      split <;> rfl

theorem openMethod_eq_mapInnermost (name : String) (span : Span) (receiver : Option String)
    (isConstructor : Bool) :
    state.openMethod name span receiver isConstructor =
      state.mapInnermost (·.withFrame .class
        { type := some .method
          span := span
          name := name
          receiver := receiver
          isConstructor := isConstructor }) := by
  obtain ⟨units, aside, headers⟩ := state
  cases units with
  | nil => rfl
  | cons unit units =>
      simp only [openMethod, mapInnermost, CodeUnit.withFrame]
      split <;> rfl

theorem closeBlock_eq_mapInnermost :
    state.closeBlock.1 = state.mapInnermost CodeUnit.withoutControl := by
  obtain ⟨units, aside, headers⟩ := state
  cases units with
  | nil => rfl
  | cons unit units =>
      obtain ⟨kind, name, span, receiver, blocks, declared, frames, stage⟩ := unit
      cases kind
      · rcases frames with _ | ⟨frame, _ | ⟨next, frames⟩⟩ <;> rfl
      · rfl

theorem closeMethod_eq_mapInnermost :
    state.closeMethod.1 = state.mapInnermost CodeUnit.withoutMethod := by
  obtain ⟨units, aside, headers⟩ := state
  cases units with
  | nil => rfl
  | cons unit units =>
      obtain ⟨kind, name, span, receiver, blocks, declared, frames, stage⟩ := unit
      cases kind
      · rfl
      · cases frames <;> rfl

theorem innermostFunction_cons (unit : CodeUnit) (units aside : List CodeUnit) (headers : List κ) :
    (⟨unit :: units, aside, headers⟩ : OpenUnits κ).innermostFunction =
      if unit.kind = .function ∧ unit.frames ≠ [] then some unit else none := by
  simp [innermostFunction, innermost, Option.filter_some]

theorem creditName_eq_mapInnermost (name : String) (binding : Binding) :
    (state.creditName name binding).1 =
      state.mapInnermost (·.withName (state.creditOf name binding) name) := by
  obtain ⟨units, aside, headers⟩ := state
  cases units with
  | nil => rfl
  | cons unit units =>
      rw [creditName, innermostFunction_cons]
      by_cases credited : unit.kind = .function ∧ unit.frames ≠ [] <;>
        simp [credited, mapInnermost, CodeUnit.withName, setInnermost]

end OpenUnits

end DesignLint.Cohesion

namespace DesignLint.Cohesion.OpenUnits

variable {κ : Type}

/-! ## Operations step by step -/

/-- Uses a name in the innermost frame of a unit. There must be one. -/
def attemptName (unit : CodeUnit) (credit : Credit) (name : String) : Option CodeUnit := do
  let frame ← unit.frames.head?
  match credit with
  | .read =>
    some { unit with
      frames := { frame with reads := frame.reads.add name } :: unit.frames.tail }
  | .write =>
    some { unit with
      frames := { frame with writes := frame.writes.add name } :: unit.frames.tail
      declared :=
        if unit.frames.length = 1 then unit.declared.add name else unit.declared }
  | .skip => some unit

/-- Looks for a class whose innermost frame has the receiver, and uses the member there. -/
def attemptMember (receiver member : String) : List CodeUnit → Option (List CodeUnit × Bool)
  | [] => some ([], false)
  | unit :: units =>
    if unit.kind = .class ∧ unit.frames ≠ [] then do
      let frame ← unit.frames.head?
      if frame.receiver = some receiver then
        let used := { frame with members := frame.members.add member }
        some ({ unit with frames := used :: unit.frames.tail } :: units, true)
      else
        let (rest, found) ← attemptMember receiver member units
        some (unit :: rest, found)
    else do
      let (rest, found) ← attemptMember receiver member units
      some (unit :: rest, found)

/-- Takes the innermost frame of a unit, which must have one, and adds its block. -/
def attemptClose (state : OpenUnits κ) (unit : CodeUnit) : Option (OpenUnits κ × Effect) := do
  let frame ← unit.frames.head?
  let (closed, block) := { unit with frames := unit.frames.tail }.addBlock frame
  some (state.setInnermost closed, .block block)

/-- Performs one operation step by step. Operations that only add entries take none. -/
def attempt (state : OpenUnits κ) : Operation κ → Option (OpenUnits κ × Effect)
  | .closeUnit =>
    if state.units = [] then some (state, .unit none)
    else do
      let unit ← state.units.head?
      some ({ state with units := state.units.tail },
        .unit (some { unit with frames := [], stage := .finalizing }))
  | .closeBlock =>
    match state.innermost with
    | none => some (state, .block none)
    | some unit =>
      if unit.kind ≠ .function ∨ unit.frames.length ≤ 1 then some (state, .block none)
      else state.attemptClose unit
  | .closeMethod =>
    match state.innermost with
    | none => some (state, .block none)
    | some unit =>
      if unit.kind ≠ .class ∨ unit.frames = [] then some (state, .block none)
      else state.attemptClose unit
  | .setAside =>
    if state.units = [] then some (state, .none)
    else do
      let unit ← state.units.head?
      some ({ state with units := state.units.tail, aside := unit :: state.aside }, .none)
  | .takeBack =>
    if state.aside = [] then some (state, .unit none)
    else do
      let unit ← state.aside.head?
      some ({ state with units := unit :: state.units, aside := state.aside.tail },
        .unit (some unit))
  | .identifier name binding =>
    match state.innermost with
    | none => some (state, .credit .skip)
    | some unit =>
      if unit.kind ≠ .function ∨ unit.frames = [] then some (state, .credit .skip)
      else do
        let credit := state.creditOf name binding
        let used ← attemptName unit credit name
        some (state.setInnermost used, .credit credit)
  | .member receiver member => do
    let (units, found) ← attemptMember receiver member state.units
    some ({ state with units := units }, .credited found)
  | operation => some (state.perform operation)

/-! ## No operation fails -/

theorem attemptName_eq {unit : CodeUnit} (opened : unit.frames ≠ []) (credit : Credit)
    (name : String) : attemptName unit credit name = some (useName unit credit name) := by
  obtain ⟨kind, unitName, span, receiver, blocks, declared, frames, stage⟩ := unit
  cases frames with
  | nil => exact absurd rfl opened
  | cons frame frames =>
      cases credit with
      | read => rfl
      | write => by_cases top : frames = [] <;> simp [attemptName, useName, CodeUnit.mapFrame, top]
      | skip => rfl

theorem attemptMember_eq (receiver member : String) (units : List CodeUnit) :
    attemptMember receiver member units =
      some (creditMember receiver member units, units.any (owns receiver)) := by
  induction units with
  | nil => rfl
  | cons unit units inductionHypothesis =>
      obtain ⟨kind, name, span, self, blocks, declared, frames, stage⟩ := unit
      cases frames with
      | nil => simp [attemptMember, creditMember, owns, inductionHypothesis]
      | cons frame frames =>
          by_cases isClass : kind = .class
          · by_cases through : frame.receiver = some receiver <;>
              simp [attemptMember, creditMember, owns, isClass, through, inductionHypothesis,
                CodeUnit.mapFrame]
          · simp [attemptMember, creditMember, owns, isClass, inductionHypothesis]

/-- Every operation succeeds, with the outcome of performing it. -/
theorem attempt_eq (state : OpenUnits κ) (operation : Operation κ) :
    state.attempt operation = some (state.perform operation) := by
  obtain ⟨units, aside, headers⟩ := state
  cases operation with
  | closeUnit => cases units <;> rfl
  | closeBlock =>
      cases units with
      | nil => rfl
      | cons unit units =>
          obtain ⟨kind, name, span, receiver, blocks, declared, frames, stage⟩ := unit
          cases kind
          · rcases frames with _ | ⟨frame, _ | ⟨next, frames⟩⟩ <;>
              simp [attempt, attemptClose, perform, closeBlock, innermost, setInnermost]
          · rfl
  | closeMethod =>
      cases units with
      | nil => rfl
      | cons unit units =>
          obtain ⟨kind, name, span, receiver, blocks, declared, frames, stage⟩ := unit
          cases kind
          · rfl
          · cases frames <;>
              simp [attempt, attemptClose, perform, closeMethod, innermost, setInnermost]
  | setAside => cases units <;> rfl
  | takeBack => cases aside <;> rfl
  | identifier name binding =>
      cases units with
      | nil => rfl
      | cons unit units =>
          have function := innermostFunction_cons unit units aside headers
          by_cases credited : unit.kind = .function ∧ unit.frames ≠ []
          · rw [if_pos credited] at function
            simp [attempt, perform, creditName, function, innermost, credited,
              attemptName_eq credited.2]
          · rw [if_neg credited] at function
            have skipped : unit.kind ≠ .function ∨ unit.frames = [] := by
              rwa [Classical.not_and_iff_not_or_not, Classical.not_not] at credited
            simp [attempt, perform, creditName, function, innermost, skipped]
  | member receiver member => simp [attempt, attemptMember_eq, perform, creditAccess]
  | _ => rfl

/-- No operation of a sequence fails. -/
theorem foldlM_attempt_eq (state : OpenUnits κ) (operations : List (Operation κ)) :
    operations.foldlM (fun state operation => (state.attempt operation).map (·.1)) state =
      some (state.performAll operations) := by
  induction operations generalizing state with
  | nil => rfl
  | cons operation operations inductionHypothesis =>
      rw [List.foldlM_cons, attempt_eq]
      exact inductionHypothesis _

end DesignLint.Cohesion.OpenUnits
