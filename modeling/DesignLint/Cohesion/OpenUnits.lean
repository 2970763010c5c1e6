import DesignLint.Cohesion.Block

/-!
# Open units

A traversal keeps a stack of open units, each with a stack of open blocks.
While a part of a unit's header is visited, that unit is parked, so that the
part is credited to what encloses the unit. Every closing operation tolerates
the absence of what it closes.
-/

namespace DesignLint.Cohesion

/-- The stages in the life of a unit. -/
inductive UnitStage where
  | created | accumulating | finalizing | reported | discarded
deriving DecidableEq, Repr

/-- The name of a stage. -/
def UnitStage.label : UnitStage → String
  | .created => "created"
  | .accumulating => "accumulating"
  | .finalizing => "finalizing"
  | .reported => "reported"
  | .discarded => "discarded"

/-- A function or class under analysis. Frames are listed innermost first;
`declared` holds the names written at the top level of a function. -/
structure CodeUnit where
  kind : UnitKind
  name : String
  span : Span
  receiver : Option String := none
  blocks : List Block := []
  declared : NameSet := []
  frames : List OpenBlock := []
  stage : UnitStage := .created
deriving DecidableEq, Repr

namespace CodeUnit

/-- Adds the block of a frame, if it becomes one and the unit accumulates. -/
def addBlock (unit : CodeUnit) (frame : OpenBlock) : CodeUnit × Option Block :=
  if unit.stage = .accumulating then
    match frame.extract? unit.blocks.length with
    | some block => ({ unit with blocks := unit.blocks ++ [block] }, some block)
    | none => (unit, none)
  else (unit, none)

/-- Settles a unit. -/
def conclude (unit : CodeUnit) (reported : Bool) : CodeUnit :=
  { unit with stage := if reported then .reported else .discarded }

/-- Changes the innermost frame. -/
def mapFrame (unit : CodeUnit) (change : OpenBlock → OpenBlock) : CodeUnit :=
  match unit.frames with
  | [] => unit
  | frame :: frames => { unit with frames := change frame :: frames }

end CodeUnit

/-- The open units of a traversal, innermost first, the parked ones, latest
first, and the keys of the nodes that belong to headers. -/
structure OpenUnits (κ : Type) where
  units : List CodeUnit := []
  aside : List CodeUnit := []
  headers : List κ := []

namespace OpenUnits

variable {κ : Type}

/-- The state before a traversal. -/
def empty : OpenUnits κ := {}

/-- The innermost unit. -/
def innermost (state : OpenUnits κ) : Option CodeUnit := state.units.head?

/-- Replaces the innermost unit. -/
def setInnermost (state : OpenUnits κ) (unit : CodeUnit) : OpenUnits κ :=
  match state.units with
  | [] => state
  | _ :: units => { state with units := unit :: units }

/-! ## Units -/

/-- A unit that has just been opened. A function starts with a frame for its
top level. -/
def openedUnit (kind : UnitKind) (name : String) (span : Span) (receiver : Option String) :
    CodeUnit :=
  { kind := kind
    name := name
    span := span
    receiver := receiver
    frames := if kind = .function then [{ type := none, span := span }] else []
    stage := .accumulating }

/-- Opens a unit. -/
def openUnit (state : OpenUnits κ) (kind : UnitKind) (name : String) (span : Span)
    (receiver : Option String) : OpenUnits κ :=
  { state with units := openedUnit kind name span receiver :: state.units }

/-- Closes the innermost unit and gives it back without its frames. -/
def closeUnit (state : OpenUnits κ) : OpenUnits κ × Option CodeUnit :=
  match state.units with
  | [] => (state, none)
  | unit :: units =>
    ({ state with units := units }, some { unit with frames := [], stage := .finalizing })

/-! ## Blocks of functions -/

/-- Opens a control block of the innermost unit, if that is a function. -/
def openBlock (state : OpenUnits κ) (type : BlockType) (span : Span) : OpenUnits κ :=
  match state.units with
  | unit :: units =>
    if unit.kind = .function then
      let frame : OpenBlock := { type := some type, span := span }
      { state with units := { unit with frames := frame :: unit.frames } :: units }
    else state
  | [] => state

/-- Closes the innermost control block of a function. The frame of its top level
stays. -/
def closeBlock (state : OpenUnits κ) : OpenUnits κ × Option Block :=
  match state.units with
  | unit :: units =>
    match unit.kind, unit.frames with
    | .function, frame :: next :: frames =>
      let (closed, block) := { unit with frames := next :: frames }.addBlock frame
      ({ state with units := closed :: units }, block)
    | _, _ => (state, none)
  | [] => (state, none)

/-! ## Methods of classes -/

/-- Opens a method of the innermost unit, if that is a class. -/
def openMethod (state : OpenUnits κ) (name : String) (span : Span)
    (receiver : Option String) (isConstructor : Bool) : OpenUnits κ :=
  match state.units with
  | unit :: units =>
    if unit.kind = .class then
      let frame : OpenBlock :=
        { type := some .method
          span := span
          name := name
          receiver := receiver
          isConstructor := isConstructor }
      { state with units := { unit with frames := frame :: unit.frames } :: units }
    else state
  | [] => state

/-- Closes the innermost method of a class. -/
def closeMethod (state : OpenUnits κ) : OpenUnits κ × Option Block :=
  match state.units with
  | unit :: units =>
    match unit.kind, unit.frames with
    | .class, frame :: frames =>
      let (closed, block) := { unit with frames := frames }.addBlock frame
      ({ state with units := closed :: units }, block)
    | _, _ => (state, none)
  | [] => (state, none)

/-! ## Headers -/

/-- Marks nodes as parts of headers. -/
def addHeader (state : OpenUnits κ) (keys : List κ) : OpenUnits κ :=
  { state with headers := keys ++ state.headers }

/-- Whether a node has been marked. -/
def inHeader [DecidableEq κ] (state : OpenUnits κ) (key : κ) : Bool :=
  state.headers.contains key

/-- Sets the innermost unit aside. -/
def setAside (state : OpenUnits κ) : OpenUnits κ :=
  match state.units with
  | [] => state
  | unit :: units => { state with units := units, aside := unit :: state.aside }

/-- Brings the unit that was set aside last back. -/
def takeBack (state : OpenUnits κ) : OpenUnits κ × Option CodeUnit :=
  match state.aside with
  | [] => (state, none)
  | unit :: aside => ({ state with units := unit :: state.units, aside := aside }, some unit)

/-! ## Questions about the open units -/

/-- The innermost unit, if it is a function with an open frame. -/
def innermostFunction (state : OpenUnits κ) : Option CodeUnit :=
  state.innermost.filter fun unit => unit.kind == .function && !unit.frames.isEmpty

/-- The classes with an open method, innermost first. -/
def classesInMethod (state : OpenUnits κ) : List CodeUnit :=
  state.units.filter fun unit => unit.kind == .class && !unit.frames.isEmpty

/-- The receivers of the enclosing functions up to the nearest class. -/
def receiversInScope (state : OpenUnits κ) : NameSet :=
  NameSet.ofNames ((state.units.takeWhile fun unit => unit.kind != .class).filterMap fun unit =>
    unit.receiver.filter fun name => !name.isEmpty)

end OpenUnits

end DesignLint.Cohesion
