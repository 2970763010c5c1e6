import DesignLint.Cohesion.OpenUnits

/-!
# Crediting usage to blocks

An occurrence of a name counts as a read or a write of the innermost block of
the innermost function; the receiver of a method stands for the object itself
and counts as neither. A member access counts for the open method whose
receiver it goes through, however far out that method is.
-/

namespace DesignLint.Cohesion

/-- How an occurrence of a name counts. -/
inductive Credit where
  | read | write | skip
deriving DecidableEq, Repr

/-- The word for a credit. -/
def Credit.label : Credit → String
  | .read => "read"
  | .write => "write"
  | .skip => "skip"

namespace OpenUnits

variable {κ : Type}

/-- How an occurrence of a name counts where the traversal stands. -/
def creditOf (state : OpenUnits κ) (name : String) (binding : Binding) : Credit :=
  if state.receiversInScope.contains name then .skip
  else if binding = .load then .read
  else .write

/-- A unit in which a name has been used in the innermost frame. What the top
level of a function writes is declared by it. -/
def useName (unit : CodeUnit) (credit : Credit) (name : String) : CodeUnit :=
  match credit with
  | .read => unit.mapFrame fun frame => { frame with reads := frame.reads.add name }
  | .write =>
    let used := unit.mapFrame fun frame => { frame with writes := frame.writes.add name }
    if unit.frames.length = 1 then { used with declared := used.declared.add name } else used
  | .skip => unit

/-- Credits an occurrence of a name to the innermost function, if the innermost
unit is one. -/
def creditName (state : OpenUnits κ) (name : String) (binding : Binding) :
    OpenUnits κ × Credit :=
  match state.innermostFunction with
  | none => (state, .skip)
  | some unit =>
    let credit := state.creditOf name binding
    (state.setInnermost (useName unit credit name), credit)

/-- Whether the innermost open method of a unit has the given receiver. -/
def owns (receiver : String) (unit : CodeUnit) : Bool :=
  unit.kind == .class && (unit.frames.head?.bind (·.receiver)) == some receiver

/-- Adds a member to the first unit whose open method has the receiver. -/
def creditMember (receiver member : String) : List CodeUnit → List CodeUnit
  | [] => []
  | unit :: units =>
    if owns receiver unit then
      unit.mapFrame (fun frame => { frame with members := frame.members.add member }) :: units
    else unit :: creditMember receiver member units

/-- Credits a member access to the innermost open method with its receiver. -/
def creditAccess (state : OpenUnits κ) (receiver member : String) :
    OpenUnits κ × Bool :=
  ({ state with units := creditMember receiver member state.units },
    state.units.any (owns receiver))

end OpenUnits

end DesignLint.Cohesion
