import DesignLint.Cohesion.Credit
import DesignLint.Cohesion.Report

/-!
# Cohesion analysis of a module

One traversal opens and closes the units of a module and credits every usage;
the closed units come out in the order in which they end. Each closed unit is
then judged on its own by the limits for its kind. The traversal does not
depend on the limits.
-/

namespace DesignLint.Cohesion

open DesignLint.Syntax

/-! ## The traversal -/

/-- A traversal: the open units, and the closed ones in reverse order. -/
structure Run where
  state : OpenUnits Address := .empty
  closed : List CodeUnit := []

/-- The addresses of the parts of a header, from the address of the unit. -/
def headerAddresses (address : Address) (header : Header) : List Address :=
  header.map fun part => address ++ part.1

/-- What reaching an element does to the open units. -/
def enterElement (state : OpenUnits Address) (address : Address) :
    Element → OpenUnits Address
  | .function name span method bindsName header =>
    let bound := if bindsName then (state.creditName name .store).1 else state
    let opened := match method with
      | some info => bound.openMethod info.name span info.receiver info.isConstructor
      | none => bound
    (opened.openUnit .function name span (method.bind (·.receiver))).addHeader
      (headerAddresses address header)
  | .class name span header =>
    (((state.creditName name .store).1).openUnit .class name span none).addHeader
      (headerAddresses address header)
  | .controlBlock type span => state.openBlock type span
  | .identifier name binding => (state.creditName name binding).1
  | .memberAccess receiver member => (state.creditAccess receiver member).1

/-- What leaving an element does to a traversal. -/
def exitElement (run : Run) : Element → Run
  | .function _ _ method _ _ =>
    let (state, unit) := run.state.closeUnit
    let settled := if method.isSome then state.closeMethod.1 else state
    ⟨settled, unit.toList ++ run.closed⟩
  | .class _ _ _ =>
    let (state, unit) := run.state.closeUnit
    ⟨state, unit.toList ++ run.closed⟩
  | .controlBlock _ _ => { run with state := run.state.closeBlock.1 }
  | .identifier _ _ => run
  | .memberAccess _ _ => run

/-- One event of a traversal. The part of a header is visited with its unit
parked. -/
def Run.step (run : Run) (event : Event Occurrence) : Run :=
  let inHeader := run.state.inHeader event.address
  let element := elementOf? event.tree event.parent
  match event.phase with
  | .enter =>
    let state := if inHeader then run.state.setAside else run.state
    match element with
    | some element => { run with state := enterElement state event.address element }
    | none => { run with state := state }
  | .exit =>
    let left := match element with
      | some element => exitElement run element
      | none => run
    if inHeader then { left with state := left.state.takeBack.1 } else left

/-- The units of a tree in the order in which they end. -/
def closedUnits (tree : SyntaxTree) : List CodeUnit :=
  (tree.walk.foldl Run.step {}).closed.reverse

/-! ## Judging a unit -/

/-- When a unit is reported: its blocks must share less than a percentage of
their names, and it must have some length. -/
structure CohesionLimits where
  minSharedPercentage : Number
  minUnitLength : Number
deriving DecidableEq, Repr

/-- The limits for functions unless others are given. -/
def CohesionLimits.functionDefault : CohesionLimits := ⟨30, 10⟩

/-- The limits for classes unless others are given. -/
def CohesionLimits.classDefault : CohesionLimits := ⟨40, 10⟩

/-- The comparison of blocks that limits prescribe for a kind of unit. -/
def CohesionLimits.overlapRule (limits : CohesionLimits) (rounding : Rounding)
    (kind : UnitKind) : OverlapRule :=
  ⟨rounding, limits.minSharedPercentage, kind == .class⟩

/-- The report on a closed unit. Short units and units with fewer than two blocks
are never reported. -/
def judge (rounding : Rounding) (limits : CohesionLimits) (unit : CodeUnit) :
    Option CohesionReport :=
  if (Number.int unit.span.length).lt limits.minUnitLength || decide (unit.blocks.length < 2) then
    none
  else
    let graph := blockGraph (limits.overlapRule rounding unit.kind) unit.blocks
    let components := graph.components
    if fallsApart components then
      some {
        kind := unit.kind
        name := unit.name
        span := unit.span
        componentCount := components.length
        average := .float (Binary64.nearest (graph.meanScore rounding))
        threshold := limits.minSharedPercentage
        components := components.map (summarize unit.blocks) }
    else none

/-- An analysis of functions, of classes, or of both. A side without limits
reports nothing. -/
structure CohesionAnalysis where
  functionLimits : Option CohesionLimits
  classLimits : Option CohesionLimits
  rounding : Rounding := Rounding.binary64

namespace CohesionAnalysis

/-- The limits for a kind of unit. -/
def limitsFor (analysis : CohesionAnalysis) : UnitKind → Option CohesionLimits
  | .function => analysis.functionLimits
  | .class => analysis.classLimits

/-- The report on a closed unit, if its side has limits. -/
def report? (analysis : CohesionAnalysis) (unit : CodeUnit) : Option CohesionReport :=
  (analysis.limitsFor unit.kind).bind fun limits => judge analysis.rounding limits unit

/-- The reports on the units of a tree in the order in which the units end. -/
def reportsOn (analysis : CohesionAnalysis) (tree : SyntaxTree) : List CohesionReport :=
  (closedUnits tree).filterMap analysis.report?

end CohesionAnalysis

end DesignLint.Cohesion
