import DesignLint.Proofs.Cohesion.Enclosure
import DesignLint.Proofs.Syntax.MovedNames

/-!
# Cohesion of moved code

A traversal of moved code passes through the moved states of the traversal of the
code, so the same units close with their blocks, some lines further down. The name
of a control block is made from its line; it counts for nothing but its summary.
-/

namespace DesignLint.Cohesion

open DesignLint.Syntax

variable (lines : Nat)

/-! ## Moved states -/

/-- The lines of a construct some lines further down. -/
def Span.moved (span : Span) : Span := ⟨span.startLine + lines, span.endLine + lines⟩

@[simp]
theorem Span.length_moved (span : Span) : (Span.moved lines span).length = span.length := by
  simp only [Span.moved, Span.length]
  omega

/-- The frame some lines further down. -/
def OpenBlock.moved (frame : OpenBlock) : OpenBlock :=
  { frame with span := Span.moved lines frame.span }

/-- The block of a unit of some kind, some lines further down. -/
def Block.moved (kind : UnitKind) (block : Block) : Block :=
  let span := Span.moved lines ⟨block.startLine, block.endLine⟩
  { block with
    name := match kind with
      | .function => controlBlockName block.type span
      | .class => block.name
    startLine := span.startLine
    endLine := span.endLine }

/-- The unit some lines further down. -/
def CodeUnit.moved (unit : CodeUnit) : CodeUnit :=
  { unit with
    span := Span.moved lines unit.span
    blocks := unit.blocks.map (Block.moved lines unit.kind)
    frames := unit.frames.map (OpenBlock.moved lines) }

/-- The open units some lines further down. -/
def OpenUnits.moved (state : OpenUnits Address) : OpenUnits Address :=
  { state with
    units := state.units.map (CodeUnit.moved lines)
    aside := state.aside.map (CodeUnit.moved lines) }

/-- The traversal some lines further down. -/
def Run.moved (run : Run) : Run :=
  ⟨run.state.moved lines, run.closed.map (CodeUnit.moved lines)⟩

/-- Methods have names; the control blocks of functions do not. -/
def CodeUnit.IsNamed (unit : CodeUnit) : Prop :=
  ∀ frame ∈ unit.frames, frame.name.isEmpty = (unit.kind == .function)

/-- Methods have names in all open units. -/
def OpenUnits.IsNamed (state : OpenUnits Address) : Prop :=
  ∀ unit ∈ state.units ++ state.aside, unit.IsNamed

/-! ## Operations on moved states -/

section Operations

variable {lines} {unit : CodeUnit} {state : OpenUnits Address}

theorem extract?_moved {frame : OpenBlock} {kind : UnitKind} (index : Nat)
    (named : frame.name.isEmpty = (kind == .function)) :
    (OpenBlock.moved lines frame).extract? index =
      (frame.extract? index).map (Block.moved lines kind) := by
  have sameType : (OpenBlock.moved lines frame).type = frame.type := rfl
  have sameEmpty : ((OpenBlock.moved lines frame).isConstructor ||
      (OpenBlock.moved lines frame).isEmpty) = (frame.isConstructor || frame.isEmpty) := rfl
  have sameName : (OpenBlock.moved lines frame).name = frame.name := rfl
  unfold OpenBlock.extract?
  rw [sameType, sameEmpty, sameName, named]
  cases frame.type with
  | none => rfl
  | some type =>
      dsimp only
      split
      · rfl
      · cases kind <;> rfl

theorem addBlock_moved {frame : OpenBlock} (named : frame.name.isEmpty = (unit.kind == .function)) :
    ((CodeUnit.moved lines unit).addBlock (OpenBlock.moved lines frame)).1 =
      CodeUnit.moved lines (unit.addBlock frame).1 := by
  unfold CodeUnit.addBlock
  have sameStage : (CodeUnit.moved lines unit).stage = unit.stage := rfl
  have sameCount : (CodeUnit.moved lines unit).blocks.length = unit.blocks.length := by
    simp [CodeUnit.moved]
  rw [sameStage, sameCount, @extract?_moved lines frame unit.kind _ named]
  split
  · cases frame.extract? unit.blocks.length with
    | none => rfl
    | some block => simp [CodeUnit.moved]
  · rfl

@[simp]
theorem innermostFunction_moved :
    (OpenUnits.moved lines state).innermostFunction =
      state.innermostFunction.map (CodeUnit.moved lines) := by
  obtain ⟨_ | ⟨unit, units⟩, aside, headers⟩ := state
  · rfl
  · simp only [OpenUnits.innermostFunction, OpenUnits.innermost, OpenUnits.moved, List.map_cons,
      List.head?_cons, Option.filter_some, CodeUnit.moved, List.isEmpty_map]
    split <;> rfl

theorem receiversInScope_moved :
    (OpenUnits.moved lines state).receiversInScope = state.receiversInScope := by
  simp only [OpenUnits.receiversInScope, OpenUnits.moved, List.takeWhile_map, List.filterMap_map]
  rfl

theorem useName_moved (credit : Credit) (name : String) :
    OpenUnits.useName (CodeUnit.moved lines unit) credit name =
      CodeUnit.moved lines (OpenUnits.useName unit credit name) := by
  obtain ⟨kind, unitName, span, receiver, blocks, declared, _ | ⟨frame, frames⟩, stage⟩ := unit
  · cases credit <;> rfl
  · cases credit with
    | write =>
        simp only [OpenUnits.useName, CodeUnit.moved, CodeUnit.mapFrame, List.map_cons,
          List.length_cons, List.length_map]
        split <;> rfl
    | _ => rfl

theorem setInnermost_moved :
    (OpenUnits.moved lines state).setInnermost (CodeUnit.moved lines unit) =
      OpenUnits.moved lines (state.setInnermost unit) := by
  obtain ⟨_ | ⟨first, units⟩, aside, headers⟩ := state <;> rfl

theorem creditName_moved (name : String) (binding : Binding) :
    ((OpenUnits.moved lines state).creditName name binding).1 =
      OpenUnits.moved lines (state.creditName name binding).1 := by
  unfold OpenUnits.creditName OpenUnits.creditOf
  rw [innermostFunction_moved, receiversInScope_moved]
  cases state.innermostFunction with
  | none => rfl
  | some unit =>
      dsimp only [Option.map_some]
      rw [useName_moved, setInnermost_moved]

theorem creditMember_moved (receiver member : String) (units : List CodeUnit) :
    OpenUnits.creditMember receiver member (units.map (CodeUnit.moved lines)) =
      (OpenUnits.creditMember receiver member units).map (CodeUnit.moved lines) := by
  induction units with
  | nil => rfl
  | cons unit units inductionHypothesis =>
      have sameOwner : OpenUnits.owns receiver (CodeUnit.moved lines unit) =
          OpenUnits.owns receiver unit := by
        obtain ⟨kind, name, span, own, blocks, declared, _ | ⟨frame, frames⟩, stage⟩ := unit <;>
          rfl
      rw [List.map_cons, OpenUnits.creditMember, sameOwner, OpenUnits.creditMember,
        inductionHypothesis]
      split
      · obtain ⟨kind, name, span, own, blocks, declared, _ | ⟨frame, frames⟩, stage⟩ := unit <;>
          rfl
      · rfl

theorem creditAccess_moved (receiver member : String) :
    ((OpenUnits.moved lines state).creditAccess receiver member).1 =
      OpenUnits.moved lines (state.creditAccess receiver member).1 := by
  simp only [OpenUnits.creditAccess, OpenUnits.moved, creditMember_moved]

theorem openUnit_moved (kind : UnitKind) (name : String) (span : Span)
    (receiver : Option String) :
    (OpenUnits.moved lines state).openUnit kind name (Span.moved lines span) receiver =
      OpenUnits.moved lines (state.openUnit kind name span receiver) := by
  cases kind <;> rfl

theorem openMethod_moved (name : String) (span : Span) (receiver : Option String)
    (isConstructor : Bool) :
    (OpenUnits.moved lines state).openMethod name (Span.moved lines span) receiver isConstructor =
      OpenUnits.moved lines (state.openMethod name span receiver isConstructor) := by
  obtain ⟨_ | ⟨unit, units⟩, aside, headers⟩ := state
  · rfl
  · obtain ⟨kind, _, _, _, _, _, _, _⟩ := unit
    cases kind <;> rfl

theorem openBlock_moved (type : BlockType) (span : Span) :
    (OpenUnits.moved lines state).openBlock type (Span.moved lines span) =
      OpenUnits.moved lines (state.openBlock type span) := by
  obtain ⟨_ | ⟨unit, units⟩, aside, headers⟩ := state
  · rfl
  · obtain ⟨kind, _, _, _, _, _, _, _⟩ := unit
    cases kind <;> rfl

theorem closeUnit_moved :
    (OpenUnits.moved lines state).closeUnit =
      (OpenUnits.moved lines state.closeUnit.1,
        state.closeUnit.2.map (CodeUnit.moved lines)) := by
  obtain ⟨_ | ⟨unit, units⟩, aside, headers⟩ := state <;> rfl

theorem setAside_moved :
    (OpenUnits.moved lines state).setAside = OpenUnits.moved lines state.setAside := by
  obtain ⟨_ | ⟨unit, units⟩, aside, headers⟩ := state <;> rfl

theorem takeBack_moved :
    (OpenUnits.moved lines state).takeBack.1 = OpenUnits.moved lines state.takeBack.1 := by
  obtain ⟨units, _ | ⟨unit, aside⟩, headers⟩ := state <;> rfl

theorem closeBlock_moved (named : state.IsNamed) :
    (OpenUnits.moved lines state).closeBlock.1 = OpenUnits.moved lines state.closeBlock.1 := by
  obtain ⟨_ | ⟨unit, units⟩, aside, headers⟩ := state
  · rfl
  · obtain ⟨kind, name, span, receiver, blocks, declared, frames, stage⟩ := unit
    cases kind with
    | «class» => rfl
    | function =>
        rcases frames with _ | ⟨frame, _ | ⟨next, frames⟩⟩
        · rfl
        · rfl
        · have frameNamed := named _ List.mem_cons_self frame List.mem_cons_self
          have added := @addBlock_moved lines
            ⟨.function, name, span, receiver, blocks, declared, next :: frames, stage⟩ frame
            frameNamed
          exact congrArg (fun closed => (⟨closed :: _, _, headers⟩ : OpenUnits Address)) added

theorem closeMethod_moved (named : state.IsNamed) :
    (OpenUnits.moved lines state).closeMethod.1 = OpenUnits.moved lines state.closeMethod.1 := by
  obtain ⟨_ | ⟨unit, units⟩, aside, headers⟩ := state
  · rfl
  · obtain ⟨kind, name, span, receiver, blocks, declared, frames, stage⟩ := unit
    cases kind with
    | function => rfl
    | «class» =>
        rcases frames with _ | ⟨frame, frames⟩
        · rfl
        · have frameNamed := named _ List.mem_cons_self frame List.mem_cons_self
          have added := @addBlock_moved lines
            ⟨.class, name, span, receiver, blocks, declared, frames, stage⟩ frame frameNamed
          exact congrArg (fun closed => (⟨closed :: _, _, headers⟩ : OpenUnits Address)) added

/-! ### Names of frames -/

theorem isNamed_mapFrame {change : OpenBlock → OpenBlock} (named : unit.IsNamed)
    (keeps : ∀ frame, (change frame).name = frame.name) : (unit.mapFrame change).IsNamed := by
  obtain ⟨kind, name, span, receiver, blocks, declared, _ | ⟨first, frames⟩, stage⟩ := unit
  · exact named
  · intro frame member
    rcases List.mem_cons.mp member with rfl | later
    · rw [keeps]
      exact named first List.mem_cons_self
    · exact named frame (List.mem_cons_of_mem first later)

theorem isNamed_useName (named : unit.IsNamed) (credit : Credit) (name : String) :
    (OpenUnits.useName unit credit name).IsNamed := by
  cases credit with
  | read => exact isNamed_mapFrame named fun _ => rfl
  | write =>
      have used : (unit.mapFrame fun frame =>
          { frame with writes := frame.writes.add name }).IsNamed :=
        isNamed_mapFrame named fun _ => rfl
      unfold OpenUnits.useName
      dsimp only
      split
      · exact used
      · exact used
  | skip => exact named

theorem isNamed_addBlock (named : unit.IsNamed) (frame : OpenBlock) :
    (unit.addBlock frame).1.IsNamed := by
  unfold CodeUnit.addBlock
  split
  · cases frame.extract? unit.blocks.length with
    | none => exact named
    | some block => exact named
  · exact named

theorem isNamed_cons {units aside : List CodeUnit} {headers : List Address} :
    OpenUnits.IsNamed ⟨unit :: units, aside, headers⟩ ↔
      unit.IsNamed ∧ OpenUnits.IsNamed ⟨units, aside, headers⟩ :=
  List.forall_mem_cons

theorem isNamed_creditName (named : state.IsNamed) (name : String) (binding : Binding) :
    (state.creditName name binding).1.IsNamed := by
  obtain ⟨_ | ⟨unit, units⟩, aside, headers⟩ := state
  · exact named
  · obtain ⟨first, others⟩ := isNamed_cons.mp named
    unfold OpenUnits.creditName
    cases innermost : OpenUnits.innermostFunction ⟨unit :: units, aside, headers⟩ with
    | none => exact named
    | some found =>
        obtain rfl : unit = found :=
          Option.some.inj (Option.filter_eq_some_iff.mp innermost).1
        exact isNamed_cons.mpr ⟨isNamed_useName first _ name, others⟩

theorem isNamed_creditMember {units : List CodeUnit} (receiver member : String)
    (named : ∀ unit ∈ units, unit.IsNamed) :
    ∀ unit ∈ OpenUnits.creditMember receiver member units, unit.IsNamed := by
  induction units with
  | nil => exact named
  | cons unit units inductionHypothesis =>
      obtain ⟨first, others⟩ := List.forall_mem_cons.mp named
      rw [OpenUnits.creditMember]
      split
      · exact List.forall_mem_cons.mpr ⟨isNamed_mapFrame first fun _ => rfl, others⟩
      · exact List.forall_mem_cons.mpr ⟨first, inductionHypothesis others⟩

theorem isNamed_creditAccess (named : state.IsNamed) (receiver member : String) :
    (state.creditAccess receiver member).1.IsNamed := by
  obtain ⟨inUnits, inAside⟩ := List.forall_mem_append.mp named
  exact List.forall_mem_append.mpr ⟨isNamed_creditMember receiver member inUnits, inAside⟩

theorem isNamed_openUnit (named : state.IsNamed) (kind : UnitKind) (name : String) (span : Span)
    (receiver : Option String) : (state.openUnit kind name span receiver).IsNamed := by
  refine isNamed_cons.mpr ⟨?_, named⟩
  cases kind with
  | function =>
      intro frame member
      rw [List.mem_singleton.mp member]
      rfl
  | «class» =>
      intro frame member
      cases member

theorem isNamed_push {frame : OpenBlock} (named : unit.IsNamed)
    (frameNamed : frame.name.isEmpty = (unit.kind == .function)) :
    CodeUnit.IsNamed { unit with frames := frame :: unit.frames } :=
  List.forall_mem_cons.mpr ⟨frameNamed, named⟩

theorem isNamed_openMethod (named : state.IsNamed) {name : String} (nonempty : name.isEmpty = false)
    (span : Span) (receiver : Option String) (isConstructor : Bool) :
    (state.openMethod name span receiver isConstructor).IsNamed := by
  obtain ⟨_ | ⟨unit, units⟩, aside, headers⟩ := state
  · exact named
  · obtain ⟨first, others⟩ := isNamed_cons.mp named
    unfold OpenUnits.openMethod
    dsimp only
    split
    · rename_i isClass
      refine isNamed_cons.mpr ⟨isNamed_push first ?_, others⟩
      rw [isClass, nonempty]
      rfl
    · exact named

theorem isNamed_openBlock (named : state.IsNamed) (type : BlockType) (span : Span) :
    (state.openBlock type span).IsNamed := by
  obtain ⟨_ | ⟨unit, units⟩, aside, headers⟩ := state
  · exact named
  · obtain ⟨first, others⟩ := isNamed_cons.mp named
    unfold OpenUnits.openBlock
    dsimp only
    split
    · rename_i function
      refine isNamed_cons.mpr ⟨isNamed_push first ?_, others⟩
      rw [function]
      rfl
    · exact named

theorem isNamed_closeUnit (named : state.IsNamed) : state.closeUnit.1.IsNamed := by
  obtain ⟨_ | ⟨unit, units⟩, aside, headers⟩ := state
  · exact named
  · exact (isNamed_cons.mp named).2

theorem isNamed_closeBlock (named : state.IsNamed) : state.closeBlock.1.IsNamed := by
  obtain ⟨_ | ⟨⟨kind, name, span, receiver, blocks, declared, frames, stage⟩, units⟩, aside,
    headers⟩ := state
  · exact named
  · obtain ⟨first, others⟩ := isNamed_cons.mp named
    cases kind with
    | «class» => exact named
    | function =>
        rcases frames with _ | ⟨frame, _ | ⟨next, frames⟩⟩
        · exact named
        · exact named
        · refine isNamed_cons.mpr ⟨isNamed_addBlock ?_ frame, others⟩
          exact fun other member => first other (List.mem_cons_of_mem frame member)

theorem isNamed_closeMethod (named : state.IsNamed) : state.closeMethod.1.IsNamed := by
  obtain ⟨_ | ⟨⟨kind, name, span, receiver, blocks, declared, frames, stage⟩, units⟩, aside,
    headers⟩ := state
  · exact named
  · obtain ⟨first, others⟩ := isNamed_cons.mp named
    cases kind with
    | function => exact named
    | «class» =>
        rcases frames with _ | ⟨frame, frames⟩
        · exact named
        · refine isNamed_cons.mpr ⟨isNamed_addBlock ?_ frame, others⟩
          exact fun other member => first other (List.mem_cons_of_mem frame member)

theorem isNamed_setAside (named : state.IsNamed) : state.setAside.IsNamed := by
  obtain ⟨_ | ⟨unit, units⟩, aside, headers⟩ := state
  · exact named
  · intro other member
    refine named other ?_
    simp only [OpenUnits.setAside, List.mem_append, List.mem_cons] at member ⊢
    tauto

theorem isNamed_takeBack (named : state.IsNamed) : state.takeBack.1.IsNamed := by
  obtain ⟨units, _ | ⟨unit, aside⟩, headers⟩ := state
  · exact named
  · intro other member
    refine named other ?_
    simp only [OpenUnits.takeBack, List.mem_append, List.mem_cons] at member ⊢
    tauto

end Operations

/-! ## Headers -/

section Headers

variable {change : Occurrence → Occurrence}
  (keepsRole : ∀ occurrence, (change occurrence).role = occurrence.role)

include keepsRole

/-- A change of constructs that keeps their roles keeps which children are in which role. -/
theorem childrenAs_map (role : Role) (tree : SyntaxTree) :
    childrenAs role (tree.map change) =
      (childrenAs role tree).map (Prod.map id (Tree.map change)) := by
  have sameRole : (fun child : SyntaxTree × Nat => child.1.label.role == role) ∘
        Prod.map (Tree.map change) id =
      fun child => child.1.label.role == role := by
    funext child
    simp [keepsRole]
  simp only [childrenAs, Tree.children_map, List.zipIdx_map, List.filter_map, List.map_map,
    sameRole]
  rfl

theorem headerChildren_map (role : Role) (tree : SyntaxTree) :
    headerChildren role (tree.map change) =
      (headerChildren role tree).map (Prod.map id (Tree.map change)) := by
  rw [headerChildren, childrenAs_map keepsRole, headerChildren, List.map_map, List.map_map]
  rfl

theorem headerGrandchildren_map (outer inner : Role) (tree : SyntaxTree) :
    headerGrandchildren outer inner (tree.map change) =
      (headerGrandchildren outer inner tree).map (Prod.map id (Tree.map change)) := by
  rw [headerGrandchildren, childrenAs_map keepsRole, headerGrandchildren, List.flatMap_map,
    List.map_flatMap]
  congr 1
  funext child
  simp only [Prod.map, childrenAs_map keepsRole, List.map_map]
  rfl

theorem defaultsOf_map (tree : SyntaxTree) :
    defaultsOf (tree.map change) = (defaultsOf tree).map (Prod.map id (Tree.map change)) := by
  simp only [defaultsOf, headerGrandchildren_map keepsRole, List.map_append]

theorem functionHeader_map (tree : SyntaxTree) :
    functionHeader (tree.map change) =
      (functionHeader tree).map (Prod.map id (Tree.map change)) := by
  simp only [functionHeader, headerChildren_map keepsRole, defaultsOf_map keepsRole,
    List.map_append]

theorem classHeader_map (tree : SyntaxTree) :
    classHeader (tree.map change) = (classHeader tree).map (Prod.map id (Tree.map change)) := by
  simp only [classHeader, headerChildren_map keepsRole, headerGrandchildren_map keepsRole,
    List.map_append]

end Headers

/-! ## Elements -/

/-- The parts of a header some lines further down. -/
def Header.moved (header : Header) : Header :=
  header.map (Prod.map id (Tree.map (Occurrence.moved lines)))

/-- The element some lines further down. -/
def Element.moved : Element → Element
  | .function name span method bindsName header =>
    .function name (Span.moved lines span) method bindsName (Header.moved lines header)
  | .class name span header => .class name (Span.moved lines span) (Header.moved lines header)
  | .controlBlock type span => .controlBlock type (Span.moved lines span)
  | .identifier name binding => .identifier name binding
  | .memberAccess receiver member => .memberAccess receiver member

/-- Whether a method has a name. -/
def Element.IsNamed : Element → Prop
  | .function _ _ (some method) _ _ => method.name.isEmpty = false
  | _ => True

theorem defaultsOf_moved (tree : SyntaxTree) :
    defaultsOf (tree.map (Occurrence.moved lines)) = Header.moved lines (defaultsOf tree) :=
  defaultsOf_map (Occurrence.role_moved lines) tree

theorem functionHeader_moved (tree : SyntaxTree) :
    functionHeader (tree.map (Occurrence.moved lines)) =
      Header.moved lines (functionHeader tree) :=
  functionHeader_map (Occurrence.role_moved lines) tree

theorem classHeader_moved (tree : SyntaxTree) :
    classHeader (tree.map (Occurrence.moved lines)) = Header.moved lines (classHeader tree) :=
  classHeader_map (Occurrence.role_moved lines) tree

theorem linesOf_moved {position : Position} (hasLines : position.hasLines = true) :
    linesOf (position.moved lines) = Span.moved lines (linesOf position) := by
  simp only [linesOf, Position.lastLine_moved hasLines, Span.moved]
  simp [Position.moved]

theorem stmtElement_moved (tree : SyntaxTree) (parent : Option SyntaxTree) {stmt : Stmt}
    (hasLines : stmt.position.hasLines = true) :
    stmtElement (tree.map (Occurrence.moved lines))
        (parent.map (Tree.map (Occurrence.moved lines))) (stmt.moved lines) =
      (stmtElement tree parent stmt).map (Element.moved lines) := by
  have span := linesOf_moved lines hasLines
  cases stmt with
  | functionDef position isAsync name parameters body decorators returns =>
      simp only [Stmt.position] at span
      simp only [Stmt.moved, stmtElement, span, functionHeader_moved, selfName_moved]
      -- A function is a method when its parent is a class, on whatever line that stands.
      rcases parent with _ | ⟨⟨role, node⟩, children⟩
      · rfl
      · cases node with
        | stmt around => cases around <;> rfl
        | _ => rfl
  | classDef =>
      simp only [Stmt.position] at span
      simp only [Stmt.moved, stmtElement, span, classHeader_moved, Option.map_some, Element.moved]
  | ifStmt | forStmt | whileStmt | matchStmt | tryStmt =>
      simp only [Stmt.position] at span
      simp only [Stmt.moved, stmtElement, span, Option.map_some, Element.moved]
  | _ => rfl

theorem exprElement_moved (tree : SyntaxTree) {expr : Expr}
    (hasLines : expr.position.hasLines = true) :
    exprElement (tree.map (Occurrence.moved lines)) (expr.moved lines) =
      (exprElement tree expr).map (Element.moved lines) := by
  have span := linesOf_moved lines hasLines
  cases expr with
  | lambda =>
      simp only [Expr.position] at span
      simp only [Expr.moved, exprElement, span, defaultsOf_moved, Option.map_some, Element.moved]
  | attr position value name context => cases value <;> rfl
  | _ => rfl

theorem patternElement_moved (pattern : Pattern) :
    patternElement (pattern.moved lines) =
      (patternElement pattern).map (Element.moved lines) := by
  cases pattern with
  | capture position inner name =>
      cases bound : nonemptyName name <;>
        simp [Pattern.moved, patternElement, bound, Element.moved]
  | star position name =>
      cases bound : nonemptyName name <;>
        simp [Pattern.moved, patternElement, bound, Element.moved]
  | _ => rfl

theorem elementOf?_moved {tree : SyntaxTree} (parent : Option SyntaxTree)
    (parsed : tree.label.node.isParsed = true) :
    elementOf? (tree.map (Occurrence.moved lines))
        (parent.map (Tree.map (Occurrence.moved lines))) =
      (elementOf? tree parent).map (Element.moved lines) := by
  unfold elementOf?
  rw [Tree.label_map, Occurrence.node_moved]
  cases found : tree.label.node with
  | stmt stmt =>
      simp only [found, Node.isParsed, Bool.and_eq_true] at parsed
      exact stmtElement_moved lines tree parent parsed.1
  | expr expr =>
      simp only [found, Node.isParsed, Bool.and_eq_true] at parsed
      exact exprElement_moved lines tree parsed.1
  | pattern pattern => exact patternElement_moved lines pattern
  | handler handler =>
      obtain ⟨position, type, name, body⟩ := handler
      cases bound : nonemptyName name <;> simp [Node.moved, Handler.moved, bound, Element.moved]
  | importAlias item =>
      change (if item.boundName = "*" then none
          else some (Element.identifier item.boundName .store)) =
        Option.map _ (if item.boundName = "*" then none else _)
      split <;> rfl
  | parameter parameter =>
      simp only [Node.moved, Parameter.name_moved]
      rfl
  | _ => rfl

theorem isNamed_elementOf? {tree : SyntaxTree} {parent : Option SyntaxTree} {element : Element}
    (parsed : tree.label.node.isParsed = true) (found : elementOf? tree parent = some element) :
    element.IsNamed := by
  cases isAt_of_elementOf? found with
  | @function _ _ _ _ _ _ _ method node sameName =>
      cases method with
      | none => trivial
      | some method =>
          rw [node, Node.isParsed, Bool.and_eq_true, Bool.not_eq_true'] at parsed
          rw [Element.IsNamed, sameName method rfl]
          exact parsed.2
  | _ => trivial

/-! ## The traversal of moved code -/

@[simp]
theorem headerAddresses_moved (address : Address) (header : Header) :
    headerAddresses address (Header.moved lines header) = headerAddresses address header := by
  rw [headerAddresses, Header.moved, List.map_map]
  rfl

theorem addHeader_moved (state : OpenUnits Address) (keys : List Address) :
    (state.moved lines).addHeader keys = (state.addHeader keys).moved lines := rfl

theorem enterElement_moved (state : OpenUnits Address) (address : Address) (element : Element) :
    enterElement (state.moved lines) address (element.moved lines) =
      (enterElement state address element).moved lines := by
  cases element with
  | function name span method bindsName header =>
      have bound : (if bindsName then ((state.moved lines).creditName name .store).1
            else state.moved lines) =
          OpenUnits.moved lines
            (if bindsName then (state.creditName name .store).1 else state) := by
        rw [creditName_moved]
        split <;> rfl
      simp only [Element.moved, enterElement, bound, headerAddresses_moved]
      cases method with
      | none => rw [openUnit_moved, addHeader_moved]
      | some method =>
          dsimp only
          rw [openMethod_moved, openUnit_moved, addHeader_moved]
  | «class» name span header =>
      simp only [Element.moved, enterElement, headerAddresses_moved, creditName_moved,
        openUnit_moved, addHeader_moved]
  | controlBlock type span => exact openBlock_moved type span
  | identifier name binding => exact creditName_moved name binding
  | memberAccess receiver member => exact creditAccess_moved receiver member

theorem isNamed_enterElement {state : OpenUnits Address} (named : state.IsNamed)
    (address : Address) {element : Element} (elementNamed : element.IsNamed) :
    (enterElement state address element).IsNamed := by
  cases element with
  | function name span method bindsName header =>
      have bound : OpenUnits.IsNamed
          (if bindsName then (state.creditName name .store).1 else state) := by
        split
        · exact isNamed_creditName named name .store
        · exact named
      cases method with
      | none => exact isNamed_openUnit bound .function name span none
      | some method =>
          exact isNamed_openUnit
            (isNamed_openMethod bound elementNamed span method.receiver method.isConstructor)
            .function name span method.receiver
  | «class» name span header =>
      exact isNamed_openUnit (isNamed_creditName named name .store) .class name span none
  | controlBlock type span => exact isNamed_openBlock named type span
  | identifier name binding => exact isNamed_creditName named name binding
  | memberAccess receiver member => exact isNamed_creditAccess named receiver member

theorem exitElement_moved {run : Run} (named : run.state.IsNamed) (element : Element) :
    exitElement (run.moved lines) (element.moved lines) =
      (exitElement run element).moved lines := by
  cases element with
  | function name span method bindsName header =>
      have settled := @closeMethod_moved lines _ (isNamed_closeUnit named)
      simp only [Element.moved, exitElement, Run.moved, closeUnit_moved, settled]
      cases run.state.closeUnit.2 <;> split <;> rfl
  | «class» name span header =>
      simp only [Element.moved, exitElement, Run.moved, closeUnit_moved]
      cases run.state.closeUnit.2 <;> rfl
  | controlBlock type span =>
      simp only [Element.moved, exitElement, Run.moved, closeBlock_moved named]
  | identifier name binding => rfl
  | memberAccess receiver member => rfl

theorem isNamed_exitElement {run : Run} (named : run.state.IsNamed) (element : Element) :
    (exitElement run element).state.IsNamed := by
  cases element with
  | function name span method bindsName header =>
      unfold exitElement
      dsimp only
      split
      · exact isNamed_closeMethod (isNamed_closeUnit named)
      · exact isNamed_closeUnit named
  | «class» name span header => exact isNamed_closeUnit named
  | controlBlock type span => exact isNamed_closeBlock named
  | identifier name binding => exact named
  | memberAccess receiver member => exact named

theorem leave_moved {run : Run} (named : run.state.IsNamed) (inHeader : Bool) :
    (if inHeader then { run.moved lines with state := (run.moved lines).state.takeBack.1 }
        else run.moved lines) =
      Run.moved lines (if inHeader then { run with state := run.state.takeBack.1 } else run) ∧
    (if inHeader then { run with state := run.state.takeBack.1 } else run).state.IsNamed := by
  cases inHeader with
  | true =>
      exact ⟨congrArg (fun state => (⟨state, _⟩ : Run)) takeBack_moved, isNamed_takeBack named⟩
  | false => exact ⟨rfl, named⟩

/-- One step of the traversal of moved code: it leads from the moved state to the moved
state that the step leads to. -/
theorem step_moved {run : Run} (named : run.state.IsNamed) {event : Event Occurrence}
    (parsed : event.tree.label.node.isParsed = true) :
    (run.moved lines).step (event.map (Occurrence.moved lines)) = (run.step event).moved lines ∧
      (run.step event).state.IsNamed := by
  obtain ⟨phase, tree, parent, address⟩ := event
  have sameHeader : (run.moved lines).state.inHeader address = run.state.inHeader address := rfl
  have sameElement := elementOf?_moved lines parent parsed
  have elementNamed := fun element => @isNamed_elementOf? tree parent element parsed
  simp only [Run.step, Event.map, sameHeader, sameElement]
  cases phase with
  | enter =>
      have enteredNamed : OpenUnits.IsNamed
          (if run.state.inHeader address then run.state.setAside else run.state) := by
        split
        · exact isNamed_setAside named
        · exact named
      have entered : (if run.state.inHeader address
            then (run.moved lines).state.setAside else (run.moved lines).state) =
          OpenUnits.moved lines
            (if run.state.inHeader address then run.state.setAside else run.state) := by
        split
        · exact setAside_moved
        · rfl
      rw [entered]
      cases found : elementOf? tree parent with
      | none => exact ⟨rfl, enteredNamed⟩
      | some element =>
          simp only [Option.map_some, enterElement_moved]
          exact ⟨rfl, isNamed_enterElement enteredNamed address (elementNamed element found)⟩
  | exit =>
      cases elementOf? tree parent with
      | none => exact leave_moved lines named _
      | some element =>
          simp only [Option.map_some, exitElement_moved lines named]
          exact leave_moved lines (isNamed_exitElement named element) _

theorem foldl_step_moved {events : List (Event Occurrence)}
    (parsed : ∀ event ∈ events, event.tree.label.node.isParsed = true) {run : Run}
    (named : run.state.IsNamed) :
    (events.map (Event.map (Occurrence.moved lines))).foldl Run.step (run.moved lines) =
      (events.foldl Run.step run).moved lines := by
  induction events generalizing run with
  | nil => rfl
  | cons event events inductionHypothesis =>
      obtain ⟨moved, stillNamed⟩ := step_moved lines named (parsed event List.mem_cons_self)
      rw [List.map_cons, List.foldl_cons, List.foldl_cons, moved]
      exact inductionHypothesis (fun other member => parsed other (List.mem_cons_of_mem _ member))
        stillNamed

/-- The units of moved code are the units of the code, some lines further down. -/
theorem closedUnits_moved {tree : SyntaxTree}
    (parsed : ∀ part ∈ tree.preorder, part.label.node.isParsed = true) :
    closedUnits (tree.map (Occurrence.moved lines)) =
      (closedUnits tree).map (CodeUnit.moved lines) := by
  have reached : ∀ event ∈ tree.walk, event.tree.label.node.isParsed = true := by
    intro event listed
    rw [Tree.walk_eq_events] at listed
    exact parsed _ (Tree.mem_preorder_of_mem_events tree none [] event listed)
  have run : (tree.walk.map (Event.map (Occurrence.moved lines))).foldl Run.step {} =
      (tree.walk.foldl Run.step {}).moved lines :=
    @foldl_step_moved lines tree.walk reached {} fun unit member => by cases member
  rw [closedUnits, Tree.walk_map, run, closedUnits]
  exact List.map_reverse.symm

end DesignLint.Cohesion
