import DesignLint.Proofs.Cohesion.Threshold

/-!
# Functions under analysis

What an analysis reports on functions, stated without a traversal: each function
with the control statements below it that it encloses most closely, each of these
with the names used in it.
-/

namespace DesignLint.Cohesion

open DesignLint.Syntax

/-! ## Numbered blocks -/

/-- The frames that become blocks are numbered in order. -/
theorem foldl_extract?_eq {α : Type} {frame : α → OpenBlock} {counts : α → Bool}
    {block : α → Nat → Block} {items : List α} (blocks : List Block)
    (extract : ∀ item ∈ items, ∀ index,
      (frame item).extract? index = if counts item then some (block item index) else none) :
    (items.map frame).foldl
        (fun blocks frame => blocks ++ (frame.extract? blocks.length).toList) blocks =
      blocks ++ ((items.filter counts).zipIdx blocks.length).map
        fun (item, index) => block item index := by
  induction items generalizing blocks with
  | nil => simp
  | cons item items inductionHypothesis =>
      have rest : ∀ other ∈ items, ∀ index, (frame other).extract? index =
          if counts other then some (block other index) else none :=
        fun other member => extract other (List.mem_cons_of_mem _ member)
      rw [List.map_cons, List.foldl_cons, inductionHypothesis _ rest,
        extract item List.mem_cons_self]
      by_cases count : counts item = true
      · simp [count]
      · simp [count]

theorem numberedBlocks_map_eq {α : Type} {frame : α → OpenBlock} {counts : α → Bool}
    {block : α → Nat → Block} {items : List α}
    (extract : ∀ item ∈ items, ∀ index,
      (frame item).extract? index = if counts item then some (block item index) else none) :
    numberedBlocks (items.map frame) =
      (items.filter counts).zipIdx.map fun (item, index) => block item index := by
  rw [numberedBlocks, foldl_extract?_eq [] extract]
  rfl

/-! ## Control statements -/

variable {tree : SyntaxTree} {place unit : SyntaxPlace}

/-- The names read at a spot of a tree: in the block there, or at the top level of the
function there. -/
def namesRead (tree : SyntaxTree) (spot : SyntaxPlace) : NameSet :=
  namesUsed tree.places spot.address .read

/-- The names written at a spot of a tree. -/
def namesWritten (tree : SyntaxTree) (spot : SyntaxPlace) : NameSet :=
  namesUsed tree.places spot.address .write

/-- The control statements whose nearest unit is a given function, in the order in
which they end. -/
def controlsOf (tree : SyntaxTree) (unit : SyntaxPlace) : List SyntaxPlace :=
  tree.latePlaces.filter fun block =>
    isControl block && (homeOf? block).any fun home => home.address == unit.address

/-- Whether a name is used in the control statement at a place. -/
def usesNames (tree : SyntaxTree) (block : SyntaxPlace) : Bool :=
  !((namesRead tree block).isEmpty && (namesWritten tree block).isEmpty)

/-- The type and the lines of the control statement at a place. -/
def controlAt (block : SyntaxPlace) : BlockType × Span :=
  match elementAt? block with
  | some (.controlBlock type span) => (type, span)
  | _ => (.if, ⟨0, 0⟩)

/-- The control statement at a place as a block with a number. -/
def controlBlockAt (tree : SyntaxTree) (block : SyntaxPlace) (index : Nat) : Block :=
  { index := index
    type := (controlAt block).1
    name := controlBlockName (controlAt block).1 (controlAt block).2
    startLine := (controlAt block).2.startLine
    endLine := (controlAt block).2.endLine
    reads := namesRead tree block
    writes := namesWritten tree block }

/-- Control statements are no methods. -/
theorem type_ne_method_of_controlBlock {type : BlockType} {span : Span}
    (element : elementAt? place = some (.controlBlock type span)) : type ≠ .method := by
  cases isAt_of_elementOf? element with
  | control node notMethod => exact notMethod

/-- A control statement becomes a block if a name is used in it. -/
theorem extract?_usageOf_of_control (control : isControl place = true) (index : Nat) :
    (usageOf tree.places place).extract? index =
      if usesNames tree place then some (controlBlockAt tree place index) else none := by
  obtain ⟨type, span, element⟩ := isControl_iff.mp control
  have notMethod := type_ne_method_of_controlBlock element
  cases reads : (namesRead tree place).isEmpty <;>
    cases writes : (namesWritten tree place).isEmpty <;>
    simp_all [usageOf, OpenBlock.extract?, OpenBlock.isEmpty, usesNames, controlBlockAt,
      controlAt, namesRead, namesWritten]

/-! ## Functions -/

/-- The places of a tree where units of one kind stand, in the order in which they end. -/
def unitPlacesOf (kind : UnitKind) (tree : SyntaxTree) : List SyntaxPlace :=
  tree.latePlaces.filter fun unit => kindAt? unit == some kind

/-- The function at a place: its control statements in which a name is used, numbered
in the order in which they end, and the names written at its top level. -/
def functionAt (tree : SyntaxTree) (unit : SyntaxPlace) : CodeUnit :=
  { kind := .function
    name := unitNameAt unit
    span := spanAt unit
    receiver := receiverAt? unit
    blocks := ((controlsOf tree unit).filter (usesNames tree)).zipIdx.map
      fun (block, index) => controlBlockAt tree block index
    declared := namesWritten tree unit
    stage := .finalizing }

theorem unitAt_eq_functionAt (function : kindAt? unit = some .function) :
    unitAt tree.places tree.latePlaces unit = functionAt tree unit := by
  have blocks : tree.latePlaces.filter (isBlockOf unit) = controlsOf tree unit :=
    List.filter_congr fun block _ => by simp [isBlockOf, function]
  have controls : ∀ block ∈ controlsOf tree unit, isControl block = true := by
    intro block listed
    have conditions := (List.mem_filter.mp listed).2
    simp only [Bool.and_eq_true] at conditions
    exact conditions.1
  simp only [unitAt, functionAt, blocks, function, Option.getD_some, if_true, namesWritten]
  rw [numberedBlocks_map_eq fun block listed =>
    extract?_usageOf_of_control (controls block listed)]

/-- The reports on units of one kind are the judgements on these units. -/
theorem filter_reportsOn_eq (analysis : CohesionAnalysis) (tree : SyntaxTree) (kind : UnitKind) :
    (analysis.reportsOn tree).filter (fun report => report.kind == kind) =
      ((closedUnits tree).filter fun unit => unit.kind == kind).filterMap fun unit =>
        (analysis.limitsFor kind).bind fun limits => judge analysis.rounding limits unit := by
  rw [CohesionAnalysis.reportsOn, List.filter_filterMap, List.filterMap_filter]
  congr 1
  funext unit
  by_cases same : unit.kind = kind
  · subst same
    simp only [CohesionAnalysis.report?, beq_self_eq_true, if_true]
    cases reported : (analysis.limitsFor unit.kind).bind
        fun limits => judge analysis.rounding limits unit with
    | none => rfl
    | some report =>
        obtain ⟨limits, -, judged⟩ := Option.bind_eq_some_iff.mp reported
        simp [(showsGroups_of_judge judged).kind]
  · rw [if_neg (by simpa using same), CohesionAnalysis.report?, Option.filter_eq_none_iff]
    intro report reported
    obtain ⟨limits, -, judged⟩ := Option.bind_eq_some_iff.mp reported
    simp [(showsGroups_of_judge judged).kind, same]

/-- The units of one kind that a traversal closes stand where units of that kind stand. -/
theorem filter_closedUnits_eq {tree : SyntaxTree} (syntaxTree : StandsForSyntax tree)
    (kind : UnitKind) :
    (closedUnits tree).filter (fun unit => unit.kind == kind) =
      (unitPlacesOf kind tree).map (unitAt tree.places tree.latePlaces) := by
  rw [closedUnits_eq syntaxTree, unitPlaces, unitPlacesOf, List.filter_map, List.filter_filter]
  congr 1
  refine List.filter_congr fun unit _ => ?_
  cases kindEq : kindAt? unit with
  | none => simp
  | some other => simp [unitAt, kindEq]

/-- The reports on functions, for any limits: each function is judged by its control
statements and the names used in them. -/
theorem functionReports_eq (analysis : CohesionAnalysis) (module : Module) :
    (analysis.reportsOn module.tree).filter (fun report => report.kind == .function) =
      (unitPlacesOf .function module.tree).filterMap fun unit =>
        analysis.functionLimits.bind fun limits =>
          judge analysis.rounding limits (functionAt module.tree unit) := by
  have functions : (unitPlacesOf .function module.tree).map
        (unitAt module.tree.places module.tree.latePlaces) =
      (unitPlacesOf .function module.tree).map (functionAt module.tree) :=
    List.map_congr_left fun unit listed =>
      unitAt_eq_functionAt (by simpa using (List.mem_filter.mp listed).2)
  rw [filter_reportsOn_eq, filter_closedUnits_eq (.module module), functions, List.filterMap_map]
  rfl

end DesignLint.Cohesion
