import DesignLint.Proofs.Check.MovedCohesion
import DesignLint.Proofs.Cohesion.NameSet
import DesignLint.Proofs.Cohesion.Traversal
import DesignLint.Proofs.Syntax.Renamed

/-!
# Cohesion of renamed code

The analysis of cohesion gives no name a meaning of its own, apart from three that Python gives
one. What a place of renamed code uses is what the place used before, under other names, so the
same units are reported for the same groups of blocks.
-/

namespace DesignLint

/-! ## Places of relabelled trees -/

section Places

variable {α β : Type} (f : α → β)

/-- The place in the relabelled tree. -/
def Visit.relabelled (place : Place α) : Place β := place.map f (List.map (Tree.map f))

@[simp]
theorem Visit.address_relabelled (place : Place α) : (place.relabelled f).address = place.address :=
  rfl

theorem Visit.enclosing_map (address : Address) (trees : List (Tree α)) :
    enclosing address (trees.map (Tree.map f)) = (enclosing address trees).map (relabelled f) := by
  induction trees generalizing address with
  | nil => rfl
  | cons tree trees inductionHypothesis =>
      rw [List.map_cons, enclosing, inductionHypothesis]
      rfl

@[simp]
theorem Visit.around_relabelled (place : Place α) :
    (place.relabelled f).around = place.around.map (relabelled f) :=
  enclosing_map f place.address place.context

theorem Tree.places_map (tree : Tree α) :
    (tree.map f).places = tree.places.map (Visit.relabelled f) :=
  withAncestors_map f tree

theorem Tree.latePlaces_map (tree : Tree α) :
    (tree.map f).latePlaces = tree.latePlaces.map (Visit.relabelled f) :=
  lateVisits_map f (List.map (Tree.map f)) (fun _ _ _ => rfl) tree [] []

end Places

/-! ## Sets of names -/

namespace NameSet

variable {f : String → String} (injective : Function.Injective f)

include injective

theorem contains_map (names : NameSet) (name : String) :
    (names.map f).contains (f name) = names.contains name := by
  rw [Bool.eq_iff_iff, List.contains_iff_mem, List.contains_iff_mem,
    List.mem_map_of_injective injective]

theorem add_map (names : NameSet) (name : String) :
    add (names.map f) (f name) = (names.add name).map f := by
  rw [add, add, contains_map injective]
  split
  · rfl
  · rw [List.map_append, List.map_singleton]

theorem union_map (names others : NameSet) :
    union (names.map f) (others.map f) = (names.union others).map f := by
  induction others generalizing names with
  | nil => rfl
  | cons other others inductionHypothesis =>
      have step := inductionHypothesis (names.add other)
      rw [← add_map injective] at step
      exact step

theorem ofNames_map (names : List String) : ofNames (names.map f) = (ofNames names).map f := by
  rw [ofNames_eq_union, ofNames_eq_union, ← union_map injective, List.map_nil]

theorem inter_map (names others : NameSet) :
    inter (names.map f) (others.map f) = (names.inter others).map f := by
  simp only [inter, List.filter_map, Function.comp_def, contains_map injective]

omit injective in
/-- The sorted listing only depends on what is listed. -/
theorem sorted_eq_of_perm {names others : NameSet} (same : names.Perm others) :
    names.sorted = others.sorted := by
  refine List.Perm.eq_of_pairwise ?_ names.pairwise_le_sorted others.pairwise_le_sorted
    ((List.mergeSort_perm names _).trans (same.trans (List.mergeSort_perm others _).symm))
  intro a b _ _ ab ba
  exact String.le_antisymm ab ba

end NameSet

namespace Cohesion

open Syntax

variable (fresh : Renaming)

/-- The place in the renamed tree. -/
def renamedPlace (place : SyntaxPlace) : SyntaxPlace :=
  place.relabelled (Occurrence.edited fresh.edit)

/-! ## Elements -/

/-- The parts of a header under other names. -/
def Header.renamed (header : Header) : Header :=
  header.map (Prod.map id (Tree.map (Occurrence.edited fresh.edit)))

/-- The method under other names. -/
def Method.renamed (method : Method) : Method :=
  { method with name := fresh.apply method.name, receiver := method.receiver.map fresh.apply }

/-- The element under other names. A lambda has no name that could change. -/
def Element.renamed : Element → Element
  | .function name span method bindsName header =>
    .function (if bindsName then fresh.apply name else name) span
      (method.map (Method.renamed fresh)) bindsName (Header.renamed fresh header)
  | .class name span header => .class (fresh.apply name) span (Header.renamed fresh header)
  | .controlBlock type span => .controlBlock type span
  | .identifier name binding => .identifier (fresh.apply name) binding
  | .memberAccess receiver member => .memberAccess (fresh.apply receiver) (fresh.apply member)

theorem defaultsOf_renamed (tree : SyntaxTree) :
    defaultsOf (tree.map (Occurrence.edited fresh.edit)) =
      Header.renamed fresh (defaultsOf tree) :=
  defaultsOf_map (Occurrence.role_edited fresh.edit) tree

theorem functionHeader_renamed (tree : SyntaxTree) :
    functionHeader (tree.map (Occurrence.edited fresh.edit)) =
      Header.renamed fresh (functionHeader tree) :=
  functionHeader_map (Occurrence.role_edited fresh.edit) tree

theorem classHeader_renamed (tree : SyntaxTree) :
    classHeader (tree.map (Occurrence.edited fresh.edit)) =
      Header.renamed fresh (classHeader tree) :=
  classHeader_map (Occurrence.role_edited fresh.edit) tree

@[simp]
theorem isConstructorName_renamed (name : String) :
    isConstructorName (fresh.apply name) = isConstructorName name := by
  rw [isConstructorName, Renaming.apply_beq_of_mem (by simp [meaningfulNames]),
    Renaming.apply_beq_of_mem (by simp [meaningfulNames]), isConstructorName]

@[simp]
theorem nonemptyName_renamed (name : Option String) :
    nonemptyName (name.map fresh.apply) = (nonemptyName name).map fresh.apply := by
  cases name with
  | none => rfl
  | some text => by_cases empty : text.isEmpty <;> simp [nonemptyName, Option.filter, empty]

theorem stmtElement_renamed (tree : SyntaxTree) (parent : Option SyntaxTree) (stmt : Stmt) :
    stmtElement (tree.map (Occurrence.edited fresh.edit))
        (parent.map (Tree.map (Occurrence.edited fresh.edit))) (stmt.edited fresh.edit) =
      (stmtElement tree parent stmt).map (Element.renamed fresh) := by
  cases stmt with
  | functionDef position isAsync name parameters body decorators returns =>
      simp only [Stmt.edited, stmtElement, functionHeader_renamed, selfName_renamed]
      -- A function is a method when its parent is a class, under whatever name.
      rcases parent with _ | ⟨⟨role, node⟩, children⟩
      · rfl
      · cases node with
        | stmt around =>
            cases around with
            | classDef =>
                simp [Tree.map, Occurrence.edited, Node.edited, Stmt.edited, Tree.label,
                  Element.renamed, Method.renamed]
            | _ => rfl
        | _ => rfl
  | classDef =>
      simp only [Stmt.edited, stmtElement, classHeader_renamed, Option.map_some, Element.renamed,
        Renaming.name_edit, Renaming.position_edit]
  | _ => rfl

theorem exprElement_renamed (tree : SyntaxTree) (expr : Expr) :
    exprElement (tree.map (Occurrence.edited fresh.edit)) (expr.edited fresh.edit) =
      (exprElement tree expr).map (Element.renamed fresh) := by
  cases expr with
  | lambda =>
      simp only [Expr.edited, exprElement, defaultsOf_renamed, Option.map_some, Element.renamed,
        Renaming.position_edit]
      rfl
  | attr position value name context => cases value <;> rfl
  | _ => rfl

theorem patternElement_renamed (pattern : Pattern) :
    patternElement (pattern.edited fresh.edit) =
      (patternElement pattern).map (Element.renamed fresh) := by
  cases pattern with
  | capture position inner name =>
      simp [Pattern.edited, patternElement, Function.comp_def, Element.renamed]
  | star position name =>
      simp [Pattern.edited, patternElement, Function.comp_def, Element.renamed]
  | _ => rfl

/-- The element at the root of a renamed tree. -/
theorem elementOf?_renamed (tree : SyntaxTree) (parent : Option SyntaxTree) :
    elementOf? (tree.map (Occurrence.edited fresh.edit))
        (parent.map (Tree.map (Occurrence.edited fresh.edit))) =
      (elementOf? tree parent).map (Element.renamed fresh) := by
  unfold elementOf?
  rw [Tree.label_map, Occurrence.node_edited]
  cases tree.label.node with
  | stmt stmt => exact stmtElement_renamed fresh tree parent stmt
  | expr expr => exact exprElement_renamed fresh tree expr
  | pattern pattern => exact patternElement_renamed fresh pattern
  | handler handler =>
      obtain ⟨position, type, name, body⟩ := handler
      simp [Node.edited, Handler.edited, Function.comp_def, Element.renamed]
  | importAlias item =>
      simp only [Node.edited, Alias.boundName_renamed,
        Renaming.apply_eq_iff_of_fixed Renaming.apply_star]
      split <;> rfl
  | parameter parameter =>
      simp only [Node.edited, Parameter.name_edited]
      rfl
  | _ => rfl

/-! ## Places -/

section Reading

variable (place unit : SyntaxPlace)

theorem elementAt?_renamed :
    elementAt? (renamedPlace fresh place) = (elementAt? place).map (Element.renamed fresh) := by
  have parent : (renamedPlace fresh place).context.head? =
      place.context.head?.map (Tree.map (Occurrence.edited fresh.edit)) :=
    List.head?_map
  rw [elementAt?, parent]
  exact elementOf?_renamed fresh place.tree place.context.head?

@[simp]
theorem address_renamedPlace : (renamedPlace fresh place).address = place.address :=
  rfl

@[simp]
theorem around_renamedPlace :
    (renamedPlace fresh place).around = place.around.map (renamedPlace fresh) :=
  place.around_relabelled _

@[simp]
theorem kindAt?_renamed : kindAt? (renamedPlace fresh place) = kindAt? place := by
  rw [kindAt?, elementAt?_renamed, kindAt?]
  rcases elementAt? place with _ | (_ | _ | _ | _ | _) <;> rfl

theorem headerAddressesAt_renamed :
    headerAddressesAt (renamedPlace fresh place) = headerAddressesAt place := by
  have header : headerAt (renamedPlace fresh place) = Header.renamed fresh (headerAt place) := by
    rw [headerAt, elementAt?_renamed, headerAt]
    rcases elementAt? place with _ | (_ | _ | _ | _ | _) <;> rfl
  rw [headerAddressesAt, header, headerAddresses, Header.renamed, List.map_map]
  rfl

@[simp]
theorem methodAt?_renamed :
    methodAt? (renamedPlace fresh place) = (methodAt? place).map (Method.renamed fresh) := by
  rw [methodAt?, elementAt?_renamed, methodAt?]
  rcases elementAt? place with _ | (_ | _ | _ | _ | _) <;> rfl

@[simp]
theorem isControl_renamed : isControl (renamedPlace fresh place) = isControl place := by
  rw [isControl, elementAt?_renamed, isControl]
  rcases elementAt? place with _ | (_ | _ | _ | _ | _) <;> rfl

theorem nameAt?_renamed :
    nameAt? (renamedPlace fresh place) = (nameAt? place).map (Prod.map fresh.apply id) := by
  rw [nameAt?, elementAt?_renamed, nameAt?]
  rcases elementAt? place with _ | (⟨_, _, _, bindsName, _⟩ | _ | _ | _ | _)
  case some.function => cases bindsName <;> rfl
  all_goals rfl

theorem accessAt?_renamed :
    accessAt? (renamedPlace fresh place) =
      (accessAt? place).map (Prod.map fresh.apply fresh.apply) := by
  rw [accessAt?, elementAt?_renamed, accessAt?]
  rcases elementAt? place with _ | (_ | _ | _ | _ | _) <;> rfl

@[simp]
theorem liesInHeader_renamed :
    liesInHeader (renamedPlace fresh place) (renamedPlace fresh unit) =
      liesInHeader place unit := by
  simp only [liesInHeader, headerAddressesAt_renamed, address_renamedPlace]

theorem unitsAround_renamed :
    unitsAround (renamedPlace fresh place) = (unitsAround place).map (renamedPlace fresh) := by
  have same :
      isUnitAround (renamedPlace fresh place) ∘ renamedPlace fresh = isUnitAround place := by
    funext unit
    simp only [Function.comp_apply, isUnitAround, kindAt?_renamed, liesInHeader_renamed]
  rw [unitsAround, around_renamedPlace, List.filter_map, same, unitsAround]

@[simp]
theorem homeOf?_renamed :
    homeOf? (renamedPlace fresh place) = (homeOf? place).map (renamedPlace fresh) := by
  rw [homeOf?, unitsAround_renamed, homeOf?, List.head?_map]

@[simp]
theorem isBlockOf_renamed :
    isBlockOf (renamedPlace fresh unit) (renamedPlace fresh place) = isBlockOf unit place := by
  simp only [isBlockOf, kindAt?_renamed, isControl_renamed, methodAt?_renamed, Option.isSome_map,
    homeOf?_renamed, Option.any_map, address_renamedPlace]

@[simp]
theorem spotOf?_renamed : spotOf? (renamedPlace fresh place) = spotOf? place := by
  rw [spotOf?, homeOf?_renamed, spotOf?]
  cases homeOf? place with
  | none => rfl
  | some home =>
      have nearest : (renamedPlace fresh place).around.find? (isBlockOf (renamedPlace fresh home)) =
          (place.around.find? (isBlockOf home)).map (renamedPlace fresh) := by
        simp only [around_renamedPlace, List.find?_map, Function.comp_def, isBlockOf_renamed]
      simp only [Option.map_some, kindAt?_renamed, nearest]
      cases place.around.find? (isBlockOf home) <;> rfl

/-! ## Names and members -/

@[simp]
theorem receiverAt?_renamed :
    receiverAt? (renamedPlace fresh place) = (receiverAt? place).map fresh.apply := by
  rw [receiverAt?, methodAt?_renamed, receiverAt?]
  cases methodAt? place <;> rfl

theorem receiversAround_renamed :
    receiversAround (renamedPlace fresh place) = (receiversAround place).map fresh.apply := by
  simp only [receiversAround, unitsAround_renamed, List.takeWhile_map, List.filterMap_map,
    Function.comp_def, kindAt?_renamed, receiverAt?_renamed, nonemptyName_renamed,
    List.map_filterMap]

@[simp]
theorem creditAt_renamed (name : String) (binding : Binding) :
    creditAt (renamedPlace fresh place) (fresh.apply name) binding =
      creditAt place name binding := by
  rw [creditAt, receiversAround_renamed, NameSet.contains_map fresh.injective, creditAt]

theorem usedName?_renamed (spot : Address) (credit : Credit) :
    usedName? spot credit (renamedPlace fresh place) =
      (usedName? spot credit place).map fresh.apply := by
  rw [usedName?, nameAt?_renamed, usedName?]
  cases nameAt? place with
  | none => rfl
  | some used =>
      simp only [Option.map_some, Prod.map, id, spotOf?_renamed, creditAt_renamed]
      split <;> rfl

theorem namesUsed_renamed (places : List SyntaxPlace) (spot : Address) (credit : Credit) :
    namesUsed (places.map (renamedPlace fresh)) spot credit =
      (namesUsed places spot credit).map fresh.apply := by
  have each : usedName? spot credit ∘ renamedPlace fresh =
      fun place => (usedName? spot credit place).map fresh.apply :=
    funext fun place => usedName?_renamed fresh place spot credit
  rw [namesUsed, List.filterMap_map, each, ← List.map_filterMap,
    NameSet.ofNames_map fresh.injective, namesUsed]

theorem methodInCharge?_renamed (receiver : String) :
    methodInCharge? (renamedPlace fresh place) (fresh.apply receiver) =
      (methodInCharge? place receiver).map (renamedPlace fresh) := by
  have owns (outer : SyntaxPlace) :
      ((receiverAt? outer).map fresh.apply == some (fresh.apply receiver)) =
        (receiverAt? outer == some receiver) := by
    rw [Bool.eq_iff_iff, beq_iff_eq, beq_iff_eq, Option.map_eq_some_iff]
    constructor
    · rintro ⟨own, found, equal⟩
      rw [found, fresh.injective equal]
    · intro found
      exact ⟨receiver, found, rfl⟩
  simp only [methodInCharge?, around_renamedPlace, List.find?_map, Function.comp_def,
    receiverAt?_renamed, owns]

theorem usedMember?_renamed (method : Address) :
    usedMember? method (renamedPlace fresh place) =
      (usedMember? method place).map fresh.apply := by
  rw [usedMember?, accessAt?_renamed, usedMember?]
  cases accessAt? place with
  | none => rfl
  | some access =>
      simp only [Option.map_some, Prod.map, methodInCharge?_renamed, Option.map_map,
        Function.comp_def, address_renamedPlace]
      split <;> rfl

theorem membersUsed_renamed (places : List SyntaxPlace) (method : Address) :
    membersUsed (places.map (renamedPlace fresh)) method =
      (membersUsed places method).map fresh.apply := by
  have each : usedMember? method ∘ renamedPlace fresh =
      fun place => (usedMember? method place).map fresh.apply :=
    funext fun place => usedMember?_renamed fresh place method
  rw [membersUsed, List.filterMap_map, each, ← List.map_filterMap,
    NameSet.ofNames_map fresh.injective, membersUsed]

end Reading

/-! ## Blocks -/

/-- The frame under other names. -/
def OpenBlock.renamed (frame : OpenBlock) : OpenBlock :=
  { frame with
    name := fresh.apply frame.name
    receiver := frame.receiver.map fresh.apply
    reads := frame.reads.map fresh.apply
    writes := frame.writes.map fresh.apply
    members := frame.members.map fresh.apply }

/-- The block under other names. -/
def Block.renamed (block : Block) : Block :=
  { block with
    name := fresh.apply block.name
    reads := block.reads.map fresh.apply
    writes := block.writes.map fresh.apply
    members := block.members.map fresh.apply }

theorem usageOf_renamed (places : List SyntaxPlace) (block : SyntaxPlace) :
    usageOf (places.map (renamedPlace fresh)) (renamedPlace fresh block) =
      OpenBlock.renamed fresh (usageOf places block) := by
  rw [usageOf, elementAt?_renamed, usageOf]
  rcases elementAt? block with _ | (⟨_, _, _ | _, _, _⟩ | _ | _ | _ | _) <;>
    simp [Element.renamed, OpenBlock.renamed, Method.renamed, namesUsed_renamed,
      membersUsed_renamed]

/-- The name that a control block gets from its line is no identifier. -/
theorem apply_controlBlockName (type : BlockType) (span : Span) :
    fresh.apply (controlBlockName type span) = controlBlockName type span := by
  apply fresh.others
  apply Renaming.isIdentifier_eq_false_of_mem (c := ':') _ rfl
  simp [controlBlockName]

theorem extract?_renamed (frame : OpenBlock) (index : Nat) :
    (OpenBlock.renamed fresh frame).extract? index =
      (frame.extract? index).map (Block.renamed fresh) := by
  have sameEmpty : (OpenBlock.renamed fresh frame).isEmpty = frame.isEmpty := by
    simp [OpenBlock.isEmpty, OpenBlock.renamed]
  unfold OpenBlock.extract?
  rw [sameEmpty]
  dsimp only [OpenBlock.renamed]
  cases frame.type with
  | none => rfl
  | some type =>
      by_cases dropped : (frame.isConstructor || frame.isEmpty) = true
      · simp only [dropped, if_true, Option.map_none]
      · by_cases noName : frame.name.isEmpty = true <;>
          simp only [dropped, if_false, Option.map_some, Block.renamed, Renaming.isEmpty_apply,
            noName, if_true, apply_controlBlockName, Bool.false_eq_true]

theorem numberedBlocks_renamed (frames : List OpenBlock) :
    numberedBlocks (frames.map (OpenBlock.renamed fresh)) =
      (numberedBlocks frames).map (Block.renamed fresh) := by
  have from_ (frames : List OpenBlock) : ∀ blocks : List Block,
      (frames.map (OpenBlock.renamed fresh)).foldl
          (fun blocks frame => blocks ++ (frame.extract? blocks.length).toList)
          (blocks.map (Block.renamed fresh)) =
        (frames.foldl (fun blocks frame => blocks ++ (frame.extract? blocks.length).toList)
          blocks).map (Block.renamed fresh) := by
    induction frames with
    | nil => intro blocks; rfl
    | cons frame frames inductionHypothesis =>
        intro blocks
        rw [List.map_cons, List.foldl_cons, List.foldl_cons, ← inductionHypothesis]
        congr 1
        rw [List.length_map, extract?_renamed, List.map_append]
        cases frame.extract? blocks.length <;> rfl
  exact from_ frames []

/-! ## Units -/

/-- The unit under other names. -/
def CodeUnit.renamed (unit : CodeUnit) : CodeUnit :=
  { unit with
    name := fresh.apply unit.name
    receiver := unit.receiver.map fresh.apply
    blocks := unit.blocks.map (Block.renamed fresh)
    declared := unit.declared.map fresh.apply
    frames := unit.frames.map (OpenBlock.renamed fresh) }

/-- The unit at a place of renamed code has other names, but for its own. -/
theorem unitAt_renamed (places blocks : List SyntaxPlace) (unit : SyntaxPlace) :
    unitAt (places.map (renamedPlace fresh)) (blocks.map (renamedPlace fresh))
        (renamedPlace fresh unit) =
      { CodeUnit.renamed fresh (unitAt places blocks unit) with
        name := unitNameAt (renamedPlace fresh unit) } := by
  have sameSpan : spanAt (renamedPlace fresh unit) = spanAt unit := by
    rw [spanAt, elementAt?_renamed, spanAt]
    rcases elementAt? unit with _ | (_ | _ | _ | _ | _) <;> rfl
  have frames : ((blocks.map (renamedPlace fresh)).filter (isBlockOf (renamedPlace fresh unit))).map
        (usageOf (places.map (renamedPlace fresh))) =
      ((blocks.filter (isBlockOf unit)).map (usageOf places)).map (OpenBlock.renamed fresh) := by
    simp only [List.filter_map, Function.comp_def, isBlockOf_renamed, List.map_map, usageOf_renamed]
  rw [unitAt, frames, numberedBlocks_renamed, sameSpan]
  simp only [unitAt, CodeUnit.renamed, kindAt?_renamed, receiverAt?_renamed, address_renamedPlace,
    namesUsed_renamed, List.map_nil]
  split <;> rfl

/-- A definition has its name changed. A lambda has none, and no block stands in it. -/
theorem unitNameAt_renamed {tree : SyntaxTree} (stands : StandsForSyntax tree) {unit : SyntaxPlace}
    (listed : unit ∈ unitPlaces tree) :
    unitNameAt (renamedPlace fresh unit) = fresh.apply (unitNameAt unit) ∨
      (unitAt tree.places tree.latePlaces unit).blocks = [] := by
  have isUnit := (List.mem_filter.mp listed).2
  have hasPlace : ∀ place ∈ tree.latePlaces, tree.HasPlace place := fun place within =>
    Tree.hasPlace_of_mem_places (Visit.mem_latePlaces.mp within)
  have has := hasPlace unit (List.mem_filter.mp listed).1
  rw [kindAt?_eq] at isUnit
  split at isUnit
  · rename_i name _ _ _ _ node
    obtain ⟨span, method, header, element⟩ : ∃ span method header,
        elementAt? unit = some (.function name span method true header) :=
      ⟨_, _, _, by rw [elementAt?, elementOf?, node]; rfl⟩
    left
    rw [unitNameAt, elementAt?_renamed, unitNameAt, element]
    rfl
  · rename_i name _ _ _ _ node
    obtain ⟨span, header, element⟩ : ∃ span header,
        elementAt? unit = some (.class name span header) :=
      ⟨_, _, by rw [elementAt?, elementOf?, node]; rfl⟩
    left
    rw [unitNameAt, elementAt?_renamed, unitNameAt, element]
    rfl
  · rename_i node
    right
    have none : tree.latePlaces.filter (isBlockOf unit) = [] := by
      rw [List.filter_eq_nil_iff]
      intro block within isBlock
      have isFunction : kindAt? unit = some .function := by rw [kindAt?_eq, node]
      rw [isBlockOf, isFunction, Bool.and_eq_true, Option.any_eq_true] at isBlock
      obtain ⟨control, home, homeEq, same⟩ := isBlock
      have blockHas := hasPlace block within
      have around : home ∈ block.around :=
        (List.mem_filter.mp (List.mem_of_mem_head? homeEq)).1
      have outer : unit = home :=
        has.eq_of_address_eq (blockHas.around around) (beq_iff_eq.mp same).symm
      have holds := holdsStatements_of_mem_path stands blockHas
        (holdsStatements_of_isControl control) (Visit.mem_path_iff.mpr (.inr (outer ▸ around)))
      rw [node] at holds
      simp [holdsStatements] at holds
    rw [unitAt, none]
    rfl
  · cases isUnit

/-! ## Reports -/

/-- The summary of a group under other names. The names that its blocks use are listed in their
new order. -/
def ComponentSummary.renamed (summary : ComponentSummary) : ComponentSummary :=
  { summary with
    memberNames := summary.memberNames.map fresh.apply
    sharedIdentifiers := NameSet.sorted (summary.sharedIdentifiers.map fresh.apply) }

/-- The report under other names. -/
def CohesionReport.renamed (report : CohesionReport) : CohesionReport :=
  { report with
    name := fresh.apply report.name
    components := report.components.map (ComponentSummary.renamed fresh) }

theorem comparedNames_renamed (block : Block) :
    (Block.renamed fresh block).comparedNames = block.comparedNames.map fresh.apply := by
  have sameType : (Block.renamed fresh block).type = block.type := rfl
  unfold Block.comparedNames
  rw [sameType]
  split
  · rfl
  · exact NameSet.union_map fresh.injective block.reads block.writes

theorem score_renamed (rule : OverlapRule) (a b : Block) :
    rule.score (Block.renamed fresh a) (Block.renamed fresh b) = rule.score a b := by
  simp only [OverlapRule.score, comparedNames_renamed, sharedPercentage, List.isEmpty_map,
    NameSet.inter_map fresh.injective, NameSet.union_map fresh.injective, List.length_map]

theorem connects_renamed (rule : OverlapRule) (a b : Block) :
    rule.connects (Block.renamed fresh a) (Block.renamed fresh b) = rule.connects a b := by
  have sameUse : usesOther (Block.renamed fresh a) (Block.renamed fresh b) = usesOther a b := by
    simp only [usesOther, Block.renamed, NameSet.contains_map fresh.injective]
  rw [OverlapRule.connects, score_renamed, sameUse, OverlapRule.connects]

theorem summarize_renamed (blocks : List Block) (component : Component) :
    summarize (blocks.map (Block.renamed fresh)) component =
      ComponentSummary.renamed fresh (summarize blocks component) := by
  have members : blocksAt (blocks.map (Block.renamed fresh)) component =
      (blocksAt blocks component).map (Block.renamed fresh) := by
    simp only [blocksAt, List.getElem?_map, List.map_filterMap]
  have shared (listed : List Block) : ∀ names : NameSet,
      (listed.map (Block.renamed fresh)).foldl
          (fun names block => NameSet.union names block.comparedNames) (names.map fresh.apply) =
        (listed.foldl (fun names block => NameSet.union names block.comparedNames) names).map
          fresh.apply := by
    induction listed with
    | nil => intro names; rfl
    | cons block listed inductionHypothesis =>
        intro names
        rw [List.map_cons, List.foldl_cons, List.foldl_cons, comparedNames_renamed,
          NameSet.union_map fresh.injective, inductionHypothesis]
  have sharedNames := shared (blocksAt blocks component) []
  rw [List.map_nil] at sharedNames
  rw [summarize, members, summarize]
  dsimp only [ComponentSummary.renamed]
  rw [sharedNames, NameSet.sorted_eq_of_perm ((List.mergeSort_perm _ _).symm.map fresh.apply)]
  simp only [List.map_map, Function.comp_def]
  rfl

/-- A renamed unit is judged alike, and keeps the name that is reported. -/
theorem judge_renamed (rounding : Rounding) (limits : CohesionLimits) (unit : CodeUnit) :
    judge rounding limits (CodeUnit.renamed fresh unit) =
      (judge rounding limits unit).map (CohesionReport.renamed fresh) := by
  have sameGraph := blockGraph_map (score_renamed fresh (limits.overlapRule rounding unit.kind))
    (connects_renamed fresh (limits.overlapRule rounding unit.kind)) unit.blocks
  have sameSummary := funext (summarize_renamed fresh unit.blocks)
  have sameCount : (CodeUnit.renamed fresh unit).blocks.length = unit.blocks.length :=
    List.length_map _
  have sameSpan : (CodeUnit.renamed fresh unit).span = unit.span := rfl
  unfold judge
  rw [sameCount, sameSpan]
  dsimp only [CodeUnit.renamed]
  rw [sameGraph]
  split
  · rfl
  · split
    · rw [sameSummary]
      simp only [Option.map_some, CohesionReport.renamed, List.map_map, Function.comp_def]
    · rfl

theorem judge_eq_none_of_blocks_eq_nil {rounding : Rounding} {limits : CohesionLimits}
    {unit : CodeUnit} (none : unit.blocks = []) : judge rounding limits unit = .none := by
  unfold judge
  simp [none]

/-- No name means anything to the analysis of cohesion but those that a renaming keeps. For every
module and every renaming, the analysis reports the same units in the same order, with the same
groups of blocks, the same averages and the same lines, and with the names that the renaming
gives to units, to methods and to what they share. -/
theorem reportsOn_renamed (analysis : CohesionAnalysis) (module : Module) :
    analysis.reportsOn (module.edited fresh.edit).tree =
      (analysis.reportsOn module.tree).map (CohesionReport.renamed fresh) := by
  have stands : StandsForSyntax module.tree := .module module
  have units : unitPlaces (module.edited fresh.edit).tree =
      (unitPlaces module.tree).map (renamedPlace fresh) := by
    have late : (module.edited fresh.edit).tree.latePlaces =
        module.tree.latePlaces.map (renamedPlace fresh) := by
      rw [Module.tree_edited]
      exact Tree.latePlaces_map _ _
    simp only [unitPlaces, late, List.filter_map, Function.comp_def, kindAt?_renamed]
  rw [CohesionAnalysis.reportsOn, closedUnits_eq (.module (module.edited fresh.edit)), units,
    CohesionAnalysis.reportsOn, closedUnits_eq stands, List.map_map, List.filterMap_map,
    List.filterMap_map, List.map_filterMap]
  apply List.filterMap_congr
  intro unit listed
  have renamedUnit : unitAt (module.edited fresh.edit).tree.places
        (module.edited fresh.edit).tree.latePlaces (renamedPlace fresh unit) =
      { CodeUnit.renamed fresh (unitAt module.tree.places module.tree.latePlaces unit) with
        name := unitNameAt (renamedPlace fresh unit) } := by
    rw [← unitAt_renamed, Module.tree_edited]
    congr 1
    · exact Tree.places_map _ _
    · exact Tree.latePlaces_map _ _
  simp only [Function.comp_apply, CohesionAnalysis.report?, renamedUnit]
  dsimp only [CodeUnit.renamed]
  cases analysis.limitsFor (unitAt module.tree.places module.tree.latePlaces unit).kind with
  | none => rfl
  | some limits =>
      rw [Option.bind_some, Option.bind_some]
      rcases unitNameAt_renamed fresh stands listed with named | none
      · rw [named]
        exact judge_renamed fresh analysis.rounding limits _
      · rw [judge_eq_none_of_blocks_eq_nil none, judge_eq_none_of_blocks_eq_nil (by simp [none])]
        rfl

/-- A class of two methods that share no member. -/
def twoMethods : Module :=
  let method (line : Nat) (name member : String) : Stmt :=
    .functionDef ⟨line, 4, some (line + 1)⟩ false name
      (.mk [] [.mk ⟨line, 13, none⟩ "self" none] none [] [] none [])
      [.expr ⟨line + 1, 8, none⟩
        (.attr ⟨line + 1, 8, none⟩ (.name ⟨line + 1, 8, none⟩ "self" .load) member .load)]
      [] none
  ⟨[.classDef ⟨1, 0, some 5⟩ "Store" [] [] [method 2 "load" "rows", method 4 "save" "path"] []]⟩

/-- The renaming that exchanges a method and the member that it uses. -/
def exchange : Renaming := .swap "load" "rows" (by decide) (by decide)

/-- The report on the class follows the exchange. -/
theorem reportsOn_exchanged :
    (CohesionAnalysis.reportsOn ⟨none, some ⟨30, 1⟩, Rounding.exact⟩
        (twoMethods.edited exchange.edit).tree).map (fun report =>
          (report.name, report.components.map (·.memberNames))) =
      [("Store", [["rows"], ["save"]])] := by
  rw [reportsOn_renamed]
  decide +kernel

end Cohesion

end DesignLint
