import DesignLint.Check.Nesting
import DesignLint.Proofs.Check.Related
import DesignLint.Proofs.Cohesion.Enclosure
import DesignLint.Proofs.Number.Order
import DesignLint.Proofs.Syntax.Edited
import DesignLint.Proofs.Syntax.OwnScope

/-!
# Depth of control statements

The check carries a depth down the tree. The depth of a statement is also told by the way
out from it alone: it is the number of control statements up to the nearest function, a
branch written as `elif` not counted. So what is reported inside a function depends on the
function only, and not on what stands around it.
-/

namespace DesignLint.Check

open Syntax Cohesion

/-! ## Depth by the way out -/

/-- The kinds of the statements that add a level. -/
def controlKinds : List String :=
  ["If", "For", "AsyncFor", "While", "With", "AsyncWith", "Try", "TryStar", "Match"]

/-- The kinds of the constructs that start at level zero again. -/
def functionKinds : List String := ["FunctionDef", "AsyncFunctionDef", "Lambda"]

/-- Whether a place is a function definition or a lambda. -/
def isFunctionPlace (place : SyntaxPlace) : Bool :=
  functionKinds.contains place.tree.label.node.kindName

/-- Whether a place is the only alternative of the `if` right above it, and an `if` that
starts in the same column. -/
def isElif (place : SyntaxPlace) : Bool :=
  match nodeAbove place.context.head? with
  | some (.stmt (.ifStmt outer _ _ [.ifStmt position _ _ _])) =>
    place.tree.label.role == .orElse && position.column == outer.column
  | _ => false

/-- Whether a place is a control statement that is not written as `elif`. -/
def addsLevel (place : SyntaxPlace) : Bool :=
  controlKinds.contains place.tree.label.node.kindName && !isElif place

/-- The number of places that add a level before the first function on a way out. -/
def levelsOn (path : List SyntaxPlace) : Nat :=
  (path.takeWhile fun place => !isFunctionPlace place).countP addsLevel

/-- The depth of a place: the places that add a level from there out to the nearest
function, or to the module. -/
def nestingDepth (place : SyntaxPlace) : Nat := levelsOn place.path

/-- Whether a place adds a level beyond the limit. -/
def isTooDeep (options : NestingOptions) (place : SyntaxPlace) : Bool :=
  addsLevel place && options.maxDepth.lt (.int (nestingDepth place))

/-- The places from a place on that add a level beyond the limit, in the order of the text. -/
def deepPlaces (options : NestingOptions) (place : SyntaxPlace) : List SyntaxPlace :=
  place.places.filter (isTooDeep options)

variable {tree : SyntaxTree} {place inner function : SyntaxPlace}

theorem levelsOn_cons (place : SyntaxPlace) (outer : List SyntaxPlace) :
    levelsOn (place :: outer) =
      if isFunctionPlace place then 0
      else if addsLevel place then levelsOn outer + 1 else levelsOn outer := by
  cases function : isFunctionPlace place with
  | true => simp [levelsOn, function]
  | false => cases adds : addsLevel place <;> simp [levelsOn, function, adds]

/-- The depth at a place, from the depth around it. -/
theorem nestingDepth_eq (place : SyntaxPlace) :
    nestingDepth place =
      if isFunctionPlace place then 0
      else if addsLevel place then levelsOn place.around + 1 else levelsOn place.around :=
  levelsOn_cons place place.around

/-- The depth around a child is the depth at the place above. -/
theorem levelsOn_child_around (index : Nat) (subtree : SyntaxTree) :
    levelsOn (place.child index subtree).around = nestingDepth place := by
  rw [Visit.child_around, nestingDepth]

theorem mem_deepPlaces_iff {options : NestingOptions} {outer : SyntaxPlace}
    (has : tree.HasPlace outer) :
    place ∈ deepPlaces options outer ↔
      tree.HasPlace place ∧ outer ∈ place.path ∧ addsLevel place = true ∧
        options.maxDepth.lt (.int (nestingDepth place)) = true := by
  have listed : place ∈ outer.places ↔ tree.HasPlace place ∧ outer ∈ place.path :=
    ⟨has.of_mem_places, fun ⟨placeHas, on⟩ => placeHas.mem_places_of_mem_path on⟩
  rw [deepPlaces, List.mem_filter, isTooDeep, Bool.and_eq_true, listed, and_assoc]

/-! ## Kinds -/

/-- The check tells by constructors what the names of the kinds tell. -/
theorem kinds_eq (tree : SyntaxTree) :
    isControl tree = controlKinds.contains tree.label.node.kindName ∧
      startsFunction tree = functionKinds.contains tree.label.node.kindName := by
  obtain ⟨⟨role, node⟩, children⟩ := tree
  cases node with
  | stmt stmt =>
      cases stmt with
      | functionDef _ isAsync => cases isAsync <;> exact ⟨rfl, rfl⟩
      | forStmt _ isAsync => cases isAsync <;> exact ⟨rfl, rfl⟩
      | withStmt _ isAsync => cases isAsync <;> exact ⟨rfl, rfl⟩
      | tryStmt _ isStar => cases isStar <;> exact ⟨rfl, rfl⟩
      | _ => exact ⟨rfl, rfl⟩
  | expr expr => cases expr <;> exact ⟨rfl, rfl⟩
  | pattern pattern => cases pattern <;> exact ⟨rfl, rfl⟩
  | token token =>
      cases token with
      | context context => cases context <;> exact ⟨rfl, rfl⟩
      | boolOp op => cases op <;> exact ⟨rfl, rfl⟩
      | binOp op => cases op <;> exact ⟨rfl, rfl⟩
      | unaryOp op => cases op <;> exact ⟨rfl, rfl⟩
      | compareOp op => cases op <;> exact ⟨rfl, rfl⟩
  | _ => exact ⟨rfl, rfl⟩

theorem startsFunction_eq (place : SyntaxPlace) :
    startsFunction place.tree = isFunctionPlace place :=
  (kinds_eq place.tree).2

/-! ## Branches written as `elif` -/

/-- The parts of an `if` in the role of its alternative are the statements of the alternative. -/
theorem exists_mem_orElse_of_role {position : Position} {test : Expr} {body orElse : List Stmt}
    {role : Role} {part : SyntaxTree}
    (member : part ∈ ((Stmt.ifStmt position test body orElse).tree role).children)
    (inOrElse : part.label.role = .orElse) : ∃ stmt ∈ orElse, part = stmt.tree .orElse := by
  simp only [Stmt.tree, Tree.children, Stmt.trees_eq_map, List.mem_append, List.mem_cons,
    List.mem_map] at member
  rcases member with (rfl | ⟨stmt, -, rfl⟩) | ⟨stmt, within, rfl⟩
  · simp at inOrElse
  · simp at inOrElse
  · exact ⟨stmt, within, rfl⟩

/-- Below an `if`, the check looks at the tree in the alternative, and this one at the
alternative itself. -/
theorem continuesChain_child {outer : Position} {test : Expr} {body orElse : List Stmt}
    {index : Nat} {subtree : SyntaxTree}
    (node : place.tree.label.node = .stmt (.ifStmt outer test body orElse))
    (stands : StandsForSyntax place.tree) (member : subtree ∈ place.tree.children) :
    continuesChain subtree (some place.tree) = isElif (place.child index subtree) := by
  have above : nodeAbove (place.child index subtree).context.head? =
      some (.stmt (.ifStmt outer test body orElse)) := congrArg some node
  rw [isElif, above, continuesChain, nodeAbove, Option.map_some, node]
  by_cases inOrElse : subtree.label.role = .orElse
  · rw [stands.eq_tree, node] at member
    obtain ⟨stmt, within, rfl⟩ := exists_mem_orElse_of_role member inOrElse
    rw [Stmt.label_tree]
    match orElse, within with
    | [only], within =>
        obtain rfl := List.mem_singleton.mp within
        cases stmt <;> simp [Visit.child]
    | first :: second :: rest, _ =>
        cases stmt <;> simp
  · have differs : (subtree.label.role == .orElse) = false := beq_false_of_ne inOrElse
    have childDiffers : ((place.child index subtree).tree.label.role == .orElse) = false := differs
    rw [differs, childDiffers]
    split <;> split <;> simp_all

/-- Whether a control statement adds a level is told alike by the check and by its place. -/
theorem continuesChain_eq_isElif (stands : StandsForSyntax tree) (has : tree.HasPlace place) :
    continuesChain place.tree place.context.head? = isElif place := by
  cases has with
  | whole => simp [Visit.whole, isElif, continuesChain, nodeAbove]
  | @child above index subtree aboveHas found =>
      have standsAbove := standsForSyntax_of_hasPlace stands aboveHas
      change continuesChain subtree (some above.tree) = isElif (above.child index subtree)
      cases node : above.tree.label.node with
      | stmt stmt =>
          cases stmt with
          | ifStmt outer test body orElse =>
              exact continuesChain_child node standsAbove (List.mem_of_getElem? found)
          | _ => simp [isElif, continuesChain, nodeAbove, Visit.child, node]
      | _ => simp [isElif, continuesChain, nodeAbove, Visit.child, node]

/-! ## The depth that the check carries -/

theorem deepens_eq_addsLevel (stands : StandsForSyntax tree) (has : tree.HasPlace place) :
    deepens place.tree place.context.head? = addsLevel place := by
  rw [deepens, (kinds_eq place.tree).1, continuesChain_eq_isElif stands has, addsLevel]

/-- The depth that the check carries to a place, and the tree above the place. -/
def nestingAt (place : SyntaxPlace) : Nesting where
  depth := (place.around.takeWhile fun outer => !startsFunction outer.tree).countP
    fun outer => deepens outer.tree outer.context.head?
  parent := place.context.head?

/-- What the check hands down to a child is what the child has around it. -/
theorem nestingAt_child (place : SyntaxPlace) (index : Nat) (subtree : SyntaxTree) :
    nestingAt (place.child index subtree) =
      ⟨(nestingAt place).depthOf place.tree, some place.tree⟩ := by
  have parent : (place.child index subtree).context.head? = some place.tree := rfl
  rw [nestingAt, parent, Visit.child_around, Visit.path, Nesting.depthOf]
  cases starts : startsFunction place.tree with
  | true => simp [starts]
  | false => cases adds : deepens place.tree place.context.head? <;> simp [nestingAt, starts, adds]

theorem nestingVisits_eq_map_places (tree : SyntaxTree) :
    nestingVisits tree =
      tree.places.map fun place => ⟨place.tree, place.address, nestingAt place⟩ := by
  have start : (⟨0, none⟩ : Nesting) = nestingAt (.whole tree) := rfl
  rw [nestingVisits, start]
  exact Visit.visits_eq_map_places nestingAt_child (.whole tree)

/-- At the places of a module the check carries the depth of the place. -/
theorem depthOf_nestingAt (stands : StandsForSyntax tree) (has : tree.HasPlace place) :
    (nestingAt place).depthOf place.tree = nestingDepth place := by
  have around : (nestingAt place).depth = levelsOn place.around := by
    have same (outer : SyntaxPlace) (outside : outer ∈ place.around) :
        deepens outer.tree outer.context.head? = addsLevel outer :=
      deepens_eq_addsLevel stands (has.around outside)
    simp only [nestingAt, levelsOn, startsFunction_eq]
    exact List.countP_congr fun outer kept => by
      rw [same outer ((List.takeWhile_subset _) kept)]
  have parent : (nestingAt place).parent = place.context.head? := rfl
  rw [Nesting.depthOf, parent, deepens_eq_addsLevel stands has, startsFunction_eq, around,
    nestingDepth_eq]

/-! ## What the check reports -/

/-- The violation for a place that adds a level too many. -/
structure ReportsDepth (options : NestingOptions) (place : SyntaxPlace) (violation : Violation) :
    Prop where
  ruleId : violation.ruleId = .cpxNesting
  placed : ∃ position, place.tree.label.node.position? = some position ∧
    violation.lineStart = position.line ∧ violation.lineEnd = position.lastLine ∧
    violation.column = position.column ∧ violation.symbol = placeSymbol position
  message : violation.message = "Nesting depth of " ++ toString (nestingDepth place) ++
    " exceeds maximum allowed depth of " ++ options.maxDepth.text ++
    ". Consider refactoring with guard clauses or extracting to helper functions."
  snippet : violation.snippet = place.tree.label.node.kindName.toLower ++ "  # depth=" ++
    toString (nestingDepth place)
  details : violation.details = [("depth", .nat (nestingDepth place))]

/-- Only statements are of the kinds that add a level. -/
theorem exists_stmt_of_addsLevel (adds : addsLevel place = true) :
    ∃ stmt, place.tree.label.node = .stmt stmt := by
  have control : isControl place.tree = true := by
    rw [(kinds_eq place.tree).1]
    exact (Bool.and_eq_true_iff.mp adds).1
  rw [isControl] at control
  cases node : place.tree.label.node with
  | stmt stmt => exact ⟨stmt, rfl⟩
  | _ => simp [node] at control

/-- The check makes a violation of a place that adds a level too many, and of no other. -/
theorem nestingViolation?_nestingAt (options : NestingOptions) (stands : StandsForSyntax tree)
    (has : tree.HasPlace place) :
    if isTooDeep options place then
      ∃ violation,
        nestingViolation? options ⟨place.tree, place.address, nestingAt place⟩ = some violation ∧
          ReportsDepth options place violation
    else nestingViolation? options ⟨place.tree, place.address, nestingAt place⟩ = none := by
  have parent : (nestingAt place).parent = place.context.head? := rfl
  simp only [nestingViolation?, depthOf_nestingAt stands has, parent,
    deepens_eq_addsLevel stands has]
  split
  · rename_i deep
    obtain ⟨stmt, node⟩ := exists_stmt_of_addsLevel (Bool.and_eq_true_iff.mp deep).1
    simp only [node]
    refine ⟨_, if_pos deep, rfl, ⟨stmt.position, by rw [node, Node.position?], rfl, rfl, rfl, rfl⟩,
      ?_, by rw [node]; rfl, rfl⟩
    simp [String.append_assoc]
  · rename_i shallow
    split
    · exact if_neg shallow
    · rfl

theorem deepNesting_reportsDepth (options : NestingOptions) (stands : StandsForSyntax tree) :
    List.Forall₂ (ReportsDepth options) (deepPlaces options (.whole tree))
      (deepNesting options tree) := by
  rw [deepNesting, nestingVisits_eq_map_places, List.filterMap_map]
  exact forall₂_filter_filterMap fun place listed =>
    nestingViolation?_nestingAt options stands (Tree.hasPlace_of_mem_places listed)

/-! ## The same function elsewhere -/

/-- An edit after which two constructs start in the same column just when they did before:
code is moved and indented as a whole. -/
def KeepsColumns (edit : Edit) : Prop :=
  ∀ first second : Position,
    (edit.position first).column = (edit.position second).column ↔ first.column = second.column

/-- A place and the one with the edited tree, on the same level. -/
structure SameLevel (edit : Edit) (before after : SyntaxPlace) : Prop where
  tree : after.tree = before.tree.map (Occurrence.edited edit)
  adds : addsLevel after = addsLevel before
  depth : nestingDepth after = nestingDepth before

variable {edit : Edit} {before after : SyntaxPlace}

theorem isFunctionPlace_eq_of_tree (same : after.tree = before.tree.map (Occurrence.edited edit)) :
    isFunctionPlace after = isFunctionPlace before := by
  rw [isFunctionPlace, isFunctionPlace, same, Tree.label_map, Occurrence.node_edited,
    Node.kindName_edited]

/-- A branch stays one when its `if` is edited with it. -/
theorem isElif_child_edited (keeps : KeepsColumns edit)
    (same : after.tree = before.tree.map (Occurrence.edited edit)) (index : Nat)
    (subtree : SyntaxTree) :
    isElif (after.child index (subtree.map (Occurrence.edited edit))) =
      isElif (before.child index subtree) := by
  have above : nodeAbove (after.child index (subtree.map (Occurrence.edited edit))).context.head? =
      some (before.tree.label.node.edited edit) := by
    have label := congrArg Tree.label same
    rw [Tree.label_map] at label
    exact congrArg (fun label => some label.node) label
  have aboveBefore : nodeAbove (before.child index subtree).context.head? =
      some before.tree.label.node := rfl
  rw [isElif, isElif, above, aboveBefore]
  cases before.tree.label.node with
  | stmt stmt =>
      cases stmt with
      | ifStmt outer test body orElse =>
          match orElse with
          | [] => rfl
          | first :: second :: rest => cases first <;> rfl
          | [only] =>
              cases only with
              | ifStmt position test body orElse =>
                  have columns : ((edit.position position).column == (edit.position outer).column) =
                      (position.column == outer.column) :=
                    Bool.eq_iff_iff.mpr (by simpa using keeps position outer)
                  have role : (after.child index
                      (subtree.map (Occurrence.edited edit))).tree.label.role =
                        (before.child index subtree).tree.label.role := by
                    simp [Visit.child]
                  simp only [Node.edited, Stmt.edited, Stmt.editedAll]
                  rw [role, columns]
              | _ => rfl
      | _ => rfl
  | _ => rfl

/-- Right below a function no branch continues another one. -/
theorem isElif_child_of_isFunctionPlace (function : isFunctionPlace place = true) (index : Nat)
    (subtree : SyntaxTree) : isElif (place.child index subtree) = false := by
  have above : nodeAbove (place.child index subtree).context.head? =
      some place.tree.label.node := rfl
  rw [isFunctionPlace] at function
  rw [isElif, above]
  split
  · rename_i same
    rw [Option.some.inj same, Node.kindName, Stmt.kindName] at function
    exact absurd function (by decide)
  · rfl

/-- What is around a child decides its level, together with its tree. -/
theorem SameLevel.child {index : Nat} {subtree : SyntaxTree}
    (elif : isElif (after.child index (subtree.map (Occurrence.edited edit))) =
      isElif (before.child index subtree))
    (depth : nestingDepth after = nestingDepth before) :
    SameLevel edit (before.child index subtree)
      (after.child index (subtree.map (Occurrence.edited edit))) := by
  have adds : addsLevel (after.child index (subtree.map (Occurrence.edited edit))) =
      addsLevel (before.child index subtree) := by
    rw [addsLevel, addsLevel, elif]
    simp [Visit.child]
  have function : isFunctionPlace (after.child index (subtree.map (Occurrence.edited edit))) =
      isFunctionPlace (before.child index subtree) := isFunctionPlace_eq_of_tree rfl
  refine ⟨rfl, adds, ?_⟩
  rw [nestingDepth_eq, nestingDepth_eq, adds, levelsOn_child_around, levelsOn_child_around, depth,
    function]

/-- What is listed below two places with the same children is related when it is related child
by child. -/
theorem forall₂_flatMap_children {R : SyntaxPlace → SyntaxPlace → Prop}
    {listed : SyntaxPlace → List SyntaxPlace} {relabel : Occurrence → Occurrence}
    (same : after.tree.children = before.tree.children.map (Tree.map relabel))
    (each : ∀ index subtree, before.tree.children[index]? = some subtree →
      List.Forall₂ R (listed (before.child index subtree))
        (listed (after.child index (subtree.map relabel)))) :
    List.Forall₂ R (before.children.flatMap listed) (after.children.flatMap listed) := by
  rw [Visit.children, Visit.children, Visit.childrenFrom, Visit.childrenFrom, same,
    List.zipIdx_map, List.flatMap_map, List.map_map, List.flatMap_map]
  exact forall₂_flatMap fun item numbered =>
    each item.2 item.1 (List.mem_zipIdx_iff_getElem?.mp numbered)

/-- Below places on the same level all places are on the same level. -/
theorem SameLevel.forall₂_places (keeps : KeepsColumns edit) (same : SameLevel edit before after) :
    List.Forall₂ (SameLevel edit) before.places after.places := by
  induction before using Visit.inductionOnChildren generalizing after with
  | step before inductionHypothesis =>
      rw [Visit.places_eq_flatMap, Visit.places_eq_flatMap]
      refine .cons same (forall₂_flatMap_children (by rw [same.tree, Tree.children_map]) ?_)
      intro index subtree found
      exact inductionHypothesis _ (Visit.mem_children_iff.mpr ⟨index, subtree, found, rfl⟩)
        (.child (isElif_child_edited keeps same.tree index subtree) same.depth)

theorem nestingDepth_of_isFunctionPlace (function : isFunctionPlace place = true) :
    nestingDepth place = 0 := by
  rw [nestingDepth_eq, if_pos function]

/-- A function does not add a level itself. -/
theorem addsLevel_of_isFunctionPlace (function : isFunctionPlace place = true) :
    addsLevel place = false := by
  rw [isFunctionPlace, functionKinds] at function
  have kind := List.contains_iff_mem.mp function
  rw [addsLevel]
  simp only [List.mem_cons, List.not_mem_nil, or_false] at kind
  rcases kind with kind | kind | kind <;> rw [kind] <;> rfl

/-- What is too deep inside a function is told by the parts of the function alone. -/
theorem forall₂_deepPlaces (options : NestingOptions) (keeps : KeepsColumns edit)
    (first : isFunctionPlace before = true) (second : isFunctionPlace after = true)
    (same : after.tree.children = before.tree.children.map (Tree.map (Occurrence.edited edit))) :
    List.Forall₂ (SameLevel edit) (deepPlaces options before) (deepPlaces options after) := by
  have below : List.Forall₂ (SameLevel edit) (before.children.flatMap Visit.places)
      (after.children.flatMap Visit.places) := by
    refine forall₂_flatMap_children same fun index subtree _ => ?_
    refine SameLevel.forall₂_places keeps (.child ?_ ?_)
    · rw [isElif_child_of_isFunctionPlace first, isElif_child_of_isFunctionPlace second]
    · rw [nestingDepth_of_isFunctionPlace first, nestingDepth_of_isFunctionPlace second]
  have apart {place : SyntaxPlace} (function : isFunctionPlace place = true) :
      ¬ isTooDeep options place = true := by
    simp [isTooDeep, addsLevel_of_isFunctionPlace function]
  rw [deepPlaces, deepPlaces, Visit.places_eq_flatMap, Visit.places_eq_flatMap,
    List.filter_cons_of_neg (apart first), List.filter_cons_of_neg (apart second)]
  exact List.rel_filter (fun _ _ level => by simp only [isTooDeep, level.adds, level.depth])
    below

/-! ## Every statement that stands too deep -/

/-- What it means that violations are those of the control statements beyond a limit. -/
structure ReportsDeepPlaces (options : NestingOptions) (module : Module)
    (violations : List Violation) : Prop where
  each : List.Forall₂ (ReportsDepth options) (deepPlaces options (.whole module.tree)) violations
  listed : ∀ outer, module.tree.HasPlace outer → ∀ place, place ∈ deepPlaces options outer ↔
    module.tree.HasPlace place ∧ outer ∈ place.path ∧ addsLevel place = true ∧
      options.maxDepth.lt (.int (nestingDepth place)) = true
  once : ((deepPlaces options (.whole module.tree)).map (·.address)).Nodup
  exceeds : ∀ limit : Int, options.maxDepth = .int limit →
    ∀ depth : Nat, options.maxDepth.lt (.int depth) = true ↔ limit < depth
  /-- A function has the same violations inside wherever it stands. -/
  inside : ∀ function, module.tree.HasPlace function → isFunctionPlace function = true →
    ∀ (other : Module) (copy : SyntaxPlace), other.tree.HasPlace copy →
      isFunctionPlace copy = true → ∀ edit, KeepsColumns edit →
        copy.tree.children = function.tree.children.map (Tree.map (Occurrence.edited edit)) →
          List.Forall₂ (SameLevel edit) (deepPlaces options function) (deepPlaces options copy)

/-- The check reports every control statement that stands too deep, once and with its depth. -/
theorem deepNesting_reportsDeepPlaces (options : NestingOptions) (module : Module) :
    ReportsDeepPlaces options module (deepNesting options module.tree) where
  each := deepNesting_reportsDepth options (.module module)
  listed _ has _ := mem_deepPlaces_iff has
  once := module.tree.nodup_map_address_filter_places _
  exceeds limit same depth := by
    rw [same]
    exact Number.int_lt_int_iff
  inside function _ isFunction other copy _ isCopy edit keeps same :=
    forall₂_deepPlaces options keeps isFunction isCopy same

end DesignLint.Check
