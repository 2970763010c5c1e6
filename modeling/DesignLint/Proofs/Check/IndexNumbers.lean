import DesignLint.Check.Literals
import DesignLint.Proofs.Check.ConditionOperands

/-!
# Numbers in indexes

A number is a literal together with the sign in front of it. The check takes every number of a
module once. A number that is a whole index, or a bound or the step of a slice, needs no name. A
number that shares an index with others stands right below the tuple that they form, which is the
index itself, and needs a name like any other number.
-/

namespace DesignLint.Check

open Syntax Cohesion

/-! ## Numbers by their places -/

/-- The number that an expression is: a literal, or a literal behind a sign. -/
def numberOf? : Expr → Option LiteralValue
  | .constant _ value _ => LiteralValue.ofConstant? value
  | .unaryOp _ .uAdd (.constant _ value _) => LiteralValue.ofConstant? value
  | .unaryOp _ .uSub (.constant _ value _) => (LiteralValue.ofConstant? value).map .neg
  | _ => none

/-- Whether a place is a literal right behind a sign: it is a part of a number then. -/
def isBehindSign (place : SyntaxPlace) : Bool :=
  (exprAt? place).any isLiteralPart && (place.context.head?.bind signOf).isSome

/-- The number at a place. -/
def numberAt? (place : SyntaxPlace) : Option LiteralValue :=
  if isBehindSign place then none else (exprAt? place).bind numberOf?

/-- The number at a place with what stands right above it. -/
def literalAt? (place : SyntaxPlace) : Option Literal :=
  (numberAt? place).map fun value => ⟨place.tree, value, place.context.head?⟩

/-- A part of a construct that is used as an index: the index of a subscript, or a bound or the
step of a slice. -/
inductive Indexes : Node → SyntaxTree → Prop where
  | index (position : Position) (value index : Expr) (context : Context) :
      Indexes (.expr (.subscript position value index context)) (index.tree .index)
  | lower (position : Position) (lower : Expr) (upper step : Option Expr) :
      Indexes (.expr (.slice position (some lower) upper step)) (lower.tree .bound)
  | upper (position : Position) (lower : Option Expr) (upper : Expr) (step : Option Expr) :
      Indexes (.expr (.slice position lower (some upper) step)) (upper.tree .bound)
  | step (position : Position) (lower upper : Option Expr) (step : Expr) :
      Indexes (.expr (.slice position lower upper (some step))) (step.tree .bound)

/-- A place is the whole index of a subscript, or a bound or the step of a slice. -/
def IsIndex (place : SyntaxPlace) : Prop :=
  ∃ above, place.around.head? = some above ∧ Indexes above.tree.label.node place.tree

/-- A place is an element of a tuple that is the whole index of a subscript. -/
def IsIndexElement (place : SyntaxPlace) : Prop :=
  ∃ above position elements context element, place.around.head? = some above ∧
    above.tree = (Expr.tuple position elements context).tree .index ∧ IsIndex above ∧
      element ∈ elements ∧ place.tree = element.tree .element

/-- A place is the default of a parameter. -/
def IsDefault (place : SyntaxPlace) : Prop :=
  ∃ above parameters, place.around.head? = some above ∧
    above.tree.label.node = .parameters parameters

/-- The number at a place needs a name. -/
structure NeedsName (options : LiteralOptions) (place : SyntaxPlace) (value : LiteralValue) :
    Prop where
  notZero : value.equals 0 = false
  notOne : value.equals 1 = false
  notIgnored : ∀ number ∈ options.ignore, value.equals number = false
  namesNothing : ∀ above ∈ place.context.head?, definesConstant above = false
  notIndex : options.ignoreArrayIndexes = true → ¬ IsIndex place
  notDefault : options.ignoreDefaultValues = true → ¬ IsDefault place

variable {options : LiteralOptions} {tree : SyntaxTree} {place : SyntaxPlace}

/-! ## The numbers that the check takes -/

/-- A construct is a literal behind a sign. -/
def IsSigned (node : Node) : Prop :=
  ∃ position op operandPosition value kind, (op = .uAdd ∨ op = .uSub) ∧
    node = .expr (.unaryOp position op (.constant operandPosition value kind))

theorem signOf_isSome_iff :
    (signOf tree).isSome = true ↔
      ∃ position op operand, (op = .uAdd ∨ op = .uSub) ∧
        tree.label.node = .expr (.unaryOp position op operand) := by
  constructor
  · intro sign
    unfold signOf at sign
    split at sign
    · exact ⟨_, _, _, .inr rfl, ‹_›⟩
    · exact ⟨_, _, _, .inl rfl, ‹_›⟩
    · cases sign
  · rintro ⟨position, op, operand, rfl | rfl, node⟩ <;> rw [signOf, node] <;> rfl

/-- Only the literal of a signed literal stands right behind a sign. -/
theorem isSigned_of_isBehindSign_child (stands : StandsForSyntax place.tree) {index : Nat}
    {subtree : SyntaxTree} (found : place.tree.children[index]? = some subtree)
    (behind : isBehindSign (place.child index subtree) = true) :
    IsSigned place.tree.label.node := by
  obtain ⟨literal, sign⟩ := Bool.and_eq_true_iff.mp behind
  obtain ⟨position, op, operand, isSign, node⟩ := signOf_isSome_iff.mp sign
  have children : place.tree.children =
      [(Token.unaryOp op).tree .operator, operand.tree .operand] := by
    rw [stands.eq_tree, node, Node.tree, Expr.tree, Tree.children]
  have member := List.mem_of_getElem? found
  rw [children] at member
  obtain ⟨expr, same, isLiteral⟩ := (Option.any_eq_true _ _).mp literal
  rcases List.mem_pair.mp member with rfl | rfl
  · cases same
  · rw [exprAt?, Visit.child, exprOf?_tree] at same
    obtain rfl : operand = expr := Option.some.inj same
    cases operand with
    | constant operandPosition value kind =>
        exact ⟨position, op, operandPosition, value, kind, isSign, node⟩
    | _ => cases isLiteral

/-- The number of a signed literal is found at the literal, and stands at the place of the sign. -/
theorem filterMap_literal?_places_of_isSigned (stands : StandsForSyntax place.tree)
    (signed : IsSigned place.tree.label.node) :
    place.places.filterMap literal? = place.places.filterMap literalAt? := by
  obtain ⟨position, op, operandPosition, value, kind, isSign, node⟩ := signed
  obtain ⟨role, same⟩ : ∃ role, place.tree =
      (Expr.unaryOp position op (.constant operandPosition value kind)).tree role :=
    ⟨_, by rw [stands.eq_tree, node, Node.tree]⟩
  obtain ⟨subtree, address, context⟩ := place
  obtain rfl : subtree = _ := same
  rcases isSign with rfl | rfl <;> cases number : LiteralValue.ofConstant? value <;>
    simp [Visit.places_eq_flatMap, Visit.children, Visit.childrenFrom, Visit.child,
      List.filterMap_cons, Expr.tree, Token.tree, Tree.children, Tree.label, literal?, signOf,
      signedLiteral, literalAt?, numberAt?, isBehindSign, isLiteralPart, exprAt?, exprOf?,
      numberOf?, number]

/-- Where no sign stands, neither here nor right above, a number is a literal. -/
theorem literal?_eq_literalAt? (free : isBehindSign place = false)
    (unsigned : ¬ IsSigned place.tree.label.node) : literal? place = literalAt? place := by
  obtain ⟨⟨⟨role, node⟩, children⟩, address, context⟩ := place
  cases node with
  | expr expr =>
      cases expr with
      | constant position value kind =>
          rw [literalAt?, numberAt?, free]
          cases context with
          | nil => rfl
          | cons above rest =>
              have noSign : signOf above = none := by
                simpa [isBehindSign, exprAt?, exprOf?, isLiteralPart, Tree.label] using free
              simp [literal?, exprAt?, exprOf?, Tree.label, numberOf?, signedLiteral, noSign]
      | unaryOp position op operand =>
          have noNumber : numberOf? (.unaryOp position op operand) = none := by
            unfold numberOf?
            split
            · cases ‹_ = _›
            · cases ‹_ = _›
              exact absurd ⟨_, _, _, _, _, .inl rfl, rfl⟩ unsigned
            · cases ‹_ = _›
              exact absurd ⟨_, _, _, _, _, .inr rfl, rfl⟩ unsigned
            · rfl
          rw [literalAt?, numberAt?]
          simp [literal?, exprAt?, exprOf?, Tree.label, noNumber]
      | _ => simp [literal?, literalAt?, numberAt?, exprAt?, exprOf?, Tree.label, numberOf?]
  | _ => simp [literal?, literalAt?, numberAt?, exprAt?, exprOf?, Tree.label]

theorem filterMap_literal?_places (stands : StandsForSyntax place.tree)
    (free : isBehindSign place = false) :
    place.places.filterMap literal? = place.places.filterMap literalAt? := by
  induction place using Visit.inductionOnChildren with
  | step place inductionHypothesis =>
      -- a sign and its literal are settled together: of the literal alone the statement is false
      by_cases signed : IsSigned place.tree.label.node
      · exact filterMap_literal?_places_of_isSigned stands signed
      · rw [Visit.places_eq_flatMap, List.filterMap_cons, List.filterMap_cons,
          literal?_eq_literalAt? free signed, List.filterMap_flatMap, List.filterMap_flatMap]
        have below : place.children.flatMap (fun child => child.places.filterMap literal?) =
            place.children.flatMap fun child => child.places.filterMap literalAt? := by
          refine List.flatMap_congr fun child member => ?_
          obtain ⟨index, subtree, found, rfl⟩ := Visit.mem_children_iff.mp member
          refine inductionHypothesis _ member
            (stands.isPart_of_mem_children _ (List.mem_of_getElem? found)).1 ?_
          rw [Bool.eq_false_iff]
          exact fun behind => signed (isSigned_of_isBehindSign_child stands found behind)
        rw [below]

theorem literalsOf_eq (stands : StandsForSyntax tree) :
    literalsOf tree = tree.places.filterMap literalAt? := by
  have whole : StandsForSyntax (Visit.whole tree).tree := stands
  exact filterMap_literal?_places whole (by simp [isBehindSign, Visit.whole])

/-! ## The numbers that need a name -/

theorem head?_around_child (place : SyntaxPlace) (index : Nat) (subtree : SyntaxTree) :
    (place.child index subtree).around.head? = some place := by
  rw [Visit.child_around]
  rfl

theorem isIndex_child_iff {index : Nat} {subtree : SyntaxTree} :
    IsIndex (place.child index subtree) ↔ Indexes place.tree.label.node subtree := by
  simp only [IsIndex, head?_around_child, Option.some.injEq, exists_eq_left']
  rfl

/-- A part of a subscript in the role of an index is its whole index, and every part of a slice is
a bound or the step. -/
theorem isIndex_iff_indexes (stands : StandsForSyntax tree) {part : SyntaxTree}
    (member : part ∈ tree.children) (value : LiteralValue) :
    Literal.isIndex ⟨part, value, some tree⟩ = true ↔ Indexes tree.label.node part := by
  rw [stands.eq_tree] at member
  rw [Literal.isIndex, nodeAbove, Option.map_some]
  cases node : tree.label.node with
  | expr expr =>
      cases expr with
      | subscript position value index context =>
          rw [node, Node.tree, Expr.tree, Tree.children, List.mem_cons, List.mem_pair] at member
          constructor
          · intro role
            rcases member with rfl | rfl | rfl
            · simp at role
            · exact .index ..
            · cases role
          · rintro ⟨⟩
            simp
      | slice position lower upper step =>
          rw [node, Node.tree, Expr.tree, Tree.children] at member
          simp only [Expr.optionTree_eq_map, List.mem_append, List.mem_map,
            Option.mem_toList] at member
          refine iff_of_true rfl ?_
          rcases member with (⟨lower, rfl, rfl⟩ | ⟨upper, rfl, rfl⟩) | ⟨step, rfl, rfl⟩
          · exact .lower ..
          · exact .upper ..
          · exact .step ..
      | _ => exact iff_of_false Bool.false_ne_true (by rintro ⟨⟩)
  | _ => exact iff_of_false Bool.false_ne_true (by rintro ⟨⟩)

theorem isIndex_iff (stands : StandsForSyntax tree) (has : tree.HasPlace place)
    (value : LiteralValue) :
    Literal.isIndex ⟨place.tree, value, place.context.head?⟩ = true ↔ IsIndex place := by
  cases has with
  | whole => exact iff_of_false Bool.false_ne_true fun ⟨above, found, _⟩ => by cases found
  | child aboveHas found =>
      rw [isIndex_child_iff]
      exact isIndex_iff_indexes (standsForSyntax_of_hasPlace stands aboveHas)
        (List.mem_of_getElem? found) value

theorem isDefault_iff (has : tree.HasPlace place) (value : LiteralValue) :
    Literal.isDefault ⟨place.tree, value, place.context.head?⟩ = true ↔ IsDefault place := by
  cases has with
  | whole => exact iff_of_false Bool.false_ne_true fun ⟨above, _, found, _⟩ => by cases found
  | @child above index subtree aboveHas found =>
      have head : (above.child index subtree).context.head? = some above.tree := rfl
      simp only [IsDefault, head?_around_child, Option.some.injEq, exists_and_left, exists_eq_left',
        Literal.isDefault, head, nodeAbove, Option.map_some]
      cases above.tree.label.node <;> simp

theorem exempts_eq_false_iff (stands : StandsForSyntax tree) (has : tree.HasPlace place)
    {value : LiteralValue} :
    options.exempts ⟨place.tree, value, place.context.head?⟩ = false ↔
      NeedsName options place value := by
  have index := not_congr (isIndex_iff stands has value)
  have default := not_congr (isDefault_iff has value)
  rw [Bool.not_eq_true] at index default
  simp only [LiteralOptions.exempts, Bool.or_eq_false_iff, Bool.and_eq_false_imp, index, default,
    List.any_eq_false, Option.any_eq_false, Bool.not_eq_true]
  constructor
  · rintro ⟨⟨⟨⟨⟨notZero, notOne⟩, notIgnored⟩, namesNothing⟩, notIndex⟩, notDefault⟩
    exact ⟨notZero, notOne, notIgnored, namesNothing, notIndex, notDefault⟩
  · rintro ⟨notZero, notOne, notIgnored, namesNothing, notIndex, notDefault⟩
    exact ⟨⟨⟨⟨⟨notZero, notOne⟩, notIgnored⟩, namesNothing⟩, notIndex⟩, notDefault⟩

/-- Whether a number at a place needs a name. -/
def showsNumber (options : LiteralOptions) (place : SyntaxPlace) : Bool :=
  (literalAt? place).any fun number => !options.exempts number

/-- The places of the numbers that need a name, in the order of the text. -/
def unnamedPlaces (options : LiteralOptions) (tree : SyntaxTree) : List SyntaxPlace :=
  tree.places.filter (showsNumber options)

theorem showsNumber_iff (stands : StandsForSyntax tree) (has : tree.HasPlace place) :
    showsNumber options place = true ↔
      ∃ value, numberAt? place = some value ∧ NeedsName options place value := by
  rw [showsNumber, literalAt?, Option.any_map, Option.any_eq_true]
  refine exists_congr fun value => and_congr_right fun _ => ?_
  rw [Bool.not_eq_true', exempts_eq_false_iff stands has]

theorem mem_unnamedPlaces_iff (stands : StandsForSyntax tree) :
    place ∈ unnamedPlaces options tree ↔
      tree.HasPlace place ∧
        ∃ value, numberAt? place = some value ∧ NeedsName options place value := by
  rw [unnamedPlaces, List.mem_filter, Tree.mem_places_iff]
  exact and_congr_right fun has => showsNumber_iff stands has

theorem exists_exprAt?_of_numberAt? {value : LiteralValue} (found : numberAt? place = some value) :
    ∃ number, exprAt? place = some number := by
  unfold numberAt? at found
  split at found
  · cases found
  · obtain ⟨number, isNumber, -⟩ := Option.bind_eq_some_iff.mp found
    exact ⟨number, isNumber⟩

/-- The check takes the numbers that need a name one after the other. -/
theorem unnamedNumbers_eq (stands : StandsForSyntax tree) :
    unnamedNumbers options tree =
      ((unnamedPlaces options tree).filterMap exprAt?).mapM literalViolation := by
  rw [unnamedNumbers, literalsOf_eq stands, unnamedPlaces, List.filter_filterMap,
    List.filterMap_filterMap, List.filterMap_filter]
  refine congrArg (List.mapM literalViolation) (List.filterMap_congr fun place _ => ?_)
  rw [showsNumber, literalAt?]
  cases numberAt? place with
  | none => rfl
  | some value =>
      rw [Option.map_some, Option.any_some, Option.filter_some]
      split
      · rfl
      · rfl

/-! ## What the check reports -/

/-- The violation by a number. -/
structure ShowsNumber (number : Expr) (violation : Violation) : Prop where
  ruleId : violation.ruleId = .magNumber
  lineStart : violation.lineStart = number.position.line
  lineEnd : violation.lineEnd = number.position.lastLine
  column : violation.column = number.position.column
  symbol : violation.symbol = placeSymbol number.position
  message : violation.message = "Magic number \"" ++ violation.snippet ++
    "\" is discouraged. Consider using a named constant instead."
  snippet : number.sourceText = .ok violation.snippet
  details : violation.details = [("value", .string violation.snippet)]

/-- The violation by the number at a place. -/
def ReportsNumber (place : SyntaxPlace) (violation : Violation) : Prop :=
  ∃ number, exprAt? place = some number ∧ ShowsNumber number violation

theorem showsNumber_of_literalViolation {number : Expr} {violation : Violation}
    (made : literalViolation number = .ok violation) : ShowsNumber number violation := by
  obtain ⟨text, written, made⟩ := bind_eq_ok_iff.mp made
  cases made
  exact ⟨rfl, rfl, rfl, rfl, rfl, rfl, written, rfl⟩

theorem exists_literalViolation_iff {number : Expr} :
    (∃ violation, literalViolation number = .ok violation) ↔
      ∃ text, number.sourceText = .ok text :=
  exists_bind_pure_eq_ok_iff

theorem exists_exprAt?_of_mem_unnamedPlaces (stands : StandsForSyntax tree)
    (member : place ∈ unnamedPlaces options tree) : ∃ number, exprAt? place = some number := by
  obtain ⟨-, value, found, -⟩ := (mem_unnamedPlaces_iff stands).mp member
  exact exists_exprAt?_of_numberAt? found

theorem exists_unnamedNumbers_iff (stands : StandsForSyntax tree) :
    (∃ violations, unnamedNumbers options tree = .ok violations) ↔
      ∀ place ∈ unnamedPlaces options tree, ∀ number, exprAt? place = some number →
        ∃ text, number.sourceText = .ok text := by
  simp only [unnamedNumbers_eq stands, exists_mapM_eq_ok_iff, exists_literalViolation_iff,
    List.mem_filterMap]
  constructor
  · intro written place member number shown
    exact written number ⟨place, member, shown⟩
  · rintro written number ⟨place, member, shown⟩
    exact written place member number shown

theorem unnamedNumbers_reports (stands : StandsForSyntax tree) {violations : List Violation}
    (found : unnamedNumbers options tree = .ok violations) :
    List.Forall₂ ReportsNumber (unnamedPlaces options tree) violations := by
  rw [unnamedNumbers_eq stands] at found
  refine (forall₂_of_filterMap (fun place => exists_exprAt?_of_mem_unnamedPlaces stands)
    (forall₂_of_mapM_eq_ok found)).imp ?_
  rintro place violation ⟨number, shown, made⟩
  exact ⟨number, shown, showsNumber_of_literalViolation made⟩

/-- What it means that the check reports the numbers that need a name, if indexes need none: the
numbers that share an index with others need one. -/
structure ReportsUnnamedNumbers (options : LiteralOptions) (module : Module) : Prop where
  listed : ∀ place, place ∈ unnamedPlaces options module.tree ↔
    module.tree.HasPlace place ∧
      ∃ value, numberAt? place = some value ∧ NeedsName options place value
  once : ((unnamedPlaces options module.tree).map (·.address)).Nodup
  succeeds : (∃ violations, unnamedNumbers options module.tree = .ok violations) ↔
    ∀ place ∈ unnamedPlaces options module.tree, ∀ number, exprAt? place = some number →
      ∃ text, number.sourceText = .ok text
  reports : ∀ violations, unnamedNumbers options module.tree = .ok violations →
    List.Forall₂ ReportsNumber (unnamedPlaces options module.tree) violations
  index : ∀ place, IsIndex place → place ∉ unnamedPlaces options module.tree
  indexElement : ∀ place value, module.tree.HasPlace place → IsIndexElement place →
    numberAt? place = some value →
      (place ∈ unnamedPlaces options module.tree ↔ value.equals 0 = false ∧
        value.equals 1 = false ∧ ∀ number ∈ options.ignore, value.equals number = false)

theorem head?_context_of_around {above : SyntaxPlace} (nearest : place.around.head? = some above) :
    place.context.head? = some above.tree := by
  obtain ⟨subtree, address, context⟩ := place
  cases context with
  | nil => cases nearest
  | cons outer rest =>
      cases nearest
      rfl

/-- What stands right above an element of an index is a tuple: neither a subscript nor a slice, no
definition, and no parameters. -/
theorem needsName_of_isIndexElement {value : LiteralValue} (element : IsIndexElement place)
    (notZero : value.equals 0 = false) (notOne : value.equals 1 = false)
    (notIgnored : ∀ number ∈ options.ignore, value.equals number = false) :
    NeedsName options place value := by
  obtain ⟨above, position, elements, context, -, nearest, same, -, -, -⟩ := element
  have node : above.tree.label.node = .expr (.tuple position elements context) := by
    rw [same, Expr.label_tree]
  refine ⟨notZero, notOne, notIgnored, ?namesNothing, ?notIndex, ?notDefault⟩
  case namesNothing =>
    rintro outer found
    rw [head?_context_of_around nearest, Option.mem_some_iff] at found
    rw [← found, definesConstant, node]
  case notIndex =>
    rintro - ⟨outer, found, indexes⟩
    obtain rfl := Option.some.inj (nearest.symm.trans found)
    rw [node] at indexes
    cases indexes
  case notDefault =>
    rintro - ⟨outer, parameters, found, isParameters⟩
    obtain rfl := Option.some.inj (nearest.symm.trans found)
    rw [node] at isParameters
    cases isParameters

/-- The check reports every number that needs a name once, or fails because one of them has no
source text. A number that is an index needs none, and one beside others in an index does. -/
theorem unnamedNumbers_reportsUnnamedNumbers (options : LiteralOptions) (module : Module)
    (asked : options.ignoreArrayIndexes = true) : ReportsUnnamedNumbers options module where
  listed _ := mem_unnamedPlaces_iff (.module module)
  once :=
    module.tree.nodup_map_address_filter_places (showsNumber options)
  succeeds := exists_unnamedNumbers_iff (.module module)
  reports _ found := unnamedNumbers_reports (.module module) found
  index place isIndex member := by
    obtain ⟨-, value, -, needs⟩ := (mem_unnamedPlaces_iff (.module module)).mp member
    exact needs.notIndex asked isIndex
  indexElement place value has element found := by
    rw [mem_unnamedPlaces_iff (.module module)]
    constructor
    · rintro ⟨-, other, same, needs⟩
      obtain rfl := Option.some.inj (found.symm.trans same)
      exact ⟨needs.notZero, needs.notOne, needs.notIgnored⟩
    · rintro ⟨notZero, notOne, notIgnored⟩
      exact ⟨has, value, found, needsName_of_isIndexElement element notZero notOne notIgnored⟩

/-- A part of a grid: the rows from the second to the fifth, and the fourth column from the end. -/
def gridModule : Module :=
  ⟨[.assign ⟨1, 0, some 1⟩ [.name ⟨1, 0, some 1⟩ "cells" .store]
    (.subscript ⟨1, 8, some 1⟩ (.name ⟨1, 8, some 1⟩ "grid" .load)
      (.tuple ⟨1, 13, some 1⟩
        [.slice ⟨1, 13, some 1⟩ (some (.constant ⟨1, 13, some 1⟩ (.int 2) none))
          (some (.constant ⟨1, 15, some 1⟩ (.int 5) none)) none,
        .unaryOp ⟨1, 18, some 1⟩ .uSub (.constant ⟨1, 19, some 1⟩ (.int 4) none)] .load) .load)]⟩

/-- The rows need no name, and the column needs one. -/
theorem unnamedNumbers_gridModule :
    (⟨[], true, true⟩ : LiteralOptions).ignoreArrayIndexes = true ∧
      ReportsUnnamedNumbers ⟨[], true, true⟩ gridModule ∧
        (unnamedPlaces ⟨[], true, true⟩ gridModule.tree).map numberAt? =
          [some (.real (.int (-4)))] ∧
          (unnamedNumbers ⟨[], true, true⟩ gridModule.tree).map (List.map (·.snippet)) =
            .ok ["-4"] :=
  ⟨rfl, unnamedNumbers_reportsUnnamedNumbers ⟨[], true, true⟩ gridModule rfl, by decide, by rfl⟩

end DesignLint.Check
