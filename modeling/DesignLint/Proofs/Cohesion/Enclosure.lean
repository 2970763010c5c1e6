import DesignLint.Cohesion.Analysis
import DesignLint.Proofs.Syntax.Grammar
import DesignLint.Proofs.Syntax.Place

/-!
# Units around a place

Which units a place lies in, read off the tree: those around it, without the units
in whose header it lies. Going to a child either keeps these units or, at the first
place of a header, sets the nearest one aside.
-/

namespace DesignLint.Cohesion

open DesignLint.Syntax

/-- A place in a syntax tree. -/
abbrev SyntaxPlace := Place Occurrence

/-! ## What stands at a place -/

/-- The elements that can stand at the root of a tree: uses of names and of members, and what
lambdas and statements introduce. -/
inductive Element.IsAt (tree : SyntaxTree) : Element → Prop
  | identifier (name : String) (binding : Binding) : IsAt tree (.identifier name binding)
  | memberAccess (receiver member : String) : IsAt tree (.memberAccess receiver member)
  | lambda {position : Position} {parameters : Parameters} {body : Expr}
      (node : tree.label.node = .expr (.lambda position parameters body)) :
    IsAt tree (.function anonymous (linesOf position) none false (defaultsOf tree))
  | function {position : Position} {isAsync : Bool} {name : String} {parameters : Parameters}
      {body : List Stmt} {decorators : List Expr} {returns : Option Expr} {method : Option Method}
      (node : tree.label.node =
        .stmt (.functionDef position isAsync name parameters body decorators returns))
      (sameName : ∀ own ∈ method, own.name = name) :
    IsAt tree (.function name (linesOf position) method true (functionHeader tree))
  | class {position : Position} {name : String} {bases : List Expr} {keywords : List Keyword}
      {body : List Stmt} {decorators : List Expr}
      (node : tree.label.node = .stmt (.classDef position name bases keywords body decorators)) :
    IsAt tree (.class name (linesOf position) (classHeader tree))
  | control {stmt : Stmt} {type : BlockType} (node : tree.label.node = .stmt stmt)
      (notMethod : type ≠ .method) :
    IsAt tree (.controlBlock type (linesOf stmt.position))

/-- Only statements and lambdas introduce units and blocks. -/
theorem isAt_of_elementOf? {tree : SyntaxTree} {parent : Option SyntaxTree} {element : Element}
    (found : elementOf? tree parent = some element) : element.IsAt tree := by
  unfold elementOf? at found
  split at found
  · rename_i stmt node
    cases stmt with
    | functionDef =>
        cases found
        refine .function node ?_
        split <;> simp
    | classDef =>
        cases found
        exact .class node
    | ifStmt | forStmt | whileStmt | matchStmt | tryStmt =>
        cases found
        exact .control node (by decide)
    | _ => cases found
  · rename_i expr node
    unfold exprElement at found
    split at found <;> cases found
    · exact .lambda node
    · exact .identifier _ _
    · exact .memberAccess _ _
  · unfold patternElement at found
    split at found
    · obtain ⟨name, -, rfl⟩ := Option.map_eq_some_iff.mp found
      exact .identifier name .store
    · obtain ⟨name, -, rfl⟩ := Option.map_eq_some_iff.mp found
      exact .identifier name .store
    · cases found
  · cases found
    exact .identifier _ _
  · obtain ⟨name, -, rfl⟩ := Option.map_eq_some_iff.mp found
    exact .identifier name .store
  · split at found <;> cases found
    exact .identifier _ _
  · cases found

/-- The element that stands at a place. -/
def elementAt? (place : SyntaxPlace) : Option Element :=
  elementOf? place.tree place.context.head?

/-- The kind of unit that stands at a place. -/
def kindAt? (place : SyntaxPlace) : Option UnitKind :=
  match elementAt? place with
  | some (.function ..) => some .function
  | some (.class ..) => some .class
  | _ => none

/-- The header of the unit that stands at a place. -/
def headerAt (place : SyntaxPlace) : Header :=
  match elementAt? place with
  | some (.function _ _ _ _ header) => header
  | some (.class _ _ header) => header
  | _ => []

/-- The method that stands at a place: a function directly in the body of a class. -/
def methodAt? (place : SyntaxPlace) : Option Method :=
  match elementAt? place with
  | some (.function _ _ method _ _) => method
  | _ => none

/-- Whether a control statement stands at a place. -/
def isControl (place : SyntaxPlace) : Bool :=
  elementAt? place matches some (.controlBlock ..)

theorem isControl_iff {place : SyntaxPlace} :
    isControl place = true ↔ ∃ type span, elementAt? place = some (.controlBlock type span) := by
  unfold isControl
  split <;> simp_all

/-- The use of a name at a place. A definition uses the name it binds where it stands. -/
def nameAt? (place : SyntaxPlace) : Option (String × Binding) :=
  match elementAt? place with
  | some (.function name _ _ bindsName _) => if bindsName then some (name, .store) else none
  | some (.class name _ _) => some (name, .store)
  | some (.identifier name binding) => some (name, binding)
  | _ => none

/-- The access at a place: the name it goes through and the member. -/
def accessAt? (place : SyntaxPlace) : Option (String × String) :=
  match elementAt? place with
  | some (.memberAccess receiver member) => some (receiver, member)
  | _ => none

/-! ## Units around a place -/

/-- The addresses of the parts of the header of a unit. -/
def headerAddressesAt (unit : SyntaxPlace) : List Address :=
  headerAddresses unit.address (headerAt unit)

/-- Whether a place lies in the header of a unit. -/
def liesInHeader (place unit : SyntaxPlace) : Bool :=
  (headerAddressesAt unit).any fun part => part.isPrefixOf place.address

/-- Whether a unit stands at a place, and another place does not lie in its header. -/
def isUnitAround (place unit : SyntaxPlace) : Bool :=
  (kindAt? unit).isSome && !liesInHeader place unit

/-- Whether a unit stands at a place, and another place lies in its header. -/
def isUnitAside (place unit : SyntaxPlace) : Bool :=
  (kindAt? unit).isSome && liesInHeader place unit

/-- The units that a place lies in, nearest first: those around it without the ones
in whose header it lies. -/
def unitsAround (place : SyntaxPlace) : List SyntaxPlace :=
  place.around.filter (isUnitAround place)

/-- The nearest unit that a place lies in. -/
def homeOf? (place : SyntaxPlace) : Option SyntaxPlace := (unitsAround place).head?

/-! ## Laws of headers -/

theorem mem_childrenAs_iff {role : Role} {tree : SyntaxTree} {index : Nat} {child : SyntaxTree} :
    (index, child) ∈ childrenAs role tree ↔
      tree.children[index]? = some child ∧ child.label.role = role := by
  simp only [childrenAs, List.mem_map, List.mem_filter, beq_iff_eq, Prod.mk.injEq]
  constructor
  · rintro ⟨⟨part, number⟩, ⟨member, role_eq⟩, rfl, rfl⟩
    exact ⟨List.mem_zipIdx_iff_getElem?.mp member, role_eq⟩
  · rintro ⟨found, role_eq⟩
    exact ⟨(child, index), ⟨List.mem_zipIdx_iff_getElem?.mpr found, role_eq⟩, rfl, rfl⟩

/-- A part of a header stands right below its unit, or right below the parameters
or a keyword of its unit. -/
inductive IsHeaderPart (unit : SyntaxTree) : Address → Prop where
  | direct {index : Nat} {part : SyntaxTree} (found : unit.children[index]? = some part)
      (role : part.label.role ∈ [Role.decorator, .base]) : IsHeaderPart unit [index]
  | nested {outer inner : Nat} {holder part : SyntaxTree}
      (foundHolder : unit.children[outer]? = some holder)
      (holderRole : holder.label.role ∈ [Role.parameters, .keyword])
      (found : holder.children[inner]? = some part)
      (role : part.label.role ∈ [Role.default, .keywordDefault, .value]) :
      IsHeaderPart unit [outer, inner]

theorem isHeaderPart_of_mem_headerChildren {role : Role} {unit : SyntaxTree}
    {part : Address × SyntaxTree} (member : part ∈ headerChildren role unit)
    (direct : role ∈ [Role.decorator, .base]) : IsHeaderPart unit part.1 := by
  simp only [headerChildren, List.mem_map, Prod.exists] at member
  obtain ⟨index, child, listed, rfl⟩ := member
  obtain ⟨found, role_eq⟩ := mem_childrenAs_iff.mp listed
  exact .direct found (role_eq ▸ direct)

theorem isHeaderPart_of_mem_headerGrandchildren {outer inner : Role} {unit : SyntaxTree}
    {part : Address × SyntaxTree} (member : part ∈ headerGrandchildren outer inner unit)
    (holds : outer ∈ [Role.parameters, .keyword])
    (nested : inner ∈ [Role.default, .keywordDefault, .value]) : IsHeaderPart unit part.1 := by
  simp only [headerGrandchildren, List.mem_flatMap, List.mem_map, Prod.exists] at member
  obtain ⟨index, holder, listedHolder, next, child, listed, rfl⟩ := member
  obtain ⟨foundHolder, holderRole⟩ := mem_childrenAs_iff.mp listedHolder
  obtain ⟨found, role_eq⟩ := mem_childrenAs_iff.mp listed
  exact .nested foundHolder (holderRole ▸ holds) found (role_eq ▸ nested)

theorem isHeaderPart_of_mem_defaultsOf {unit : SyntaxTree} {part : Address × SyntaxTree}
    (member : part ∈ defaultsOf unit) : IsHeaderPart unit part.1 := by
  rcases List.mem_append.mp member with member | member
  · exact isHeaderPart_of_mem_headerGrandchildren member (by simp) (by simp)
  · exact isHeaderPart_of_mem_headerGrandchildren member (by simp) (by simp)

theorem isHeaderPart_of_mem_functionHeader {unit : SyntaxTree} {part : Address × SyntaxTree}
    (member : part ∈ functionHeader unit) : IsHeaderPart unit part.1 := by
  rcases List.mem_append.mp member with member | member
  · exact isHeaderPart_of_mem_headerChildren member (by simp)
  · exact isHeaderPart_of_mem_defaultsOf member

theorem isHeaderPart_of_mem_classHeader {unit : SyntaxTree} {part : Address × SyntaxTree}
    (member : part ∈ classHeader unit) : IsHeaderPart unit part.1 := by
  rcases List.mem_append.mp member with member | member
  · rcases List.mem_append.mp member with member | member
    · exact isHeaderPart_of_mem_headerChildren member (by simp)
    · exact isHeaderPart_of_mem_headerChildren member (by simp)
  · exact isHeaderPart_of_mem_headerGrandchildren member (by simp) (by simp)

/-- The kind of a unit by the construct that introduces the unit. -/
theorem kindAt?_eq (place : SyntaxPlace) :
    kindAt? place =
      match place.tree.label.node with
      | .stmt (.functionDef ..) => some .function
      | .stmt (.classDef ..) => some .class
      | .expr (.lambda ..) => some .function
      | _ => none := by
  split
  · rename_i node
    simp [kindAt?, elementAt?, elementOf?, node, stmtElement]
  · rename_i node
    simp [kindAt?, elementAt?, elementOf?, node, stmtElement]
  · rename_i node
    simp [kindAt?, elementAt?, elementOf?, node, exprElement]
  · rename_i noFunction noClass noLambda
    unfold kindAt?
    cases found : elementAt? place with
    | none => rfl
    | some element =>
        cases isAt_of_elementOf? found with
        | lambda node => exact absurd node (noLambda _ _ _)
        | function node => exact absurd node (noFunction _ _ _ _ _ _ _)
        | «class» node => exact absurd node (noClass _ _ _ _ _ _)
        | _ => rfl

theorem headerAt_eq_nil_of_kindAt?_eq_none {place : SyntaxPlace} (noUnit : kindAt? place = none) :
    headerAt place = [] := by
  unfold kindAt? at noUnit
  unfold headerAt
  split at noUnit <;> simp_all

theorem methodAt?_eq_none_of_kindAt?_eq_none {place : SyntaxPlace} (noUnit : kindAt? place = none) :
    methodAt? place = none := by
  unfold kindAt? at noUnit
  unfold methodAt?
  split at noUnit <;> simp_all

theorem elementAt?_isSome_of_methodAt? {place : SyntaxPlace} (method : (methodAt? place).isSome) :
    (elementAt? place).isSome = true := by
  unfold methodAt? at method
  split at method <;> simp_all

/-- The header of a unit by the construct that introduces the unit. -/
theorem headerAt_eq (unit : SyntaxPlace) :
    headerAt unit =
      match unit.tree.label.node with
      | .stmt (.functionDef ..) => functionHeader unit.tree
      | .stmt (.classDef ..) => classHeader unit.tree
      | .expr (.lambda ..) => defaultsOf unit.tree
      | _ => [] := by
  split
  · rename_i node
    simp [headerAt, elementAt?, elementOf?, node, stmtElement]
  · rename_i node
    simp [headerAt, elementAt?, elementOf?, node, stmtElement]
  · rename_i node
    simp [headerAt, elementAt?, elementOf?, node, exprElement]
  · apply headerAt_eq_nil_of_kindAt?_eq_none
    rw [kindAt?_eq]
    split <;> grind

/-- A method is a function definition right below a class definition. -/
theorem methodAt?_eq (place : SyntaxPlace) :
    methodAt? place =
      match place.tree.label.node, place.context.head?.map (·.label.node) with
      | .stmt (.functionDef _ _ name parameters _ decorators _), some (.stmt (.classDef ..)) =>
          some ⟨name, selfName parameters decorators, isConstructorName name⟩
      | _, _ => none := by
  split
  · rename_i node parent
    simp [methodAt?, elementAt?, elementOf?, node, stmtElement, parent]
  · rename_i notMethod
    cases node : place.tree.label.node with
    | stmt stmt =>
        cases stmt with
        | functionDef =>
            simp only [methodAt?, elementAt?, elementOf?, node, stmtElement]
            split
            · rename_i parent
              exact (notMethod _ _ _ _ _ _ _ _ _ _ _ _ _ node parent).elim
            · rfl
        | classDef => simp [methodAt?, elementAt?, elementOf?, node, stmtElement]
        | _ => simp [methodAt?_eq_none_of_kindAt?_eq_none, kindAt?_eq, node]
    | expr expr =>
        cases expr with
        | lambda => simp [methodAt?, elementAt?, elementOf?, node, exprElement]
        | _ => simp [methodAt?_eq_none_of_kindAt?_eq_none, kindAt?_eq, node]
    | _ => simp [methodAt?_eq_none_of_kindAt?_eq_none, kindAt?_eq, node]

theorem isHeaderPart_of_mem_headerAt {unit : SyntaxPlace} {part : Address × SyntaxTree}
    (member : part ∈ headerAt unit) : IsHeaderPart unit.tree part.1 := by
  rw [headerAt_eq] at member
  split at member
  · exact isHeaderPart_of_mem_functionHeader member
  · exact isHeaderPart_of_mem_classHeader member
  · exact isHeaderPart_of_mem_defaultsOf member
  · simp at member

/-! ## Headers and the places below them -/

variable {tree : SyntaxTree} {place unit outer : SyntaxPlace}

theorem standsForSyntax_of_hasPlace (stands : StandsForSyntax tree) (has : tree.HasPlace place) :
    StandsForSyntax place.tree := by
  induction has with
  | whole => exact stands
  | child _ found inductionHypothesis =>
      exact (inductionHypothesis.isPart_of_mem_children _ (List.mem_of_getElem? found)).1

/-- A child of a place fits there. -/
theorem fits_of_child (stands : StandsForSyntax tree) (has : tree.HasPlace place) {index : Nat}
    {subtree : SyntaxTree} (found : place.tree.children[index]? = some subtree) :
    Fits place.tree.label.node subtree.label :=
  ((standsForSyntax_of_hasPlace stands has).isPart_of_mem_children _
    (List.mem_of_getElem? found)).2

theorem liesInHeader_iff :
    liesInHeader place unit = true ↔
      ∃ part ∈ headerAddressesAt unit, part <+: place.address := by
  simp [liesInHeader]

theorem mem_headerAddressesAt {address : Address} (member : address ∈ headerAddressesAt unit) :
    ∃ part, address = unit.address ++ part ∧ IsHeaderPart unit.tree part := by
  simp only [headerAddressesAt, headerAddresses, List.mem_map] at member
  obtain ⟨part, inHeader, rfl⟩ := member
  exact ⟨part.1, rfl, isHeaderPart_of_mem_headerAt inHeader⟩

/-- Only units have headers. -/
theorem kindAt?_isSome_of_mem_headerAddressesAt {address : Address}
    (member : address ∈ headerAddressesAt unit) : (kindAt? unit).isSome = true := by
  unfold headerAddressesAt headerAt at member
  unfold kindAt?
  split at member <;> simp_all [headerAddresses]

/-- A child lies in a header if its parent does, or if it is a part of the header. -/
theorem liesInHeader_child {index : Nat} {subtree : SyntaxTree} :
    liesInHeader (place.child index subtree) unit = true ↔
      place.address ++ [index] ∈ headerAddressesAt unit ∨ liesInHeader place unit = true := by
  rw [liesInHeader_iff, liesInHeader_iff]
  simp only [Visit.child, List.prefix_concat_iff]
  constructor
  · rintro ⟨part, member, rfl | isPrefix⟩
    · exact .inl member
    · exact .inr ⟨part, member, isPrefix⟩
  · rintro (member | ⟨part, member, isPrefix⟩)
    · exact ⟨_, member, .inl rfl⟩
    · exact ⟨part, member, .inr isPrefix⟩

/-- No place lies in the header of a unit at the place itself or below it. -/
theorem not_liesInHeader_of_isPrefix (isPrefix : place.address <+: unit.address) :
    liesInHeader place unit = false := by
  rw [Bool.eq_false_iff, ne_eq, liesInHeader_iff]
  rintro ⟨part, member, below⟩
  obtain ⟨rest, rfl, headerPart⟩ := mem_headerAddressesAt member
  have longer := (below.trans isPrefix).length_le
  cases headerPart <;>
    simp only [List.length_append, List.length_cons, List.length_nil] at longer <;>
    omega

/-- The parameters of a function and the keywords of a class are no elements. -/
theorem elementAt?_eq_none_of_role (stands : StandsForSyntax tree) (has : tree.HasPlace place)
    {index : Nat} {subtree : SyntaxTree} (found : place.tree.children[index]? = some subtree)
    (role : subtree.label.role ∈ [Role.parameters, .keyword]) :
    elementAt? (place.child index subtree) = none := by
  have fits := fits_of_child stands has found
  simp only [List.mem_cons, List.not_mem_nil, or_false] at role
  rcases role with role | role
  · obtain ⟨parameters, node⟩ := fits.parameters role
    simp [elementAt?, elementOf?, Visit.child, node]
  · obtain ⟨keyword, node⟩ := fits.keyword role
    simp [elementAt?, elementOf?, Visit.child, node]

/-- What lies below an element outside a header lies outside the header. -/
theorem not_liesInHeader_of_mem_around (stands : StandsForSyntax tree) (has : tree.HasPlace place)
    (below : outer ∈ place.around) (element : (elementAt? outer).isSome)
    (around : unit ∈ outer.around) (outside : liesInHeader outer unit = false) :
    liesInHeader place unit = false := by
  rw [Bool.eq_false_iff, ne_eq, liesInHeader_iff] at outside ⊢
  rintro ⟨address, member, above⟩
  have outerHas := has.around below
  have unitHas := outerHas.around around
  obtain ⟨part, rfl, headerPart⟩ := mem_headerAddressesAt member
  rcases List.prefix_or_prefix_of_prefix above (has.address_of_mem_around below).1 with
    onWay | behind
  · exact outside ⟨_, member, onWay⟩
  · obtain ⟨⟨rest, onWay⟩, shorter⟩ := outerHas.address_of_mem_around around
    rw [← onWay, List.prefix_append_right_inj] at behind
    cases rest with
    | nil => simp [← onWay] at shorter
    | cons first more =>
        cases headerPart with
        | direct found role =>
            obtain ⟨rfl, noMore⟩ := List.cons_prefix_cons.mp behind
            rw [List.prefix_nil.mp noMore] at onWay
            exact outside ⟨_, member, onWay ▸ List.prefix_rfl⟩
        | nested foundHolder holderRole found role =>
            obtain ⟨rfl, restBehind⟩ := List.cons_prefix_cons.mp behind
            cases more with
            | nil =>
                have same := outerHas.eq_of_address_eq (.child unitHas foundHolder) onWay.symm
                rw [same, elementAt?_eq_none_of_role stands unitHas foundHolder holderRole]
                  at element
                simp at element
            | cons second more =>
                obtain ⟨rfl, noMore⟩ := List.cons_prefix_cons.mp restBehind
                rw [List.prefix_nil.mp noMore] at onWay
                exact outside ⟨_, member, onWay ▸ List.prefix_rfl⟩

/-! ## Entering a child -/

/-- A part of a header stands right below its unit, or right below a place that
stands there and is no element. -/
theorem nearest_of_mem_headerAddressesAt (stands : StandsForSyntax tree) (has : tree.HasPlace place)
    {index : Nat} (on : unit ∈ place.path)
    (member : place.address ++ [index] ∈ headerAddressesAt unit) :
    unit = place ∨ place.around = unit.path ∧ elementAt? place = none ∧
      liesInHeader place unit = false := by
  have unitHas : tree.HasPlace unit := by
    rcases Visit.mem_path_iff.mp on with rfl | around
    · exact has
    · exact has.around around
  obtain ⟨part, equal, headerPart⟩ := mem_headerAddressesAt member
  cases headerPart with
  | direct found role =>
      have split := List.append_inj' equal rfl
      exact .inl (unitHas.eq_of_address_eq has split.1.symm)
  | @nested first second holder inner foundHolder holderRole found role =>
      have split : place.address = unit.address ++ [first] ∧ [index] = [second] :=
        List.append_inj' (by simpa using equal) rfl
      have same := has.eq_of_address_eq (.child unitHas foundHolder) split.1
      rw [same]
      refine .inr ⟨Visit.child_around .., elementAt?_eq_none_of_role stands unitHas foundHolder
        holderRole, ?_⟩
      rw [Bool.eq_false_iff, ne_eq, liesInHeader_child,
        not_liesInHeader_of_isPrefix List.prefix_rfl]
      rintro (direct | impossible)
      · obtain ⟨part, partEqual, partHeader⟩ := mem_headerAddressesAt direct
        rw [List.append_cancel_left_eq] at partEqual
        subst partEqual
        cases partHeader with
        | direct foundAgain directRole =>
            rw [foundHolder] at foundAgain
            cases foundAgain
            simp only [List.mem_cons, List.not_mem_nil, or_false] at directRole holderRole
            rcases directRole with directRole | directRole <;> simp [directRole] at holderRole
      · cases impossible

/-- The units that a place lies in and the one that stands there, nearest first. -/
def unitsAt (place : SyntaxPlace) : List SyntaxPlace := place.path.filter (isUnitAround place)

/-- The units in whose header a place lies, nearest first. -/
def unitsAside (place : SyntaxPlace) : List SyntaxPlace := place.around.filter (isUnitAside place)

theorem unitsAt_eq (place : SyntaxPlace) :
    unitsAt place = (if (kindAt? place).isSome then [place] else []) ++ unitsAround place := by
  have outside : liesInHeader place place = false := not_liesInHeader_of_isPrefix List.prefix_rfl
  by_cases unit : (kindAt? place).isSome <;>
    simp [unitsAt, unitsAround, Visit.path, isUnitAround, unit, outside]

theorem isUnitAside_self (place : SyntaxPlace) : isUnitAside place place = false := by
  simp [isUnitAside, not_liesInHeader_of_isPrefix List.prefix_rfl]

section Child

variable {index : Nat} {subtree : SyntaxTree}

theorem isUnitAround_child (notPart : place.address ++ [index] ∉ headerAddressesAt unit) :
    isUnitAround (place.child index subtree) unit = isUnitAround place unit ∧
      isUnitAside (place.child index subtree) unit = isUnitAside place unit := by
  have same : liesInHeader (place.child index subtree) unit = liesInHeader place unit := by
    rw [Bool.eq_iff_iff, liesInHeader_child]
    simp [notPart]
  simp [isUnitAround, isUnitAside, same]

/-- A child that begins no header lies in the units open at its parent. -/
theorem unitsAround_child_of_forall_not_mem (subtree : SyntaxTree)
    (notPart : ∀ unit ∈ place.path, place.address ++ [index] ∉ headerAddressesAt unit) :
    unitsAround (place.child index subtree) = unitsAt place ∧
      unitsAside (place.child index subtree) = unitsAside place := by
  constructor
  · rw [unitsAround, Visit.child_around]
    exact List.filter_congr fun unit on => (isUnitAround_child (notPart unit on)).1
  · rw [unitsAside, Visit.child_around,
      List.filter_congr fun unit on => (isUnitAround_child (notPart unit on)).2, Visit.path,
      List.filter_cons_of_neg (by simp [isUnitAside_self]), unitsAside]

/-- A child that begins a header sets the innermost unit open at its parent aside. -/
theorem unitsAround_child_of_mem (stands : StandsForSyntax tree) (has : tree.HasPlace place)
    (subtree : SyntaxTree) (on : unit ∈ place.path)
    (member : place.address ++ [index] ∈ headerAddressesAt unit) :
    unitsAt place = unit :: unitsAround (place.child index subtree) ∧
      unitsAside (place.child index subtree) = unit :: unitsAside place := by
  have isUnit := kindAt?_isSome_of_mem_headerAddressesAt member
  have inside : isUnitAround (place.child index subtree) unit = false := by
    simp [isUnitAround, liesInHeader_child.mpr (.inl member)]
  have aside : isUnitAside (place.child index subtree) unit = true := by
    simp [isUnitAside, liesInHeader_child.mpr (.inl member), isUnit]
  -- no other unit around the place has the child in its header
  have others : ∀ other ∈ unit.around, place.address ++ [index] ∉ headerAddressesAt other := by
    intro other around otherMember
    have unitHas := has.of_mem_path on
    obtain ⟨isPrefix, shorter⟩ := unitHas.address_of_mem_around around
    have unitPrefix := has.address_prefix_of_mem_path on
    have otherOn := has.mem_path_of_isPrefix (unitHas.around around) (isPrefix.trans unitPrefix)
    rcases nearest_of_mem_headerAddressesAt stands has otherOn otherMember with
      rfl | ⟨path_eq, noElement, -⟩
    · have := unitPrefix.length_le
      omega
    · rcases Visit.mem_path_iff.mp on with rfl | below
      · simp [kindAt?, noElement] at isUnit
      · rw [path_eq] at below
        have := ((unitHas.around around).address_prefix_of_mem_path below).length_le
        omega
  have sameAround : unit.around.filter (isUnitAround (place.child index subtree)) =
      unit.around.filter (isUnitAround place) :=
    List.filter_congr fun other around => (isUnitAround_child (others other around)).1
  have sameAside : unit.around.filter (isUnitAside (place.child index subtree)) =
      unit.around.filter (isUnitAside place) :=
    List.filter_congr fun other around => (isUnitAround_child (others other around)).2
  rcases nearest_of_mem_headerAddressesAt stands has on member with
    rfl | ⟨path_eq, noElement, outside⟩
  · have stillOpen : isUnitAround unit unit = true := by
      simp [isUnitAround, isUnit, not_liesInHeader_of_isPrefix List.prefix_rfl]
    simp [unitsAt, unitsAround, unitsAside, Visit.path, inside, aside, stillOpen, sameAround,
      sameAside]
  · have noUnit : kindAt? place = none := by simp [kindAt?, noElement]
    have noneAround (inner : SyntaxPlace) : isUnitAround inner place = false := by
      simp [isUnitAround, noUnit]
    have noneAside (inner : SyntaxPlace) : isUnitAside inner place = false := by
      simp [isUnitAside, noUnit]
    have stillOpen : isUnitAround place unit = true := by simp [isUnitAround, isUnit, outside]
    have notAside : isUnitAside place unit = false := by simp [isUnitAside, outside]
    simp [unitsAt, unitsAround, unitsAside, Visit.path, path_eq, noneAround, noneAside, inside,
      aside, stillOpen, notAside, sameAround, sameAside]

end Child

/-! ## Methods -/

/-- The parts of a header are expressions. -/
theorem exists_expr_of_mem_headerAddressesAt (stands : StandsForSyntax tree)
    (has : tree.HasPlace place) (unitHas : tree.HasPlace unit)
    (member : place.address ∈ headerAddressesAt unit) :
    ∃ expr, place.tree.label.node = .expr expr := by
  obtain ⟨part, equal, headerPart⟩ := mem_headerAddressesAt member
  have isExpr {above : SyntaxPlace} {index : Nat} {subtree : SyntaxTree}
      (aboveHas : tree.HasPlace above) (found : above.tree.children[index]? = some subtree)
      (role : subtree.label.role ∈ [Role.decorator, .base, .default, .keywordDefault, .value])
      (same : place.address = above.address ++ [index]) :
      ∃ expr, place.tree.label.node = .expr expr := by
    obtain rfl := has.eq_of_address_eq (.child aboveHas found) same
    exact (fits_of_child stands aboveHas found).evaluated role
  cases headerPart with
  | direct found role =>
      refine isExpr unitHas found ?_ equal
      simp only [List.mem_cons, List.not_mem_nil, or_false] at role
      rcases role with role | role <;> simp [role]
  | nested foundHolder _ found role =>
      refine isExpr (.child unitHas foundHolder) found ?_ (by simp [equal, Visit.child])
      simp only [List.mem_cons, List.not_mem_nil, or_false] at role
      rcases role with role | role | role <;> simp [role]

/-- Whether statements can stand below a place is inherited from what is below it. -/
theorem holdsStatements_of_mem_path (stands : StandsForSyntax tree) (has : tree.HasPlace place)
    (holds : holdsStatements place.tree.label.node = true) (on : outer ∈ place.path) :
    holdsStatements outer.tree.label.node = true := by
  induction has with
  | whole =>
      obtain rfl : outer = .whole tree := by simpa [Visit.path] using on
      exact holds
  | @child above index subtree aboveHas found inductionHypothesis =>
      rcases Visit.mem_path_iff.mp on with rfl | around
      · exact holds
      · rw [Visit.child_around] at around
        exact inductionHypothesis ((fits_of_child stands aboveHas found).statements holds) around

/-- Statements lie in no header. -/
theorem not_liesInHeader_of_holdsStatements (stands : StandsForSyntax tree)
    (has : tree.HasPlace place) (unitHas : tree.HasPlace unit)
    (holds : holdsStatements place.tree.label.node = true) : liesInHeader place unit = false := by
  rw [Bool.eq_false_iff, ne_eq, liesInHeader_iff]
  rintro ⟨address, member, above⟩
  obtain ⟨outer, on, rfl⟩ := has.exists_mem_path_of_isPrefix above
  obtain ⟨expr, isExpr⟩ := exists_expr_of_mem_headerAddressesAt stands (has.of_mem_path on) unitHas
    member
  have outerHolds := holdsStatements_of_mem_path stands has holds on
  rw [isExpr] at outerHolds
  simp [holdsStatements] at outerHolds

/-- A method is a statement. -/
theorem exists_stmt_of_methodAt? (method : (methodAt? place).isSome) :
    ∃ stmt, place.tree.label.node = .stmt stmt := by
  rw [methodAt?_eq] at method
  split at method
  · rename_i node parent
    exact ⟨_, node⟩
  · simp at method

/-- A block of a function is a statement. -/
theorem exists_stmt_of_isControl (control : isControl place = true) :
    ∃ stmt, place.tree.label.node = .stmt stmt := by
  obtain ⟨type, span, element⟩ := isControl_iff.mp control
  cases isAt_of_elementOf? element with
  | control node => exact ⟨_, node⟩

theorem holdsStatements_of_methodAt? (method : (methodAt? place).isSome) :
    holdsStatements place.tree.label.node = true := by
  obtain ⟨stmt, node⟩ := exists_stmt_of_methodAt? method
  rw [node]
  exact holdsStatements_stmt stmt

theorem holdsStatements_of_isControl (control : isControl place = true) :
    holdsStatements place.tree.label.node = true := by
  obtain ⟨stmt, node⟩ := exists_stmt_of_isControl control
  rw [node]
  exact holdsStatements_stmt stmt

/-- A method lies right below its class and not in its header. -/
theorem exists_class_of_methodAt? (stands : StandsForSyntax tree) (has : tree.HasPlace place)
    (method : (methodAt? place).isSome) :
    ∃ above, tree.HasPlace above ∧ kindAt? above = some .class ∧ place.around = above.path ∧
      place.address.length = above.address.length + 1 ∧
      unitsAround place = above :: unitsAround above ∧ unitsAside place = unitsAside above := by
  rw [methodAt?_eq] at method
  split at method
  · rename_i node parent
    cases has with
    | whole => simp [Visit.whole] at parent
    | @child above index subtree aboveHas found =>
        have isClass : kindAt? above = some .class := by
          simp only [Visit.child, List.head?_cons, Option.map_some, Option.some.injEq] at parent
          simp [kindAt?_eq, parent]
        have notPart (unit : SyntaxPlace) (on : unit ∈ above.path) :
            above.address ++ [index] ∉ headerAddressesAt unit := by
          intro member
          obtain ⟨expr, isExpr⟩ := exists_expr_of_mem_headerAddressesAt stands
            (.child aboveHas found) (aboveHas.of_mem_path on) member
          simp [node] at isExpr
        obtain ⟨units, aside⟩ := unitsAround_child_of_forall_not_mem subtree notPart
        refine ⟨above, aboveHas, isClass, Visit.child_around .., by simp [Visit.child], ?_, aside⟩
        rw [units, unitsAt_eq]
        simp [isClass]
  · simp at method

end DesignLint.Cohesion
