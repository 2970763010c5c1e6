import DesignLint.Proofs.Cohesion.FunctionUnits
import DesignLint.Proofs.Syntax.Place
import DesignLint.Proofs.Syntax.OwnScope
import DesignLint.Proofs.Syntax.Targets

/-!
# Names bound in control statements

Which names the constructs of a function bind, and in which of its control statements, read off the
syntax. These names are written in the control statement, but for two kinds of bindings that the
analysis does not see: the rest of a mapping pattern binds without an element, and what is bound in
an annotation is bound outside the function that the annotation belongs to.
-/

namespace DesignLint.Cohesion

open DesignLint.Syntax

/-! ## Bindings -/

/-- The ways in which a construct binds a name. -/
inductive BindingForm where
  | target | parameter | definition | importName | handler | capture
  | restOfSequence | restOfMapping
deriving DecidableEq, Repr

/-- What a construct binds. No name is empty, and an import of everything binds no name that is
known. -/
inductive Binds : Node → BindingForm → String → Prop where
  | target {node : Node} {target : Expr} {name : String} (listed : target ∈ node.targets)
      (named : name ∈ target.targetNames) : Binds node .target name
  | parameter (parameter : Parameter) : Binds (.parameter parameter) .parameter parameter.name
  | function (position : Position) (isAsync : Bool) (name : String) (parameters : Parameters)
      (body : List Stmt) (decorators : List Expr) (returns : Option Expr) :
      Binds (.stmt (.functionDef position isAsync name parameters body decorators returns))
        .definition name
  | class (position : Position) (name : String) (bases : List Expr) (keywords : List Keyword)
      (body : List Stmt) (decorators : List Expr) :
      Binds (.stmt (.classDef position name bases keywords body decorators)) .definition name
  | importName {item : Alias} (known : item.boundName ≠ "*") :
      Binds (.importAlias item) .importName item.boundName
  | handler (position : Position) (type : Option Expr) {name : String} (body : List Stmt)
      (nonempty : name.isEmpty = false) :
      Binds (.handler (.mk position type (some name) body)) .handler name
  | capture (position : Position) (inner : Option Pattern) {name : String}
      (nonempty : name.isEmpty = false) :
      Binds (.pattern (.capture position inner (some name))) .capture name
  | restOfSequence (position : Position) {name : String} (nonempty : name.isEmpty = false) :
      Binds (.pattern (.star position (some name))) .restOfSequence name
  | restOfMapping (position : Position) (keys : List Expr) (patterns : List Pattern)
      {name : String} (nonempty : name.isEmpty = false) :
      Binds (.pattern (.mapping position keys patterns (some name))) .restOfMapping name

theorem binds_target_iff {node : Node} {name : String} :
    Binds node .target name ↔ ∃ target ∈ node.targets, name ∈ target.targetNames := by
  constructor
  · intro binds
    cases binds with
    | target listed named => exact ⟨_, listed, named⟩
  · rintro ⟨target, listed, named⟩
    exact .target listed named

/-! ## Scopes -/

/-- The addresses of the annotations of a function below it: what it returns, and the hints of its
parameters. -/
def annotationsOf (unit : SyntaxTree) : List Address :=
  (childrenAs .returns unit).map (fun (index, _) => [index])
    ++ (childrenAs .parameters unit).flatMap fun (outer, parameters) =>
      (childrenAs .parameter parameters).flatMap fun (middle, parameter) =>
        (childrenAs .hint parameter).map fun (inner, _) => [outer, middle, inner]

/-- Whether a place lies in an annotation of a function. -/
def liesInHint (place unit : SyntaxPlace) : Bool :=
  (annotationsOf unit.tree).any fun part => (unit.address ++ part).isPrefixOf place.address

/-- The unit in whose scope a place lies. Like a header, an annotation is evaluated outside the
function that it belongs to. -/
def scopeOf? (place : SyntaxPlace) : Option SyntaxPlace :=
  (unitsAround place).find? fun unit => !liesInHint place unit

/-- A construct binds a name in the scope of a unit, and a block of the unit is the innermost one
that contains the construct. A loop contains its own target. -/
structure IsBoundIn (tree : SyntaxTree) (unit block : SyntaxPlace) (name : String)
    (form : BindingForm) (place : SyntaxPlace) : Prop where
  has : tree.HasPlace place
  binds : Binds place.tree.label.node form name
  scope : scopeOf? place = some unit
  innermost : place.path.find? (isBlockOf unit) = some block

/-- The bindings that the analysis sees. -/
structure IsSeen (form : BindingForm) (place : SyntaxPlace) : Prop where
  notRest : form ≠ .restOfMapping
  notAnnotated : ∀ unit ∈ unitsAround place, liesInHint place unit = false

/-- Outside annotations, the scope of a place is the nearest unit that it lies in. -/
theorem scopeOf?_eq_homeOf? {place : SyntaxPlace}
    (notAnnotated : ∀ unit ∈ unitsAround place, liesInHint place unit = false) :
    scopeOf? place = homeOf? place := by
  unfold scopeOf? homeOf?
  cases units : unitsAround place with
  | nil => rfl
  | cons unit outer =>
      rw [List.find?_cons_of_pos (by simp [notAnnotated unit (by simp [units])]), List.head?_cons]

/-! ## Places in the same block -/

variable {tree : SyntaxTree} {place inner unit block other : SyntaxPlace}

/-- One place lies at or below another, in the same scope, in the same units and in the same blocks
of them. -/
structure SharesBlock (place inner : SyntaxPlace) : Prop where
  inside : place ∈ inner.path
  scope : nearestScope? inner = nearestScope? place
  units : unitsAround inner = unitsAround place
  blocks (unit : SyntaxPlace) :
    inner.path.find? (isBlockOf unit) = place.path.find? (isBlockOf unit)

theorem SharesBlock.refl (place : SyntaxPlace) : SharesBlock place place :=
  ⟨Visit.mem_path_iff.mpr (.inl rfl), rfl, rfl, fun _ => rfl⟩

theorem SharesBlock.trans {middle : SyntaxPlace} (has : tree.HasPlace inner)
    (first : SharesBlock place middle) (second : SharesBlock middle inner) :
    SharesBlock place inner where
  inside := by
    have middleHas := has.of_mem_path second.inside
    apply has.mem_path_of_isPrefix (middleHas.of_mem_path first.inside)
    exact (middleHas.address_prefix_of_mem_path first.inside).trans
      (has.address_prefix_of_mem_path second.inside)
  scope := second.scope.trans first.scope
  units := second.units.trans first.units
  blocks unit := (second.blocks unit).trans (first.blocks unit)

/-- Whether a construct is no unit and holds no part of the header of one. -/
def isInside : Node → Bool
  | .stmt (.functionDef ..) | .stmt (.classDef ..) | .expr (.lambda ..) => false
  | .parameters _ | .keyword _ => false
  | _ => true

theorem isInside_of_mem_targets {node : Node} {target : Expr} (listed : target ∈ node.targets) :
    isInside node = true := by
  cases node with
  | stmt stmt => cases stmt <;> first | rfl | cases listed
  | expr expr => cases expr <;> first | rfl | cases listed
  | comprehension | withItem => rfl
  | _ => cases listed

theorem isInside_of_mem_targetParts {expr part : Expr} (nested : part ∈ expr.targetParts) :
    isInside (.expr expr) = true := by
  cases expr <;> first | rfl | cases nested

theorem kindAt?_eq_none_of_isInside (inside : isInside place.tree.label.node = true) :
    kindAt? place = none := by
  rw [kindAt?_eq]
  split <;> simp_all [isInside]

theorem hasOwnScope_eq_false_of_isInside {occurrence : Occurrence}
    (inside : isInside occurrence.node = true) : hasOwnScope occurrence = false := by
  unfold hasOwnScope
  split <;> simp_all [isInside]

/-- An expression is no block of a unit. -/
theorem isBlockOf_eq_false_of_expr {expr : Expr} (node : place.tree.label.node = .expr expr) :
    isBlockOf unit place = false := by
  have notControl : isControl place = false := by
    rw [Bool.eq_false_iff]
    intro control
    obtain ⟨stmt, isStmt⟩ := exists_stmt_of_isControl control
    simp [node] at isStmt
  have notMethod : (methodAt? place).isSome = false := by
    rw [Bool.eq_false_iff]
    intro method
    obtain ⟨stmt, isStmt⟩ := exists_stmt_of_methodAt? method
    simp [node] at isStmt
  unfold isBlockOf
  split <;> simp [notControl, notMethod]

/-- An expression below a construct that is no unit lies where the construct lies. -/
theorem sharesBlock_child (stands : StandsForSyntax tree) (has : tree.HasPlace place)
    {index : Nat} {subtree : SyntaxTree} {expr : Expr}
    (found : place.tree.children[index]? = some subtree)
    (inside : isInside place.tree.label.node = true) (node : subtree.label.node = .expr expr) :
    SharesBlock place (place.child index subtree) := by
  have notPart (unit : SyntaxPlace) (on : unit ∈ place.path) :
      place.address ++ [index] ∉ headerAddressesAt unit := by
    intro member
    have unitHas := has.of_mem_path on
    have isUnit := kindAt?_isSome_of_mem_headerAddressesAt member
    obtain ⟨part, equal, headerPart⟩ := mem_headerAddressesAt member
    cases headerPart with
    | direct =>
        obtain rfl := has.eq_of_address_eq unitHas (List.append_inj' equal rfl).1
        simp [kindAt?_eq_none_of_isInside inside] at isUnit
    | @nested outer inner holder part foundHolder holderRole =>
        have split : place.address = unit.address ++ [outer] ∧ [index] = [inner] :=
          List.append_inj' (by simpa using equal) rfl
        obtain rfl := has.eq_of_address_eq (.child unitHas foundHolder) split.1
        have fits := fits_of_child stands unitHas foundHolder
        simp only [List.mem_cons, List.not_mem_nil, or_false] at holderRole
        rcases holderRole with role | role
        · obtain ⟨parameters, isHolder⟩ := fits.parameters role
          simp [Visit.child, isHolder, isInside] at inside
        · obtain ⟨keyword, isHolder⟩ := fits.keyword role
          simp [Visit.child, isHolder, isInside] at inside
  constructor
  · simp [Visit.path]
  · rw [nearestScope?, Visit.child_around, Visit.path,
      List.find?_cons_of_neg (by simp [hasOwnScope_eq_false_of_isInside inside])]
    rfl
  · rw [(unitsAround_child_of_forall_not_mem subtree notPart).1,
      unitsAt_eq_unitsAround (kindAt?_eq_none_of_isInside inside)]
  · intro unit
    have notBlock : ¬isBlockOf unit (place.child index subtree) = true := by
      rw [isBlockOf_eq_false_of_expr node]
      exact Bool.false_ne_true
    rw [Visit.path, List.find?_cons_of_neg notBlock, Visit.child_around]

/-! ## Names in targets -/

section Targets

variable {expr : Expr} {name : String} {context : Context}

/-- A name of a target stands at a place in it, with the context of the target. -/
theorem exists_place_of_mem_targetNames (stands : StandsForSyntax tree)
    (contexts : HasContexts tree) (has : tree.HasPlace place) {role : Role}
    (whole : place.tree = expr.tree role) (own : expr.context? = some context)
    (named : name ∈ expr.targetNames) :
    ∃ inner position, tree.HasPlace inner ∧ SharesBlock place inner ∧
      inner.tree.label.node = .expr (.name position name context) := by
  induction tree' : place.tree using Tree.inductionOnChildren generalizing place expr role with
  | node label children inductionHypothesis =>
      have node : place.tree.label.node = .expr expr := by rw [whole, Expr.label_tree]
      rcases Expr.mem_targetNames_iff.mp named with ⟨position, other, rfl⟩ | ⟨part, nested, inPart⟩
      · cases own
        exact ⟨place, position, has, .refl place, node⟩
      · obtain ⟨inner, member, kept⟩ := Expr.exists_mem_children_of_mem_targetParts role nested own
        rw [← whole] at member
        have partOwn := contexts.context?_of_mem_children has.mem_preorder.1 node member kept inPart
        obtain ⟨index, found⟩ := List.getElem?_of_mem member
        rw [tree'] at member
        obtain ⟨last, position, lastHas, shares, lastNode⟩ :=
          inductionHypothesis _ member (.child has found) rfl partOwn inPart rfl
        have stays := sharesBlock_child stands has found
          (node ▸ isInside_of_mem_targetParts nested) (by rw [Expr.label_tree])
        exact ⟨last, position, lastHas, stays.trans lastHas shares, lastNode⟩

/-- What a construct binds by a target stands at a place below it, as a name that is there to be
bound, or to be unbound. -/
theorem exists_name_of_mem_targets (stands : StandsForSyntax tree) (contexts : HasContexts tree)
    (has : tree.HasPlace place) (listed : expr ∈ place.tree.label.node.targets)
    (named : name ∈ expr.targetNames) :
    ∃ inner position, tree.HasPlace inner ∧ SharesBlock place inner ∧
      inner.tree.label.node =
        .expr (.name position name (contextBelow place.tree.label.node .target)) := by
  have member : expr.tree .target ∈ place.tree.children := by
    have targets := (standsForSyntax_of_hasPlace stands has).childrenIn_target
    have isTarget : expr.tree .target ∈ childrenIn .target place.tree := by
      rw [targets]
      exact List.mem_map_of_mem listed
    exact (List.mem_filter.mp isTarget).1
  obtain ⟨index, found⟩ := List.getElem?_of_mem member
  obtain ⟨context, own⟩ := Expr.exists_context_of_mem_targetNames named
  have fits := contexts.context_eq has.mem_preorder.1 member (by rw [Expr.label_tree]) own
  rw [Expr.label_tree] at fits
  obtain ⟨inner, position, innerHas, shares, node⟩ :=
    exists_place_of_mem_targetNames stands contexts (.child has found) rfl own named
  have stays := sharesBlock_child stands has found (isInside_of_mem_targets listed)
    (by rw [Expr.label_tree])
  exact ⟨inner, position, innerHas, stays.trans innerHas shares, fits ▸ node⟩

/-- A name that is not there to be read stands in a target of a construct around it, which binds it
or unbinds it as the name says. -/
theorem exists_binds_target_of_name (stands : StandsForSyntax tree) (contexts : HasContexts tree)
    (root : ∀ expr, tree.label.node ≠ .expr expr) (has : tree.HasPlace inner)
    (node : inner.tree.label.node = .expr expr) (own : expr.context? = some context)
    (bound : context ≠ .load) (named : name ∈ expr.targetNames) :
    ∃ place, tree.HasPlace place ∧ Binds place.tree.label.node .target name ∧
      contextBelow place.tree.label.node .target = context ∧ SharesBlock place inner := by
  induction has generalizing expr with
  | whole => exact absurd node (root expr)
  | @child above index subtree has found inductionHypothesis =>
      have below := List.mem_of_getElem? found
      have fits := contexts.context_eq has.mem_preorder.1 below node own
      have aboveStands := standsForSyntax_of_hasPlace stands has
      rcases aboveStands.target_or_part below node (fits ▸ bound) with
        ⟨role, listed⟩ | ⟨outer, aboveNode, nested, outerOwn⟩
      · rw [role] at fits
        exact ⟨above, has, .target listed named, fits.symm,
          sharesBlock_child stands has found (isInside_of_mem_targets listed) node⟩
      · obtain ⟨place, placeHas, binds, bindsAs, shares⟩ := inductionHypothesis aboveNode
          (fits ▸ outerOwn) (Expr.mem_targetNames_iff.mpr (.inr ⟨expr, nested, named⟩))
        have stays := sharesBlock_child stands has found
          (aboveNode ▸ isInside_of_mem_targetParts nested) node
        exact ⟨place, placeHas, binds, bindsAs, shares.trans (.child has found) stays⟩

end Targets

/-! ## Names that are written -/

section Names

variable {name : String} {binding : Binding} {form : BindingForm}

/-- The use of a name by the construct that stands at a place. -/
theorem nameAt?_eq (place : SyntaxPlace) :
    nameAt? place =
      match place.tree.label.node with
      | .stmt (.functionDef _ _ name ..) => some (name, .store)
      | .stmt (.classDef _ name ..) => some (name, .store)
      | .expr (.name _ id context) => some (id, bindingOf context)
      | .parameter parameter => some (parameter.name, .parameter)
      | .importAlias item => if item.boundName = "*" then none else some (item.boundName, .store)
      | .handler (.mk _ _ name _) => (nonemptyName name).map (·, .store)
      | .pattern (.capture _ _ name) => (nonemptyName name).map (·, .store)
      | .pattern (.star _ name) => (nonemptyName name).map (·, .store)
      | _ => none := by
  unfold nameAt? elementAt? elementOf?
  cases place.tree.label.node with
  | stmt stmt => cases stmt <;> rfl
  | expr expr =>
      cases expr with
      | attr position value name context => cases value <;> rfl
      | _ => rfl
  | pattern pattern =>
      cases pattern with
      | capture position inner name =>
          cases named : nonemptyName name <;> simp [patternElement, named]
      | star position name => cases named : nonemptyName name <;> simp [patternElement, named]
      | _ => rfl
  | handler handler =>
      rcases handler with ⟨position, type, name, body⟩
      cases named : nonemptyName name <;> simp [named]
  | importAlias item => by_cases star : item.boundName = "*" <;> simp [star]
  | _ => rfl

theorem nonemptyName_eq_some_iff {written : Option String} :
    nonemptyName written = some name ↔ written = some name ∧ name.isEmpty = false := by
  simp [nonemptyName, Option.filter_eq_some_iff]

theorem eq_some_of_map_nonemptyName {written : Option String}
    (used : (nonemptyName written).map (·, Binding.store) = some (name, binding)) :
    written = some name ∧ name.isEmpty = false := by
  obtain ⟨text, named, equal⟩ := Option.map_eq_some_iff.mp used
  cases equal
  exact nonemptyName_eq_some_iff.mp named

theorem nameAt?_of_name {position : Position} {context : Context}
    (node : place.tree.label.node = .expr (.name position name context)) :
    nameAt? place = some (name, bindingOf context) := by
  rw [nameAt?_eq, node]

/-- A construct that binds a name without a target uses the name. -/
theorem exists_nameAt?_of_binds (binds : Binds place.tree.label.node form name)
    (notTarget : form ≠ .target) (notRest : form ≠ .restOfMapping) :
    ∃ binding, nameAt? place = some (name, binding) ∧ binding ≠ .load := by
  rw [nameAt?_eq]
  generalize place.tree.label.node = construct at binds
  cases binds with
  | target => exact absurd rfl notTarget
  | restOfMapping => exact absurd rfl notRest
  | parameter => exact ⟨.parameter, rfl, by decide⟩
  | function => exact ⟨.store, rfl, by decide⟩
  | «class» => exact ⟨.store, rfl, by decide⟩
  | importName known => exact ⟨.store, if_neg known, by decide⟩
  | handler _ _ _ nonempty | capture _ _ nonempty | restOfSequence _ nonempty =>
      have named := nonemptyName_eq_some_iff.mpr ⟨rfl, nonempty⟩
      exact ⟨.store, by simp only [named, Option.map_some], by decide⟩

/-- What uses a name without reading it is a name to be bound, or it binds the name. -/
theorem name_or_binds_of_nameAt? (used : nameAt? place = some (name, binding))
    (bound : binding ≠ .load) :
    (∃ position context, place.tree.label.node = .expr (.name position name context) ∧
      context ≠ .load) ∨
    ∃ form, form ≠ .restOfMapping ∧ Binds place.tree.label.node form name := by
  rw [nameAt?_eq] at used
  generalize place.tree.label.node = construct at used
  split at used
  · cases used
    exact .inr ⟨.definition, by decide, .function ..⟩
  · cases used
    exact .inr ⟨.definition, by decide, .class ..⟩
  · rename_i position id context
    cases used
    refine .inl ⟨position, context, rfl, ?_⟩
    rintro rfl
    exact bound rfl
  · cases used
    exact .inr ⟨.parameter, by decide, .parameter _⟩
  · split at used
    · cases used
    · rename_i known
      cases used
      exact .inr ⟨.importName, by decide, .importName known⟩
  · obtain ⟨rfl, nonempty⟩ := eq_some_of_map_nonemptyName used
    exact .inr ⟨.handler, by decide, .handler _ _ _ nonempty⟩
  · obtain ⟨rfl, nonempty⟩ := eq_some_of_map_nonemptyName used
    exact .inr ⟨.capture, by decide, .capture _ _ nonempty⟩
  · obtain ⟨rfl, nonempty⟩ := eq_some_of_map_nonemptyName used
    exact .inr ⟨.restOfSequence, by decide, .restOfSequence _ nonempty⟩
  · cases used

end Names

/-! ## Annotations -/

theorem mem_annotationsOf {tree : SyntaxTree} {part : Address}
    (member : part ∈ annotationsOf tree) :
    ∃ index rest child, part = index :: rest ∧ tree.children[index]? = some child ∧
      child.label.role ∉ statementRoles := by
  simp only [annotationsOf, List.mem_append, List.mem_map, List.mem_flatMap, Prod.exists] at member
  rcases member with ⟨index, child, listed, rfl⟩ | ⟨index, child, listed, deeper⟩
  · obtain ⟨found, role⟩ := mem_childrenAs_iff.mp listed
    exact ⟨index, [], child, rfl, found, by rw [role]; decide⟩
  · obtain ⟨middle, parameter, -, inner, hint, -, rfl⟩ := deeper
    obtain ⟨found, role⟩ := mem_childrenAs_iff.mp listed
    exact ⟨index, [middle, inner], child, rfl, found, by rw [role]; decide⟩

/-- What lies in a statement of a function does not lie in an annotation of the function. -/
theorem not_liesInHint_of_mem_path (stands : StandsForSyntax tree) (has : tree.HasPlace place)
    (on : block ∈ place.path) (holds : holdsStatements block.tree.label.node = true)
    (around : unit ∈ block.around) : liesInHint place unit = false := by
  rw [Bool.eq_false_iff, ne_eq, liesInHint, List.any_eq_true]
  rintro ⟨part, member, isPrefix⟩
  obtain ⟨index, rest, child, rfl, found, role⟩ := mem_annotationsOf member
  have blockHas := has.of_mem_path on
  have unitHas := blockHas.around around
  have childHas : tree.HasPlace (unit.child index child) := .child unitHas found
  -- the part of the function that leads to the annotation is around the statement
  have childPrefix : (unit.child index child).address <+: block.address := by
    have onWay : (unit.child index child).address <+: place.address := by
      refine List.IsPrefix.trans ?_ (List.isPrefixOf_iff_prefix.mp isPrefix)
      simp [Visit.child, List.prefix_append_right_inj]
    refine List.prefix_of_prefix_length_le onWay (has.address_prefix_of_mem_path on) ?_
    have shorter := (blockHas.address_of_mem_around around).2
    simp only [Visit.child, List.length_append, List.length_cons, List.length_nil]
    omega
  have childHolds := holdsStatements_of_mem_path stands blockHas holds
    (blockHas.mem_path_of_isPrefix childHas childPrefix)
  have unitStands := standsForSyntax_of_hasPlace stands unitHas
  exact role (unitStands.role_mem_statementRoles child (List.mem_of_getElem? found) childHolds)

/-- The units that a place lies in are the nearest one and units around that. -/
theorem mem_path_of_mem_unitsAround (has : tree.HasPlace place) (home : homeOf? place = some unit)
    (opened : other ∈ unitsAround place) : other ∈ unit.path := by
  obtain ⟨outer, units⟩ : ∃ outer, unitsAround place = unit :: outer :=
    List.head?_eq_some_iff.mp home
  have around (inner : SyntaxPlace) (listed : inner ∈ unit :: outer) : inner ∈ place.around :=
    mem_around_of_mem_unitsAround (units ▸ listed)
  have sorted : (unit :: outer).Pairwise fun near far =>
      far.address.length < near.address.length := by
    rw [← units]
    exact has.pairwise_around.filter _
  rw [units] at opened
  have otherAround := around other opened
  have unitAround := around unit List.mem_cons_self
  rcases List.mem_cons.mp opened with rfl | farther
  · exact Visit.mem_path_iff.mpr (.inl rfl)
  · have shorter := (List.pairwise_cons.mp sorted).1 other farther
    apply (has.around unitAround).mem_path_of_isPrefix (has.around otherAround)
    exact List.prefix_of_prefix_length_le (has.address_of_mem_around otherAround).1
      (has.address_of_mem_around unitAround).1 (Nat.le_of_lt shorter)

/-- What is bound in a control statement of a function lies in no annotation of a unit around it. -/
theorem notAnnotated_of_innermost (stands : StandsForSyntax tree) (has : tree.HasPlace place)
    (function : kindAt? unit = some .function) (home : homeOf? place = some unit)
    (innermost : place.path.find? (isBlockOf unit) = some block) :
    ∀ other ∈ unitsAround place, liesInHint place other = false := by
  intro other opened
  have on := List.mem_of_find?_eq_some innermost
  have isBlock := List.find?_some innermost
  have blockHas := has.of_mem_path on
  have unitHas :=
    has.around (mem_around_of_mem_unitsAround (mem_unitsAround_of_homeOf?_eq_some home))
  have control := isControl_of_isBlockOf function isBlock
  apply not_liesInHint_of_mem_path stands has on (holdsStatements_of_isControl control)
  -- the unit is around the block and nearest to the place, so the other ones are around the block
  have unitAround : unit ∈ block.around := mem_around_of_mem_unitsAround
    (mem_unitsAround_of_homeOf?_eq_some (homeOf?_eq_some_of_isBlockOf blockHas unitHas isBlock))
  obtain ⟨near, split, -⟩ := blockHas.exists_around_eq_append unitAround
  rw [split]
  apply List.mem_append_right
  exact mem_path_of_mem_unitsAround has home opened

/-! ## Names that are written in a control statement -/

section Written

variable {name : String} {binding : Binding} {form : BindingForm}

theorem SharesBlock.homeOf?_eq (shares : SharesBlock place inner) :
    homeOf? inner = homeOf? place := by
  rw [homeOf?, homeOf?, shares.units]

theorem SharesBlock.receiversAround_eq (shares : SharesBlock place inner) :
    receiversAround inner = receiversAround place := by
  rw [receiversAround, receiversAround, shares.units]

theorem creditAt_eq_write_iff :
    creditAt place name binding = .write ↔ name ∉ receiversAround place ∧ binding ≠ .load := by
  unfold creditAt
  by_cases receiver : name ∈ receiversAround place
  · simp [receiver]
  · by_cases load : binding = .load <;> simp [receiver, load]

theorem isControl_eq_false_of_nameAt? (used : nameAt? place = some (name, binding)) :
    isControl place = false := by
  unfold nameAt? at used
  unfold isControl
  split at used <;> simp_all

/-- The spot of a place is a control statement if that is the innermost block of its nearest
unit. -/
theorem spotOf?_eq_some_block_iff (has : tree.HasPlace place) (unitHas : tree.HasPlace unit)
    (function : kindAt? unit = some .function) (blockHas : tree.HasPlace block)
    (isBlock : isBlockOf unit block = true) :
    spotOf? place = some block.address ↔
      homeOf? place = some unit ∧ place.around.find? (isBlockOf unit) = some block := by
  constructor
  · intro spotEq
    have control := isControl_of_isBlockOf function isBlock
    obtain ⟨homeEq, -⟩ :=
      homeOf?_eq_some_of_spotOf? has unitHas blockHas spotEq (.inr ⟨isBlock, control⟩)
    obtain ⟨home, outer, outerHome, -, around, same, position⟩ := exists_of_spotOf?_eq_some spotEq
    rw [homeEq] at outerHome
    cases outerHome
    obtain rfl := (has.around around).eq_of_address_eq blockHas same
    rcases position with ⟨rfl, -⟩ | found
    · simp [kindAt?_eq_none_of_isControl control] at function
    · exact ⟨homeEq, found⟩
  · rintro ⟨home, found⟩
    simp [spotOf?, home, function, found]

/-- A name is written in a control statement if something uses it there without reading it and it
is no receiver. -/
theorem mem_namesWritten_iff (unitHas : tree.HasPlace unit)
    (function : kindAt? unit = some .function) (blockHas : tree.HasPlace block)
    (isBlock : isBlockOf unit block = true) :
    name ∈ namesWritten tree block ↔
      ∃ place binding, tree.HasPlace place ∧ nameAt? place = some (name, binding) ∧
        binding ≠ .load ∧ homeOf? place = some unit ∧
        place.path.find? (isBlockOf unit) = some block ∧ name ∉ receiversAround place := by
  have path {place : SyntaxPlace} {binding : Binding}
      (used : nameAt? place = some (name, binding)) :
      place.path.find? (isBlockOf unit) = place.around.find? (isBlockOf unit) := by
    rw [Visit.path, List.find?_cons_of_neg]
    intro isBlock
    have control := isControl_of_isBlockOf function isBlock
    rw [isControl_eq_false_of_nameAt? used] at control
    cases control
  rw [namesWritten, namesUsed, NameSet.mem_ofNames, List.mem_filterMap]
  constructor
  · rintro ⟨place, listed, counted⟩
    have has := Tree.hasPlace_of_mem_places listed
    unfold usedName? at counted
    split at counted
    · rename_i other binding used
      obtain ⟨⟨spotEq, credit⟩, equal⟩ := Option.ite_none_right_eq_some.mp counted
      cases equal
      obtain ⟨noReceiver, bound⟩ := creditAt_eq_write_iff.mp credit
      obtain ⟨home, found⟩ :=
        (spotOf?_eq_some_block_iff has unitHas function blockHas isBlock).mp spotEq
      exact ⟨place, binding, has, used, bound, home, (path used).trans found, noReceiver⟩
    · cases counted
  · rintro ⟨place, binding, has, used, bound, home, innermost, noReceiver⟩
    have spotEq := (spotOf?_eq_some_block_iff has unitHas function blockHas isBlock).mpr
      ⟨home, (path used).symm.trans innermost⟩
    have credit := creditAt_eq_write_iff.mpr ⟨noReceiver, bound⟩
    exact ⟨place, has.mem_places, by rw [usedName?_of_spotOf? used spotEq, if_pos credit]⟩

/-- A binding is written where it stands if the analysis sees it, and only such bindings are. -/
theorem mem_namesWritten_iff_isBoundIn (stands : StandsForSyntax tree) (contexts : HasContexts tree)
    (root : ∀ expr, tree.label.node ≠ .expr expr) (unitHas : tree.HasPlace unit)
    (function : kindAt? unit = some .function) (blockHas : tree.HasPlace block)
    (isBlock : isBlockOf unit block = true) :
    name ∈ namesWritten tree block ↔
      ∃ form place, IsBoundIn tree unit block name form place ∧ IsSeen form place ∧
        name ∉ receiversAround place := by
  rw [mem_namesWritten_iff unitHas function blockHas isBlock]
  constructor
  · rintro ⟨inner, binding, has, used, bound, home, innermost, noReceiver⟩
    obtain ⟨place, form, placeHas, notRest, binds, shares⟩ : ∃ place form, tree.HasPlace place ∧
        form ≠ .restOfMapping ∧ Binds place.tree.label.node form name ∧
        SharesBlock place inner := by
      rcases name_or_binds_of_nameAt? used bound with
        ⟨position, context, node, marked⟩ | ⟨form, notRest, binds⟩
      · obtain ⟨place, placeHas, binds, -, shares⟩ := exists_binds_target_of_name stands contexts
          root has node rfl marked (List.mem_singleton_self name)
        exact ⟨place, .target, placeHas, by decide, binds, shares⟩
      · exact ⟨inner, form, has, notRest, binds, .refl inner⟩
    rw [shares.homeOf?_eq] at home
    rw [shares.blocks] at innermost
    rw [shares.receiversAround_eq] at noReceiver
    have notAnnotated := notAnnotated_of_innermost stands placeHas function home innermost
    have scope := (scopeOf?_eq_homeOf? notAnnotated).trans home
    exact ⟨form, place, ⟨placeHas, binds, scope, innermost⟩, ⟨notRest, notAnnotated⟩, noReceiver⟩
  · rintro ⟨form, place, ⟨has, binds, scope, innermost⟩, ⟨notRest, notAnnotated⟩, noReceiver⟩
    obtain ⟨inner, binding, innerHas, used, bound, shares⟩ : ∃ inner binding, tree.HasPlace inner ∧
        nameAt? inner = some (name, binding) ∧ binding ≠ .load ∧ SharesBlock place inner := by
      by_cases isTarget : form = .target
      · subst isTarget
        obtain ⟨target, listed, named⟩ := binds_target_iff.mp binds
        obtain ⟨inner, position, innerHas, shares, node⟩ :=
          exists_name_of_mem_targets stands contexts has listed named
        have marked := contextBelow_target_ne_load place.tree.label.node
        refine ⟨inner, _, innerHas, nameAt?_of_name node, ?_, shares⟩
        cases bindsAs : contextBelow place.tree.label.node .target with
        | load => exact absurd bindsAs marked
        | store | del => decide
      · obtain ⟨binding, used, bound⟩ := exists_nameAt?_of_binds binds isTarget notRest
        exact ⟨place, binding, has, used, bound, .refl place⟩
    refine ⟨inner, binding, innerHas, used, bound, ?_, ?_, ?_⟩
    · rw [shares.homeOf?_eq, ← scopeOf?_eq_homeOf? notAnnotated, scope]
    · rw [shares.blocks, innermost]
    · rwa [shares.receiversAround_eq]

end Written

/-- In an analysis of a module, every function is reported on with its control statements, and a
name is written in one of them exactly if some construct binds it there: the scope of the construct
is that of the function, the control statement is the innermost one of the function that contains
the construct, the name is not the receiver of a method around it, and the binding is one that the
analysis sees, so neither the rest of a mapping pattern nor in an annotation of a function
inside. -/
theorem isWritten_iff_isBoundIn {module : Module} (contexts : HasContexts module.tree)
    (listed : unit ∈ unitPlacesOf .function module.tree)
    (control : block ∈ controlsOf module.tree unit) (name : String) :
    functionAt module.tree unit ∈ closedUnits module.tree ∧
    ((∃ index, controlBlockAt module.tree block index ∈ (functionAt module.tree unit).blocks ∧
        name ∈ (controlBlockAt module.tree block index).writes) ↔
      ∃ form place, IsBoundIn module.tree unit block name form place ∧ IsSeen form place ∧
        name ∉ receiversAround place) := by
  have stands : StandsForSyntax module.tree := .module module
  have root (expr : Expr) : module.tree.label.node ≠ .expr expr := Node.noConfusion
  obtain ⟨late, isUnit⟩ := List.mem_filter.mp listed
  obtain ⟨blockLate, conditions⟩ := List.mem_filter.mp control
  have function : kindAt? unit = some .function := by simpa using isUnit
  have isBlock : isBlockOf unit block = true := by
    rw [isBlockOf, function]
    exact conditions
  have written : name ∈ namesWritten module.tree block ↔ _ :=
    mem_namesWritten_iff_isBoundIn stands contexts root
      (Tree.hasPlace_of_mem_places (Visit.mem_latePlaces.mp late)) function
      (Tree.hasPlace_of_mem_places (Visit.mem_latePlaces.mp blockLate)) isBlock
  constructor
  · rw [← unitAt_eq_functionAt function, closedUnits_eq stands]
    refine List.mem_map_of_mem (List.mem_filter.mpr ⟨late, ?_⟩)
    rw [function, Option.isSome_some]
  · rw [← written]
    constructor
    · rintro ⟨index, -, member⟩
      exact member
    · intro member
      have used : usesNames module.tree block = true := by
        have nonempty := List.isEmpty_eq_false_iff.mpr (List.ne_nil_of_mem member)
        simp [usesNames, nonempty]
      have kept : block ∈ (controlsOf module.tree unit).filter (usesNames module.tree) :=
        List.mem_filter.mpr ⟨control, used⟩
      obtain ⟨index, found⟩ := List.getElem?_of_mem kept
      refine ⟨index, List.mem_map.mpr ⟨(block, index), ?_, rfl⟩, member⟩
      exact List.mem_zipIdx_iff_getElem?.mpr found

/-! ## The rest of a mapping -/

/-- A pattern for a mapping with one key, which binds the value there and the rest. -/
def restPattern : Pattern :=
  .mapping ⟨3, 13, some 3⟩ [.constant ⟨3, 14, some 3⟩ (.str "kind") none]
    [.capture ⟨3, 22, some 3⟩ none (some "kind")] (some "rest")

/-- A match statement on an event with this pattern. -/
def restMatch : Stmt :=
  .matchStmt ⟨2, 4, some 4⟩ (.name ⟨2, 10, some 2⟩ "event" .load)
    [.mk restPattern none [.passStmt ⟨4, 12, some 4⟩]]

/-- A function of one parameter that consists of this statement. -/
def restFunction : Stmt :=
  .functionDef ⟨1, 0, some 4⟩ false "handle"
    (.mk [] [.mk ⟨1, 11, some 1⟩ "event" none] none [] [] none []) [restMatch] [] none

/-- A module that consists of this function. -/
def restModule : Module := ⟨[restFunction]⟩

/-- Where the function stands. -/
def restUnit : SyntaxPlace := (Visit.whole restModule.tree).child 0 (restFunction.tree .body)

/-- Where the match statement stands. -/
def restBlock : SyntaxPlace := restUnit.child 1 (restMatch.tree .body)

/-- Where the pattern stands. -/
def restPlace : SyntaxPlace :=
  (restBlock.child 1 (MatchCase.mk restPattern none [.passStmt ⟨4, 12, some 4⟩]).tree).child 0
    restPattern.tree

/-- The value is written in the match statement and the rest is not, though both are bound there. -/
theorem not_isWritten_restModule :
    (∃ index, controlBlockAt restModule.tree restBlock index ∈
        (functionAt restModule.tree restUnit).blocks ∧
      "kind" ∈ (controlBlockAt restModule.tree restBlock index).writes) ∧
    IsBoundIn restModule.tree restUnit restBlock "rest" .restOfMapping restPlace ∧
    "rest" ∉ receiversAround restPlace ∧
    ¬∃ index, controlBlockAt restModule.tree restBlock index ∈
        (functionAt restModule.tree restUnit).blocks ∧
      "rest" ∈ (controlBlockAt restModule.tree restBlock index).writes := by
  have contexts : HasContexts restModule.tree := by decide +kernel
  have unitHas : restModule.tree.HasPlace restUnit := .child .whole rfl
  have blockHas : restModule.tree.HasPlace restBlock := .child unitHas rfl
  have placeHas : restModule.tree.HasPlace restPlace := .child (.child blockHas rfl) rfl
  have unit : restUnit ∈ unitPlacesOf .function restModule.tree :=
    List.mem_filter.mpr ⟨unitHas.mem_latePlaces, by decide +kernel⟩
  have control : restBlock ∈ controlsOf restModule.tree restUnit :=
    List.mem_filter.mpr ⟨blockHas.mem_latePlaces, by decide +kernel⟩
  refine ⟨?_, ⟨placeHas, .restOfMapping _ _ _ rfl, rfl, rfl⟩, by decide +kernel, ?_⟩
  · obtain ⟨-, written⟩ := isWritten_iff_isBoundIn contexts unit control "kind"
    refine written.mpr ⟨.capture, restPlace.child 1 _, ⟨.child placeHas rfl, .capture _ _ rfl, rfl,
      rfl⟩, ⟨by decide, by decide +kernel⟩, by decide +kernel⟩
  · rintro ⟨index, -, member⟩
    have absent : "rest" ∉ namesWritten restModule.tree restBlock := by decide +kernel
    exact absent member

end DesignLint.Cohesion
