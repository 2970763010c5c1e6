import DesignLint.Proofs.Cohesion.Bindings
import DesignLint.Proofs.Syntax.FunctionParts

/-!
# The scope of a function

Where the constructs stand that bind names in the scope of a function. The parameters and the body
of a function belong to its scope. Its decorators, the defaults of its parameters and its
annotations do not, as they are evaluated outside.
-/

namespace DesignLint.Cohesion

open DesignLint.Syntax

variable {tree : SyntaxTree} {place unit : SyntaxPlace} {form : BindingForm} {name : String}

theorem kindAt?_isSome (place : SyntaxPlace) :
    (kindAt? place).isSome = hasOwnScope place.tree.label := by
  rw [kindAt?_eq, hasOwnScope]
  cases place.tree.label.node with
  | stmt stmt => cases stmt <;> rfl
  | expr expr => cases expr <;> rfl
  | _ => rfl

theorem hasOwnScope_of_kindAt? {kind : UnitKind} (isUnit : kindAt? place = some kind) :
    hasOwnScope place.tree.label = true := by
  rw [← kindAt?_isSome, isUnit, Option.isSome_some]

theorem exists_parametersOf (isFunction : kindAt? place = some .function) :
    ∃ parameters, parametersOf place.tree = some parameters := by
  rw [kindAt?_eq] at isFunction
  unfold parametersOf
  split at isFunction <;> simp_all

/-! ## The nearest scope -/

/-- A construct binds in its nearest scope, unless it is evaluated outside of that. -/
theorem scopeOf?_eq_nearest_iff (nearest : nearestScope? place = some unit) :
    scopeOf? place = some unit ↔
      liesInHeader place unit = false ∧ liesInHint place unit = false := by
  obtain ⟨isScope, near, far, split, skipped⟩ := List.find?_eq_some_iff_append.mp nearest
  have flat : scopeOf? place =
      place.around.find? fun outer => isUnitAround place outer && !liesInHint place outer := by
    simp only [scopeOf?, unitsAround, List.find?_filter, Bool.decide_and, Bool.decide_eq_true]
  rw [flat]
  constructor
  · intro found
    have around := List.find?_some found
    simp only [isUnitAround, Bool.and_eq_true, Bool.not_eq_eq_eq_not, Bool.not_true] at around
    exact ⟨around.1.2, around.2⟩
  · rintro ⟨notHeader, notHint⟩
    refine List.find?_eq_some_iff_append.mpr ⟨?_, near, far, split, fun other before => ?_⟩
    · simp [isUnitAround, kindAt?_isSome, isScope, notHeader, notHint]
    · have noScope := skipped other before
      simp only [Bool.not_eq_eq_eq_not, Bool.not_true] at noScope
      simp [isUnitAround, kindAt?_isSome, noScope]

/-! ## What is evaluated outside -/

/-- The addresses below a construct of what is evaluated outside of it. -/
def outsideParts (unit : SyntaxPlace) : List Address :=
  (headerAt unit).map Prod.fst ++ annotationsOf unit.tree

theorem liesInHeader_or_liesInHint_iff :
    liesInHeader place unit = true ∨ liesInHint place unit = true ↔
      ∃ part ∈ outsideParts unit, unit.address ++ part <+: place.address := by
  simp only [liesInHeader_iff, headerAddressesAt, headerAddresses, liesInHint, List.any_eq_true,
    List.isPrefixOf_iff_prefix, outsideParts, List.mem_append, List.mem_map]
  constructor
  · rintro (⟨_, ⟨part, listed, rfl⟩, isPrefix⟩ | ⟨part, listed, isPrefix⟩)
    · exact ⟨part.1, .inl ⟨part, listed, rfl⟩, isPrefix⟩
    · exact ⟨part, .inr listed, isPrefix⟩
  · rintro ⟨_, ⟨part, listed, rfl⟩ | listed, isPrefix⟩
    · exact .inl ⟨_, ⟨part, listed, rfl⟩, isPrefix⟩
    · exact .inr ⟨_, listed, isPrefix⟩

/-- What a function evaluates outside: its decorators, its annotations, and the defaults and hints
of its parameters. -/
inductive IsOutsidePart (unit : SyntaxTree) : Address → Prop where
  | direct {index : Nat} {part : SyntaxTree} (found : unit.children[index]? = some part)
      (role : part.label.role = .decorator ∨ part.label.role = .returns) :
      IsOutsidePart unit [index]
  | default {outer inner : Nat} {holder part : SyntaxTree}
      (foundHolder : unit.children[outer]? = some holder)
      (holderRole : holder.label.role = .parameters) (found : holder.children[inner]? = some part)
      (role : part.label.role = .default ∨ part.label.role = .keywordDefault) :
      IsOutsidePart unit [outer, inner]
  | hint {outer middle inner : Nat} {holder parameter part : SyntaxTree}
      (foundHolder : unit.children[outer]? = some holder)
      (holderRole : holder.label.role = .parameters)
      (foundParameter : holder.children[middle]? = some parameter)
      (parameterRole : parameter.label.role = .parameter)
      (found : parameter.children[inner]? = some part) (role : part.label.role = .hint) :
      IsOutsidePart unit [outer, middle, inner]

theorem mem_map_headerChildren_iff {role : Role} {tree : SyntaxTree} {part : Address} :
    part ∈ (headerChildren role tree).map Prod.fst ↔
      ∃ index child, tree.children[index]? = some child ∧ child.label.role = role ∧
        part = [index] := by
  simp only [headerChildren, List.map_map, List.mem_map, Prod.exists, Function.comp_apply,
    mem_childrenAs_iff, and_assoc, eq_comm]

theorem mem_map_headerGrandchildren_iff {outer inner : Role} {tree : SyntaxTree} {part : Address} :
    part ∈ (headerGrandchildren outer inner tree).map Prod.fst ↔
      ∃ index holder next child, tree.children[index]? = some holder ∧
        holder.label.role = outer ∧ holder.children[next]? = some child ∧
        child.label.role = inner ∧ part = [index, next] := by
  simp only [headerGrandchildren, List.map_flatMap, List.mem_flatMap, List.map_map, List.mem_map,
    Prod.exists, Function.comp_apply, mem_childrenAs_iff, and_assoc, exists_and_left, eq_comm]

theorem mem_map_defaultsOf_iff {tree : SyntaxTree} {part : Address} :
    part ∈ (defaultsOf tree).map Prod.fst ↔
      ∃ index holder next child, tree.children[index]? = some holder ∧
        holder.label.role = .parameters ∧ holder.children[next]? = some child ∧
        (child.label.role = .default ∨ child.label.role = .keywordDefault) ∧
        part = [index, next] := by
  simp only [defaultsOf, List.map_append, List.mem_append, mem_map_headerGrandchildren_iff]
  constructor
  · rintro (⟨index, holder, next, child, foundHolder, holderRole, found, role, rfl⟩ |
      ⟨index, holder, next, child, foundHolder, holderRole, found, role, rfl⟩)
    · exact ⟨index, holder, next, child, foundHolder, holderRole, found, .inl role, rfl⟩
    · exact ⟨index, holder, next, child, foundHolder, holderRole, found, .inr role, rfl⟩
  · rintro ⟨index, holder, next, child, foundHolder, holderRole, found, role | role, rfl⟩
    · exact .inl ⟨index, holder, next, child, foundHolder, holderRole, found, role, rfl⟩
    · exact .inr ⟨index, holder, next, child, foundHolder, holderRole, found, role, rfl⟩

theorem mem_annotationsOf_iff {tree : SyntaxTree} {part : Address} :
    part ∈ annotationsOf tree ↔
      (∃ index child, tree.children[index]? = some child ∧ child.label.role = .returns ∧
        part = [index]) ∨
      ∃ outer holder middle parameter inner child, tree.children[outer]? = some holder ∧
        holder.label.role = .parameters ∧ holder.children[middle]? = some parameter ∧
        parameter.label.role = .parameter ∧ parameter.children[inner]? = some child ∧
        child.label.role = .hint ∧ part = [outer, middle, inner] := by
  simp only [annotationsOf, List.mem_append, List.mem_map, List.mem_flatMap, Prod.exists,
    mem_childrenAs_iff, and_assoc, exists_and_left, eq_comm]

/-- Only function definitions have decorators. -/
theorem isFunctionDef_of_decorator (stands : StandsForSyntax tree) (has : tree.HasPlace unit)
    (isFunction : kindAt? unit = some .function) {part : SyntaxTree}
    (listed : part ∈ unit.tree.children) (role : part.label.role = .decorator) :
    isFunctionDef unit.tree = true := by
  obtain ⟨parameters, isParameters⟩ := exists_parametersOf isFunction
  obtain ⟨rest, children, roles⟩ :=
    exists_children_of_parametersOf (standsForSyntax_of_hasPlace stands has) isParameters
  rw [children] at listed
  rcases List.mem_cons.mp listed with rfl | inRest
  · simp at role
  · rcases roles part inRest with body | ⟨isDefinition, -⟩
    · simp [role] at body
    · exact isDefinition

theorem mem_map_headerAt_iff (stands : StandsForSyntax tree) (has : tree.HasPlace unit)
    (isFunction : kindAt? unit = some .function) {part : Address} :
    part ∈ (headerAt unit).map Prod.fst ↔
      part ∈ (headerChildren .decorator unit.tree).map Prod.fst ∨
        part ∈ (defaultsOf unit.tree).map Prod.fst := by
  have decorated (isDefinition : isFunctionDef unit.tree = true) :
      headerAt unit = functionHeader unit.tree := by
    rw [headerAt_eq]
    unfold isFunctionDef at isDefinition
    split at isDefinition <;> simp_all
  have undecorated (noDefinition : ¬isFunctionDef unit.tree = true) :
      headerAt unit = defaultsOf unit.tree := by
    rw [kindAt?_eq] at isFunction
    rw [headerAt_eq]
    unfold isFunctionDef at noDefinition
    split at isFunction <;> simp_all
  by_cases isDefinition : isFunctionDef unit.tree = true
  · rw [decorated isDefinition, functionHeader, List.map_append, List.mem_append]
  · rw [undecorated isDefinition, or_iff_right]
    intro listed
    obtain ⟨index, child, found, role, -⟩ := mem_map_headerChildren_iff.mp listed
    exact isDefinition
      (isFunctionDef_of_decorator stands has isFunction (List.mem_of_getElem? found) role)

theorem mem_outsideParts_iff (stands : StandsForSyntax tree) (has : tree.HasPlace unit)
    (isFunction : kindAt? unit = some .function) {part : Address} :
    part ∈ outsideParts unit ↔ IsOutsidePart unit.tree part := by
  rw [outsideParts, List.mem_append, mem_map_headerAt_iff stands has isFunction,
    mem_map_headerChildren_iff, mem_map_defaultsOf_iff, mem_annotationsOf_iff]
  constructor
  · rintro ((⟨index, child, found, role, rfl⟩ |
        ⟨outer, holder, inner, child, foundHolder, holderRole, found, role, rfl⟩) |
      ⟨index, child, found, role, rfl⟩ |
        ⟨outer, holder, middle, parameter, inner, child, foundHolder, holderRole, foundParameter,
          parameterRole, found, role, rfl⟩)
    · exact .direct found (.inl role)
    · exact .default foundHolder holderRole found role
    · exact .direct found (.inr role)
    · exact .hint foundHolder holderRole foundParameter parameterRole found role
  · intro isOutside
    cases isOutside with
    | direct found role =>
        rcases role with role | role
        · exact .inl (.inl ⟨_, _, found, role, rfl⟩)
        · exact .inr (.inl ⟨_, _, found, role, rfl⟩)
    | default foundHolder holderRole found role =>
        exact .inl (.inr ⟨_, _, _, _, foundHolder, holderRole, found, role, rfl⟩)
    | hint foundHolder holderRole foundParameter parameterRole found role =>
        exact .inr (.inr ⟨_, _, _, _, _, _, foundHolder, holderRole, foundParameter, parameterRole,
          found, role, rfl⟩)

/-! ## What belongs to the scope -/

/-- The parameters of a construct. -/
def parameterPlaces (unit : SyntaxPlace) : List SyntaxPlace :=
  (unit.children.filter fun holder => holder.tree.label.role == .parameters).flatMap fun holder =>
    holder.children.filter fun part => part.tree.label.role == .parameter

theorem mem_parameterPlaces_iff :
    place ∈ parameterPlaces unit ↔
      ∃ outer holder inner part, unit.tree.children[outer]? = some holder ∧
        holder.label.role = .parameters ∧ holder.children[inner]? = some part ∧
        part.label.role = .parameter ∧ place = (unit.child outer holder).child inner part := by
  simp only [parameterPlaces, List.mem_flatMap, List.mem_filter, Visit.mem_children_iff, beq_iff_eq]
  constructor
  · rintro ⟨_, ⟨⟨outer, holder, foundHolder, rfl⟩, holderRole⟩, ⟨inner, part, found, rfl⟩, role⟩
    exact ⟨outer, holder, inner, part, foundHolder, holderRole, found, role, rfl⟩
  · rintro ⟨outer, holder, inner, part, foundHolder, holderRole, found, role, rfl⟩
    exact ⟨_, ⟨⟨outer, holder, foundHolder, rfl⟩, holderRole⟩, ⟨inner, part, found, rfl⟩, role⟩

theorem hasPlace_of_mem_parameterPlaces (has : tree.HasPlace unit)
    (listed : place ∈ parameterPlaces unit) : tree.HasPlace place := by
  obtain ⟨outer, holder, inner, part, foundHolder, -, found, -, rfl⟩ :=
    mem_parameterPlaces_iff.mp listed
  exact .child (.child has foundHolder) found

/-- The parameters of a function, one by one. -/
theorem mem_parameterPlaces_iff_of_parametersOf (stands : StandsForSyntax tree)
    (has : tree.HasPlace unit) {parameters : Parameters}
    (isFunction : parametersOf unit.tree = some parameters) :
    place ∈ parameterPlaces unit ↔
      ∃ index, ∃ parameter : Parameter, parameters.tree.children[index]? = some parameter.tree ∧
        place = (unit.child 0 parameters.tree).child index parameter.tree := by
  obtain ⟨rest, children, roles⟩ :=
    exists_children_of_parametersOf (standsForSyntax_of_hasPlace stands has) isFunction
  rw [mem_parameterPlaces_iff, children]
  constructor
  · rintro ⟨outer, holder, index, part, foundHolder, holderRole, found, role, rfl⟩
    cases outer with
    | zero =>
        obtain rfl : parameters.tree = holder := by simpa using foundHolder
        rcases parameters.exists_parameter_or_default part (List.mem_of_getElem? found) with
          ⟨parameter, rfl⟩ | other
        · exact ⟨index, parameter, found, rfl⟩
        · simp [role] at other
    | succ outer =>
        rw [List.getElem?_cons_succ] at foundHolder
        have other := roles holder (List.mem_of_getElem? foundHolder)
        simp [holderRole] at other
  · rintro ⟨index, parameter, found, rfl⟩
    exact ⟨0, parameters.tree, index, parameter.tree, rfl, by rw [Parameters.label_tree], found,
      by rw [Parameter.label_tree], rfl⟩

/-- What is evaluated outside lies in no part of the body. -/
theorem IsOutsidePart.exists_eq_cons {unit : SyntaxTree} {part : Address}
    (isOutside : IsOutsidePart unit part) : ∃ index rest child, part = index :: rest ∧
      unit.children[index]? = some child ∧ child.label.role ≠ .body := by
  cases isOutside with
  | direct found role =>
      refine ⟨_, _, _, rfl, found, ?_⟩
      rcases role with role | role <;> simp [role]
  | default foundHolder holderRole => exact ⟨_, _, _, rfl, foundHolder, by simp [holderRole]⟩
  | hint foundHolder holderRole => exact ⟨_, _, _, rfl, foundHolder, by simp [holderRole]⟩

/-- A parameter is not evaluated outside. -/
theorem not_isPrefix_of_mem_parameterPlaces (listed : place ∈ parameterPlaces unit) {part : Address}
    (isOutside : IsOutsidePart unit.tree part) : ¬unit.address ++ part <+: place.address := by
  obtain ⟨outer, holder, inner, child, foundHolder, holderRole, found, role, rfl⟩ :=
    mem_parameterPlaces_iff.mp listed
  intro isPrefix
  have below : part <+: [outer, inner] := by
    simpa [Visit.child, List.prefix_append_right_inj] using isPrefix
  cases isOutside with
  | direct foundPart partRole =>
      obtain rfl := (List.cons_prefix_cons.mp below).1
      rw [foundHolder] at foundPart
      cases foundPart
      simp [holderRole] at partRole
  | default foundOther _ foundPart partRole =>
      obtain ⟨rfl, rest⟩ := List.cons_prefix_cons.mp below
      obtain rfl := (List.cons_prefix_cons.mp rest).1
      rw [foundHolder] at foundOther
      cases foundOther
      rw [found] at foundPart
      cases foundPart
      simp [role] at partRole
  | hint =>
      have longer := below.length_le
      simp at longer

/-- What lies in the body is not evaluated outside. -/
theorem not_isPrefix_of_mem_bodyPlaces (has : tree.HasPlace place) {body : SyntaxPlace}
    (listed : body ∈ bodyPlaces unit) (on : body ∈ place.path) {part : Address}
    (isOutside : IsOutsidePart unit.tree part) : ¬unit.address ++ part <+: place.address := by
  obtain ⟨index, subtree, found, role, rfl⟩ := mem_bodyPlaces_iff.mp listed
  obtain ⟨first, rest, child, rfl, foundChild, notBody⟩ := isOutside.exists_eq_cons
  intro isPrefix
  have firstPrefix : unit.address ++ [first] <+: place.address := by
    refine List.IsPrefix.trans ?_ isPrefix
    simp [List.prefix_append_right_inj]
  have bodyPrefix : unit.address ++ [index] <+: place.address := has.address_prefix_of_mem_path on
  have same : unit.address ++ [first] = unit.address ++ [index] :=
    List.prefix_of_prefix_length_le firstPrefix bodyPrefix (by simp) |>.eq_of_length (by simp)
  obtain rfl : first = index := by simpa using same
  rw [found] at foundChild
  cases foundChild
  exact notBody role

theorem not_binds_parameters {parameters : Parameters} :
    ¬Binds (.parameters parameters) form name := by
  intro binds
  cases binds with
  | target listed => cases listed

/-- What binds a name and is not evaluated outside of a function is a parameter of it or lies in its
body. -/
theorem mem_parameterPlaces_or_exists_bodyPlace (stands : StandsForSyntax tree)
    (has : tree.HasPlace place) (isFunction : kindAt? unit = some .function)
    (around : unit ∈ place.around) (binds : Binds place.tree.label.node form name)
    (notOutside : ∀ part, IsOutsidePart unit.tree part → ¬unit.address ++ part <+: place.address) :
    place ∈ parameterPlaces unit ∨ ∃ body ∈ bodyPlaces unit, body ∈ place.path := by
  obtain ⟨parameters, isParameters⟩ := exists_parametersOf isFunction
  obtain ⟨rest, children, roles⟩ := exists_children_of_parametersOf
    (standsForSyntax_of_hasPlace stands (has.around around)) isParameters
  obtain ⟨outer, holder, foundHolder, onHolder⟩ := has.exists_child_mem_path around
  have holderPrefix := has.address_prefix_of_mem_path onHolder
  have listed := List.mem_of_getElem? foundHolder
  rw [children, List.mem_cons] at listed
  rcases listed with rfl | inRest
  · left
    have holderRole : parameters.tree.label.role = .parameters := by rw [Parameters.label_tree]
    -- the place is below what holds the parameters, as that binds nothing itself
    rcases Visit.mem_path_iff.mp onHolder with same | inHolder
    · rw [← same] at binds
      simp only [Visit.child, Parameters.label_tree] at binds
      exact absurd binds not_binds_parameters
    obtain ⟨inner, part, foundPart, onPart⟩ := has.exists_child_mem_path inHolder
    have partPrefix : unit.address ++ [outer, inner] <+: place.address := by
      simpa [Visit.child] using has.address_prefix_of_mem_path onPart
    rcases parameters.exists_parameter_or_default part (List.mem_of_getElem? foundPart) with
      ⟨parameter, rfl⟩ | role
    · have partRole : parameter.tree.label.role = .parameter := by rw [Parameter.label_tree]
      rcases Visit.mem_path_iff.mp onPart with same | inParameter
      · exact mem_parameterPlaces_iff.mpr
          ⟨outer, _, inner, _, foundHolder, holderRole, foundPart, partRole, same.symm⟩
      · obtain ⟨next, hint, foundHint, onHint⟩ := has.exists_child_mem_path inParameter
        have hintPrefix : unit.address ++ [outer, inner, next] <+: place.address := by
          simpa [Visit.child] using has.address_prefix_of_mem_path onHint
        have hintRole := parameter.role_of_mem_children hint (List.mem_of_getElem? foundHint)
        exact absurd hintPrefix (notOutside _
          (.hint foundHolder holderRole foundPart partRole foundHint hintRole))
    · exact absurd partPrefix (notOutside _ (.default foundHolder holderRole foundPart role))
  · rcases roles holder inRest with body | ⟨-, evaluated⟩
    · exact .inr ⟨_, mem_bodyPlaces_iff.mpr ⟨outer, holder, foundHolder, body, rfl⟩, onHolder⟩
    · exact absurd holderPrefix (notOutside _ (.direct foundHolder evaluated))

/-- A construct binds in its nearest scope, if that is a function, if it is a parameter of the
function or lies in the body. -/
theorem scopeOf?_eq_some_iff_mem (stands : StandsForSyntax tree) (has : tree.HasPlace place)
    (isFunction : kindAt? unit = some .function) (nearest : nearestScope? place = some unit)
    (binds : Binds place.tree.label.node form name) :
    scopeOf? place = some unit ↔ place ∈ parameterPlaces unit ∨ place ∈ ownPlaces unit := by
  have around : unit ∈ place.around := List.mem_of_find?_eq_some nearest
  have unitHas := has.around around
  have outside : scopeOf? place = some unit ↔
      ∀ part, IsOutsidePart unit.tree part → ¬unit.address ++ part <+: place.address := by
    rw [scopeOf?_eq_nearest_iff nearest, Bool.eq_false_iff, Bool.eq_false_iff, ne_eq, ne_eq,
      ← not_or, liesInHeader_or_liesInHint_iff]
    simp only [mem_outsideParts_iff stands unitHas isFunction, not_exists, not_and]
  rw [outside, mem_ownPlaces_iff unitHas]
  constructor
  · intro notOutside
    rcases mem_parameterPlaces_or_exists_bodyPlace stands has isFunction around binds
      notOutside with parameter | inBody
    · exact .inl parameter
    · exact .inr ⟨has, nearest, inBody⟩
  · rintro (parameter | ⟨-, -, body, listed, on⟩) part isOutside
    · exact not_isPrefix_of_mem_parameterPlaces parameter isOutside
    · exact not_isPrefix_of_mem_bodyPlaces has listed on isOutside

theorem nearestScope?_of_mem_parameterPlaces (stands : StandsForSyntax tree)
    (has : tree.HasPlace unit) (isScope : hasOwnScope unit.tree.label = true)
    (listed : place ∈ parameterPlaces unit) : nearestScope? place = some unit := by
  obtain ⟨outer, holder, inner, part, foundHolder, holderRole, -, -, rfl⟩ :=
    mem_parameterPlaces_iff.mp listed
  obtain ⟨parameters, node⟩ := (fits_of_child stands has foundHolder).parameters holderRole
  have holderScope : hasOwnScope holder.label = false := by simp [hasOwnScope, node]
  rw [nearestScope?, Visit.child_around, Visit.path, List.find?_cons_of_neg (by simp [Visit.child,
    holderScope]), Visit.child_around, Visit.path, List.find?_cons_of_pos (by exact isScope)]

/-- A parameter is one of its nearest scope. -/
theorem mem_parameterPlaces_of_parameter (stands : StandsForSyntax tree)
    (root : tree.label.role = .root) (has : tree.HasPlace place) {parameter : Parameter}
    (node : place.tree.label.node = .parameter parameter)
    (nearest : nearestScope? place = some unit) : place ∈ parameterPlaces unit := by
  have role : place.tree.label.role = .parameter := by
    rw [(standsForSyntax_of_hasPlace stands has).eq_tree, node, Node.tree, Parameter.label_tree]
  cases has with
  | whole => simp [Visit.whole, root] at role
  | @child above inner part aboveHas found =>
      have aboveStands := standsForSyntax_of_hasPlace stands aboveHas
      have aboveRole := (aboveStands.role_of_mem_children part (List.mem_of_getElem? found)).1 role
      cases aboveHas with
      | whole => simp [Visit.whole, root] at aboveRole
      | @child function outer holder functionHas foundHolder =>
          have functionStands := standsForSyntax_of_hasPlace stands functionHas
          have isScope := (functionStands.role_of_mem_children holder
            (List.mem_of_getElem? foundHolder)).2 aboveRole
          have listed : (function.child outer holder).child inner part ∈
              parameterPlaces function :=
            mem_parameterPlaces_iff.mpr
              ⟨outer, holder, inner, part, foundHolder, aboveRole, found, role, rfl⟩
          have nearestFunction :=
            nearestScope?_of_mem_parameterPlaces stands functionHas isScope listed
          rw [nearest] at nearestFunction
          obtain rfl := Option.some.inj nearestFunction
          exact listed

/-- A place lies in the own scope of a construct if what it lies in and shares its block with
does. -/
theorem SharesBlock.mem_ownPlaces_iff {inner : SyntaxPlace} (shares : SharesBlock place inner)
    (has : tree.HasPlace inner) (unitHas : tree.HasPlace unit) :
    inner ∈ ownPlaces unit ↔ place ∈ ownPlaces unit := by
  have placeHas := has.of_mem_path shares.inside
  rw [Syntax.mem_ownPlaces_iff unitHas, Syntax.mem_ownPlaces_iff unitHas, shares.scope]
  constructor
  · rintro ⟨-, nearest, body, listed, on⟩
    refine ⟨placeHas, nearest, body, listed, ?_⟩
    obtain ⟨index, subtree, found, -, rfl⟩ := mem_bodyPlaces_iff.mp listed
    apply placeHas.mem_path_of_isPrefix (.child unitHas found)
    -- the part of the body is right below the unit, which is around the place
    have shorter := (placeHas.address_of_mem_around (List.mem_of_find?_eq_some nearest)).2
    refine List.prefix_of_prefix_length_le (has.address_prefix_of_mem_path on)
      (has.address_prefix_of_mem_path shares.inside) ?_
    have oneLonger : (unit.child index subtree).address.length = unit.address.length + 1 := by
      simp [Visit.child]
    rw [oneLonger]
    exact shorter
  · rintro ⟨-, nearest, body, listed, on⟩
    refine ⟨has, nearest, body, listed, ?_⟩
    apply has.mem_path_of_isPrefix (placeHas.of_mem_path on)
    exact (placeHas.address_prefix_of_mem_path on).trans
      (has.address_prefix_of_mem_path shares.inside)

end DesignLint.Cohesion
