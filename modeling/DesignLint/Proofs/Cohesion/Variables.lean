import DesignLint.Proofs.Cohesion.FunctionScope
import Mathlib.Data.List.Find

/-!
# Variables

Which variable a name stands for, by the rules of the language. Functions, lambdas, classes and
comprehensions have scopes. A name means what the nearest scope makes of it that has something to
say about it; a class only speaks for its own body. Names are private to a class if they begin with
two underscores and do not end so.
-/

namespace DesignLint.Cohesion

open DesignLint.Syntax

/-! ## Scopes over a place -/

/-- Whether a comprehension stands at a place. -/
def isComprehension (place : SyntaxPlace) : Bool :=
  match place.tree.label.node with
  | .expr (.listComp ..) | .expr (.setComp ..) | .expr (.dictComp ..)
  | .expr (.generatorExp ..) => true
  | _ => false

/-- The addresses below a comprehension of what its first clause goes through. -/
def firstIterable (comprehension : SyntaxTree) : List Address :=
  ((childrenAs .clause comprehension).take 1).flatMap fun (outer, clause) =>
    (childrenAs .iter clause).map fun (inner, _) => [outer, inner]

/-- Whether a place lies in what the first clause of a comprehension goes through. -/
def liesInFirstIterable (place comprehension : SyntaxPlace) : Bool :=
  (firstIterable comprehension.tree).any fun part =>
    (comprehension.address ++ part).isPrefixOf place.address

/-- Whether a construct around a place has a scope that the place is in. Headers and annotations of
units and the first iterable of a comprehension are evaluated outside. -/
def isScopeOver (place outer : SyntaxPlace) : Bool :=
  isUnitAround place outer && !liesInHint place outer
    || isComprehension outer && !liesInFirstIterable place outer

/-- The scopes that a place is in, nearest first. -/
def scopesOver (place : SyntaxPlace) : List SyntaxPlace := place.around.filter (isScopeOver place)

/-- The scopes in which a name at a place is looked up, nearest first. The scope of a class is seen
from its body only. -/
def scopesSeenFrom (place : SyntaxPlace) : List SyntaxPlace :=
  (scopesOver place).take 1
    ++ ((scopesOver place).drop 1).filter fun scope => !isClass scope.tree

/-! ## Private names -/

/-- A name as it is known outside of a class. -/
def mangled (className name : String) : String :=
  let owner := className.toList.dropWhile (· == '_')
  let underscores := ['_', '_']
  if underscores.isPrefixOf name.toList && !underscores.isSuffixOf name.toList
      && !name.toList.contains '.' && !owner.isEmpty then
    "_" ++ String.ofList owner ++ name
  else name

/-- The nearest class that has a place in its body. -/
def classOver? (place : SyntaxPlace) : Option SyntaxPlace :=
  place.around.find? fun outer => isClass outer.tree && !liesInHeader place outer

/-- What a name at a place is in full. -/
def fullName (place : SyntaxPlace) (name : String) : String :=
  match (classOver? place).bind fun owner => definedName owner.tree with
  | some className => mangled className name
  | none => name

/-! ## What a scope makes of a name -/

/-- The name that a construct binds or unbinds itself. -/
def boundName? : Node → Option String
  | .expr (.name _ id .store) | .expr (.name _ id .del) => some id
  | .parameter parameter => some parameter.name
  | .stmt (.functionDef _ _ name ..) | .stmt (.classDef _ name ..) => some name
  | .importAlias item => if item.boundName = "*" then none else some item.boundName
  | .handler (.mk _ _ name _) => name
  | .pattern (.capture _ _ name) | .pattern (.star _ name) | .pattern (.mapping _ _ _ name) => name
  | _ => none

/-- Whether a place is the target of an assignment expression. -/
def isNamedTarget (place : SyntaxPlace) : Bool :=
  place.tree.label.role == .target
    && nodeAbove place.context.head? matches some (.expr (.namedExpr ..))

/-- The scope in which a construct binds its name. An assignment expression in a comprehension binds
outside. -/
def bindingScope? (place : SyntaxPlace) : Option SyntaxPlace :=
  if isNamedTarget place then (scopesOver place).find? fun scope => !isComprehension scope
  else (scopesOver place).head?

/-- A construct binds or unbinds a name in a scope. -/
structure BindsVariable (scope : SyntaxPlace) (name : String) (place : SyntaxPlace) : Prop where
  named : ∃ written, boundName? place.tree.label.node = some written ∧
    fullName place written = name
  bound : bindingScope? place = some scope

/-- Whether a name is bound or unbound in a scope. -/
def hasBinding (tree : SyntaxTree) (scope : SyntaxPlace) (name : String) : Bool :=
  tree.places.any fun place =>
    (boundName? place.tree.label.node).any (fun written => fullName place written == name)
      && (bindingScope? place).any fun other => other.address == scope.address

/-- The names that a construct declares to be those of the module. -/
def globalNamesOf : Node → List String
  | .stmt (.globalNames _ names) => names
  | _ => []

/-- The names that a construct declares to be those of a function around. -/
def nonlocalNamesOf : Node → List String
  | .stmt (.nonlocalNames _ names) => names
  | _ => []

/-- Whether a name is declared in a scope. -/
def isDeclaredIn (namesOf : Node → List String) (tree : SyntaxTree) (scope : SyntaxPlace)
    (name : String) : Bool :=
  tree.places.any fun place =>
    (namesOf place.tree.label.node).any (fun written => fullName place written == name)
      && (scopesOver place).head?.any fun other => other.address == scope.address

/-- Whether a name is that of a parameter of a scope. -/
def isParameterOf (scope : SyntaxPlace) (name : String) : Bool :=
  (parameterPlaces scope).any fun place =>
    (boundName? place.tree.label.node).any fun written => fullName place written == name

/-- What a scope makes of a name: a variable of its own, one of the module, or what it is
outside. -/
inductive Standing where
  | own | global | outer
deriving DecidableEq, Repr

/-- What a scope makes of a name. -/
def standing (tree : SyntaxTree) (scope : SyntaxPlace) (name : String) : Standing :=
  if isParameterOf scope name then .own
  else if isDeclaredIn globalNamesOf tree scope name then .global
  else if isDeclaredIn nonlocalNamesOf tree scope name then .outer
  else if hasBinding tree scope name then .own
  else .outer

/-! ## Variables -/

/-- The variable that a name at a place stands for, if it is one of a scope: the scope, and the name
in full. -/
def variableOf? (tree : SyntaxTree) (place : SyntaxPlace) (name : String) :
    Option (SyntaxPlace × String) :=
  let full := fullName place name
  ((scopesSeenFrom place).find? fun scope => standing tree scope full != .outer).bind fun scope =>
    if standing tree scope full = .own then some (scope, full) else none

/-- A name at a place means what it means in a scope. -/
structure MeansIn (tree : SyntaxTree) (scope place : SyntaxPlace) (name : String) : Prop where
  seen : scope ∈ scopesSeenFrom place
  passes : ∀ inner ∈ scopesSeenFrom place, scope ∈ inner.around →
    standing tree inner (fullName place name) = .outer

variable {tree : SyntaxTree} {place scope inner outer function : SyntaxPlace} {name : String}

/-! ## Nearest first -/

theorem scopesOver_sublist_around (place : SyntaxPlace) : (scopesOver place).Sublist place.around :=
  List.filter_sublist

theorem scopesSeenFrom_sublist (place : SyntaxPlace) :
    (scopesSeenFrom place).Sublist (scopesOver place) := by
  have kept : (((scopesOver place).drop 1).filter fun scope => !isClass scope.tree).Sublist
      ((scopesOver place).drop 1) := List.filter_sublist
  have joined := (List.Sublist.refl ((scopesOver place).take 1)).append kept
  rwa [List.take_append_drop] at joined

theorem mem_around_of_mem_scopesSeenFrom (seen : scope ∈ scopesSeenFrom place) :
    scope ∈ place.around :=
  (scopesOver_sublist_around place).subset ((scopesSeenFrom_sublist place).subset seen)

/-- Of two places around a place, one lies inside the other if its address is longer. -/
theorem mem_around_iff_length_lt (has : tree.HasPlace place) (first : scope ∈ place.around)
    (second : inner ∈ place.around) :
    scope ∈ inner.around ↔ scope.address.length < inner.address.length := by
  constructor
  · intro outside
    exact ((has.around second).address_of_mem_around outside).2
  · intro shorter
    have isPrefix := List.prefix_of_prefix_length_le (has.address_of_mem_around first).1
      (has.address_of_mem_around second).1 (Nat.le_of_lt shorter)
    have on := (has.around second).mem_path_of_isPrefix (has.around first) isPrefix
    rcases Visit.mem_path_iff.mp on with rfl | around
    · exact absurd shorter (Nat.lt_irrefl _)
    · exact around

/-- What is found first among places around a place is what none of them inside of it has. -/
theorem find?_eq_some_iff_of_sublist (has : tree.HasPlace place) {places : List SyntaxPlace}
    (sublist : places.Sublist place.around) (keep : SyntaxPlace → Bool) (listed : scope ∈ places)
    (kept : keep scope = true) :
    places.find? keep = some scope ↔
      ∀ inner ∈ places, scope ∈ inner.around → keep inner = false := by
  have ordered := has.pairwise_around.sublist sublist
  have inside {inner : SyntaxPlace} (innerListed : inner ∈ places) :
      scope ∈ inner.around ↔ scope.address.length < inner.address.length :=
    mem_around_iff_length_lt has (sublist.subset listed) (sublist.subset innerListed)
  constructor
  · intro found inner innerListed around
    obtain ⟨near, far, split, skipped⟩ := (List.find?_eq_some_iff_append.mp found).2
    have shorter := (inside innerListed).mp around
    rw [split] at ordered innerListed
    rcases List.mem_append.mp innerListed with before | behind
    · simpa using skipped inner before
    · have farther := (List.pairwise_append.mp ordered).2.1
      rcases List.mem_cons.mp behind with rfl | behind
      · exact absurd shorter (Nat.lt_irrefl _)
      · exact absurd ((List.pairwise_cons.mp farther).1 inner behind) (Nat.lt_asymm shorter)
  · intro passes
    obtain ⟨near, far, split⟩ := List.append_of_mem listed
    refine List.find?_eq_some_iff_append.mpr ⟨kept, near, far, split, fun inner before => ?_⟩
    have innerListed : inner ∈ places := by simp [split, before]
    rw [split, List.pairwise_append] at ordered
    have around := (inside innerListed).mpr (ordered.2.2 inner before scope List.mem_cons_self)
    simp [passes inner innerListed around]

/-- A name stands for the variable of a scope when nothing in between has something to say. -/
theorem variableOf?_eq_some_iff (has : tree.HasPlace place) (seen : scope ∈ scopesSeenFrom place)
    (own : standing tree scope (fullName place name) = .own) :
    variableOf? tree place name = some (scope, fullName place name) ↔
      MeansIn tree scope place name := by
  have kept : (standing tree scope (fullName place name) != .outer) = true := by simp [own]
  have found := find?_eq_some_iff_of_sublist has
    ((scopesSeenFrom_sublist place).trans (scopesOver_sublist_around place))
    (fun scope => standing tree scope (fullName place name) != .outer) seen kept
  have passes : MeansIn tree scope place name ↔
      (scopesSeenFrom place).find?
        (fun scope => standing tree scope (fullName place name) != .outer) = some scope := by
    rw [found]
    constructor
    · intro means inner innerSeen around
      simp [means.passes inner innerSeen around]
    · intro silent
      exact ⟨seen, fun inner innerSeen around => by simpa using silent inner innerSeen around⟩
  rw [passes, variableOf?, Option.bind_eq_some_iff]
  constructor
  · rintro ⟨other, isFound, same⟩
    obtain ⟨-, equal⟩ := Option.ite_none_right_eq_some.mp same
    rw [isFound, (Prod.mk.inj (Option.some.inj equal)).1]
  · intro isFound
    exact ⟨scope, isFound, if_pos own⟩

/-- A variable is one of a scope that is seen, and its name is the full one. -/
theorem mem_scopesSeenFrom_of_variableOf? {full : String}
    (variableIs : variableOf? tree place name = some (scope, full)) :
    scope ∈ scopesSeenFrom place ∧ full = fullName place name := by
  obtain ⟨other, found, same⟩ := Option.bind_eq_some_iff.mp variableIs
  obtain ⟨-, equal⟩ := Option.ite_none_right_eq_some.mp same
  obtain ⟨rfl, rfl⟩ := Prod.mk.inj (Option.some.inj equal)
  exact ⟨List.mem_of_find?_eq_some found, rfl⟩

/-! ## Names in a function -/

/-- A place in the body of a function is in the scope of the function. -/
theorem mem_scopesOver_of_body (stands : StandsForSyntax tree) (has : tree.HasPlace place)
    (functionHas : tree.HasPlace function) (isFunction : kindAt? function = some .function)
    {body : SyntaxPlace} (listed : body ∈ bodyPlaces function) (on : body ∈ place.path) :
    function ∈ scopesOver place := by
  obtain ⟨index, subtree, found, role, rfl⟩ := mem_bodyPlaces_iff.mp listed
  have around : function ∈ place.around :=
    (functionHas.mem_around_of_mem_places_child found (has.mem_places_of_mem_path on)).2
  have inside : ¬(liesInHeader place function = true ∨ liesInHint place function = true) := by
    rw [liesInHeader_or_liesInHint_iff]
    rintro ⟨part, outside, isPrefix⟩
    exact not_isPrefix_of_mem_bodyPlaces has listed on
      ((mem_outsideParts_iff stands functionHas isFunction).mp outside) isPrefix
  rw [not_or, Bool.not_eq_true, Bool.not_eq_true] at inside
  refine List.mem_filter.mpr ⟨around, ?_⟩
  simp [isScopeOver, isUnitAround, isFunction, inside]

theorem isClass_eq_false_of_function (isFunction : kindAt? function = some .function) :
    isClass function.tree = false := by
  rw [kindAt?_eq] at isFunction
  rw [isClass]
  split at isFunction <;> simp_all

/-- The scope of a function is seen from wherever it is the scope. -/
theorem mem_scopesSeenFrom_of_function (isFunction : kindAt? function = some .function)
    (isOver : function ∈ scopesOver place) : function ∈ scopesSeenFrom place := by
  rw [← List.take_append_drop 1 (scopesOver place), List.mem_append] at isOver
  rw [scopesSeenFrom, List.mem_append]
  refine isOver.imp_right fun farther => List.mem_filter.mpr ⟨farther, ?_⟩
  rw [isClass_eq_false_of_function isFunction, Bool.not_false]

/-- A parameter is a variable of its function. -/
theorem standing_of_parameter {parameter : SyntaxPlace} {written : String}
    (listed : parameter ∈ parameterPlaces scope)
    (bound : boundName? parameter.tree.label.node = some written)
    (full : fullName parameter written = name) : standing tree scope name = .own := by
  have isParameter : isParameterOf scope name = true := by
    rw [isParameterOf, List.any_eq_true]
    exact ⟨parameter, listed, by simp [bound, full]⟩
  rw [standing, if_pos isParameter]

/-- A place inside a unit lies in the header of a class around the unit if the unit does. -/
theorem liesInHeader_eq_of_mem_around (stands : StandsForSyntax tree) (has : tree.HasPlace place)
    (below : inner ∈ place.around) (isUnit : (kindAt? inner).isSome = true)
    (around : outer ∈ inner.around) : liesInHeader place outer = liesInHeader inner outer := by
  have element : (elementAt? inner).isSome = true := by
    unfold kindAt? at isUnit
    split at isUnit <;> simp_all
  cases inHeader : liesInHeader inner outer with
  | false => exact not_liesInHeader_of_mem_around stands has below element around inHeader
  | true =>
      obtain ⟨part, member, isPrefix⟩ := liesInHeader_iff.mp inHeader
      exact liesInHeader_iff.mpr
        ⟨part, member, isPrefix.trans (has.address_of_mem_around below).1⟩

theorem hasOwnScope_of_isClass {tree : SyntaxTree} (isOne : isClass tree = true) :
    hasOwnScope tree.label = true := by
  unfold isClass at isOne
  unfold hasOwnScope
  split at isOne <;> simp_all

/-- Nothing between a place and its nearest scope has a scope. -/
theorem exists_around_eq_of_nearestScope? (has : tree.HasPlace place)
    (nearest : nearestScope? place = some scope) :
    ∃ near, place.around = near ++ scope.path ∧
      ∀ between ∈ near, hasOwnScope between.tree.label = false := by
  have below : scope ∈ place.around := List.mem_of_find?_eq_some nearest
  obtain ⟨near, split, inside⟩ := has.exists_around_eq_append below
  refine ⟨near, split, fun between listed => ?_⟩
  have around : between ∈ place.around := by simp [split, listed]
  rw [Bool.eq_false_iff]
  intro isScope
  have on := has.mem_path_of_find?_around nearest around isScope
  have longer := ((has.around around).address_of_mem_around (inside between listed)).2
  have notLonger := ((has.around below).address_prefix_of_mem_path on).length_le
  omega

/-- All names in the own scope of a function are private to the same class. -/
theorem fullName_of_nearestScope? (stands : StandsForSyntax tree) (has : tree.HasPlace place)
    (isFunction : kindAt? function = some .function)
    (nearest : nearestScope? place = some function) (name : String) :
    fullName place name = fullName function name := by
  have below : function ∈ place.around := List.mem_of_find?_eq_some nearest
  obtain ⟨near, split, skipped⟩ := exists_around_eq_of_nearestScope? has nearest
  have skip : near.find? (fun outer => isClass outer.tree && !liesInHeader place outer) = none := by
    refine List.find?_eq_none.mpr fun between listed isOne => ?_
    have isScope := hasOwnScope_of_isClass (Bool.and_eq_true_iff.mp isOne).1
    simp [skipped between listed] at isScope
  have same : classOver? place = classOver? function := by
    rw [classOver?, split, List.find?_append, skip, Option.none_or, Visit.path,
      List.find?_cons_of_neg (by simp [isClass_eq_false_of_function isFunction]), classOver?]
    refine List.find?_congr fun outer outside => ?_
    rw [liesInHeader_eq_of_mem_around stands has below (by simp [isFunction]) outside]
  rw [fullName, fullName, same]

/-- Only comprehensions have scopes between a place and its nearest unit. -/
theorem isComprehension_of_inside (has : tree.HasPlace place)
    (nearest : nearestScope? place = some function) (isOver : inner ∈ scopesOver place)
    (inside : function ∈ inner.around) : isComprehension inner = true := by
  obtain ⟨around, isScope⟩ := List.mem_filter.mp isOver
  have noUnit : hasOwnScope inner.tree.label = false := by
    rw [Bool.eq_false_iff]
    intro own
    have on := has.mem_path_of_find?_around nearest around own
    have longer := ((has.around around).address_of_mem_around inside).2
    have below := List.mem_of_find?_eq_some nearest
    have notLonger := ((has.around below).address_prefix_of_mem_path on).length_le
    omega
  have iterated : isComprehension inner = true ∧ liesInFirstIterable place inner = false := by
    simpa [isScopeOver, isUnitAround, kindAt?_isSome, noUnit] using isScope
  exact iterated.1

theorem isComprehension_eq_false_of_function (isFunction : kindAt? function = some .function) :
    isComprehension function = false := by
  rw [kindAt?_eq] at isFunction
  rw [isComprehension]
  split at isFunction <;> simp_all

/-- What stands in the own scope of a function binds there, if it is the target of an assignment
expression or in no comprehension. -/
theorem bindingScope?_eq_some_iff (has : tree.HasPlace place)
    (isFunction : kindAt? function = some .function)
    (nearest : nearestScope? place = some function) (isOver : function ∈ scopesOver place) :
    bindingScope? place = some function ↔
      isNamedTarget place = true ∨ ∀ inner ∈ scopesOver place, function ∉ inner.around := by
  have sublist := scopesOver_sublist_around place
  rw [bindingScope?]
  split
  · rename_i target
    rw [find?_eq_some_iff_of_sublist has sublist _ isOver
      (by rw [isComprehension_eq_false_of_function isFunction, Bool.not_false])]
    refine ⟨fun _ => .inl target, fun _ inner innerOver inside => ?_⟩
    rw [isComprehension_of_inside has nearest innerOver inside, Bool.not_true]
  · rename_i noTarget
    have first : (scopesOver place).head? = (scopesOver place).find? fun _ => true := by
      cases scopesOver place <;> rfl
    rw [first, find?_eq_some_iff_of_sublist has sublist _ isOver rfl]
    simp [noTarget]

end DesignLint.Cohesion
