import DesignLint.Proofs.Check.OutsideCalls
import DesignLint.Proofs.Cohesion.FunctionScope

/-!
# Local names

Which names count as local to a function when its outside calls are recorded, read off the syntax.
These are the names bound in the scope of the function, but for two kinds of bindings that are
overlooked: those by patterns, and those in the header of a function or class inside.
-/

namespace DesignLint.Check

open DesignLint.Syntax DesignLint.Cohesion

/-! ## Local bindings -/

/-- A construct binds a name in the scope of a function. A deletion binds nothing. -/
structure BindsIn (tree : SyntaxTree) (function : SyntaxPlace) (name : String) (form : BindingForm)
    (place : SyntaxPlace) : Prop where
  has : tree.HasPlace place
  binds : Binds place.tree.label.node form name
  scope : scopeOf? place = some function
  notDeleted : ∀ position targets, place.tree.label.node ≠ .stmt (.deleteStmt position targets)

/-- The forms of bindings that patterns have. -/
def patternForms : List BindingForm := [.capture, .restOfSequence, .restOfMapping]

/-- The bindings that are not overlooked: no pattern binds, and no construct with a scope of its own
stands between the binding and the function. -/
structure IsNoticed (function : SyntaxPlace) (form : BindingForm) (place : SyntaxPlace) : Prop where
  notPattern : form ∉ patternForms
  nearest : nearestScope? place = some function

variable {tree : SyntaxTree} {place function : SyntaxPlace} {name : String} {form : BindingForm}

/-! ## The names that count as local -/

/-- The names of the parameters are bound at their places. -/
theorem mem_parameterNames_iff (stands : StandsForSyntax tree) (has : tree.HasPlace function)
    {parameters : Parameters} (isFunction : parametersOf function.tree = some parameters) :
    name ∈ parameterNames parameters ↔
      ∃ place ∈ parameterPlaces function, Binds place.tree.label.node .parameter name := by
  simp only [mem_parameterPlaces_iff_of_parametersOf stands has isFunction, parameterNames,
    List.mem_map, ← Parameters.tree_mem_children_iff]
  constructor
  · rintro ⟨parameter, listed, rfl⟩
    obtain ⟨index, found⟩ := List.getElem?_of_mem listed
    refine ⟨_, ⟨index, parameter, found, rfl⟩, ?_⟩
    rw [Visit.child, Parameter.label_tree]
    exact .parameter parameter
  · rintro ⟨_, ⟨index, parameter, found, rfl⟩, binds⟩
    rw [Visit.child, Parameter.label_tree] at binds
    cases binds
    exact ⟨parameter, List.mem_of_getElem? found, rfl⟩

/-- The local names of a function are those of its parameters, and those bound in its own scope. -/
theorem mem_namesBoundIn_iff_places (stands : StandsForSyntax tree) (has : tree.HasPlace function)
    (isFunction : kindAt? function = some .function) :
    name ∈ namesBoundIn function.tree ↔
      (∃ place ∈ parameterPlaces function, Binds place.tree.label.node .parameter name) ∨
      ∃ place ∈ ownPlaces function, bindsLocally? place.tree = some name := by
  obtain ⟨parameters, isParameters⟩ := exists_parametersOf isFunction
  have isScope := hasOwnScope_of_kindAt? isFunction
  rw [namesBoundIn, isParameters, List.mem_append, mem_parameterNames_iff stands has isParameters,
    preorderWithinAll_body has isScope, List.mem_filterMap]
  simp only [List.mem_map, exists_exists_and_eq_and]

/-- What binds a name locally is a name to be bound, or it binds the name without a target. -/
theorem name_or_binds_of_bindsLocally? (bound : bindsLocally? place.tree = some name)
    (known : name ≠ "*") :
    (∃ position, place.tree.label.node = .expr (.name position name .store)) ∨
    ∃ form ∈ [BindingForm.definition, .importName, .handler],
      Binds place.tree.label.node form name := by
  unfold bindsLocally? at bound
  generalize place.tree.label.node = construct at bound
  split at bound
  · cases bound
    exact .inr ⟨.definition, by simp, .function ..⟩
  · cases bound
    exact .inr ⟨.definition, by simp, .class ..⟩
  · cases bound
    exact .inl ⟨_, rfl⟩
  · cases bound
    exact .inr ⟨.importName, by simp, .importName known⟩
  · obtain ⟨nonempty, equal⟩ := Option.ite_none_left_eq_some.mp bound
    cases equal
    exact .inr ⟨.handler, by simp, .handler _ _ _ (by simpa using nonempty)⟩
  · cases bound

/-- A construct that binds a name without a target and is no parameter or pattern binds it
locally. -/
theorem bindsLocally?_of_binds (binds : Binds place.tree.label.node form name)
    (notTarget : form ≠ .target) (notParameter : form ≠ .parameter)
    (notPattern : form ∉ patternForms) : bindsLocally? place.tree = some name := by
  unfold bindsLocally?
  generalize place.tree.label.node = construct at binds
  cases binds with
  | target => exact absurd rfl notTarget
  | parameter => exact absurd rfl notParameter
  | function | «class» | importName => rfl
  | handler _ _ _ nonempty => simp [nonempty]
  | capture | restOfSequence | restOfMapping => simp [patternForms] at notPattern

theorem exists_parameter_of_binds {node : Node} (binds : Binds node .parameter name) :
    ∃ parameter, node = .parameter parameter := by
  cases binds
  exact ⟨_, rfl⟩

/-! ## Local names as bindings -/

section Noticed

variable (stands : StandsForSyntax tree) (has : tree.HasPlace function)
  (isFunction : kindAt? function = some .function)

include stands has isFunction

theorem bindsIn_of_mem_parameterPlaces (listed : place ∈ parameterPlaces function)
    (binds : Binds place.tree.label.node .parameter name) :
    BindsIn tree function name .parameter place ∧ IsNoticed function .parameter place := by
  have placeHas := hasPlace_of_mem_parameterPlaces has listed
  have isScope := hasOwnScope_of_kindAt? isFunction
  have nearest := nearestScope?_of_mem_parameterPlaces stands has isScope listed
  have scope := scopeOf?_eq_some_iff_mem stands placeHas isFunction nearest binds
  refine ⟨⟨placeHas, binds, scope.mpr (.inl listed), ?_⟩, ⟨by simp [patternForms], nearest⟩⟩
  intro position targets deletion
  rw [deletion] at binds
  cases binds

theorem bindsIn_of_mem_ownPlaces (own : place ∈ ownPlaces function)
    (binds : Binds place.tree.label.node form name) (notPattern : form ∉ patternForms)
    (notDeleted : ∀ position targets,
      place.tree.label.node ≠ .stmt (.deleteStmt position targets)) :
    BindsIn tree function name form place ∧ IsNoticed function form place := by
  obtain ⟨placeHas, nearest, -⟩ := (mem_ownPlaces_iff has).mp own
  have scope := scopeOf?_eq_some_iff_mem stands placeHas isFunction nearest binds
  exact ⟨⟨placeHas, binds, scope.mpr (.inr own), notDeleted⟩, ⟨notPattern, nearest⟩⟩

end Noticed

section Function

variable {module : Module} (contexts : HasContexts module.tree)
  (has : module.tree.HasPlace function) (isFunction : kindAt? function = some .function)

include contexts has isFunction

/-- A local name is bound by a construct in the scope of the function that is not overlooked. -/
theorem exists_bindsIn_of_mem_namesBoundIn (known : name ≠ "*")
    (listed : name ∈ namesBoundIn function.tree) :
    ∃ form place, BindsIn module.tree function name form place ∧ IsNoticed function form place := by
  have stands : StandsForSyntax module.tree := .module module
  rcases (mem_namesBoundIn_iff_places stands has isFunction).mp listed with
    ⟨place, parameter, binds⟩ | ⟨inner, own, bound⟩
  · exact ⟨.parameter, place,
      bindsIn_of_mem_parameterPlaces stands has isFunction parameter binds⟩
  · rcases name_or_binds_of_bindsLocally? bound known with ⟨position, node⟩ | ⟨form, plain, binds⟩
    · have root (expr : Expr) : module.tree.label.node ≠ .expr expr := Node.noConfusion
      have innerHas := ((mem_ownPlaces_iff has).mp own).1
      obtain ⟨place, -, binds, bindsAs, shares⟩ := exists_binds_target_of_name stands contexts root
        innerHas node rfl (by decide) (List.mem_singleton_self name)
      exact ⟨.target, place, bindsIn_of_mem_ownPlaces stands has isFunction
        ((shares.mem_ownPlaces_iff innerHas has).mp own) binds (by simp [patternForms])
        (contextBelow_target_eq_store_iff.mp bindsAs)⟩
    · simp only [List.mem_cons, List.not_mem_nil, or_false] at plain
      refine ⟨form, inner, bindsIn_of_mem_ownPlaces stands has isFunction own binds ?_ ?_⟩
      · rcases plain with rfl | rfl | rfl <;> simp [patternForms]
      · intro position targets deletion
        rw [deletion] at binds
        cases binds
        simp at plain

/-- What a construct binds in the scope of a function is a local name, if it is not overlooked. -/
theorem mem_namesBoundIn_of_bindsIn (bindsIn : BindsIn module.tree function name form place)
    (noticed : IsNoticed function form place) : name ∈ namesBoundIn function.tree := by
  have stands : StandsForSyntax module.tree := .module module
  have binds := bindsIn.binds
  rw [mem_namesBoundIn_iff_places stands has isFunction]
  rcases (scopeOf?_eq_some_iff_mem stands bindsIn.has isFunction noticed.nearest binds).mp
    bindsIn.scope with parameter | own
  · left
    obtain ⟨parameters, isParameters⟩ := exists_parametersOf isFunction
    obtain ⟨index, item, found, rfl⟩ :=
      (mem_parameterPlaces_iff_of_parametersOf stands has isParameters).mp parameter
    refine ⟨_, parameter, ?_⟩
    rw [Visit.child, Parameter.label_tree] at binds ⊢
    cases binds with
    | target listed => cases listed
    | parameter => exact .parameter item
  · by_cases isTarget : form = .target
    · subst isTarget
      right
      obtain ⟨target, listed, named⟩ := binds_target_iff.mp binds
      obtain ⟨inner, position, innerHas, shares, node⟩ :=
        exists_name_of_mem_targets stands contexts bindsIn.has listed named
      rw [contextBelow_target_eq_store_iff.mpr bindsIn.notDeleted] at node
      exact ⟨inner, (shares.mem_ownPlaces_iff innerHas has).mpr own, by simp [bindsLocally?, node]⟩
    · by_cases isParameter : form = .parameter
      · subst isParameter
        left
        obtain ⟨item, node⟩ := exists_parameter_of_binds binds
        exact ⟨place, mem_parameterPlaces_of_parameter stands rfl bindsIn.has node noticed.nearest,
          binds⟩
      · right
        exact ⟨place, own, bindsLocally?_of_binds binds isTarget isParameter noticed.notPattern⟩

/-- The calls recorded for a function are those with the function as the innermost one around them
that are not ignored as calls of members of receivers or of built-in names, and where the object is
a receiver or no construct that is not overlooked binds it in the scope of the function. -/
theorem targetsOf_of_localNames (options : FanOutOptions) :
    (∀ target, target ∈ targetsOf (outsideCalls options module.tree) function.address ↔
      ∃ place object member, IsRecordedFor options module.tree place function object member ∧
        target = targetNamed object member) ∧
    ∀ place object member, module.tree.HasPlace place → firstComponent object ≠ "*" →
      (IsRecordedFor options module.tree place function object member ↔
        Calls place.tree.label.node object member ∧
        unitOver? .function place = some function ∧
        (options.ignoreSelfReferences = true → member.isSome = true →
          ¬IsReceiverOver place object) ∧
        (options.ignoreBuiltIns = true → firstComponent object ∉ builtinNames) ∧
        (IsReceiverOver place (firstComponent object) ∨
          ¬∃ form binder, BindsIn module.tree function (firstComponent object) form binder ∧
            IsNoticed function form binder)) := by
  refine ⟨fun target => mem_targetsOf_iff, fun place object member placeHas known => ?_⟩
  have locals : firstComponent object ∈ namesBoundIn function.tree ↔
      ∃ form binder, BindsIn module.tree function (firstComponent object) form binder ∧
        IsNoticed function form binder := by
    constructor
    · exact exists_bindsIn_of_mem_namesBoundIn contexts has isFunction known
    · rintro ⟨form, binder, bindsIn, noticed⟩
      exact mem_namesBoundIn_of_bindsIn contexts has isFunction bindsIn noticed
  rw [isRecordedFor_iff placeHas has isFunction, ← locals]
  refine and_congr_right fun _ => ?_
  constructor
  · rintro ⟨⟨notSelf, notBuiltIn, notLocal⟩, credited⟩
    exact ⟨credited, notSelf, notBuiltIn, notLocal.imp_right fun free => free function credited⟩
  · rintro ⟨credited, notSelf, notBuiltIn, notLocal⟩
    refine ⟨⟨notSelf, notBuiltIn, notLocal.imp_right fun free other isOther => ?_⟩, credited⟩
    obtain rfl := Option.some.inj (credited.symm.trans isOther)
    exact free

end Function

/-! ## A name bound by a pattern -/

/-- A pattern for a sequence that binds its first element. -/
def handlerPattern : Pattern :=
  .sequence ⟨3, 13, some 3⟩
    [.capture ⟨3, 14, some 3⟩ none (some "handler"), .star ⟨3, 23, some 3⟩ (some "rest")]

/-- A call of the element. -/
def handlerCall : Expr :=
  .call ⟨4, 12, some 4⟩ (.name ⟨4, 12, some 4⟩ "handler" .load)
    [.name ⟨4, 20, some 4⟩ "event" .load] []

/-- A case with this pattern, in which the element is called. -/
def handlerCase : MatchCase := .mk handlerPattern none [.expr ⟨4, 12, some 4⟩ handlerCall]

/-- A match statement with this case. -/
def dispatchMatch : Stmt :=
  .matchStmt ⟨2, 4, some 4⟩ (.name ⟨2, 10, some 2⟩ "event" .load) [handlerCase]

/-- A function that consists of this statement. -/
def dispatchFunction : Stmt :=
  .functionDef ⟨1, 0, some 4⟩ false "dispatch"
    (.mk [] [.mk ⟨1, 13, some 1⟩ "event" none] none [] [] none []) [dispatchMatch] [] none

/-- A module that consists of this function. -/
def dispatchModule : Module := ⟨[dispatchFunction]⟩

/-- Where the function stands. -/
def dispatchUnit : SyntaxPlace :=
  (Visit.whole dispatchModule.tree).child 0 (dispatchFunction.tree .body)

/-- Where the case stands. -/
def casePlace : SyntaxPlace :=
  (dispatchUnit.child 1 (dispatchMatch.tree .body)).child 1 handlerCase.tree

/-- Where the element is called. -/
def handlerCallPlace : SyntaxPlace :=
  (casePlace.child 1 ((Stmt.expr ⟨4, 12, some 4⟩ handlerCall).tree .body)).child 0
    (handlerCall.tree .value)

/-- The element is bound in the function, and it is a target of the function all the same. -/
theorem targetsOf_dispatchUnit :
    BindsIn dispatchModule.tree dispatchUnit "handler" .capture
      ((casePlace.child 0 handlerPattern.tree).child 0
        (Pattern.capture ⟨3, 14, some 3⟩ none (some "handler")).tree) ∧
    "handler" ∈ targetsOf (outsideCalls oneTarget dispatchModule.tree) dispatchUnit.address := by
  have contexts : HasContexts dispatchModule.tree := by decide +kernel
  have has : dispatchModule.tree.HasPlace dispatchUnit := .child .whole rfl
  have caseHas : dispatchModule.tree.HasPlace casePlace := .child (.child has rfl) rfl
  have callHas : dispatchModule.tree.HasPlace handlerCallPlace := .child (.child caseHas rfl) rfl
  have isFunction : kindAt? dispatchUnit = some .function := rfl
  have named : firstComponent "handler" = "handler" := by decide +kernel
  have calls : Calls handlerCallPlace.tree.label.node "handler" none :=
    ⟨_, _, _, _, rfl, .object ..⟩
  obtain ⟨listed, recorded⟩ := targetsOf_of_localNames contexts has isFunction oneTarget
  constructor
  · refine ⟨.child (.child caseHas rfl) rfl, .capture _ _ rfl, rfl, ?_⟩
    intro position targets
    exact Node.noConfusion
  · refine (listed "handler").mpr ⟨handlerCallPlace, "handler", none, ?_, rfl⟩
    refine (recorded handlerCallPlace "handler" none callHas (by simp [named])).mpr
      ⟨calls, rfl, fun _ isMember => absurd isMember Bool.false_ne_true,
        fun ignoresBuiltIns => absurd ignoresBuiltIns Bool.false_ne_true, .inr ?_⟩
    rw [named]
    rintro ⟨form, binder, bindsIn, noticed⟩
    have isLocal := mem_namesBoundIn_of_bindsIn contexts has isFunction bindsIn noticed
    have notLocal : "handler" ∉ namesBoundIn dispatchUnit.tree := by decide +kernel
    exact notLocal isLocal

end DesignLint.Check
