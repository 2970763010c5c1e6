import DesignLint.Check.FanOut
import DesignLint.Proofs.Cohesion.ClassUnits
import DesignLint.Proofs.Cohesion.NameSet
import DesignLint.Proofs.Syntax.OwnScope

/-!
# Outside calls

Which calls are recorded as calls of outside targets, and for which functions and classes, read off
the places of the calls. A call counts for the innermost function and for the innermost class around
it, independently of each other.
-/

namespace DesignLint.Check

open DesignLint.Syntax DesignLint.Cohesion

/-! ## Functions and classes around a place -/

/-- The innermost function or the innermost class around a place. What stands in the header of one
counts as inside of it. -/
def unitOver? (kind : UnitKind) (place : SyntaxPlace) : Option SyntaxPlace :=
  place.around.find? fun outer => kindAt? outer == some kind

/-- A name is the receiver of a method around a place. -/
def IsReceiverOver (place : SyntaxPlace) (name : String) : Prop :=
  name.isEmpty = false ∧ ∃ method ∈ place.around, receiverAt? method = some name

/-- The function or class that stands at a place. -/
def callUnitAt? (place : SyntaxPlace) : Option CallUnit :=
  callUnit? place.address place.context.head? place.tree

/-- What stands around a place. -/
def callContextAt (place : SyntaxPlace) : CallContext :=
  ⟨place.context.head?, place.around.filterMap callUnitAt?⟩

section Context

variable {tree : SyntaxTree} {place unit : SyntaxPlace} {kind : UnitKind} {name : String}

theorem callContextAt_child (place : SyntaxPlace) (index : Nat) (subtree : SyntaxTree) :
    callContextAt (place.child index subtree) =
      (callContextAt place).below place.address place.tree := by
  rw [callContextAt, Visit.child_around, Visit.path, List.filterMap_cons]
  unfold CallContext.below callContextAt callUnitAt?
  split <;> simp_all [Visit.child]

theorem selfNameOf_eq_receiverAt? (place : SyntaxPlace) :
    selfNameOf place.tree place.context.head? = receiverAt? place := by
  rw [receiverAt?, methodAt?_eq, selfNameOf]
  cases place.tree.label.node with
  | stmt stmt =>
      cases stmt with
      | functionDef =>
          rcases place.context with _ | ⟨⟨⟨role, above⟩, parts⟩, outer⟩
          · rfl
          · cases above with
            | stmt above => cases above <;> rfl
            | _ => rfl
      | _ => rfl
  | _ => rfl

/-- The function or class at a place by its kind. -/
theorem callUnitAt?_eq (place : SyntaxPlace) :
    callUnitAt? place =
      (kindAt? place).map fun kind =>
        match kind with
        | .function => ⟨place.address, true, receiverAt? place, namesBoundIn place.tree⟩
        | .class => ⟨place.address, false, none, []⟩ := by
  rw [callUnitAt?, callUnit?, selfNameOf_eq_receiverAt?, kindAt?_eq]
  cases place.tree.label.node with
  | stmt stmt => cases stmt <;> rfl
  | expr expr => cases expr <;> rfl
  | _ => rfl

theorem kindAt?_of_unitOver? (found : unitOver? kind place = some unit) :
    kindAt? unit = some kind := by
  simpa using List.find?_some found

theorem mem_around_of_unitOver? (found : unitOver? kind place = some unit) :
    unit ∈ place.around :=
  List.mem_of_find?_eq_some found

/-- The innermost function or class in the surroundings of a place. -/
theorem find?_units_callContextAt {keep : CallUnit → Bool}
    (keeps : ∀ outer, (callUnitAt? outer).any keep = (kindAt? outer == some kind))
    (place : SyntaxPlace) :
    (callContextAt place).units.find? keep = (unitOver? kind place).bind callUnitAt? := by
  rw [callContextAt, List.find?_filterMap, unitOver?]
  simp only [keeps]

theorem function?_callContextAt (place : SyntaxPlace) :
    (callContextAt place).function? = (unitOver? .function place).bind callUnitAt? := by
  apply find?_units_callContextAt
  intro outer
  rw [callUnitAt?_eq]
  rcases kindAt? outer with _ | _ | _ <;> rfl

theorem class?_callContextAt (place : SyntaxPlace) :
    (callContextAt place).class? = (unitOver? .class place).bind callUnitAt? := by
  apply find?_units_callContextAt
  intro outer
  rw [callUnitAt?_eq]
  rcases kindAt? outer with _ | _ | _ <;> rfl

theorem isReceiver_callContextAt :
    (callContextAt place).isReceiver name = true ↔ IsReceiverOver place name := by
  have names (outer : SyntaxPlace) : (∃ unit, callUnitAt? outer = some unit ∧
      unit.receiver = some name) ↔ receiverAt? outer = some name := by
    rw [callUnitAt?_eq]
    cases kind : kindAt? outer with
    | none => simp [receiverAt?, methodAt?_eq_none_of_kindAt?_eq_none kind]
    | some kind' =>
        cases kind' with
        | function => simp
        | «class» => simp [receiverAt?, methodAt?_eq_none_of_class kind]
  simp only [CallContext.isReceiver, callContextAt, IsReceiverOver, Bool.and_eq_true,
    Bool.not_eq_eq_eq_not, Bool.not_true, List.any_eq_true, List.mem_filterMap, beq_iff_eq,
    ← names]
  refine and_congr_right fun _ => ?_
  constructor
  · rintro ⟨unit, ⟨method, around, stands⟩, receiver⟩
    exact ⟨method, around, unit, stands, receiver⟩
  · rintro ⟨method, around, unit, stands, receiver⟩
    exact ⟨unit, ⟨method, around, stands⟩, receiver⟩

end Context

/-! ## Calls -/

/-- What a called expression names: an object, or an object and a member of it. -/
inductive NamesTarget : Expr → String → Option String → Prop where
  | object (position : Position) (object : String) (context : Context) :
      NamesTarget (.name position object context) object none
  | member (outer inner : Position) (object member : String) (context within : Context) :
      NamesTarget (.attr outer (.name inner object context) member within) object (some member)

/-- A construct is a call of an object, or of a member of an object. -/
def Calls (node : Node) (object : String) (member : Option String) : Prop :=
  ∃ position callee arguments keywords, node = .expr (.call position callee arguments keywords) ∧
    NamesTarget callee object member

/-- The target that a call names. -/
def targetNamed (object : String) : Option String → String
  | none => object
  | some member => object ++ "." ++ member

/-- A call is one of an outside target: it is not ignored as a call of a member of a receiver or as
one of a built-in name, and the object is a receiver or no local name of the innermost function. -/
structure IsOutsideAt (options : FanOutOptions) (place : SyntaxPlace) (object : String)
    (member : Option String) : Prop where
  notSelf : options.ignoreSelfReferences = true → member.isSome = true →
    ¬IsReceiverOver place object
  notBuiltIn : options.ignoreBuiltIns = true → firstComponent object ∉ builtinNames
  notLocal : IsReceiverOver place (firstComponent object) ∨
    ∀ function, unitOver? .function place = some function →
      firstComponent object ∉ namesBoundIn function.tree

/-- The addresses of the functions and classes that a call at a place counts for. -/
def creditedAt (place : SyntaxPlace) : List Address :=
  ((unitOver? .function place).toList ++ (unitOver? .class place).toList).map (·.address)

/-- The outside call at a place. -/
def outsideCallAt? (options : FanOutOptions) (place : SyntaxPlace) : Option OutsideCall :=
  outsideCall? options ⟨place.tree, place.address, callContextAt place⟩

section Calls

variable {options : FanOutOptions} {tree : SyntaxTree} {place unit : SyntaxPlace}
  {kind : UnitKind} {object : String} {member : Option String} {call : OutsideCall}

theorem outsideCalls_eq (options : FanOutOptions) (tree : SyntaxTree) :
    outsideCalls options tree = tree.places.filterMap (outsideCallAt? options) := by
  have placed : tree.visits CallContext.below ⟨none, []⟩ [] =
      tree.places.map fun place => ⟨place.tree, place.address, callContextAt place⟩ :=
    Visit.visits_eq_map_places callContextAt_child (.whole tree)
  rw [outsideCalls, placed, List.filterMap_map]
  rfl

theorem firstComponent_targetNamed (object : String) (member : Option String) :
    firstComponent (targetNamed object member) = firstComponent object := by
  have append (front rest : List Char) :
      (front ++ '.' :: rest).takeWhile (· != '.') = front.takeWhile (· != '.') := by
    induction front with
    | nil => simp
    | cons first front inductionHypothesis => simp [List.takeWhile_cons, inductionHypothesis]
  cases member with
  | none => rfl
  | some member => simp [firstComponent, targetNamed, append]

theorem isOutside_iff :
    isOutside options (callContextAt place) (targetNamed object member) = true ↔
      (options.ignoreBuiltIns = true → firstComponent object ∉ builtinNames) ∧
      (IsReceiverOver place (firstComponent object) ∨
        ∀ function, unitOver? .function place = some function →
          firstComponent object ∉ namesBoundIn function.tree) := by
  rw [isOutside, firstComponent_targetNamed, function?_callContextAt, Bool.and_eq_true,
    Bool.or_eq_true, isReceiver_callContextAt]
  refine and_congr (by simp [Decidable.imp_iff_not_or]) (or_congr_right ?_)
  cases found : unitOver? .function place with
  | none => simp
  | some function => simp [callUnitAt?_eq, kindAt?_of_unitOver? found]

theorem map_address_callContextAt (place : SyntaxPlace) :
    ((callContextAt place).function?.toList ++ (callContextAt place).class?.toList).map
      (·.address) = creditedAt place := by
  have addresses (kind : UnitKind) : ((unitOver? kind place).bind callUnitAt?).toList.map
      (·.address) = (unitOver? kind place).toList.map (·.address) := by
    cases found : unitOver? kind place with
    | none => rfl
    | some unit =>
        rw [Option.bind_some, callUnitAt?_eq, kindAt?_of_unitOver? found]
        cases kind <;> rfl
  rw [function?_callContextAt, class?_callContextAt, List.map_append, addresses, addresses,
    creditedAt, List.map_append]

theorem calledName?_eq_some_iff {callee : Expr} {target : String} :
    calledName? options (callContextAt place) callee = some target ↔
      ∃ object member, NamesTarget callee object member ∧
        (options.ignoreSelfReferences = true → member.isSome = true →
          ¬IsReceiverOver place object) ∧ target = targetNamed object member := by
  constructor
  · intro named
    unfold calledName? at named
    split at named
    · cases named
      exact ⟨_, none, .object .., fun _ isMember => absurd isMember Bool.false_ne_true, rfl⟩
    · rename_i object _ member _
      rw [Option.ite_none_left_eq_some, Bool.and_eq_true, isReceiver_callContextAt] at named
      rcases named with ⟨notSelf, equal⟩
      cases equal
      exact ⟨object, some member, .member .., fun ignores _ receiver => notSelf ⟨receiver, ignores⟩,
        rfl⟩
    · cases named
  · rintro ⟨object, member, names, notSelf, rfl⟩
    cases names with
    | object => rfl
    | member =>
        rw [calledName?, Option.ite_none_left_eq_some, Bool.and_eq_true, isReceiver_callContextAt]
        constructor
        · rintro ⟨receiver, ignores⟩
          exact notSelf ignores rfl receiver
        · rfl

/-- The calls that are recorded at a place. -/
theorem outsideCallAt?_eq_some_iff :
    outsideCallAt? options place = some call ↔
      ∃ object member, Calls place.tree.label.node object member ∧
        IsOutsideAt options place object member ∧
        call = ⟨targetNamed object member, creditedAt place⟩ := by
  constructor
  · intro recorded
    unfold outsideCallAt? outsideCall? at recorded
    split at recorded
    · rename_i position callee arguments keywords node
      split at recorded
      · rename_i target named
        obtain ⟨object, member, names, notSelf, rfl⟩ := calledName?_eq_some_iff.mp named
        obtain ⟨outside, equal⟩ := Option.ite_none_right_eq_some.mp recorded
        obtain ⟨notBuiltIn, notLocal⟩ := isOutside_iff.mp outside
        rw [map_address_callContextAt] at equal
        exact ⟨object, member, ⟨position, callee, arguments, keywords, node, names⟩,
          ⟨notSelf, notBuiltIn, notLocal⟩, (Option.some.inj equal).symm⟩
      · cases recorded
    · cases recorded
  · rintro ⟨object, member, ⟨position, callee, arguments, keywords, node, names⟩, outside, rfl⟩
    have named : calledName? options (callContextAt place) callee =
        some (targetNamed object member) :=
      calledName?_eq_some_iff.mpr ⟨object, member, names, outside.notSelf, rfl⟩
    have isOutside : isOutside options (callContextAt place) (targetNamed object member) = true :=
      isOutside_iff.mpr ⟨outside.notBuiltIn, outside.notLocal⟩
    simp only [outsideCallAt?, outsideCall?, node, named, isOutside, if_true,
      map_address_callContextAt]

/-! ## Units and their targets -/

/-- A call at a place is recorded as one of a target for a function or class. -/
structure IsRecordedFor (options : FanOutOptions) (tree : SyntaxTree) (place unit : SyntaxPlace)
    (object : String) (member : Option String) : Prop where
  has : tree.HasPlace place
  calls : Calls place.tree.label.node object member
  outside : IsOutsideAt options place object member
  credited : unit.address ∈ creditedAt place

theorem mem_creditedAt_iff (has : tree.HasPlace place) (unitHas : tree.HasPlace unit)
    (isUnit : kindAt? unit = some kind) :
    unit.address ∈ creditedAt place ↔ unitOver? kind place = some unit := by
  have same {other : SyntaxPlace} {otherKind : UnitKind}
      (found : unitOver? otherKind place = some other) (equal : other.address = unit.address) :
      unitOver? kind place = some unit := by
    have otherHas := has.around (mem_around_of_unitOver? found)
    obtain rfl := otherHas.eq_of_address_eq unitHas equal
    have sameKind := (kindAt?_of_unitOver? found).symm.trans isUnit
    cases sameKind
    exact found
  simp only [creditedAt, List.map_append, List.mem_append, List.mem_map, Option.mem_toList]
  constructor
  · rintro (⟨other, found, equal⟩ | ⟨other, found, equal⟩)
    · exact same found equal
    · exact same found equal
  · intro found
    cases kind with
    | function => exact .inl ⟨unit, found, rfl⟩
    | «class» => exact .inr ⟨unit, found, rfl⟩

theorem mem_targetsOf {calls : List OutsideCall} {address : Address} {target : String} :
    target ∈ targetsOf calls address ↔
      ∃ call ∈ calls, address ∈ call.units ∧ call.target = target := by
  simp only [targetsOf, NameSet.mem_sorted, NameSet.mem_ofNames, List.mem_map, List.mem_filter,
    List.contains_iff_mem, and_assoc]

/-- The targets of a function or class are what the calls name that are recorded for it. -/
theorem mem_targetsOf_iff {target : String} :
    target ∈ targetsOf (outsideCalls options tree) unit.address ↔
      ∃ place object member, IsRecordedFor options tree place unit object member ∧
        target = targetNamed object member := by
  simp only [mem_targetsOf, outsideCalls_eq, List.mem_filterMap, outsideCallAt?_eq_some_iff]
  constructor
  · rintro ⟨call, ⟨place, listed, object, member, calls, outside, rfl⟩, credited, rfl⟩
    exact ⟨place, object, member, ⟨Tree.hasPlace_of_mem_places listed, calls, outside, credited⟩,
      rfl⟩
  · rintro ⟨place, object, member, recorded, rfl⟩
    exact ⟨⟨targetNamed object member, creditedAt place⟩, ⟨place, recorded.has.mem_places, object,
      member, recorded.calls, recorded.outside, rfl⟩, recorded.credited, rfl⟩

theorem isRecordedFor_iff (has : tree.HasPlace place) (unitHas : tree.HasPlace unit)
    (isUnit : kindAt? unit = some kind) :
    IsRecordedFor options tree place unit object member ↔
      Calls place.tree.label.node object member ∧ IsOutsideAt options place object member ∧
        unitOver? kind place = some unit := by
  rw [← mem_creditedAt_iff has unitHas isUnit]
  constructor
  · rintro ⟨-, calls, outside, credited⟩
    exact ⟨calls, outside, credited⟩
  · rintro ⟨calls, outside, credited⟩
    exact ⟨has, calls, outside, credited⟩

end Calls

/-! ## Calls of receivers -/

section Receivers

variable {options : FanOutOptions} {tree : SyntaxTree} {unit : SyntaxPlace} {kind : UnitKind}

/-- When self references are ignored, no call of a member of a receiver is recorded. A call of the
receiver itself is, for the innermost function and class, unless it counts as one of a built-in
name. -/
theorem targetsOf_of_receivers (ignores : options.ignoreSelfReferences = true)
    (unitHas : tree.HasPlace unit) (isUnit : kindAt? unit = some kind) :
    (∀ target, target ∈ targetsOf (outsideCalls options tree) unit.address ↔
      ∃ place object member, IsRecordedFor options tree place unit object member ∧
        target = targetNamed object member) ∧
    ∀ place object member, tree.HasPlace place → IsReceiverOver place (firstComponent object) →
      (IsRecordedFor options tree place unit object member ↔
        Calls place.tree.label.node object member ∧
        (IsReceiverOver place object → member = none) ∧
        (options.ignoreBuiltIns = true → firstComponent object ∉ builtinNames) ∧
        unitOver? kind place = some unit) := by
  refine ⟨fun target => mem_targetsOf_iff, fun place object member has receiver => ?_⟩
  rw [isRecordedFor_iff has unitHas isUnit]
  refine and_congr_right fun _ => ?_
  constructor
  · rintro ⟨⟨notSelf, notBuiltIn, -⟩, credited⟩
    refine ⟨fun isReceiver => ?_, notBuiltIn, credited⟩
    cases member with
    | none => rfl
    | some member => exact absurd isReceiver (notSelf ignores rfl)
  · rintro ⟨bare, notBuiltIn, credited⟩
    refine ⟨⟨fun _ isMember isReceiver => ?_, notBuiltIn, .inl receiver⟩, credited⟩
    rw [bare isReceiver] at isMember
    cases isMember

/-- At most one target, where built-in names count and receivers do not. -/
def oneTarget : FanOutOptions := ⟨1, 1, false, true, 1⟩

/-- A call of the class in a class method. -/
def loaderCall : Expr :=
  .call ⟨5, 15, some 5⟩ (.name ⟨5, 15, some 5⟩ "cls" .load)
    [.name ⟨5, 19, some 5⟩ "source" .load] []

/-- A class method that parses a source and makes an object from it. -/
def loaderMethod : Stmt :=
  .functionDef ⟨3, 4, some 5⟩ false "create"
    (.mk [] [.mk ⟨3, 15, some 3⟩ "cls" none, .mk ⟨3, 20, some 3⟩ "source" none] none [] [] none [])
    [.expr ⟨4, 8, some 4⟩ (.call ⟨4, 8, some 4⟩ (.name ⟨4, 8, some 4⟩ "parse" .load)
        [.name ⟨4, 14, some 4⟩ "source" .load] []),
      .returnStmt ⟨5, 8, some 5⟩ (some loaderCall)]
    [.name ⟨2, 5, some 2⟩ "classmethod" .load] none

/-- A module with the class of this method. -/
def loaderModule : Module := ⟨[.classDef ⟨1, 0, some 5⟩ "Loader" [] [] [loaderMethod] []]⟩

/-- Where the method stands. -/
def loaderUnit : SyntaxPlace :=
  ((Visit.whole loaderModule.tree).child 0
    ((Stmt.classDef ⟨1, 0, some 5⟩ "Loader" [] [] [loaderMethod] []).tree .body)).child 0
      (loaderMethod.tree .body)

/-- Where the class is called. -/
def loaderPlace : SyntaxPlace :=
  (loaderUnit.child 2 ((Stmt.returnStmt ⟨5, 8, some 5⟩ (some loaderCall)).tree .body)).child 0
    (loaderCall.tree .value)

/-- The receiver is among the targets of the method, though self references are ignored. -/
theorem targetsOf_loaderUnit :
    "cls" ∈ targetsOf (outsideCalls oneTarget loaderModule.tree) loaderUnit.address := by
  have unitHas : loaderModule.tree.HasPlace loaderUnit := .child (.child .whole rfl) rfl
  have has : loaderModule.tree.HasPlace loaderPlace := .child (.child unitHas rfl) rfl
  have named : firstComponent "cls" = "cls" := by decide +kernel
  have receiver : IsReceiverOver loaderPlace "cls" :=
    ⟨by decide, loaderUnit, by simp [loaderPlace, Visit.path], by decide +kernel⟩
  have calls : Calls loaderPlace.tree.label.node "cls" none :=
    ⟨_, _, _, _, rfl, .object ..⟩
  have ignores : oneTarget.ignoreSelfReferences = true := rfl
  have isUnit : kindAt? loaderUnit = some .function := rfl
  obtain ⟨listed, receivers⟩ := targetsOf_of_receivers ignores unitHas isUnit
  refine (listed "cls").mpr ⟨loaderPlace, "cls", none, ?_, rfl⟩
  exact (receivers loaderPlace "cls" none has (named ▸ receiver)).mpr
    ⟨calls, fun _ => rfl, fun ignoresBuiltIns => absurd ignoresBuiltIns Bool.false_ne_true, rfl⟩

end Receivers

/-! ## Classes and their methods -/

section Methods

variable {options : FanOutOptions} {tree : SyntaxTree} {place method owner : SyntaxPlace}

/-- From a place in a method, the innermost class is one inside the method or the class of the
method. -/
theorem unitOver?_class_eq_owner_iff (has : tree.HasPlace place) (around : method ∈ place.around)
    (isFunction : kindAt? method = some .function)
    (directly : method.around.head? = some owner) (isClass : kindAt? owner = some .class) :
    (unitOver? .class place = some owner ↔
      ∀ inner ∈ place.around, kindAt? inner = some .class → method ∉ inner.around) ∧
    ∃ credited, unitOver? .class place = some credited ∧
      (credited = owner ∨ method ∈ credited.around) := by
  obtain ⟨near, split, within⟩ := has.exists_around_eq_append around
  obtain ⟨outer, methodAround⟩ : ∃ outer, method.around = owner :: outer :=
    List.head?_eq_some_iff.mp directly
  have methodHas := has.around around
  have notInside (other : SyntaxPlace) (on : other ∈ method.path) : method ∉ other.around := by
    intro inside
    have shorter := ((methodHas.of_mem_path on).address_of_mem_around inside).2
    have notLonger := (methodHas.address_prefix_of_mem_path on).length_le
    omega
  have farther : method.path.find? (fun outer => kindAt? outer == some .class) = some owner := by
    rw [Visit.path, List.find?_cons_of_neg (by simp [isFunction]), methodAround,
      List.find?_cons_of_pos (by simp [isClass])]
  rw [unitOver?, split, List.find?_append, farther]
  cases nearest : near.find? fun outer => kindAt? outer == some .class with
  | none =>
      refine ⟨⟨fun _ inner inside innerClass => ?_, fun _ => rfl⟩, owner, rfl, .inl rfl⟩
      rcases List.mem_append.mp inside with before | on
      · have notClass := List.find?_eq_none.mp nearest inner before
        simp [innerClass] at notClass
      · exact notInside inner on
  | some inner =>
      have before := List.mem_of_find?_eq_some nearest
      have innerClass : kindAt? inner = some .class := by simpa using List.find?_some nearest
      refine ⟨⟨fun equal => ?_, fun outside => ?_⟩, inner, rfl, .inr (within inner before)⟩
      · obtain rfl : inner = owner := Option.some.inj equal
        have ownerAround : inner ∈ method.path := by simp [Visit.path, methodAround]
        exact absurd (within inner before) (notInside inner ownerAround)
      · exact absurd (within inner before)
          (outside inner (List.mem_append_left _ before) innerClass)

/-- A call that is recorded for a method is recorded for the class of the method too if it lies in
no class inside the method. If it lies in such a class, it is recorded for that one instead. -/
theorem targetsOf_of_method (has : tree.HasPlace method)
    (isFunction : kindAt? method = some .function)
    (directly : method.around.head? = some owner) (isClass : kindAt? owner = some .class) :
    (∀ place object member, IsRecordedFor options tree place method object member →
      (IsRecordedFor options tree place owner object member ↔
        ∀ inner ∈ place.around, kindAt? inner = some .class → method ∉ inner.around)) ∧
    ∀ target ∈ targetsOf (outsideCalls options tree) method.address,
      target ∈ targetsOf (outsideCalls options tree) owner.address ∨
      ∃ inner, tree.HasPlace inner ∧ kindAt? inner = some .class ∧ method ∈ inner.around ∧
        target ∈ targetsOf (outsideCalls options tree) inner.address := by
  have ownerHas : tree.HasPlace owner := has.around (List.mem_of_head? directly)
  constructor
  · intro place object member recorded
    obtain ⟨calls, outside, credited⟩ := (isRecordedFor_iff recorded.has has isFunction).mp recorded
    obtain ⟨isOwner, -⟩ := unitOver?_class_eq_owner_iff recorded.has
      (mem_around_of_unitOver? credited) isFunction directly isClass
    rw [isRecordedFor_iff recorded.has ownerHas isClass, ← isOwner]
    exact ⟨fun recordedToo => recordedToo.2.2, fun found => ⟨calls, outside, found⟩⟩
  · intro target listed
    obtain ⟨place, object, member, recorded, rfl⟩ := mem_targetsOf_iff.mp listed
    obtain ⟨calls, outside, credited⟩ := (isRecordedFor_iff recorded.has has isFunction).mp recorded
    obtain ⟨-, nearest, found, position⟩ := unitOver?_class_eq_owner_iff recorded.has
      (mem_around_of_unitOver? credited) isFunction directly isClass
    have nearestHas := recorded.has.around (mem_around_of_unitOver? found)
    have nearestClass := kindAt?_of_unitOver? found
    have forNearest : targetNamed object member ∈
        targetsOf (outsideCalls options tree) nearest.address :=
      mem_targetsOf_iff.mpr ⟨place, object, member,
        (isRecordedFor_iff recorded.has nearestHas nearestClass).mpr ⟨calls, outside, found⟩, rfl⟩
    rcases position with rfl | inside
    · exact .inl forNearest
    · exact .inr ⟨nearest, nearestHas, nearestClass, inside, forNearest⟩

/-- A class in a method, with a call in its body. -/
def replyClass : Stmt :=
  .classDef ⟨4, 8, some 5⟩ "Reply" [] []
    [.assign ⟨5, 12, some 5⟩ [.name ⟨5, 12, some 5⟩ "body" .store]
      (.call ⟨5, 19, some 5⟩ (.name ⟨5, 19, some 5⟩ "render" .load) [] [])] []

/-- A method with this class and a call of its own. -/
def serviceMethod : Stmt :=
  .functionDef ⟨2, 4, some 5⟩ false "handle"
    (.mk [] [.mk ⟨2, 15, some 2⟩ "self" none] none [] [] none [])
    [.expr ⟨3, 8, some 3⟩ (.call ⟨3, 8, some 3⟩ (.name ⟨3, 8, some 3⟩ "connect" .load) [] []),
      replyClass] [] none

/-- The class of this method. -/
def serviceClass : Stmt := .classDef ⟨1, 0, some 5⟩ "Service" [] [] [serviceMethod] []

/-- A module that consists of this class. -/
def serviceModule : Module := ⟨[serviceClass]⟩

/-- Where the class stands. -/
def serviceUnit : SyntaxPlace := (Visit.whole serviceModule.tree).child 0 (serviceClass.tree .body)

/-- Where the method stands. -/
def serviceMethodUnit : SyntaxPlace := serviceUnit.child 0 (serviceMethod.tree .body)

/-- What is called in the class inside counts for the method and not for the class of the method. -/
theorem targetsOf_serviceUnit :
    "render" ∈ targetsOf (outsideCalls oneTarget serviceModule.tree)
      serviceMethodUnit.address ∧
    "render" ∉ targetsOf (outsideCalls oneTarget serviceModule.tree)
      serviceUnit.address ∧
    ∃ inner, serviceModule.tree.HasPlace inner ∧ kindAt? inner = some .class ∧
      serviceMethodUnit ∈ inner.around ∧
      "render" ∈ targetsOf (outsideCalls oneTarget serviceModule.tree)
        inner.address := by
  have has : serviceModule.tree.HasPlace serviceMethodUnit := .child (.child .whole rfl) rfl
  have isFunction : kindAt? serviceMethodUnit = some .function := rfl
  have directly : serviceMethodUnit.around.head? = some serviceUnit := by
    simp [serviceMethodUnit, Visit.path]
  have forMethod : "render" ∈ targetsOf (outsideCalls oneTarget serviceModule.tree)
      serviceMethodUnit.address := by
    rw [mem_targetsOf]
    decide +kernel
  have notForClass : "render" ∉ targetsOf (outsideCalls oneTarget serviceModule.tree)
      serviceUnit.address := by
    rw [mem_targetsOf]
    decide +kernel
  have isClass : kindAt? serviceUnit = some .class := rfl
  have credited := (targetsOf_of_method has isFunction directly isClass).2 "render" forMethod
  exact ⟨forMethod, notForClass, credited.resolve_left notForClass⟩

end Methods

end DesignLint.Check
