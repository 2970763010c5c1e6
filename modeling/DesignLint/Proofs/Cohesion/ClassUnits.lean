import DesignLint.Proofs.Cohesion.FunctionUnits

/-!
# Classes under analysis

What a traversal collects for classes, stated without a traversal: each class with
the functions directly in its body, each of these with the members accessed through
its receiver.
-/

namespace DesignLint.Cohesion

open DesignLint.Syntax

variable {tree : SyntaxTree} {place unit block other : SyntaxPlace}

/-! ## Methods -/

/-- The functions directly in the body of a class, in source order. -/
def methodsOf (unit : SyntaxPlace) : List SyntaxPlace :=
  (unit.childrenFrom 0 unit.tree.children).filter fun place => (methodAt? place).isSome

/-- The members of a tree that a method uses. -/
def membersAt (tree : SyntaxTree) (method : SyntaxPlace) : NameSet :=
  membersUsed tree.places method.address

/-- The name of the method at a place. -/
def methodNameAt (method : SyntaxPlace) : String := ((methodAt? method).map (·.name)).getD ""

/-- Whether a method becomes a block: constructors do not, nor do methods that use no
member. -/
def countsAsBlock (tree : SyntaxTree) (method : SyntaxPlace) : Bool :=
  !(isConstructorName (methodNameAt method) || (membersAt tree method).isEmpty)

/-- The name of the block that a method becomes. -/
def methodBlockName (method : SyntaxPlace) : String :=
  if (methodNameAt method).isEmpty then controlBlockName .method (spanAt method)
  else methodNameAt method

/-- The method at a place as a block with a number. -/
def methodBlockAt (tree : SyntaxTree) (method : SyntaxPlace) (index : Nat) : Block :=
  { index := index
    type := .method
    name := methodBlockName method
    startLine := (spanAt method).startLine
    endLine := (spanAt method).endLine
    members := membersAt tree method }

theorem isConstructor_of_methodAt? {info : Method} (method : methodAt? place = some info) :
    info.isConstructor = isConstructorName info.name := by
  rw [methodAt?_eq] at method
  split at method
  · cases method
    rfl
  · simp at method

/-- A method becomes a block if it is no constructor and uses a member. -/
theorem extract?_usageOf_of_method (method : (methodAt? place).isSome) (index : Nat) :
    (usageOf tree.places place).extract? index =
      if countsAsBlock tree place then some (methodBlockAt tree place index) else none := by
  unfold methodAt? at method
  split at method
  · rename_i name span info bindsName header element
    cases info with
    | none => simp at method
    | some info =>
        have info_eq : methodAt? place = some info := by simp [methodAt?, element]
        have span_eq : spanAt place = span := by simp [spanAt, element]
        have name_eq : methodNameAt place = info.name := by simp [methodNameAt, info_eq]
        simp only [usageOf, element, OpenBlock.extract?, OpenBlock.isEmpty, countsAsBlock,
          methodBlockAt, methodBlockName, name_eq, span_eq, membersAt, if_true,
          isConstructor_of_methodAt? info_eq]
        generalize (isConstructorName info.name ||
          (membersUsed tree.places place.address).isEmpty) = dropped
        cases dropped <;> rfl
  · simp at method

/-! ## Classes -/

/-- The class at a place: its methods that count, numbered in source order. -/
def classAt (tree : SyntaxTree) (unit : SyntaxPlace) : CodeUnit :=
  { kind := .class
    name := unitNameAt unit
    span := spanAt unit
    blocks := ((methodsOf unit).filter (countsAsBlock tree)).zipIdx.map
      fun (method, index) => methodBlockAt tree method index
    stage := .finalizing }

/-- The blocks of a class are the functions directly in its body. -/
theorem filter_isBlockOf_eq_methodsOf (stands : StandsForSyntax tree) (has : tree.HasPlace unit)
    (isClass : kindAt? unit = some .class) :
    tree.latePlaces.filter (isBlockOf unit) = methodsOf unit := by
  have right (block : SyntaxPlace) (blockHas : tree.HasPlace block)
      (isBlock : isBlockOf unit block = true) : block.around = unit.path := by
    obtain ⟨above, aboveHas, -, aboveBlock, around, -⟩ := exists_isBlockOf_of_methodAt? stands
      blockHas (methodAt?_isSome_of_isBlockOf isClass isBlock)
    rwa [eq_of_isBlockOf blockHas has aboveHas isBlock aboveBlock]
  rw [has.filter_latePlaces_eq_children right, methodsOf]
  refine List.filter_congr fun block listed => ?_
  simp only [Visit.childrenFrom, List.mem_map, Prod.exists] at listed
  obtain ⟨subtree, index, found, rfl⟩ := listed
  have childHas : tree.HasPlace (unit.child index subtree) := by
    exact .child has (List.mem_zipIdx_iff_getElem?.mp found)
  rw [Bool.eq_iff_iff]
  constructor
  · exact methodAt?_isSome_of_isBlockOf isClass
  · intro method
    obtain ⟨above, aboveHas, -, aboveBlock, around, -⟩ := exists_isBlockOf_of_methodAt? stands
      childHas method
    rw [Visit.child_around, Visit.path, Visit.path, List.cons.injEq] at around
    obtain ⟨rfl, -⟩ := around
    exact aboveBlock

theorem methodAt?_eq_none_of_class (isClass : kindAt? place = some .class) :
    methodAt? place = none := by
  unfold kindAt? at isClass
  unfold methodAt?
  split at isClass <;> simp_all

theorem unitAt_eq_classAt (stands : StandsForSyntax tree) (has : tree.HasPlace unit)
    (isClass : kindAt? unit = some .class) :
    unitAt tree.places tree.latePlaces unit = classAt tree unit := by
  have methods : ∀ block ∈ methodsOf unit, (methodAt? block).isSome := fun block listed =>
    (List.mem_filter.mp listed).2
  have noReceiver : receiverAt? unit = none := by
    simp [receiverAt?, methodAt?_eq_none_of_class isClass]
  simp only [unitAt, classAt, filter_isBlockOf_eq_methodsOf stands has isClass, isClass, noReceiver,
    Option.getD_some]
  rw [numberedBlocks_map_eq fun block listed =>
    extract?_usageOf_of_method (methods block listed)]
  rfl

theorem filter_closedUnits_class_eq (stands : StandsForSyntax tree) :
    (closedUnits tree).filter (fun unit => unit.kind == .class) =
      (unitPlacesOf .class tree).map (classAt tree) := by
  rw [filter_closedUnits_eq stands]
  refine List.map_congr_left fun unit listed => ?_
  obtain ⟨late, isClass⟩ := List.mem_filter.mp listed
  exact unitAt_eq_classAt stands (Tree.hasPlace_of_mem_places (Visit.mem_latePlaces.mp late))
    (by simpa using isClass)

/-! ## Accesses -/

/-- The innermost method that a place lies in and whose receiver has a given name. -/
def innermostMethod? (place : SyntaxPlace) (receiver : String) : Option SyntaxPlace :=
  place.around.find? fun outer => !liesInHeader place outer && receiverAt? outer == some receiver

/-- Outside the headers of methods the method in charge is the innermost one. -/
theorem methodInCharge?_eq_innermostMethod? {receiver : String}
    (outside : ∀ outer ∈ place.around, (methodAt? outer).isSome →
      liesInHeader place outer = false) :
    methodInCharge? place receiver = innermostMethod? place receiver := by
  rw [methodInCharge?, innermostMethod?, ← List.head?_filter, ← List.head?_filter]
  congr 1
  refine List.filter_congr fun outer around => ?_
  cases through : receiverAt? outer == some receiver with
  | false => simp
  | true =>
      have method := methodAt?_isSome_of_receiverAt? (by simpa using through)
      simp [outside outer around method]

/-- An access at a place counts for the method that is in charge of its receiver, and for no
other one. -/
def CountsFor (place : SyntaxPlace) (inCharge : String → Option SyntaxPlace) : Prop :=
  ∀ method : SyntaxPlace, usedMember? method.address place =
    (accessAt? place).bind fun (receiver, member) =>
      if (inCharge receiver).map (·.address) = some method.address then some member else none

theorem countsFor_methodInCharge? (place : SyntaxPlace) :
    CountsFor place (methodInCharge? place) := by
  intro method
  unfold usedMember?
  cases accessAt? place <;> rfl

/-- Classes for any module: the blocks of a class are the functions directly in its body, in
source order, without constructors and functions that use no member. An access outside the
headers of methods counts for the innermost method with its receiver and for no other one. -/
theorem classUnits_and_countsFor_innermost (module : Module) :
    (closedUnits module.tree).filter (fun unit => unit.kind == .class) =
        (unitPlacesOf .class module.tree).map (classAt module.tree) ∧
      ∀ place ∈ module.tree.places,
        (∀ outer ∈ place.around, (methodAt? outer).isSome → liesInHeader place outer = false) →
        CountsFor place (innermostMethod? place) := by
  refine ⟨filter_closedUnits_class_eq (.module module), fun place _ outside => ?_⟩
  have same : innermostMethod? place = methodInCharge? place := by
    funext receiver
    exact (methodInCharge?_eq_innermostMethod? outside).symm
  rw [same]
  exact countsFor_methodInCharge? place

/-! ### A class in a method of another class -/

/-- An access to a member of `self`, on a line. -/
def accessToSelf (member : String) (line : Nat) : Expr :=
  .attr ⟨line, 0, none⟩ (.name ⟨line, 0, none⟩ "self" .load) member .load

/-- A function with the parameter `self`, on a line. -/
def functionOfSelf (name : String) (line : Nat) (body : List Stmt)
    (decorators : List Expr) : Stmt :=
  .functionDef ⟨line, 0, none⟩ false name
    (.mk [] [.mk ⟨line, 0, none⟩ "self" none] none [] [] none []) body decorators none

/-- A class in a method `build` of another class, with a method `handle` that accesses a member in
its body and another one in a decorator. -/
def nestedClasses : Module :=
  ⟨[.classDef ⟨1, 0, none⟩ "Outer" [] []
    [functionOfSelf "build" 2
      [.classDef ⟨3, 0, none⟩ "Inner" [] []
        [functionOfSelf "handle" 5 [.expr ⟨6, 0, none⟩ (accessToSelf "body" 6)]
          [accessToSelf "route" 4]] []] []] []]⟩

/-- The place where a member of `self` is accessed. -/
def accessInNestedClasses? (member : String) : Option SyntaxPlace :=
  nestedClasses.tree.places.find? fun place => accessAt? place == some ("self", member)

/-- The access in the body of `handle`. -/
def bodyAccess : SyntaxPlace := (accessInNestedClasses? "body").get (by decide)

/-- The access in the body counts for the innermost method. -/
theorem countsFor_bodyAccess : CountsFor bodyAccess (innermostMethod? bodyAccess) :=
  (classUnits_and_countsFor_innermost nestedClasses).2 bodyAccess
    (List.get_find?_mem _) (by decide)

/-! ## Headers of methods -/

/-- No header contains a method. -/
theorem not_liesInHeader_of_methodAt? (stands : StandsForSyntax tree) (has : tree.HasPlace place)
    (method : (methodAt? place).isSome) (unitHas : tree.HasPlace unit) :
    liesInHeader place unit = false :=
  not_liesInHeader_of_holdsStatements stands has unitHas (holdsStatements_of_methodAt? method)

/-- What lies in the header of a method is credited to the method itself if its receiver has the
name, and otherwise as if it stood where the method is defined. -/
theorem methodInCharge?_of_liesInHeader {header : SyntaxPlace} (stands : StandsForSyntax tree)
    (has : tree.HasPlace place) (around : header ∈ place.around)
    (method : (methodAt? header).isSome) (inside : liesInHeader place header = true)
    (receiver : String) :
    methodInCharge? place receiver =
      if receiverAt? header = some receiver then some header
      else innermostMethod? header receiver := by
  have headerHas := has.around around
  obtain ⟨near, split, within⟩ := has.exists_around_eq_append around
  have noMethod (between : SyntaxPlace) (member : between ∈ near) :
      ¬(receiverAt? between == some receiver) = true := by
    intro through
    have betweenAround : between ∈ place.around := by simp [split, member]
    have isMethod := methodAt?_isSome_of_receiverAt? (by simpa using through)
    have element := elementAt?_isSome_of_methodAt? isMethod
    have outside :=
      not_liesInHeader_of_methodAt? stands (has.around betweenAround) isMethod headerHas
    rw [not_liesInHeader_of_mem_around stands has betweenAround element (within between member)
      outside] at inside
    simp at inside
  rw [← methodInCharge?_eq_innermostMethod? fun outer outerAround _ =>
    not_liesInHeader_of_methodAt? stands headerHas method (headerHas.around outerAround)]
  rw [methodInCharge?, split, List.find?_append, List.find?_eq_none.mpr noMethod, Option.none_or,
    Visit.path]
  by_cases through : receiverAt? header = some receiver
  · simp [through]
  · rw [List.find?_cons_of_neg (by simpa using through), if_neg through, methodInCharge?]

/-- Headers of methods for any module: an access in the header of a method counts for that method
exactly if it goes through the receiver of the method; otherwise it counts for the innermost method
with its receiver in which the header's method is defined, and for no other one. -/
theorem countsFor_of_liesInHeader (module : Module) (place header : SyntaxPlace)
    (listed : place ∈ module.tree.places) (around : header ∈ place.around)
    (method : (methodAt? header).isSome) (inside : liesInHeader place header = true) :
    (closedUnits module.tree).filter (fun unit => unit.kind == .class) =
        (unitPlacesOf .class module.tree).map (classAt module.tree) ∧
      CountsFor place fun receiver =>
        if receiverAt? header = some receiver then some header
        else innermostMethod? header receiver := by
  refine ⟨filter_closedUnits_class_eq (.module module), ?_⟩
  have same : methodInCharge? place = fun receiver =>
      if receiverAt? header = some receiver then some header
      else innermostMethod? header receiver := by
    funext receiver
    exact methodInCharge?_of_liesInHeader (.module module) (Tree.hasPlace_of_mem_places listed)
      around method inside receiver
  rw [← same]
  exact countsFor_methodInCharge? place

/-- The access in the decorator of `handle`. -/
def routeAccess : SyntaxPlace := (accessInNestedClasses? "route").get (by decide)

/-- The method whose decorator the access is in. -/
def handleMethod : SyntaxPlace :=
  (routeAccess.around.find? fun outer => (methodAt? outer).isSome).get (by decide)

/-- The access in the decorator counts for the decorated method, not for the method around its
class. -/
theorem usedMember_routeAccess : usedMember? handleMethod.address routeAccess = some "route" :=
  ((countsFor_of_liesInHeader nestedClasses routeAccess handleMethod (List.get_find?_mem _)
    (List.get_find?_mem _) (by decide) (by decide)).2 handleMethod).trans (by decide)

end DesignLint.Cohesion
