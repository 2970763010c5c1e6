import DesignLint.Proofs.Check.ParameterReads
import Mathlib.Data.List.TakeWhile

/-!
# Truthful pairs

A late variable is shown by two lines, that of its declaration and that of its first use. The pass
over the names of a function finds them by how names are written. Whether they are what they are
called depends on everything that binds or reads the variable in between: bindings in other forms
and reads in scopes inside are not gone through, reads within the limit are passed over, and the
variable of a comprehension is taken for that of the function.
-/

namespace DesignLint.Check

open Syntax Cohesion

/-- One position stands before another in the text. -/
def IsBefore (first last : Position) : Prop :=
  first.line < last.line ∨ first.line = last.line ∧ first.column < last.column

/-! ## First late reads -/

variable {options : LateUsageOptions} {uses : List NameUse} {binding read use : NameUse}

/-- What the pass compares to report a read: this is the first late read after a binding, and there
is no other binding of the name in between. -/
structure IsFirstLate (options : LateUsageOptions) (uses : List NameUse)
    (binding read : NameUse) : Prop where
  binds : binding.context ≠ .load
  reads : read.context = .load
  same : binding.name = read.name
  ordered : binding.NotAfter read
  late : options.isLate (lineDistance binding.position.line read.position.line) = true
  between : ∀ other ∈ uses, other.name = read.name →
    IsBefore binding.position other.position → IsBefore other.position read.position →
      other.context = .load ∧
        options.isLate (lineDistance binding.position.line other.position.line) = false

theorem NameUse.NotAfter.not_isBefore (ordered : binding.NotAfter read) :
    ¬IsBefore read.position binding.position := by
  unfold NameUse.NotAfter at ordered
  unfold IsBefore
  omega

theorem not_isBefore_self (position : Position) : ¬IsBefore position position := by
  unfold IsBefore
  omega

/-- The late read of a binding is the first one among names in the order of the text. -/
theorem isFirstLate_of_lateReadOf? {front later : List NameUse} {found : LateRead}
    (ordered : (front ++ use :: later).Pairwise NameUse.NotAfter)
    (reported : lateReadOf? options (use :: later) = some found) :
    ∃ read ∈ later, IsFirstLate options (front ++ use :: later) use read ∧
      found = ⟨read.name, use.position.line, read.position⟩ := by
  rw [lateReadOf?, Option.ite_none_left_eq_some] at reported
  obtain ⟨binds, reported⟩ := reported
  obtain ⟨read, first, rfl⟩ := Option.map_eq_some_iff.mp reported
  obtain ⟨matched, near, far, split, passed⟩ := List.find?_eq_some_iff_append.mp first
  rw [Bool.and_eq_true, beq_iff_eq] at matched
  obtain ⟨named, late⟩ := matched
  have reads {other : NameUse}
      (kept : other ∈ later.takeWhile fun other => !other.rebinds use.name)
      (same : other.name = use.name) : other.context = .load := by
    simpa [NameUse.rebinds, same] using List.mem_takeWhile_imp kept
  have rest :=
    List.takeWhile_append_dropWhile (p := fun other => !other.rebinds use.name) (l := later)
  rw [split, List.append_assoc, List.cons_append] at rest
  have listed : read ∈ later := rest ▸ by simp
  rw [List.pairwise_append, List.pairwise_cons] at ordered
  obtain ⟨-, ⟨afterUse, laterOrdered⟩, afterFront⟩ := ordered
  refine ⟨read, listed, ⟨binds, reads (by simp [split]) named, named.symm, afterUse read listed,
    late, fun other member same afterBinding beforeRead => ?_⟩, by rw [named]⟩
  -- A name in between can only stand in the part that has been searched: what is in front of the
  -- binding or behind the read is ruled out by the order.
  rcases List.mem_append.mp member with before | member
  · exact absurd afterBinding (afterFront other before use List.mem_cons_self).not_isBefore
  rcases List.mem_cons.mp member with rfl | member
  · exact absurd afterBinding (not_isBefore_self _)
  rw [← rest] at member laterOrdered
  rcases List.mem_append.mp member with isNear | member
  · have near := passed other isNear
    rw [same, named] at near
    exact ⟨reads (by simp [split, isNear]) (same.trans named), by simpa using near⟩
  rcases List.mem_cons.mp member with rfl | isFar
  · exact absurd beforeRead (not_isBefore_self _)
  · have farther := (List.pairwise_cons.mp (List.pairwise_append.mp laterOrdered).2.1).1
    exact absurd beforeRead (farther other isFar).not_isBefore

/-! ## Pairs of names -/

/-- Two names in the own scope of a function: what is taken for a declaration and for its first
use. -/
structure NamePair where
  function : SyntaxPlace
  bound : SyntaxPlace
  read : SyntaxPlace
  binding : NameUse
  use : NameUse

/-- The name of the variable in full. -/
def NamePair.full (pair : NamePair) : String := fullName pair.function pair.use.name

/-- A place stands between the two names in the text. -/
def NamePair.HasBetween (pair : NamePair) (place : SyntaxPlace) : Prop :=
  ∃ position, place.tree.label.node.position? = some position ∧
    IsBefore pair.binding.position position ∧ IsBefore position pair.use.position

/-- A place is a name that the pass compares with the two. -/
def NamePair.Compares (pair : NamePair) (place : SyntaxPlace) : Prop :=
  place ∈ ownPlaces pair.function ∧
    ∃ use, nameUse? place.tree = some use ∧ use.name = pair.use.name

/-- A violation shows two names: their lines, and the position of the second. -/
structure ShowsPair (options : LateUsageOptions) (tree : SyntaxTree) (violation : Violation)
    (pair : NamePair) : Prop where
  function : pair.function ∈ functionPlaces tree
  bound : pair.bound ∈ ownPlaces pair.function
  binding : nameUse? pair.bound.tree = some pair.binding
  read : pair.read ∈ ownPlaces pair.function
  use : nameUse? pair.read.tree = some pair.use
  first : IsFirstLate options (ownNames pair.function.tree) pair.binding pair.use
  shown : violation = lateReadViolation options pair.function.tree
    ⟨pair.use.name, pair.binding.position.line, pair.use.position⟩

/-! ## What a violation says -/

/-- A place binds a variable of a function. A deletion does not. -/
structure Declares (function : SyntaxPlace) (name : String) (place : SyntaxPlace) : Prop where
  binds : BindsVariable function name place
  notDeleted : ∀ use, nameUse? place.tree = some use → use.context ≠ .del

/-- A place reads a variable of a function. -/
def ReadsVariable (tree : SyntaxTree) (function : SyntaxPlace) (name : String)
    (place : SyntaxPlace) : Prop :=
  ∃ use, nameUse? place.tree = some use ∧ use.context = .load ∧ fullName place use.name = name ∧
    MeansIn tree function place use.name

/-- What it means that two names are what a violation calls them: the first is the last declaration
of a variable before the second, and the second is the first read of the variable after it. -/
structure TellsTruth (tree : SyntaxTree) (pair : NamePair) : Prop where
  declared : Declares pair.function pair.full pair.bound
  read : ReadsVariable tree pair.function pair.full pair.read
  last : ∀ place, tree.HasPlace place → Declares pair.function pair.full place →
    ¬pair.HasBetween place
  first : ∀ place, tree.HasPlace place → ReadsVariable tree pair.function pair.full place →
    ¬pair.HasBetween place

/-- No scope inside a function has a variable of its own for a name that is read at a place. -/
def IsUnshadowed (tree : SyntaxTree) (function : SyntaxPlace) (name : String)
    (place : SyntaxPlace) : Prop :=
  ∀ inner ∈ scopesSeenFrom place, function ∈ inner.around → standing tree inner name = .outer

/-- What can make a pair untrue does not occur. -/
structure IsUndisturbed (options : LateUsageOptions) (tree : SyntaxTree) (pair : NamePair) :
    Prop where
  /-- What is taken for the declaration is no deletion. -/
  notDeleted : pair.binding.context ≠ .del
  /-- It binds in the function, not in a comprehension. -/
  notIterated : isNamedTarget pair.bound = true ∨
    ∀ inner ∈ scopesOver pair.bound, pair.function ∉ inner.around
  /-- The read is not one of a variable of a comprehension. -/
  notHidden : IsUnshadowed tree pair.function pair.full pair.read
  /-- Nothing that the pass does not compare declares the variable in between: no construct other
  than a name, no name in the header of a construct inside, and no private name written in full. -/
  noOtherDeclaration : ∀ place, tree.HasPlace place → Declares pair.function pair.full place →
    ¬pair.Compares place → ¬pair.HasBetween place
  /-- Nothing that the pass does not compare reads the variable in between: no name in a function,
  lambda or class inside. -/
  noOtherRead : ∀ place, tree.HasPlace place → ReadsVariable tree pair.function pair.full place →
    ¬pair.Compares place → ¬pair.HasBetween place
  /-- No read within the limit comes in between, unless it is one of a variable of a
  comprehension. -/
  noNearRead : ∀ place ∈ ownPlaces pair.function, ∀ use, nameUse? place.tree = some use →
    use.context = .load → use.name = pair.use.name →
      options.isLate (lineDistance pair.binding.position.line use.position.line) = false →
        IsUnshadowed tree pair.function pair.full place → ¬pair.HasBetween place

variable {tree : SyntaxTree} {function place : SyntaxPlace} {violation : Violation}
  {pair : NamePair}

/-! ## Names in the own scope -/

theorem position?_of_nameUse? (written : nameUse? place.tree = some use) :
    place.tree.label.node.position? = some use.position := by
  rw [node_eq_of_nameUse? written, Node.position?, Expr.position]

theorem boundName?_of_nameUse? (written : nameUse? place.tree = some use) :
    boundName? place.tree.label.node = if use.context = .load then none else some use.name := by
  rw [node_eq_of_nameUse? written]
  cases use.context <;> rfl

section Own

variable (stands : StandsForSyntax tree) (listed : function ∈ functionPlaces tree)
  (own : place ∈ ownPlaces function) (written : nameUse? place.tree = some use)

include stands listed own

theorem mem_scopesOver_of_mem_ownPlaces : function ∈ scopesOver place := by
  obtain ⟨has, isDefinition⟩ := mem_functionPlaces_iff.mp listed
  obtain ⟨placeHas, -, body, inBody, on⟩ := (mem_ownPlaces_iff has).mp own
  exact mem_scopesOver_of_body stands placeHas has (kindAt?_of_isFunctionDef isDefinition) inBody on

theorem fullName_of_mem_ownPlaces (name : String) :
    fullName place name = fullName function name := by
  obtain ⟨has, isDefinition⟩ := mem_functionPlaces_iff.mp listed
  obtain ⟨placeHas, nearest, -⟩ := (mem_ownPlaces_iff has).mp own
  have isFunction := kindAt?_of_isFunctionDef isDefinition
  exact fullName_of_nearestScope? stands placeHas isFunction nearest name

include written

/-- A name that is not read in the own scope declares a variable of the function, if it is no
deletion and binds in no comprehension. -/
theorem declares_iff_of_mem_ownPlaces (binds : use.context ≠ .load) :
    Declares function (fullName function use.name) place ↔
      use.context ≠ .del ∧ (isNamedTarget place = true ∨
        ∀ inner ∈ scopesOver place, function ∉ inner.around) := by
  obtain ⟨has, isDefinition⟩ := mem_functionPlaces_iff.mp listed
  obtain ⟨placeHas, nearest, -⟩ := (mem_ownPlaces_iff has).mp own
  rw [← bindingScope?_eq_some_iff placeHas (kindAt?_of_isFunctionDef isDefinition) nearest
    (mem_scopesOver_of_mem_ownPlaces stands listed own)]
  constructor
  · rintro ⟨⟨-, bound⟩, notDeleted⟩
    exact ⟨notDeleted use written, bound⟩
  · rintro ⟨notDeleted, bound⟩
    refine ⟨⟨⟨use.name, ?_, fullName_of_mem_ownPlaces stands listed own _⟩, bound⟩, ?_⟩
    · rw [boundName?_of_nameUse? written, if_neg binds]
    · intro other also
      obtain rfl := Option.some.inj (written.symm.trans also)
      exact notDeleted

/-- A read in the own scope reads a variable of the function, if no comprehension has one of that
name. -/
theorem readsVariable_iff_of_mem_ownPlaces (reads : use.context = .load) :
    ReadsVariable tree function (fullName function use.name) place ↔
      IsUnshadowed tree function (fullName function use.name) place := by
  obtain ⟨-, isDefinition⟩ := mem_functionPlaces_iff.mp listed
  have seen := mem_scopesSeenFrom_of_function (kindAt?_of_isFunctionDef isDefinition)
    (mem_scopesOver_of_mem_ownPlaces stands listed own)
  have full := fullName_of_mem_ownPlaces stands listed own use.name
  constructor
  · rintro ⟨other, also, -, -, means⟩
    obtain rfl := Option.some.inj (written.symm.trans also)
    exact full ▸ means.passes
  · intro unshadowed
    exact ⟨use, written, reads, full, seen, full ▸ unshadowed⟩

end Own

/-! ## When a violation tells the truth -/

/-- Between the two names of a pair the pass has met only reads within the limit. -/
theorem ShowsPair.near (shows : ShowsPair options tree violation pair)
    (own : place ∈ ownPlaces pair.function) (written : nameUse? place.tree = some use)
    (same : use.name = pair.use.name) (between : pair.HasBetween place) :
    use.context = .load ∧
      options.isLate (lineDistance pair.binding.position.line use.position.line) = false := by
  obtain ⟨has, isDefinition⟩ := mem_functionPlaces_iff.mp shows.function
  obtain ⟨position, found, afterBinding, beforeRead⟩ := between
  obtain rfl := Option.some.inj ((position?_of_nameUse? written).symm.trans found)
  have listed : use ∈ ownNames pair.function.tree :=
    (ownNames_perm has isDefinition).mem_iff.mpr (List.mem_filterMap.mpr ⟨place, own, written⟩)
  exact shows.first.between use listed same afterBinding beforeRead

/-- A violation tells the truth about two names if nothing disturbs them. -/
theorem ShowsPair.tellsTruth_iff (stands : StandsForSyntax tree)
    (shows : ShowsPair options tree violation pair) :
    TellsTruth tree pair ↔ IsUndisturbed options tree pair := by
  have declared := declares_iff_of_mem_ownPlaces stands shows.function shows.bound shows.binding
    shows.first.binds
  rw [shows.first.same] at declared
  have read := readsVariable_iff_of_mem_ownPlaces stands shows.function shows.read shows.use
    shows.first.reads
  constructor
  · intro truth
    obtain ⟨notDeleted, notIterated⟩ := declared.mp truth.declared
    refine ⟨notDeleted, notIterated, read.mp truth.read, ?_, ?_, ?_⟩
    · exact fun place has declares _ => truth.last place has declares
    · exact fun place has reads _ => truth.first place has reads
    · intro place own use written reads same _ unshadowed
      have has := ((mem_ownPlaces_iff (mem_functionPlaces_iff.mp shows.function).1).mp own).1
      refine truth.first place has ?_
      rw [NamePair.full, ← same] at unshadowed ⊢
      exact (readsVariable_iff_of_mem_ownPlaces stands shows.function own written reads).mpr
        unshadowed
  · intro undisturbed
    refine ⟨declared.mpr ⟨undisturbed.notDeleted, undisturbed.notIterated⟩,
      read.mpr undisturbed.notHidden, ?_, ?_⟩
    · intro place has declares between
      by_cases compares : pair.Compares place
      · obtain ⟨own, use, written, same⟩ := compares
        obtain ⟨named, bound, -⟩ := declares.binds.named
        rw [boundName?_of_nameUse? written, if_pos (shows.near own written same between).1] at bound
        cases bound
      · exact undisturbed.noOtherDeclaration place has declares compares between
    · intro place has reads between
      by_cases compares : pair.Compares place
      · obtain ⟨own, use, written, same⟩ := compares
        obtain ⟨isLoad, near⟩ := shows.near own written same between
        refine undisturbed.noNearRead place own use written isLoad same near ?_ between
        rw [NamePair.full, ← same] at reads ⊢
        exact (readsVariable_iff_of_mem_ownPlaces stands shows.function own written isLoad).mp reads
      · exact undisturbed.noOtherRead place has reads compares between

/-- Every late variable of a module shows two names in the own scope of a function. -/
theorem exists_showsPair {module : Module}
    (reported : violation ∈ lateVariables options module.tree) :
    ∃ pair, ShowsPair options module.tree violation pair := by
  obtain ⟨function, listed, inFunction⟩ :=
    List.mem_flatMap.mp ((lateVariables_perm options module).mem_iff.mp reported)
  obtain ⟨found, isFound, rfl⟩ := List.mem_map.mp inFunction
  obtain ⟨names, isTail, reported⟩ := List.mem_filterMap.mp isFound
  obtain ⟨has, isDefinition⟩ := mem_functionPlaces_iff.mp listed
  have placed {use : NameUse} (own : use ∈ ownNames function.tree) :
      ∃ place ∈ ownPlaces function, nameUse? place.tree = some use :=
    List.mem_filterMap.mp ((ownNames_perm has isDefinition).mem_iff.mp own)
  cases names with
  | nil => cases reported
  | cons binding later =>
      obtain ⟨front, whole⟩ := (List.mem_tails _ _).mp isTail
      obtain ⟨read, afterBinding, first, rfl⟩ :=
        isFirstLate_of_lateReadOf? (whole ▸ pairwise_ownNames function.tree) reported
      rw [whole] at first
      obtain ⟨bound, boundOwn, isBinding⟩ := placed (whole ▸ by simp : binding ∈ _)
      obtain ⟨place, readOwn, isRead⟩ := placed (whole ▸ by simp [afterBinding] : read ∈ _)
      exact ⟨⟨function, bound, place, binding, read⟩, listed, boundOwn, isBinding, readOwn, isRead,
        first, rfl⟩

/-! ## The pairs of a module -/

/-- What it means that violations show pairs by how names are written. They are the late reads of
all functions, binding by binding; every one of them shows a pair, and it tells the truth about the
pair unless this is disturbed. -/
structure ShowsWrittenPairs (options : LateUsageOptions) (tree : SyntaxTree)
    (violations : List Violation) : Prop where
  reported : violations.Perm ((functionPlaces tree).flatMap fun function =>
    ((ownNames function.tree).tails.filterMap (lateReadOf? options)).map
      (lateReadViolation options function.tree))
  shown : ∀ violation ∈ violations, ∃ pair, ShowsPair options tree violation pair
  truthful : ∀ violation pair, ShowsPair options tree violation pair →
    (TellsTruth tree pair ↔ IsUndisturbed options tree pair)

/-- The late variables of a module are shown by the lines of names that are written alike. -/
theorem lateVariables_showsWrittenPairs (options : LateUsageOptions) (module : Module) :
    ShowsWrittenPairs options module.tree (lateVariables options module.tree) where
  reported := lateVariables_perm options module
  shown _ reported := exists_showsPair reported
  truthful _ _ shows := shows.tellsTruth_iff (.module module)

/-- What is imported on the eighth line of the next function. -/
def driverAlias : Alias := ⟨⟨8, 24, some 8⟩, "driver", none⟩

/-- A function that binds a name on its second line, imports the name on the eighth and reads it on
the ninth. -/
def driverFunction : Stmt :=
  .functionDef ⟨1, 0, some 9⟩ false "connect"
    (.mk [] [.mk ⟨1, 12, some 1⟩ "url" none] none [] [] none [])
    [.assign ⟨2, 4, some 2⟩ [.name ⟨2, 4, some 2⟩ "driver" .store]
        (.constant ⟨2, 13, some 2⟩ .none none),
      .passStmt ⟨3, 4, some 3⟩,
      .importFrom ⟨8, 4, some 8⟩ (some "drivers") [driverAlias] 0,
      .returnStmt ⟨9, 4, some 9⟩
        (some (.call ⟨9, 11, some 9⟩ (.name ⟨9, 11, some 9⟩ "driver" .load)
          [.name ⟨9, 18, some 9⟩ "url" .load] []))] [] none

/-- A module that consists of this function. -/
def driverModule : Module := ⟨[driverFunction]⟩

/-- The place of this function. -/
def driverPlace : SyntaxPlace :=
  (Visit.whole driverModule.tree).child 0 (driverFunction.tree .body)

/-- The place of what is imported. -/
def driverAliasPlace : SyntaxPlace :=
  (driverPlace.child 3 (Stmt.tree .body
    (.importFrom ⟨8, 4, some 8⟩ (some "drivers") [driverAlias] 0))).child 0 driverAlias.tree

theorem hasPlace_driverAliasPlace : driverModule.tree.HasPlace driverAliasPlace :=
  .child (.child (.child .whole rfl) rfl) rfl

theorem declares_driverAliasPlace : Declares driverPlace "driver" driverAliasPlace where
  binds := ⟨⟨"driver", rfl, rfl⟩, rfl⟩
  notDeleted _ written := by cases written

/-- The names of this function in the order of the text. -/
def driverUses : List NameUse :=
  [⟨"driver", ⟨2, 4, some 2⟩, .store⟩, ⟨"driver", ⟨9, 11, some 9⟩, .load⟩,
    ⟨"url", ⟨9, 18, some 9⟩, .load⟩]

theorem ownNames_driverFunction : ownNames (driverFunction.tree .body) = driverUses := by
  have perm : (ownNames (driverFunction.tree .body)).Perm driverUses :=
    (List.mergeSort_perm _ _).trans (by decide +kernel)
  have ordered : driverUses.Pairwise fun first last => first.textOrder last = true := by decide
  have antisymm : ∀ first ∈ driverUses, ∀ last ∈ driverUses, first.textOrder last = true →
      last.textOrder first = true → first = last := by decide
  exact perm.eq_of_pairwise (fun first last listed => antisymm first (perm.mem_iff.mp listed) last)
    ((pairwise_ownNames _).imp NameUse.textOrder_iff.mpr) ordered

/-- The late variables of this module by what they say. -/
theorem map_lateVariables_driverModule :
    (lateVariables ⟨5⟩ driverModule.tree).map (fun violation =>
        (violation.snippet, violation.details)) =
      [("driver", [("declaration_line", .nat 2), ("usage_line", .nat 9)])] := by
  have functions : functionsIn driverModule.tree =
      [(driverFunction.tree .body, driverModule.tree)] := by rfl
  simp only [lateVariables, functions, List.flatMap_cons, ownNames_driverFunction]
  rfl

theorem functionPlaces_driverModule : functionPlaces driverModule.tree = [driverPlace] := by
  rfl

/-- The import stands between the two names of every pair that is shown. -/
theorem not_tellsTruth_driverModule {violation : Violation} {pair : NamePair}
    (reported : violation ∈ lateVariables ⟨5⟩ driverModule.tree)
    (shows : ShowsPair ⟨5⟩ driverModule.tree violation pair) :
    ¬TellsTruth driverModule.tree pair := by
  have function : pair.function = driverPlace :=
    List.mem_singleton.mp (functionPlaces_driverModule ▸ shows.function)
  have shown :=
    List.mem_singleton.mp (map_lateVariables_driverModule ▸ List.mem_map_of_mem reported)
  rw [shows.shown] at shown
  obtain ⟨named, bound, used⟩ : pair.use.name = "driver" ∧
      (pair.binding.position.line : Int) = 2 ∧ (pair.use.position.line : Int) = 9 := by
    simpa [lateReadViolation, Json.nat] using shown
  have full : pair.full = "driver" := by
    rw [NamePair.full, function, named]
    rfl
  intro truth
  refine truth.last driverAliasPlace hasPlace_driverAliasPlace ?_ ⟨⟨8, 24, some 8⟩, rfl, ?_, ?_⟩
  · rw [full, function]
    exact declares_driverAliasPlace
  · exact .inl (show pair.binding.position.line < 8 by omega)
  · exact .inl (show 8 < pair.use.position.line by omega)

/-- The first line that is shown is not that of the last declaration. -/
theorem lateVariables_driverModule :
    ShowsWrittenPairs ⟨5⟩ driverModule.tree (lateVariables ⟨5⟩ driverModule.tree) ∧
      (lateVariables ⟨5⟩ driverModule.tree).length = 1 ∧
      ∀ violation ∈ lateVariables ⟨5⟩ driverModule.tree, ∀ pair,
        ShowsPair ⟨5⟩ driverModule.tree violation pair → ¬TellsTruth driverModule.tree pair := by
  refine ⟨lateVariables_showsWrittenPairs ⟨5⟩ driverModule, ?_, ?_⟩
  · rw [← List.length_map, map_lateVariables_driverModule, List.length_singleton]
  · exact fun _ reported _ shows => not_tellsTruth_driverModule reported shows

end DesignLint.Check
