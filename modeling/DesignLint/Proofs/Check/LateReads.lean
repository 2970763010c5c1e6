import DesignLint.Check.LateUsage
import DesignLint.Proofs.Number.Order
import DesignLint.Proofs.Syntax.OwnScope
import Mathlib.Data.List.Nodup

/-!
# Late reads

The names of a function are gone through once, with the latest binding of each name and whether it
has been reported. What this reports is told binding by binding: the first late read among the
names up to the next binding of the same name, if there is one. Every function of a module is gone
through once, and a larger distance leaves fewer bindings to report.
-/

namespace DesignLint.Check

open DesignLint.Syntax

/-! ## The names of a function -/

/-- One name stands before another in the text, or at the same place and is no read in front of a
binding. -/
def NameUse.NotAfter (a b : NameUse) : Prop :=
  a.position.line < b.position.line ∨ a.position.line = b.position.line ∧
    (a.position.column < b.position.column ∨ a.position.column = b.position.column ∧
      (a.context = .load → b.context = .load))

theorem NameUse.textOrder_iff {a b : NameUse} : a.textOrder b = true ↔ a.NotAfter b := by
  unfold textOrder NotAfter
  split
  · simp_all
  · split
    · simp_all
    · simp_all [Decidable.imp_iff_not_or]

theorem pairwise_ownNames (function : SyntaxTree) :
    (ownNames function).Pairwise NameUse.NotAfter := by
  unfold ownNames
  refine (List.pairwise_mergeSort ?_ ?_ _).imp NameUse.textOrder_iff.mp
  · intro a b c first second
    rw [NameUse.textOrder_iff] at *
    unfold NameUse.NotAfter at *
    grind
  · intro a b
    rw [Bool.or_eq_true, NameUse.textOrder_iff, NameUse.textOrder_iff]
    unfold NameUse.NotAfter
    grind

variable {tree : SyntaxTree} {function : Place Occurrence}

theorem hasOwnScope_of_isFunctionDef {function : SyntaxTree}
    (isFunction : isFunctionDef function = true) : hasOwnScope function.label = true := by
  unfold isFunctionDef at isFunction
  unfold hasOwnScope
  split at isFunction <;> simp_all

theorem nameUse?_eq_none_of_hasOwnScope {tree : SyntaxTree}
    (scope : hasOwnScope tree.label = true) : nameUse? tree = none := by
  unfold hasOwnScope at scope
  unfold nameUse?
  split at scope <;> simp_all

/-- The names gone through are those in the own scope of the function. -/
theorem ownNames_perm (has : tree.HasPlace function)
    (isFunction : isFunctionDef function.tree = true) :
    (ownNames function.tree).Perm
      ((ownPlaces function).filterMap fun place => nameUse? place.tree) := by
  have skipped : ((Tree.preorderWithinAll hasOwnScope (childrenIn .body function.tree)).filter
        fun inner => !hasOwnScope inner.label).filterMap nameUse? =
      (Tree.preorderWithinAll hasOwnScope (childrenIn .body function.tree)).filterMap nameUse? := by
    rw [List.filterMap_filter]
    refine List.filterMap_congr fun inner _ => ?_
    cases scope : hasOwnScope inner.label with
    | true => rw [nameUse?_eq_none_of_hasOwnScope scope]; rfl
    | false => rfl
  have listed : ((ownPlaces function).filterMap fun place => nameUse? place.tree) =
      ((ownPlaces function).map Visit.tree).filterMap nameUse? := by
    rw [List.filterMap_map]
    rfl
  rw [listed, ← preorderWithinAll_body has (hasOwnScope_of_isFunctionDef isFunction), ← skipped]
  exact (List.mergeSort_perm _ _).trans ((Tree.preorderRightAll_perm _ _).filterMap _)

/-! ## The functions of a module -/

/-- The places where functions are defined. -/
def functionPlaces (tree : SyntaxTree) : List (Place Occurrence) :=
  tree.places.filter fun place => isFunctionDef place.tree

theorem mem_functionPlaces_iff :
    function ∈ functionPlaces tree ↔
      tree.HasPlace function ∧ isFunctionDef function.tree = true := by
  rw [functionPlaces, List.mem_filter, Tree.mem_places_iff]

theorem nodup_address_functionPlaces (tree : SyntaxTree) :
    ((functionPlaces tree).map (·.address)).Nodup :=
  tree.nodup_map_address_filter_places _

/-- Going through the children of all subtrees meets every function once, below its parent. -/
theorem functionsIn_perm_parents (root : isFunctionDef tree = false) :
    ((functionsIn tree).map fun (function, parent) => (function, some parent)).Perm
      ((functionPlaces tree).map fun function => (function.tree, function.context.head?)) := by
  have each (place : Place Occurrence) :
      ((place.tree.children.filter isFunctionDef).map fun function => (function, some place.tree)) =
        (place.children.filter fun part => isFunctionDef part.tree).map
          fun function => (function.tree, function.context.head?) := by
    have above : ∀ part ∈ place.children.filter fun part => isFunctionDef part.tree,
        (part.tree, part.context.head?) = (part.tree, some place.tree) := by
      intro part listed
      obtain ⟨index, subtree, -, rfl⟩ := Visit.mem_children_iff.mp (List.mem_of_mem_filter listed)
      rfl
    rw [List.map_congr_left above, ← Visit.map_tree_children, List.filter_map, List.map_map]
    rfl
  have found : ((functionsIn tree).map fun (function, parent) => (function, some parent)) =
      tree.levelOrder.flatMap fun parent =>
        (parent.children.filter isFunctionDef).map fun function => (function, some parent) := by
    rw [functionsIn, List.map_flatMap]
    simp only [List.map_map, Function.comp_def]
  have placed : (tree.preorder.flatMap fun parent =>
        (parent.children.filter isFunctionDef).map fun function => (function, some parent)) =
      ((tree.places.flatMap Visit.children).filter fun part => isFunctionDef part.tree).map
        fun function => (function.tree, function.context.head?) := by
    rw [← Tree.map_tree_places, List.flatMap_map, List.filter_flatMap, List.map_flatMap]
    exact List.flatMap_congr fun place _ => each place
  have below : (Visit.whole tree :: tree.places.flatMap Visit.children).filter
        (fun part => isFunctionDef part.tree) =
      (tree.places.flatMap Visit.children).filter fun part => isFunctionDef part.tree :=
    List.filter_cons_of_neg (by simp [Visit.whole, root])
  rw [found]
  refine ((Tree.flatten_levels_perm tree).flatMap_right _).trans ?_
  rw [placed, ← below]
  exact ((Visit.whole tree).cons_flatMap_children_perm.filter _).map _

theorem functionsIn_perm (root : isFunctionDef tree = false) :
    ((functionsIn tree).map Prod.fst).Perm ((functionPlaces tree).map Visit.tree) := by
  have perm := (functionsIn_perm_parents root).map Prod.fst
  rwa [List.map_map, List.map_map] at perm

/-! ## Binding by binding -/

/-- A read is late if its line exceeds that of the binding by more than the limit. -/
theorem isLate_lineDistance_iff {limit : Int} {line last : Nat} :
    LateUsageOptions.isLate ⟨.int limit⟩ (lineDistance line last) = true ↔
      (line : Int) + limit < last := by
  rw [LateUsageOptions.isLate, Number.int_lt_int_iff, lineDistance]
  simp only [Int.ofNat_eq_natCast]
  omega

/-- Whether a use binds or unbinds a name. -/
def NameUse.rebinds (use : NameUse) (name : String) : Bool :=
  use.name == name && use.context != .load

/-- The first late read of a name that was bound on a line, before the name is bound again. -/
def firstLateRead? (options : LateUsageOptions) (name : String) (line : Nat)
    (later : List NameUse) : Option LateRead :=
  ((later.takeWhile fun use => !use.rebinds name).find? fun use =>
      use.name == name && options.isLate (lineDistance line use.position.line)).map
    fun use => ⟨name, line, use.position⟩

/-- The late read of what the first of some names binds, if it binds. -/
def lateReadOf? (options : LateUsageOptions) : List NameUse → Option LateRead
  | [] => none
  | use :: later =>
    if use.context = .load then none
    else firstLateRead? options use.name use.position.line later

section Pass

variable {options : LateUsageOptions} {name : String} {line : Nat} {use : NameUse}
  {uses : List NameUse}

theorem firstLateRead?_of_other (other : use.name ≠ name) :
    firstLateRead? options name line (use :: uses) = firstLateRead? options name line uses := by
  simp [firstLateRead?, NameUse.rebinds, other]

theorem firstLateRead?_of_bound (bound : use.context ≠ .load) :
    firstLateRead? options use.name line (use :: uses) = none := by
  simp [firstLateRead?, NameUse.rebinds, bound]

theorem firstLateRead?_of_late (read : use.context = .load)
    (late : options.isLate (lineDistance line use.position.line) = true) :
    firstLateRead? options use.name line (use :: uses) = some ⟨use.name, line, use.position⟩ := by
  simp [firstLateRead?, NameUse.rebinds, read, late]

theorem firstLateRead?_of_near (read : use.context = .load)
    (near : options.isLate (lineDistance line use.position.line) = false) :
    firstLateRead? options use.name line (use :: uses) =
      firstLateRead? options use.name line uses := by
  simp [firstLateRead?, NameUse.rebinds, read, near]

/-! ## The pass over the names -/

/-- The late reads still to come for the latest bindings that have not been reported. -/
def pendingReads (options : LateUsageOptions) (bindings : List LatestBinding)
    (uses : List NameUse) : List LateRead :=
  bindings.filterMap fun binding =>
    if binding.reported then none else firstLateRead? options binding.name binding.line uses

variable {bindings : List LatestBinding} {binding latest : LatestBinding}

/-- No name has two latest bindings. -/
def Distinct (bindings : List LatestBinding) : Prop := (bindings.map (·.name)).Nodup

theorem Distinct.rebind (distinct : Distinct bindings) (latest : LatestBinding) :
    Distinct (rebind bindings latest) := by
  unfold Distinct Check.rebind
  rw [List.map_cons, List.nodup_cons]
  constructor
  · simp
  · exact distinct.sublist (List.filter_sublist.map _)

theorem Distinct.perm (distinct : Distinct bindings) (member : binding ∈ bindings) :
    bindings.Perm (binding :: bindings.filter fun other => other.name != binding.name) := by
  have alone := filter_key_eq_singleton distinct member
  have split := List.filter_append_perm (fun other => other.name = binding.name) bindings
  rw [alone] at split
  refine split.symm.trans ?_
  simp [bne, beq_eq_decide]

theorem pendingReads_rebind :
    pendingReads options (rebind bindings latest) uses =
      (if latest.reported then none
        else firstLateRead? options latest.name latest.line uses).toList
        ++ pendingReads options (bindings.filter fun other => other.name != latest.name) uses := by
  rw [pendingReads, rebind, List.filterMap_cons]
  split <;> simp_all [pendingReads]

/-- A binding ends what is pending for earlier bindings of the name. -/
theorem pendingReads_of_bound (bound : use.context ≠ .load) :
    pendingReads options bindings (use :: uses) =
      pendingReads options (bindings.filter fun other => other.name != use.name) uses := by
  rw [pendingReads, pendingReads, List.filterMap_filter]
  refine List.filterMap_congr fun other _ => ?_
  by_cases same : other.name = use.name
  · simp [same, firstLateRead?_of_bound bound]
  · simp [same, firstLateRead?_of_other (Ne.symm same)]

/-- A read that is not reported changes nothing. -/
theorem pendingReads_of_unreported
    (keeps : ∀ other ∈ bindings, other.name = use.name → use.context = .load ∧
      (other.reported = true ∨
        options.isLate (lineDistance other.line use.position.line) = false)) :
    pendingReads options bindings (use :: uses) = pendingReads options bindings uses := by
  refine List.filterMap_congr fun other listed => ?_
  by_cases same : other.name = use.name
  · rcases keeps other listed same with ⟨read, reported | near⟩
    · simp [reported]
    · rw [same, firstLateRead?_of_near read near]
  · rw [firstLateRead?_of_other (Ne.symm same)]

/-- A read that is reported is what was pending for the latest binding. -/
theorem pendingReads_of_reported (distinct : Distinct bindings) (listed : binding ∈ bindings)
    (same : binding.name = use.name) (read : use.context = .load)
    (fresh : binding.reported = false)
    (late : options.isLate (lineDistance binding.line use.position.line) = true) :
    (pendingReads options bindings (use :: uses)).Perm
      (⟨use.name, binding.line, use.position⟩
        :: pendingReads options (rebind bindings { binding with reported := true }) uses) := by
  have others : pendingReads options (bindings.filter fun other => other.name != binding.name)
      (use :: uses) =
      pendingReads options (bindings.filter fun other => other.name != binding.name) uses := by
    refine pendingReads_of_unreported fun other member equal => ?_
    have differs := (List.mem_filter.mp member).2
    simp [equal, same] at differs
  refine ((distinct.perm listed).filterMap _).trans ?_
  rw [pendingReads_rebind, List.filterMap_cons, if_neg (by simp [fresh]), same,
    firstLateRead?_of_late read late, ← same]
  exact List.Perm.of_eq (congrArg _ others)

/-- What one pass reports, from some latest bindings on: the reads pending for these, and the reads
of the bindings to come. -/
theorem lateReads_perm (distinct : Distinct bindings) (uses : List NameUse) :
    (lateReads options bindings uses).Perm
      (pendingReads options bindings uses ++ uses.tails.filterMap (lateReadOf? options)) := by
  induction uses generalizing bindings with
  | nil => simp [lateReads, pendingReads, firstLateRead?, lateReadOf?]
  | cons use uses inductionHypothesis =>
      have first : (use :: uses).tails.filterMap (lateReadOf? options) =
          (lateReadOf? options (use :: uses)).toList
            ++ uses.tails.filterMap (lateReadOf? options) := by
        rw [List.tails, List.filterMap_cons]
        split <;> simp_all
      rw [first, lateReads]
      by_cases read : use.context = .load
      · rw [if_neg (by simp [read]), lateReadOf?, if_pos read, Option.toList_none, List.nil_append]
        split
        · rename_i absent
          rw [pendingReads_of_unreported fun other listed same => ?_]
          · exact inductionHypothesis distinct
          · have unequal := List.find?_eq_none.mp absent other listed
            simp [same] at unequal
        · rename_i binding found
          have listed := List.mem_of_find?_eq_some found
          have same : binding.name = use.name := by simpa using List.find?_some found
          split
          · rename_i reports
            simp only [Bool.and_eq_true, Bool.not_eq_eq_eq_not, Bool.not_true] at reports
            refine ((inductionHypothesis (distinct.rebind _)).cons _).trans ?_
            exact (pendingReads_of_reported distinct listed same read reports.1
              reports.2).symm.append_right _
          · rename_i silent
            rw [pendingReads_of_unreported fun other member equal => ?_]
            · exact inductionHypothesis distinct
            · obtain rfl : other = binding :=
                List.inj_on_of_nodup_map distinct member listed (equal.trans same.symm)
              refine ⟨read, ?_⟩
              cases reported : other.reported with
              | true => exact .inl rfl
              | false => exact .inr (by simpa [reported] using silent)
      · rw [if_pos (by simp [read]), lateReadOf?, if_neg read, pendingReads_of_bound read]
        refine (inductionHypothesis (distinct.rebind _)).trans ?_
        rw [pendingReads_rebind, if_neg Bool.false_ne_true, ← List.append_assoc]
        exact List.perm_append_comm.append_right _

/-- What one pass reports is told binding by binding. -/
theorem lateReads_nil_perm (uses : List NameUse) :
    (lateReads options [] uses).Perm (uses.tails.filterMap (lateReadOf? options)) :=
  lateReads_perm (show Distinct [] from List.nodup_nil) uses

/-! ## Larger distances -/

variable {raised : LateUsageOptions}

theorem LateUsageOptions.isLate_of_le (le : options.maxLines.le raised.maxLines = true)
    {distance : Int} (late : raised.isLate distance = true) : options.isLate distance = true :=
  Number.lt_of_le_of_lt le late

/-- A binding that is reported for a larger distance is reported for a smaller one. -/
theorem isSome_lateReadOf?_of_le (le : options.maxLines.le raised.maxLines = true)
    (reported : (lateReadOf? raised uses).isSome = true) :
    (lateReadOf? options uses).isSome = true := by
  cases uses with
  | nil => exact reported
  | cons use later =>
      rw [lateReadOf?] at reported ⊢
      split
      · rwa [if_pos ‹_›] at reported
      · rw [if_neg ‹_›] at reported
        simp only [firstLateRead?, Option.isSome_map, List.find?_isSome, Bool.and_eq_true]
          at reported ⊢
        rcases reported with ⟨read, listed, named, late⟩
        exact ⟨read, listed, named, LateUsageOptions.isLate_of_le le late⟩

end Pass

/-! ## The reports on a module -/

/-- The check reports every late read of every function. -/
theorem lateVariables_perm (options : LateUsageOptions) (module : Module) :
    (lateVariables options module.tree).Perm ((functionPlaces module.tree).flatMap fun function =>
      ((ownNames function.tree).tails.filterMap (lateReadOf? options)).map
        (lateReadViolation options function.tree)) := by
  have root : isFunctionDef module.tree = false := rfl
  have found := (functionsIn_perm root).flatMap_right fun function =>
    (lateReads options [] (ownNames function)).map (lateReadViolation options function)
  rw [List.flatMap_map, List.flatMap_map] at found
  refine found.trans (List.Perm.flatMap_left _ fun function _ => ?_)
  exact (lateReads_nil_perm _).map _

/-- What it means that violations are the late reads of a module, binding by binding: every function
of the module once, its names in the order of the text, and for each place where one of these is
bound the first late read before the next binding. -/
structure ReportsLateReads (options : LateUsageOptions) (tree : SyntaxTree)
    (violations : List Violation) : Prop where
  once : ((functionPlaces tree).map (·.address)).Nodup
  functions (function : Place Occurrence) : function ∈ functionPlaces tree ↔
    tree.HasPlace function ∧ isFunctionDef function.tree = true
  ordered (function : Place Occurrence) : (ownNames function.tree).Pairwise NameUse.NotAfter
  names (function : Place Occurrence) (listed : function ∈ functionPlaces tree) :
    (ownNames function.tree).Perm
      ((ownPlaces function).filterMap fun place => nameUse? place.tree)
  bindings : violations.Perm ((functionPlaces tree).flatMap fun function =>
    ((ownNames function.tree).tails.filterMap (lateReadOf? options)).map
      (lateReadViolation options function.tree))

/-- The late variables of a module are reported binding by binding, each binding at most once, and a
larger distance adds no binding to those that are reported. -/
theorem lateVariables_reportsLateReads (options : LateUsageOptions) (module : Module) :
    ReportsLateReads options module.tree (lateVariables options module.tree) ∧
    ∀ raised : LateUsageOptions, options.maxLines.le raised.maxLines = true →
      ∀ uses, (lateReadOf? raised uses).isSome = true →
        (lateReadOf? options uses).isSome = true := by
  refine ⟨⟨nodup_address_functionPlaces _, fun _ => mem_functionPlaces_iff,
    fun function => pairwise_ownNames function.tree, ?_, ?_⟩,
    fun raised le uses => isSome_lateReadOf?_of_le le⟩
  · intro function listed
    obtain ⟨has, isFunction⟩ := mem_functionPlaces_iff.mp listed
    exact ownNames_perm has isFunction
  · exact lateVariables_perm options module

/-- A function that binds a name on its second line and reads it on the eighth. -/
def tardyFunction : Stmt :=
  .functionDef ⟨1, 0, some 8⟩ false "handle"
    (.mk [] [.mk ⟨1, 11, some 1⟩ "event" none] none [] [] none [])
    [.assign ⟨2, 4, some 2⟩ [.name ⟨2, 4, some 2⟩ "kind" .store]
        (.name ⟨2, 11, some 2⟩ "event" .load),
      .passStmt ⟨5, 4, some 5⟩,
      .returnStmt ⟨8, 4, some 8⟩ (some (.name ⟨8, 11, some 8⟩ "kind" .load))] [] none

/-- A module that consists of this function. -/
def tardyModule : Module := ⟨[tardyFunction]⟩

/-- The names of this function in the order of the text. -/
def tardyUses : List NameUse :=
  [⟨"kind", ⟨2, 4, some 2⟩, .store⟩, ⟨"event", ⟨2, 11, some 2⟩, .load⟩,
    ⟨"kind", ⟨8, 11, some 8⟩, .load⟩]

/-- The binding is reported for a distance of five lines, so it is for one of four. -/
theorem lateVariables_tardyModule :
    ReportsLateReads ⟨4⟩ tardyModule.tree (lateVariables ⟨4⟩ tardyModule.tree) ∧
      (ownNames (tardyFunction.tree .body)).Perm tardyUses ∧
      (lateReadOf? ⟨5⟩ tardyUses).isSome = true ∧ (lateReadOf? ⟨4⟩ tardyUses).isSome = true := by
  have reported : (lateReadOf? ⟨5⟩ tardyUses).isSome = true := by decide +kernel
  have names : (ownNames (tardyFunction.tree .body)).Perm tardyUses :=
    (List.mergeSort_perm _ _).trans (by decide +kernel)
  obtain ⟨reports, monotone⟩ := lateVariables_reportsLateReads ⟨4⟩ tardyModule
  exact ⟨reports, names, reported, monotone ⟨5⟩ (by decide +kernel) _ reported⟩

end DesignLint.Check
