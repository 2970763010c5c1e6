import DesignLint.Proofs.Syntax.Reached
import DesignLint.Proofs.Syntax.Recursion

/-!
# The own scope of a construct

What belongs to the scope of a function: the places in its body whose nearest construct with a
scope is the function. The traversals that stop at inner scopes list these places, each in an order
of its own. Breadth first or depth first, every subtree is listed once.
-/

namespace DesignLint

variable {α γ : Type}

namespace Tree

/-! ## Other orders -/

theorem preorderAll_eq_flatMap (trees : List (Tree α)) :
    preorderAll trees = trees.flatMap preorder := by
  induction trees with
  | nil => rfl
  | cons tree trees inductionHypothesis =>
      rw [preorderAll, inductionHypothesis, List.flatMap_cons]

theorem preorderWithinAll_eq_flatMap (closed : α → Bool) (trees : List (Tree α)) :
    preorderWithinAll closed trees = trees.flatMap (preorderWithin closed) := by
  induction trees with
  | nil => rfl
  | cons tree trees inductionHypothesis =>
      rw [preorderWithinAll, inductionHypothesis, List.flatMap_cons]

mutual

/-- Stopping before a label from right to left, or passing over it from left to right. -/
theorem preorderRight_perm (stops : α → Bool) : ∀ tree : Tree α,
    (tree.preorderRight stops).Perm
      ((tree.preorderWithin stops).filter fun inner => !stops inner.label)
  | node label children => by
    rw [preorderRight, preorderWithin]
    cases stop : stops label with
    | true => simp [Tree.label, stop]
    | false =>
        rw [List.filter_cons_of_pos (by simp [Tree.label, stop])]
        exact (preorderRightAll_perm stops children).cons _

theorem preorderRightAll_perm (stops : α → Bool) : ∀ trees : List (Tree α),
    (preorderRightAll stops trees).Perm
      ((preorderWithinAll stops trees).filter fun inner => !stops inner.label)
  | [] => .nil
  | tree :: trees => by
    rw [preorderRightAll, preorderWithinAll, List.filter_append]
    exact List.perm_append_comm.trans
      ((preorderRight_perm stops tree).append (preorderRightAll_perm stops trees))

end

theorem flatten_joinLevels_perm {β : Type} (levels others : List (List β)) :
    (joinLevels levels others).flatten.Perm (levels.flatten ++ others.flatten) := by
  induction levels generalizing others with
  | nil => exact .refl _
  | cons level levels inductionHypothesis =>
      cases others with
      | nil => simp [joinLevels]
      | cons other others =>
          simp only [joinLevels, List.flatten_cons, List.append_assoc]
          refine List.Perm.append_left level ?_
          refine ((inductionHypothesis others).append_left other).trans ?_
          rw [← List.append_assoc, ← List.append_assoc]
          exact List.perm_append_comm.append_right _

mutual

theorem flatten_levels_perm : ∀ tree : Tree α, tree.levels.flatten.Perm tree.preorder
  | node label children => by
    rw [levels, List.flatten_cons, preorder, List.singleton_append]
    exact (flatten_levelsAll_perm children).cons _

theorem flatten_levelsAll_perm : ∀ trees : List (Tree α),
    (levelsAll trees).flatten.Perm (preorderAll trees)
  | [] => .nil
  | tree :: trees => by
    rw [levelsAll, preorderAll]
    exact (flatten_joinLevels_perm _ _).trans
      ((flatten_levels_perm tree).append (flatten_levelsAll_perm trees))

end

theorem map_tree_places (tree : Tree α) : tree.places.map Visit.tree = tree.preorder :=
  map_tree_visits _ tree [] []

end Tree

/-! ## Contexts of places -/

namespace Visit

/-- A traversal that hands down what a place tells about itself lists every place with that. -/
theorem visits_eq_map_places {down : γ → Address → Tree α → γ} {about : Place α → γ}
    (step : ∀ (place : Place α) (index : Nat) (subtree : Tree α),
      about (place.child index subtree) = down (about place) place.address place.tree)
    (place : Place α) :
    place.tree.visits down (about place) place.address =
      place.places.map fun inner => ⟨inner.tree, inner.address, about inner⟩ := by
  induction place using inductionOnChildren with
  | step place inductionHypothesis =>
      have below (index : Nat) (trees : List (Tree α))
          (part : place.childrenFrom index trees ⊆ place.children) :
          Tree.visitsAll down (down (about place) place.address place.tree) place.address index
              trees =
            ((place.childrenFrom index trees).flatMap places).map
              fun inner => ⟨inner.tree, inner.address, about inner⟩ := by
        induction trees generalizing index with
        | nil => rfl
        | cons tree trees rest =>
            have split : place.childrenFrom index (tree :: trees) =
                place.child index tree :: place.childrenFrom (index + 1) trees := rfl
            rw [split] at part ⊢
            have first := inductionHypothesis _ (part List.mem_cons_self)
            rw [step] at first
            rw [Tree.visitsAll, rest _ fun _ later => part (List.mem_cons_of_mem _ later),
              List.flatMap_cons, List.map_append, ← first]
            rfl
      rw [places_eq_flatMap, List.map_cons, children, ← below 0 _ (List.Subset.refl _)]
      rcases place with ⟨⟨label, trees⟩, address, context⟩
      rfl

theorem map_tree_children (place : Place α) : place.children.map tree = place.tree.children := by
  rw [children, childrenFrom, List.map_map]
  exact List.zipIdx_map_fst 0 place.tree.children

/-- Every place below a place is the child of one place. -/
theorem cons_flatMap_children_perm (place : Place α) :
    (place :: place.places.flatMap children).Perm place.places := by
  induction place using inductionOnChildren with
  | step place inductionHypothesis =>
      rw [places_eq_flatMap, List.flatMap_cons, List.flatMap_assoc]
      refine List.Perm.cons _ ?_
      have each : (place.children.flatMap fun part => [part] ++ part.places.flatMap children).Perm
          (place.children.flatMap places) :=
        List.Perm.flatMap_left _ inductionHypothesis
      have split := List.flatMap_append_perm place.children (fun part => [part])
        (fun part => part.places.flatMap children)
      rw [List.flatMap_singleton'] at split
      exact split.trans each

end Visit

namespace Tree.HasPlace

variable {tree : Tree α} {place outer unit : Place α}

/-- A place is listed from each place on that it lies in. -/
theorem mem_places_of_mem_path (has : tree.HasPlace place) (on : outer ∈ place.path) :
    place ∈ outer.places := by
  induction has with
  | whole =>
      obtain rfl : outer = .whole tree := by simpa [Visit.path] using on
      rw [Visit.places_eq]
      exact List.mem_cons_self
  | @child above index subtree _ found inductionHypothesis =>
      rw [Visit.mem_path_iff, Visit.child_around] at on
      rcases on with rfl | farther
      · rw [Visit.places_eq]
        exact List.mem_cons_self
      · exact Visit.child_mem_places (inductionHypothesis farther) found

/-- On the way from a place to one farther in stands a child. -/
theorem exists_child_mem_path (has : tree.HasPlace place) (around : outer ∈ place.around) :
    ∃ index subtree, outer.tree.children[index]? = some subtree ∧
      outer.child index subtree ∈ place.path := by
  induction has with
  | whole => simp at around
  | @child above index subtree has found inductionHypothesis =>
      rw [Visit.child_around, Visit.mem_path_iff] at around
      rcases around with rfl | farther
      · exact ⟨index, subtree, found, Visit.mem_path_iff.mpr (.inl rfl)⟩
      · obtain ⟨number, part, foundPart, on⟩ := inductionHypothesis farther
        refine ⟨number, part, foundPart, Visit.mem_path_iff.mpr (.inr ?_)⟩
        rwa [Visit.child_around]

/-- All places of a kind around a place are at the nearest one or around that. -/
theorem mem_path_of_find?_around {keep : Place α → Bool} {nearest : Place α}
    (has : tree.HasPlace place) (found : place.around.find? keep = some nearest)
    (outside : outer ∈ place.around) (kept : keep outer = true) : outer ∈ nearest.path := by
  obtain ⟨near, far, split, skipped⟩ := (List.find?_eq_some_iff_append.mp found).2
  have ordered := has.pairwise_around
  have nearestAround := List.mem_of_find?_eq_some found
  rw [split, List.pairwise_append, List.pairwise_cons] at ordered
  rw [split, List.mem_append, List.mem_cons] at outside
  rcases outside with before | rfl | behind
  · have missed := skipped outer before
    simp [kept] at missed
  · exact Visit.mem_path_iff.mpr (.inl rfl)
  · have farAround : outer ∈ place.around := by simp [split, behind]
    refine (has.around nearestAround).mem_path_of_isPrefix (has.around farAround) ?_
    exact List.prefix_of_prefix_length_le (has.address_of_mem_around farAround).1
      (has.address_of_mem_around nearestAround).1 (Nat.le_of_lt (ordered.2.1.1 outer behind))

/-- What lies below a child of a place lies below the place. -/
theorem mem_around_of_mem_places_child (has : tree.HasPlace outer) {index : Nat} {subtree : Tree α}
    (found : outer.tree.children[index]? = some subtree)
    (listed : place ∈ (outer.child index subtree).places) :
    tree.HasPlace place ∧ outer ∈ place.around := by
  obtain ⟨placeHas, on⟩ := (HasPlace.child has found).of_mem_places listed
  refine ⟨placeHas, ?_⟩
  rcases Visit.mem_path_iff.mp on with same | farther
  · simp [← same, Visit.path]
  · obtain ⟨near, split, -⟩ := placeHas.exists_around_eq_append farther
    simp [split, Visit.path]

/-- From a place on whose nearest closed place is a given one, the traversal that stops at closed
labels reaches the places with the same nearest closed place. -/
theorem preorderWithin_eq {closed : α → Bool} (has : tree.HasPlace outer)
    (nearest : outer.around.find? (fun inner => closed inner.tree.label) = some unit) :
    outer.tree.preorderWithin closed =
      (outer.places.filter fun place =>
        (place.around.find? fun inner => closed inner.tree.label).any
          (·.address == unit.address)).map Visit.tree := by
  induction outer using Visit.inductionOnChildren with
  | step outer inductionHypothesis =>
      have unfolded : outer.tree.preorderWithin closed = outer.tree ::
          if closed outer.tree.label then []
          else outer.children.flatMap fun part => part.tree.preorderWithin closed := by
        rw [← List.flatMap_map (f := Visit.tree) , Visit.map_tree_children,
          ← preorderWithinAll_eq_flatMap]
        rcases outer with ⟨⟨label, trees⟩, address, context⟩
        rfl
      rw [Visit.places_eq_flatMap, List.filter_cons_of_pos (by simp [nearest]), List.map_cons,
        unfolded, List.filter_flatMap, List.map_flatMap]
      congr 1
      cases isClosed : closed outer.tree.label with
      | true =>
          rw [if_pos rfl]
          refine (List.flatMap_eq_nil_iff.mpr fun part member => ?_).symm
          rw [List.map_eq_nil_iff, List.filter_eq_nil_iff]
          intro place listed same
          obtain ⟨index, subtree, found, rfl⟩ := Visit.mem_children_iff.mp member
          obtain ⟨placeHas, outside⟩ := has.mem_around_of_mem_places_child found listed
          obtain ⟨scope, isNearest, equal⟩ := (Option.any_eq_true _ _).mp same
          -- the nearest one is no farther than this closed place, and the given one is
          have inside := placeHas.mem_path_of_find?_around isNearest outside isClosed
          have scopeHas := placeHas.around (List.mem_of_find?_eq_some isNearest)
          have notFarther := (scopeHas.address_prefix_of_mem_path inside).length_le
          have farther := (has.address_of_mem_around (List.mem_of_find?_eq_some nearest)).2
          rw [beq_iff_eq.mp equal] at notFarther
          omega
      | false =>
          rw [if_neg Bool.false_ne_true]
          refine List.flatMap_congr fun part member => ?_
          obtain ⟨index, subtree, found, rfl⟩ := Visit.mem_children_iff.mp member
          refine inductionHypothesis _ member (.child has found) ?_
          rw [Visit.child_around, Visit.path, List.find?_cons_of_neg (by simp [isClosed]), nearest]

end Tree.HasPlace

/-! ## Scopes -/

namespace Syntax

/-- The nearest construct around a place that has a scope of its own. -/
def nearestScope? (place : Place Occurrence) : Option (Place Occurrence) :=
  place.around.find? fun outer => hasOwnScope outer.tree.label

/-- The parts of the body of a construct. -/
def bodyPlaces (unit : Place Occurrence) : List (Place Occurrence) :=
  unit.children.filter fun part => part.tree.label.role == .body

/-- The places in the own scope of a construct: those in its body that lie in no scope inside. -/
def ownPlaces (unit : Place Occurrence) : List (Place Occurrence) :=
  ((bodyPlaces unit).flatMap Visit.places).filter fun place =>
    (nearestScope? place).any (·.address == unit.address)

variable {tree : SyntaxTree} {place unit part : Place Occurrence}

theorem mem_bodyPlaces_iff :
    part ∈ bodyPlaces unit ↔
      ∃ index subtree, unit.tree.children[index]? = some subtree ∧ subtree.label.role = .body ∧
        part = unit.child index subtree := by
  simp only [bodyPlaces, List.mem_filter, Visit.mem_children_iff, beq_iff_eq]
  constructor
  · rintro ⟨⟨index, subtree, found, rfl⟩, role⟩
    exact ⟨index, subtree, found, role, rfl⟩
  · rintro ⟨index, subtree, found, role, rfl⟩
    exact ⟨⟨index, subtree, found, rfl⟩, role⟩

theorem map_tree_bodyPlaces (unit : Place Occurrence) :
    (bodyPlaces unit).map Visit.tree = childrenIn .body unit.tree := by
  rw [bodyPlaces, childrenIn, ← Visit.map_tree_children, List.filter_map]
  rfl

theorem nearestScope?_of_mem_bodyPlaces (scope : hasOwnScope unit.tree.label = true)
    (member : part ∈ bodyPlaces unit) : nearestScope? part = some unit := by
  obtain ⟨index, subtree, -, -, rfl⟩ := mem_bodyPlaces_iff.mp member
  rw [nearestScope?, Visit.child_around, Visit.path, List.find?_cons_of_pos (by exact scope)]

/-- The traversal of a body that passes over inner scopes lists the places of the own scope. -/
theorem preorderWithinAll_body (has : tree.HasPlace unit)
    (scope : hasOwnScope unit.tree.label = true) :
    Tree.preorderWithinAll hasOwnScope (childrenIn .body unit.tree) =
      (ownPlaces unit).map Visit.tree := by
  rw [ownPlaces, List.filter_flatMap, List.map_flatMap, ← map_tree_bodyPlaces,
    Tree.preorderWithinAll_eq_flatMap, List.flatMap_map]
  refine List.flatMap_congr fun part member => ?_
  have nearest := nearestScope?_of_mem_bodyPlaces scope member
  obtain ⟨index, subtree, found, -, rfl⟩ := mem_bodyPlaces_iff.mp member
  exact (Tree.HasPlace.child has found).preorderWithin_eq nearest

theorem mem_ownPlaces_iff (has : tree.HasPlace unit) :
    place ∈ ownPlaces unit ↔
      tree.HasPlace place ∧ nearestScope? place = some unit ∧
        ∃ part ∈ bodyPlaces unit, part ∈ place.path := by
  simp only [ownPlaces, List.mem_filter, List.mem_flatMap, Option.any_eq_true,
    beq_iff_eq]
  constructor
  · rintro ⟨⟨part, member, listed⟩, scope, nearest, same⟩
    obtain ⟨index, subtree, found, role, rfl⟩ := mem_bodyPlaces_iff.mp member
    obtain ⟨placeHas, on⟩ := (Tree.HasPlace.child has found).of_mem_places listed
    have scopeHas := placeHas.around (List.mem_of_find?_eq_some nearest)
    obtain rfl := scopeHas.eq_of_address_eq has same
    exact ⟨placeHas, nearest, _, member, on⟩
  · rintro ⟨placeHas, nearest, part, member, on⟩
    exact ⟨⟨part, member, placeHas.mem_places_of_mem_path on⟩, unit, nearest, rfl⟩

end Syntax

end DesignLint
