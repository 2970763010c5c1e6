import DesignLint.Proofs.Syntax.Place
import Mathlib.Data.List.Basic

/-!
# Relabelling trees

Changing the labels of a tree changes nothing about how the tree is traversed:
every traversal of the relabelled tree lists the relabelled subtrees in the same
order and at the same addresses.
-/

namespace DesignLint.Tree

variable {α β : Type}

/-! ## Changing labels -/

mutual

/-- The tree with other labels. -/
def map (f : α → β) : Tree α → Tree β
  | node label children => node (f label) (mapAll f children)

/-- The trees with other labels. -/
def mapAll (f : α → β) : List (Tree α) → List (Tree β)
  | [] => []
  | tree :: trees => map f tree :: mapAll f trees

end

@[simp]
theorem mapAll_eq_map (f : α → β) (trees : List (Tree α)) :
    mapAll f trees = trees.map (map f) := by
  induction trees with
  | nil => rfl
  | cons tree trees inductionHypothesis => rw [mapAll, inductionHypothesis, List.map_cons]

variable (f : α → β)

theorem map_node (label : α) (children : List (Tree α)) :
    (node label children).map f = node (f label) (children.map (map f)) := by
  rw [map, mapAll_eq_map]

@[simp]
theorem label_map (tree : Tree α) : (tree.map f).label = f tree.label := by
  cases tree
  rfl

@[simp]
theorem children_map (tree : Tree α) : (tree.map f).children = tree.children.map (map f) := by
  cases tree
  rw [map_node]
  rfl

/-! ## Depth first -/

mutual

theorem preorder_map : ∀ tree : Tree α, (tree.map f).preorder = tree.preorder.map (map f)
  | node label children => by
    rw [map, preorder, preorderAll_mapAll children, preorder, List.map_cons, map]

theorem preorderAll_mapAll :
    ∀ trees : List (Tree α), preorderAll (mapAll f trees) = (preorderAll trees).map (map f)
  | [] => rfl
  | tree :: trees => by
    rw [mapAll, preorderAll, preorder_map tree, preorderAll_mapAll trees, preorderAll,
      List.map_append]

end

mutual

theorem preorderRight_map {stops : α → Bool} {stops' : β → Bool}
    (same : ∀ label, stops' (f label) = stops label) :
    ∀ tree : Tree α, (tree.map f).preorderRight stops' = (tree.preorderRight stops).map (map f)
  | node label children => by
    rw [map, preorderRight, same, preorderRightAll_mapAll same children, preorderRight]
    split
    · rfl
    · rw [List.map_cons, map]

theorem preorderRightAll_mapAll {stops : α → Bool} {stops' : β → Bool}
    (same : ∀ label, stops' (f label) = stops label) :
    ∀ trees : List (Tree α),
      preorderRightAll stops' (mapAll f trees) = (preorderRightAll stops trees).map (map f)
  | [] => rfl
  | tree :: trees => by
    rw [mapAll, preorderRightAll, preorderRight_map same tree, preorderRightAll_mapAll same trees,
      preorderRightAll, List.map_append]

end

mutual

theorem preorderWithin_map {closed : α → Bool} {closed' : β → Bool}
    (same : ∀ label, closed' (f label) = closed label) :
    ∀ tree : Tree α,
      (tree.map f).preorderWithin closed' = (tree.preorderWithin closed).map (map f)
  | node label children => by
    rw [map, preorderWithin, same, preorderWithinAll_mapAll same children, preorderWithin,
      List.map_cons, map]
    split <;> rfl

theorem preorderWithinAll_mapAll {closed : α → Bool} {closed' : β → Bool}
    (same : ∀ label, closed' (f label) = closed label) :
    ∀ trees : List (Tree α),
      preorderWithinAll closed' (mapAll f trees) = (preorderWithinAll closed trees).map (map f)
  | [] => rfl
  | tree :: trees => by
    rw [mapAll, preorderWithinAll, preorderWithin_map same tree,
      preorderWithinAll_mapAll same trees, preorderWithinAll, List.map_append]

end

/-! ## Breadth first -/

theorem joinLevels_map {γ δ : Type} (g : γ → δ) (levels others : List (List γ)) :
    joinLevels (levels.map (List.map g)) (others.map (List.map g)) =
      (joinLevels levels others).map (List.map g) := by
  induction levels generalizing others with
  | nil => simp [joinLevels]
  | cons level levels inductionHypothesis =>
      cases others with
      | nil => rfl
      | cons other others => simp [joinLevels, inductionHypothesis]

mutual

theorem levels_map : ∀ tree : Tree α, (tree.map f).levels = tree.levels.map (List.map (map f))
  | node label children => by
    rw [map, levels, levelsAll_mapAll children, levels, List.map_cons, List.map_singleton, map]

theorem levelsAll_mapAll : ∀ trees : List (Tree α),
    levelsAll (mapAll f trees) = (levelsAll trees).map (List.map (map f))
  | [] => rfl
  | tree :: trees => by
    rw [mapAll, levelsAll, levels_map tree, levelsAll_mapAll trees, levelsAll, joinLevels_map]

end

@[simp]
theorem levelOrder_map (tree : Tree α) :
    (tree.map f).levelOrder = tree.levelOrder.map (map f) := by
  rw [levelOrder, levels_map, levelOrder, List.map_flatten]

end Tree

/-! ## With a context -/

variable {α β γ δ : Type}

/-- The visit of the relabelled tree. -/
def Visit.map (f : α → β) (g : γ → δ) (visit : Visit α γ) : Visit β δ :=
  ⟨visit.tree.map f, visit.address, g visit.context⟩

/-- The event of the traversal of the relabelled tree. -/
def Event.map (f : α → β) (event : Event α) : Event β :=
  ⟨event.phase, event.tree.map f, event.parent.map (Tree.map f), event.address⟩

namespace Tree

section Visits

variable (f : α → β) (g : γ → δ) {down : γ → Address → Tree α → γ}
  {down' : δ → Address → Tree β → δ}

mutual

theorem visits_map (same : ∀ context address tree,
    down' (g context) address (tree.map f) = g (down context address tree)) :
    ∀ (tree : Tree α) (context : γ) (address : Address),
    (tree.map f).visits down' (g context) address =
      (tree.visits down context address).map (Visit.map f g)
  | node label children, context, address => by
    have below := same context address (node label children)
    rw [map] at below
    rw [map, visits, below, visitsAll_mapAll same children, visits, List.map_cons]
    simp [Visit.map, map]

theorem visitsAll_mapAll (same : ∀ context address tree,
    down' (g context) address (tree.map f) = g (down context address tree)) :
    ∀ (trees : List (Tree α)) (context : γ) (address : Address) (index : Nat),
    visitsAll down' (g context) address index (mapAll f trees) =
      (visitsAll down context address index trees).map (Visit.map f g)
  | [], _, _, _ => rfl
  | tree :: trees, context, address, index => by
    rw [mapAll, visitsAll, visits_map same tree, visitsAll_mapAll same trees, visitsAll,
      List.map_append]

end

mutual

theorem lateVisits_map (same : ∀ context address tree,
    down' (g context) address (tree.map f) = g (down context address tree)) :
    ∀ (tree : Tree α) (context : γ) (address : Address),
    (tree.map f).lateVisits down' (g context) address =
      (tree.lateVisits down context address).map (Visit.map f g)
  | node label children, context, address => by
    have below := same context address (node label children)
    rw [map] at below
    rw [map, lateVisits, below, lateVisitsAll_mapAll same children, lateVisits, List.map_append]
    simp [Visit.map, map]

theorem lateVisitsAll_mapAll (same : ∀ context address tree,
    down' (g context) address (tree.map f) = g (down context address tree)) :
    ∀ (trees : List (Tree α)) (context : γ) (address : Address) (index : Nat),
    lateVisitsAll down' (g context) address index (mapAll f trees) =
      (lateVisitsAll down context address index trees).map (Visit.map f g)
  | [], _, _, _ => rfl
  | tree :: trees, context, address, index => by
    rw [mapAll, lateVisitsAll, lateVisits_map same tree,
      lateVisitsAll_mapAll same trees, lateVisitsAll,
      List.map_append]

end

end Visits

variable (f : α → β)

theorem withAncestors_map (tree : Tree α) :
    (tree.map f).withAncestors = tree.withAncestors.map (Visit.map f (List.map (map f))) :=
  visits_map f (List.map (map f)) (fun _ _ _ => rfl) tree [] []

/-! ## Enter and exit events -/

mutual

theorem events_map : ∀ (tree : Tree α) (parent : Option (Tree α)) (address : Address),
    (tree.map f).events (parent.map (map f)) address =
      (tree.events parent address).map (Event.map f)
  | node label children, parent, address => by
    have below := eventsAll_mapAll children (node label children) address 0
    rw [map] at below
    rw [map, events, below, events]
    simp [Event.map, map]

theorem eventsAll_mapAll : ∀ (trees : List (Tree α)) (parent : Tree α) (address : Address)
    (index : Nat), eventsAll (parent.map f) address index (mapAll f trees) =
      (eventsAll parent address index trees).map (Event.map f)
  | [], _, _, _ => rfl
  | tree :: trees, parent, address, index => by
    have first := events_map tree (some parent) (address ++ [index])
    rw [Option.map_some] at first
    rw [mapAll, eventsAll, first, eventsAll_mapAll trees, eventsAll, List.map_append]

end

theorem walk_map (tree : Tree α) : (tree.map f).walk = tree.walk.map (Event.map f) := by
  rw [walk_eq_events, walk_eq_events]
  exact events_map f tree none []

/-! ## What a traversal reaches -/

section Reached

variable {down : γ → Address → Tree α → γ}

mutual

/-- The subtrees before and after what stands below them. -/
theorem map_tree_lateVisits_perm : ∀ (tree : Tree α) (context : γ) (address : Address),
    ((tree.lateVisits down context address).map Visit.tree).Perm tree.preorder
  | node label children, context, address => by
    rw [lateVisits, preorder, List.map_append, List.map_singleton]
    exact (List.perm_append_singleton _ _).trans
      ((map_tree_lateVisitsAll_perm children _ address 0).cons _)

theorem map_tree_lateVisitsAll_perm : ∀ (trees : List (Tree α)) (context : γ)
    (address : Address) (index : Nat),
    ((lateVisitsAll down context address index trees).map Visit.tree).Perm (preorderAll trees)
  | [], _, _, _ => .refl _
  | tree :: trees, context, address, index => by
    rw [lateVisitsAll, preorderAll, List.map_append]
    exact (map_tree_lateVisits_perm tree context _).append
      (map_tree_lateVisitsAll_perm trees context address _)

end

theorem mem_preorder_of_mem_lateVisits {tree : Tree α} {context : γ} {address : Address}
    {visit : Visit α γ} (listed : visit ∈ tree.lateVisits down context address) :
    visit.tree ∈ tree.preorder :=
  (map_tree_lateVisits_perm tree context address).mem_iff.mp (List.mem_map_of_mem listed)

end Reached

mutual

theorem mem_preorder_of_mem_events : ∀ (tree : Tree α) (parent : Option (Tree α))
    (address : Address), ∀ event ∈ tree.events parent address, event.tree ∈ tree.preorder
  | node label children, parent, address, event, listed => by
    rw [events, List.mem_append, List.mem_cons, List.mem_singleton] at listed
    rcases listed with (rfl | below) | rfl
    · exact List.mem_cons_self
    · exact List.mem_cons_of_mem _
        (mem_preorderAll_of_mem_eventsAll children _ address 0 event below)
    · exact List.mem_cons_self

theorem mem_preorderAll_of_mem_eventsAll : ∀ (trees : List (Tree α)) (parent : Tree α)
    (address : Address) (index : Nat),
    ∀ event ∈ eventsAll parent address index trees, event.tree ∈ preorderAll trees
  | tree :: trees, parent, address, index, event, listed => by
    rw [eventsAll, List.mem_append] at listed
    rw [preorderAll, List.mem_append]
    rcases listed with first | later
    · exact .inl (mem_preorder_of_mem_events tree (some parent) _ event first)
    · exact .inr (mem_preorderAll_of_mem_eventsAll trees parent address _ event later)

end

end Tree

end DesignLint
