import DesignLint.Proofs.Syntax.Place
import Mathlib.Data.List.Basic
import Mathlib.Data.List.Perm.Basic

/-!
# A traversal is a recursion

The traversal keeps a stack of nodes whose children have been visited in part. Its events are
those of the recursion on the tree: a node is reached, its children are traversed in order, and
the node is left. So every place is reached once and left once, what is reached at a place is
left before the place is, and both events of a node name the node above it.
-/

namespace DesignLint

variable {α : Type} {tree : Tree α} {place inner : Place α}

/-! ## Places below a place -/

namespace Visit

/-- The places right below a place, in order. -/
def children (place : Place α) : List (Place α) := place.childrenFrom 0 place.tree.children

theorem mem_children_iff :
    inner ∈ place.children ↔
      ∃ index subtree, place.tree.children[index]? = some subtree ∧
        inner = place.child index subtree := by
  simp only [children, childrenFrom, List.mem_map, Prod.exists, List.mem_zipIdx_iff_getElem?]
  exact ⟨fun ⟨subtree, index, found, same⟩ => ⟨index, subtree, found, same.symm⟩,
    fun ⟨index, subtree, found, same⟩ => ⟨subtree, index, found, same.symm⟩⟩

/-- An induction on places from the places right below. -/
theorem inductionOnChildren {motive : Place α → Prop}
    (step : ∀ place : Place α, (∀ child ∈ place.children, motive child) → motive place)
    (place : Place α) : motive place := by
  obtain ⟨tree, address, context⟩ := place
  induction tree using Tree.inductionOnChildren generalizing address context with
  | node label trees inductionHypothesis =>
      refine step _ fun child member => ?_
      obtain ⟨index, subtree, found, rfl⟩ := mem_children_iff.mp member
      exact inductionHypothesis subtree (List.mem_of_getElem? found) _ _

theorem placesFrom_eq_flatMap (place : Place α) (index : Nat) (trees : List (Tree α)) :
    place.placesFrom index trees = (place.childrenFrom index trees).flatMap places := by
  induction trees generalizing index with
  | nil => rfl
  | cons tree trees inductionHypothesis =>
      rw [placesFrom_cons, inductionHypothesis]
      rfl

theorem latePlacesFrom_eq_flatMap (place : Place α) (index : Nat) (trees : List (Tree α)) :
    place.latePlacesFrom index trees = (place.childrenFrom index trees).flatMap latePlaces := by
  induction trees generalizing index with
  | nil => rfl
  | cons tree trees inductionHypothesis =>
      rw [latePlacesFrom_cons, inductionHypothesis]
      rfl

theorem places_eq_flatMap (place : Place α) :
    place.places = place :: place.children.flatMap places := by
  rw [places_eq, placesFrom_eq_flatMap, children]

theorem latePlaces_eq_flatMap (place : Place α) :
    place.latePlaces = place.children.flatMap latePlaces ++ [place] := by
  rw [latePlaces_eq, latePlacesFrom_eq_flatMap, children]

/-- The two listings differ in the order only. -/
theorem places_perm_latePlaces (place : Place α) : place.places.Perm place.latePlaces := by
  induction place using inductionOnChildren with
  | step place inductionHypothesis =>
      rw [places_eq_flatMap, latePlaces_eq_flatMap]
      exact ((List.Perm.flatMap_left _ inductionHypothesis).cons place).trans
        (List.perm_append_singleton _ _).symm

end Visit

/-! ## Events of places -/

/-- The event of reaching or of leaving a place. -/
def Visit.event (place : Place α) (phase : Phase) : Event α :=
  ⟨phase, place.tree, place.context.head?, place.address⟩

/-- Events in matching order: what is reached at a place and below it is left before the place
is left. -/
inductive Nested : List (Event α) → Prop
  | nil : Nested []
  | around (place : Place α) {inside later : List (Event α)} :
      Nested inside → Nested later →
      Nested (place.event .enter :: inside ++ place.event .exit :: later)

theorem Nested.append {first second : List (Event α)} (nested : Nested first)
    (more : Nested second) : Nested (first ++ second) := by
  induction nested with
  | nil => exact more
  | around place inside _ _ inductionHypothesis =>
      rw [List.append_assoc, List.cons_append]
      exact .around place inside inductionHypothesis

theorem Nested.flatMap {β : Type} {parts : List β} {events : β → List (Event α)}
    (nested : ∀ part ∈ parts, Nested (events part)) : Nested (parts.flatMap events) := by
  induction parts with
  | nil => exact .nil
  | cons part parts inductionHypothesis =>
      rw [List.flatMap_cons]
      exact (nested part List.mem_cons_self).append
        (inductionHypothesis fun other member => nested other (List.mem_cons_of_mem _ member))

namespace Visit

/-- The events of a traversal from a place on. -/
def events (place : Place α) : List (Event α) :=
  place.tree.events place.context.head? place.address

theorem eventsAll_eq_flatMap (place : Place α) (index : Nat) (trees : List (Tree α)) :
    Tree.eventsAll place.tree place.address index trees =
      (place.childrenFrom index trees).flatMap events := by
  induction trees generalizing index with
  | nil => rfl
  | cons tree trees inductionHypothesis =>
      rw [Tree.eventsAll, inductionHypothesis]
      rfl

/-- The recursion: a place is reached, what is below is traversed in order, the place is left. -/
theorem events_eq (place : Place α) :
    place.events =
      place.event .enter :: place.children.flatMap events ++ [place.event .exit] := by
  rw [children, ← eventsAll_eq_flatMap]
  rcases place with ⟨⟨label, children⟩, address, context⟩
  rfl

theorem nested_events (place : Place α) : Nested place.events := by
  induction place using inductionOnChildren with
  | step place inductionHypothesis =>
      rw [events_eq]
      exact .around place (.flatMap inductionHypothesis) .nil

theorem filter_enter_events (place : Place α) :
    place.events.filter (·.phase = .enter) = place.places.map (·.event .enter) := by
  induction place using inductionOnChildren with
  | step place inductionHypothesis =>
      rw [events_eq, places_eq_flatMap, List.map_cons, List.map_flatMap,
        ← List.flatMap_congr inductionHypothesis, ← List.filter_flatMap]
      simp [event]

theorem filter_exit_events (place : Place α) :
    place.events.filter (·.phase = .exit) = place.latePlaces.map (·.event .exit) := by
  induction place using inductionOnChildren with
  | step place inductionHypothesis =>
      rw [events_eq, latePlaces_eq_flatMap, List.map_append, List.map_flatMap,
        ← List.flatMap_congr inductionHypothesis, ← List.filter_flatMap]
      simp [event]

end Visit

namespace Tree

mutual

theorem length_events : ∀ (tree : Tree α) (parent : Option (Tree α)) (address : Address),
    (tree.events parent address).length = 2 * tree.size
  | node label children, parent, address => by
    rw [events, List.length_append, List.length_cons, List.length_singleton,
      length_eventsAll children, size]
    omega

theorem length_eventsAll : ∀ (trees : List (Tree α)) (parent : Tree α) (address : Address)
    (index : Nat), (eventsAll parent address index trees).length = 2 * sizeAll trees
  | [], _, _, _ => rfl
  | tree :: trees, parent, address, index => by
    rw [eventsAll, List.length_append, length_events tree, length_eventsAll trees, sizeAll]
    omega

end

end Tree

/-! ## Every place twice -/

/-- What is told from everything else in a list by a key is all that has its key. -/
theorem filter_key_eq_singleton {β κ : Type} [DecidableEq κ] {key : β → κ} {items : List β}
    (distinct : (items.map key).Nodup) {item : β} (member : item ∈ items) :
    items.filter (fun other => key other = key item) = [item] := by
  induction items with
  | nil => cases member
  | cons first rest inductionHypothesis =>
      rw [List.map_cons, List.nodup_cons] at distinct
      obtain ⟨apart, distinct⟩ := distinct
      rcases List.mem_cons.mp member with rfl | later
      · have none : rest.filter (fun other => key other = key item) = [] :=
          List.filter_eq_nil_iff.mpr fun other listed same =>
            apart (List.mem_map.mpr ⟨other, listed, of_decide_eq_true same⟩)
        rw [List.filter_cons_of_pos (by simp), none]
      · have differs : key first ≠ key item := fun same =>
          apart (same ▸ List.mem_map_of_mem later)
        rw [List.filter_cons_of_neg (by simp [differs]), inductionHypothesis distinct later]

/-- No two places of a tree have the same address. -/
theorem Tree.nodup_map_address_places (tree : Tree α) :
    (tree.places.map (·.address)).Nodup :=
  ((Visit.places_perm_latePlaces _).map _).nodup_iff.mpr HasPlace.whole.nodup_map_address

theorem Tree.nodup_map_address_filter_places (tree : Tree α) (keep : Place α → Bool) :
    ((tree.places.filter keep).map (·.address)).Nodup :=
  tree.nodup_map_address_places.sublist (List.filter_sublist.map _)

namespace Tree.HasPlace

/-- The one event of a place in each phase. -/
theorem filter_events_eq (has : tree.HasPlace place) (phase : Phase) :
    (Visit.whole tree).events.filter
        (fun event => event.phase = phase ∧ event.address = place.address) =
      [place.event phase] := by
  have late : ((Visit.whole tree).latePlaces.map (·.address)).Nodup :=
    Tree.HasPlace.whole.nodup_map_address
  have early : ((Visit.whole tree).places.map (·.address)).Nodup :=
    tree.nodup_map_address_places
  have split : (Visit.whole tree).events.filter
        (fun event => event.phase = phase ∧ event.address = place.address) =
      ((Visit.whole tree).events.filter (·.phase = phase)).filter
        (·.address = place.address) := by
    rw [List.filter_filter]
    exact List.filter_congr fun event _ => by simp [Bool.and_comm]
  rw [split]
  cases phase with
  | enter =>
      rw [Visit.filter_enter_events, List.filter_map]
      exact congrArg (List.map _) (filter_key_eq_singleton early has.mem_places)
  | exit =>
      rw [Visit.filter_exit_events, List.filter_map]
      exact congrArg (List.map _) (filter_key_eq_singleton late has.mem_latePlaces)

end Tree.HasPlace

/-- Every event is one of a place. -/
theorem Tree.exists_place_of_mem_events {event : Event α}
    (listed : event ∈ (Visit.whole tree).events) :
    ∃ place, tree.HasPlace place ∧ event = place.event event.phase := by
  have inPhase : event ∈ (Visit.whole tree).events.filter (·.phase = event.phase) :=
    List.mem_filter.mpr ⟨listed, by simp⟩
  cases phase : event.phase with
  | enter =>
      rw [phase, Visit.filter_enter_events] at inPhase
      obtain ⟨place, member, rfl⟩ := List.mem_map.mp inPhase
      exact ⟨place, Tree.hasPlace_of_mem_places member, rfl⟩
  | exit =>
      rw [phase, Visit.filter_exit_events] at inPhase
      obtain ⟨place, member, rfl⟩ := List.mem_map.mp inPhase
      exact ⟨place, Tree.hasPlace_of_mem_places (Visit.mem_latePlaces.mp member), rfl⟩

/-! ## The traversal -/

namespace Tree

/-- What it means that events are those of the depth-first traversal of a tree. The events of
a place name the tree right above it; only those of the whole tree name none. -/
structure IsTraversedBy (tree : Tree α) (events : List (Event α)) : Prop where
  recursion : events = (Visit.whole tree).events ∧ ∀ place : Place α,
    place.events =
      place.event .enter :: place.children.flatMap Visit.events ++ [place.event .exit]
  length : events.length = 2 * tree.size
  once : ∀ place, tree.HasPlace place → ∀ phase,
    events.filter (fun event => event.phase = phase ∧ event.address = place.address) =
      [place.event phase]
  nested : Nested events
  parents : ∀ event ∈ events,
    event.parent = none ∧ event.tree = tree ∧ event.address = [] ∨
    ∃ above index, tree.HasPlace above ∧ above.tree.children[index]? = some event.tree ∧
      event.parent = some above.tree ∧ event.address = above.address ++ [index]

/-- The traversal with a stack is the recursive one, for trees of any shape and depth. -/
theorem isTraversedBy_walk (tree : Tree α) : tree.IsTraversedBy tree.walk := by
  have same : tree.walk = (Visit.whole tree).events := tree.walk_eq_events
  rw [same]
  refine ⟨⟨rfl, Visit.events_eq⟩, length_events tree none [],
    fun place has phase => has.filter_events_eq phase, Visit.nested_events _,
    fun event listed => ?_⟩
  obtain ⟨place, has, equal⟩ := exists_place_of_mem_events listed
  rw [equal]
  cases has with
  | whole => exact .inl ⟨rfl, rfl, rfl⟩
  | @child above index subtree has found => exact .inr ⟨above, index, has, found, rfl, rfl⟩

end Tree

end DesignLint
