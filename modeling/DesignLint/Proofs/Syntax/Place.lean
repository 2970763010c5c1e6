import DesignLint.Syntax.Tree

/-!
# Places in trees

A place is a subtree together with its address and the trees around it. The places
of a tree are closed under going outwards, and the address tells which place lies
in which. Two listings of the places of a tree, one before and one after what
stands below each place, are related to the recursion on the tree. The listings leave no
place out and name none twice, and a traversal reaches and leaves every place.
-/

namespace DesignLint

variable {α : Type}

/-- An induction on trees from the subtrees right below the root. -/
theorem Tree.inductionOnChildren {motive : Tree α → Prop}
    (node : ∀ label children, (∀ child ∈ children, motive child) →
      motive (.node label children)) (tree : Tree α) : motive tree := by
  match tree with
  | .node label children =>
      exact node label children fun child _ => Tree.inductionOnChildren node child

/-- A subtree with its address and the trees around it, nearest first. -/
abbrev Place (α : Type) := Visit α (List (Tree α))

namespace Visit

/-! ## The places around a place -/

/-- The place of a whole tree. -/
def whole (tree : Tree α) : Place α := ⟨tree, [], []⟩

/-- The place of a subtree with a number right below a place. -/
def child (place : Place α) (index : Nat) (tree : Tree α) : Place α :=
  ⟨tree, place.address ++ [index], place.tree :: place.context⟩

/-- The places of the trees around an address, nearest first. -/
def enclosing : Address → List (Tree α) → List (Place α)
  | _, [] => []
  | address, tree :: trees =>
      ⟨tree, address.dropLast, trees⟩ :: enclosing address.dropLast trees

/-- The places around a place, nearest first. -/
def around (place : Place α) : List (Place α) := enclosing place.address place.context

/-- A place and the places around it, nearest first. -/
def path (place : Place α) : List (Place α) := place :: place.around

@[simp]
theorem whole_around (tree : Tree α) : (whole tree).around = [] :=
  rfl

@[simp]
theorem child_around (place : Place α) (index : Nat) (tree : Tree α) :
    (place.child index tree).around = place.path := by
  simp [around, child, path, enclosing]

theorem mem_path_iff {place outer : Place α} :
    outer ∈ place.path ↔ outer = place ∨ outer ∈ place.around := by
  simp [path]

end Visit

/-! ## The places of a tree -/

/-- The places that a tree has: the whole tree, and the subtrees below. -/
inductive Tree.HasPlace (tree : Tree α) : Place α → Prop where
  | whole : HasPlace tree (.whole tree)
  | child {place : Place α} {index : Nat} {subtree : Tree α} :
      HasPlace tree place → place.tree.children[index]? = some subtree →
      HasPlace tree (place.child index subtree)

namespace Tree.HasPlace

variable {tree : Tree α} {place outer inner : Place α}

theorem around (has : tree.HasPlace place) (outside : outer ∈ place.around) :
    tree.HasPlace outer := by
  induction has with
  | whole => simp at outside
  | child above _ inductionHypothesis =>
      rw [Visit.child_around, Visit.mem_path_iff] at outside
      rcases outside with rfl | outside
      · exact above
      · exact inductionHypothesis outside

theorem of_mem_path (has : tree.HasPlace place) (on : outer ∈ place.path) :
    tree.HasPlace outer := by
  rcases Visit.mem_path_iff.mp on with rfl | outside
  · exact has
  · exact has.around outside

/-- A place lies properly inside the places around it. -/
theorem address_of_mem_around (has : tree.HasPlace place) (outside : outer ∈ place.around) :
    outer.address <+: place.address ∧ outer.address.length < place.address.length := by
  induction has with
  | whole => simp at outside
  | @child above index subtree _ _ inductionHypothesis =>
      rw [Visit.child_around, Visit.mem_path_iff] at outside
      rcases outside with rfl | outside
      · simp [Visit.child]
      · obtain ⟨isPrefix, shorter⟩ := inductionHypothesis outside
        exact ⟨isPrefix.trans (by simp [Visit.child]), by simp [Visit.child]; omega⟩

theorem address_prefix_of_mem_path (has : tree.HasPlace place) (on : outer ∈ place.path) :
    outer.address <+: place.address := by
  rcases Visit.mem_path_iff.mp on with rfl | outside
  · exact List.prefix_rfl
  · exact (has.address_of_mem_around outside).1

/-- The address determines the place. -/
theorem eq_of_address_eq (has : tree.HasPlace place) (other : tree.HasPlace outer)
    (same : place.address = outer.address) : place = outer := by
  induction has generalizing outer with
  | whole =>
      cases other with
      | whole => rfl
      | child _ _ => simp [Visit.whole, Visit.child] at same
  | @child above index subtree _ found inductionHypothesis =>
      cases other with
      | whole => simp [Visit.whole, Visit.child] at same
      | @child otherAbove otherIndex otherSubtree otherHas otherFound =>
          have split := List.append_inj' same rfl
          have equal := inductionHypothesis otherHas split.1
          have index_eq : index = otherIndex := by simpa using split.2
          subst equal index_eq
          rw [found] at otherFound
          cases otherFound
          rfl

/-- The places around a place are those with a properly shorter address on the
way to it. -/
theorem mem_path_of_isPrefix (has : tree.HasPlace place) (other : tree.HasPlace outer)
    (isPrefix : outer.address <+: place.address) : outer ∈ place.path := by
  induction has with
  | whole =>
      have same : outer.address = (Visit.whole tree).address := by
        simpa [Visit.whole] using isPrefix
      simp [Visit.path, other.eq_of_address_eq .whole same]
  | @child above index subtree has found inductionHypothesis =>
      rcases List.prefix_concat_iff.mp isPrefix with same | isPrefix
      · simp [Visit.path, other.eq_of_address_eq (.child has found) same]
      · rw [Visit.mem_path_iff, Visit.child_around]
        exact .inr (inductionHypothesis isPrefix)

/-- There is a place at every address on the way to a place. -/
theorem exists_mem_path_of_isPrefix (has : tree.HasPlace place) {address : Address}
    (isPrefix : address <+: place.address) : ∃ outer ∈ place.path, outer.address = address := by
  induction has with
  | whole =>
      have root : address = [] := by simpa [Visit.whole] using isPrefix
      exact ⟨.whole tree, by simp [Visit.path], root.symm⟩
  | @child above index subtree has found inductionHypothesis =>
      rcases List.prefix_concat_iff.mp isPrefix with same | isPrefix
      · exact ⟨above.child index subtree, by simp [Visit.path], same.symm⟩
      · obtain ⟨outer, on, same⟩ := inductionHypothesis isPrefix
        exact ⟨outer, Visit.mem_path_iff.mpr (.inr (by simpa using on)), same⟩

/-- The places around a place split at each of them. -/
theorem exists_around_eq_append (has : tree.HasPlace place) (outside : outer ∈ place.around) :
    ∃ near, place.around = near ++ outer.path ∧ ∀ between ∈ near, outer ∈ between.around := by
  induction has with
  | whole => simp at outside
  | @child above index subtree has found inductionHypothesis =>
      rw [Visit.child_around, Visit.mem_path_iff] at outside
      rcases outside with rfl | outside
      · exact ⟨[], by simp, by simp⟩
      · obtain ⟨near, split, within⟩ := inductionHypothesis outside
        refine ⟨above :: near, by simp [Visit.path, split], ?_⟩
        intro between member
        rcases List.mem_cons.mp member with rfl | member
        · exact outside
        · exact within between member

/-- Farther places have shorter addresses. -/
theorem pairwise_path (has : tree.HasPlace place) :
    place.path.Pairwise fun near far => far.address.length < near.address.length := by
  induction has with
  | whole => simp [Visit.path]
  | @child above index subtree has found inductionHypothesis =>
      rw [Visit.path, List.pairwise_cons]
      constructor
      · intro outer outside
        exact ((Tree.HasPlace.child has found).address_of_mem_around outside).2
      · rw [Visit.child_around]
        exact inductionHypothesis

theorem pairwise_around (has : tree.HasPlace place) :
    place.around.Pairwise fun near far => far.address.length < near.address.length :=
  (List.pairwise_cons.mp has.pairwise_path).2

theorem nodup_around (has : tree.HasPlace place) : place.around.Nodup :=
  has.pairwise_around.imp fun shorter equal => by simp [equal] at shorter

end Tree.HasPlace

/-! ## Listing the places of a tree -/

namespace Visit

/-- A place and the places below it, each before what stands below it. -/
def places (place : Place α) : List (Place α) :=
  place.tree.visits (fun around _ parent => parent :: around) place.context place.address

/-- The places of children of a place, and those below them, from number `index` on. -/
def placesFrom (place : Place α) (index : Nat) (children : List (Tree α)) : List (Place α) :=
  Tree.visitsAll (fun around _ parent => parent :: around) (place.tree :: place.context)
    place.address index children

/-- A place and the places below it, each after what stands below it. -/
def latePlaces (place : Place α) : List (Place α) :=
  place.tree.lateVisits (fun around _ parent => parent :: around) place.context place.address

/-- The places of children of a place, and those below them, from number `index` on, each after
what stands below it. -/
def latePlacesFrom (place : Place α) (index : Nat) (children : List (Tree α)) : List (Place α) :=
  Tree.lateVisitsAll (fun around _ parent => parent :: around) (place.tree :: place.context)
    place.address index children

theorem places_eq (place : Place α) :
    place.places = place :: place.placesFrom 0 place.tree.children := by
  rcases place with ⟨⟨label, children⟩, address, context⟩
  rfl

theorem latePlaces_eq (place : Place α) :
    place.latePlaces = place.latePlacesFrom 0 place.tree.children ++ [place] := by
  rcases place with ⟨⟨label, children⟩, address, context⟩
  rfl

@[simp]
theorem placesFrom_nil (place : Place α) (index : Nat) : place.placesFrom index [] = [] :=
  rfl

@[simp]
theorem latePlacesFrom_nil (place : Place α) (index : Nat) : place.latePlacesFrom index [] = [] :=
  rfl

theorem placesFrom_cons (place : Place α) (index : Nat) (tree : Tree α) (trees : List (Tree α)) :
    place.placesFrom index (tree :: trees) =
      (place.child index tree).places ++ place.placesFrom (index + 1) trees :=
  rfl

theorem latePlacesFrom_cons (place : Place α) (index : Nat) (tree : Tree α)
    (trees : List (Tree α)) :
    place.latePlacesFrom index (tree :: trees) =
      (place.child index tree).latePlaces ++ place.latePlacesFrom (index + 1) trees :=
  rfl

/-- What is listed for children stands in one of them. -/
theorem mem_placesFrom {place inner : Place α} {index : Nat} {children : List (Tree α)}
    (listed : inner ∈ place.placesFrom index children) :
    ∃ offset subtree, children[offset]? = some subtree ∧
      inner ∈ (place.child (index + offset) subtree).places := by
  induction children generalizing index with
  | nil => simp at listed
  | cons tree trees inductionHypothesis =>
      rw [placesFrom_cons, List.mem_append] at listed
      rcases listed with inFirst | inRest
      · exact ⟨0, tree, rfl, inFirst⟩
      · obtain ⟨offset, subtree, found, inSubtree⟩ := inductionHypothesis inRest
        refine ⟨offset + 1, subtree, found, ?_⟩
        rwa [show index + (offset + 1) = index + 1 + offset by omega]

/-- The two listings have the same members. -/
theorem mem_latePlaces {place inner : Place α} :
    inner ∈ place.latePlaces ↔ inner ∈ place.places := by
  obtain ⟨tree, address, context⟩ := place
  induction tree using Tree.inductionOnChildren generalizing address context with
  | node label children inductionHypothesis =>
      have together (index : Nat) (trees : List (Tree α)) (part : trees ⊆ children) :
          inner ∈ latePlacesFrom ⟨.node label children, address, context⟩ index trees ↔
            inner ∈ placesFrom ⟨.node label children, address, context⟩ index trees := by
        induction trees generalizing index with
        | nil => rfl
        | cons tree trees step =>
            have member : tree ∈ children := part List.mem_cons_self
            have rest : trees ⊆ children := fun _ within => part (List.mem_cons_of_mem _ within)
            rw [latePlacesFrom_cons, placesFrom_cons, List.mem_append, List.mem_append,
              step _ rest, child, inductionHypothesis tree member]
      rw [latePlaces_eq, places_eq, List.mem_append, List.mem_singleton, List.mem_cons]
      exact (or_congr (together 0 _ (List.Subset.refl _)) Iff.rfl).trans Or.comm

end Visit

/-- The places of a tree, each before what stands below it. -/
def Tree.places (tree : Tree α) : List (Place α) := tree.withAncestors

/-- The places of a tree, each after what stands below it. -/
def Tree.latePlaces (tree : Tree α) : List (Place α) := (Visit.whole tree).latePlaces

namespace Tree.HasPlace

variable {tree : Tree α} {place inner : Place α}

/-- What is listed from a place on stands at that place or below it. -/
theorem of_mem_places (has : tree.HasPlace place) (listed : inner ∈ place.places) :
    tree.HasPlace inner ∧ place ∈ inner.path := by
  obtain ⟨subtree, address, context⟩ := place
  induction subtree using Tree.inductionOnChildren generalizing address context with
  | node label children inductionHypothesis =>
      rw [Visit.places_eq, List.mem_cons] at listed
      rcases listed with rfl | below
      · exact ⟨has, Visit.mem_path_iff.mpr (.inl rfl)⟩
      · obtain ⟨offset, part, found, inPart⟩ := Visit.mem_placesFrom below
        rw [Nat.zero_add] at inPart
        obtain ⟨innerHas, onPath⟩ := inductionHypothesis part (List.mem_of_getElem? found)
          _ _ (.child has found) inPart
        refine ⟨innerHas, innerHas.mem_path_of_isPrefix has ?_⟩
        have lower := innerHas.address_prefix_of_mem_path onPath
        exact (List.prefix_append address [offset]).trans lower

end Tree.HasPlace

theorem Tree.hasPlace_of_mem_places {tree : Tree α} {place : Place α}
    (listed : place ∈ tree.places) : tree.HasPlace place :=
  (Tree.HasPlace.whole.of_mem_places listed).1

/-! ## Places kept from a listing -/

namespace Visit

theorem mem_latePlacesFrom {place inner : Place α} {index : Nat} {children : List (Tree α)} :
    inner ∈ place.latePlacesFrom index children ↔ inner ∈ place.placesFrom index children := by
  induction children generalizing index with
  | nil => rfl
  | cons tree trees inductionHypothesis =>
      rw [latePlacesFrom_cons, placesFrom_cons, List.mem_append, List.mem_append, mem_latePlaces,
        inductionHypothesis]

/-- The places of the children of a place from number `index` on. -/
def childrenFrom (place : Place α) (index : Nat) (children : List (Tree α)) : List (Place α) :=
  (children.zipIdx index).map fun (tree, number) => place.child number tree

/-- What is kept of the places below some children and stands in no deeper place than
a child are the children themselves. -/
theorem filter_latePlacesFrom_eq {place : Place α} {index : Nat} {children : List (Tree α)}
    {keep : Place α → Bool}
    (shallow : ∀ offset tree, children[offset]? = some tree →
      ∀ inner ∈ (place.child (index + offset) tree).latePlacesFrom 0 tree.children,
        keep inner = false) :
    (place.latePlacesFrom index children).filter keep =
      (place.childrenFrom index children).filter keep := by
  induction children generalizing index with
  | nil => rfl
  | cons tree trees inductionHypothesis =>
      have first : (place.child index tree).latePlaces.filter keep =
          [place.child index tree].filter keep := by
        have deeper : ((place.child index tree).latePlacesFrom 0 tree.children).filter keep = [] :=
          List.filter_eq_nil_iff.mpr fun inner listed => by
            simp [shallow 0 tree rfl inner listed]
        rw [latePlaces_eq, List.filter_append]
        exact (congrArg (· ++ _) deeper).trans (List.nil_append _)
      have rest : (place.latePlacesFrom (index + 1) trees).filter keep =
          (place.childrenFrom (index + 1) trees).filter keep :=
        inductionHypothesis fun offset subtree found inner listed =>
          shallow (offset + 1) subtree found inner (by
            rwa [show index + (offset + 1) = index + 1 + offset by omega])
      rw [latePlacesFrom_cons, List.filter_append, first, rest, ← List.filter_append]
      rfl

/-- What is kept of the places below some children and stands in one of them is kept of the
places below that one. -/
theorem filter_latePlacesFrom_eq_of_inside {place : Place α} {index number : Nat}
    {children : List (Tree α)} {subtree : Tree α} {keep : Place α → Bool}
    (found : children[number]? = some subtree)
    (elsewhere : ∀ offset tree, offset ≠ number → children[offset]? = some tree →
      ∀ inner ∈ (place.child (index + offset) tree).latePlaces, keep inner = false) :
    (place.latePlacesFrom index children).filter keep =
      (place.child (index + number) subtree).latePlaces.filter keep := by
  induction children generalizing index number with
  | nil => simp at found
  | cons tree trees inductionHypothesis =>
      have next (offset : Nat) : index + (offset + 1) = index + 1 + offset := by omega
      rw [latePlacesFrom_cons, List.filter_append]
      cases number with
      | zero =>
          obtain rfl : tree = subtree := by simpa using found
          have rest : (place.latePlacesFrom (index + 1) trees).filter keep = [] := by
            refine List.filter_eq_nil_iff.mpr fun inner listed => ?_
            obtain ⟨offset, other, otherFound, within⟩ :=
              mem_placesFrom (mem_latePlacesFrom.mp listed)
            simp [elsewhere (offset + 1) other (by omega) otherFound inner
              (next offset ▸ mem_latePlaces.mpr within)]
          rw [rest, List.append_nil]
          rfl
      | succ number =>
          have first : (place.child index tree).latePlaces.filter keep = [] :=
            List.filter_eq_nil_iff.mpr fun inner listed => by
              simp [elsewhere 0 tree (by omega) rfl inner listed]
          rw [first, List.nil_append, next number]
          refine inductionHypothesis found fun offset other apart otherFound inner listed => ?_
          exact elsewhere (offset + 1) other (by omega) otherFound inner (next offset ▸ listed)

end Visit

namespace Tree.HasPlace

variable {tree : Tree α} {place : Place α} {keep : Place α → Bool}

/-- What is kept of the places of a tree and stands at or below one place is kept of the places
from there on. -/
theorem filter_latePlaces_eq (has : tree.HasPlace place)
    (within : ∀ inner, tree.HasPlace inner → keep inner = true → place ∈ inner.path) :
    tree.latePlaces.filter keep = place.latePlaces.filter keep := by
  induction has with
  | whole => rfl
  | @child above index subtree has found inductionHypothesis =>
      have childHas : tree.HasPlace (above.child index subtree) := .child has found
      have apart : keep above = false := by
        rw [Bool.eq_false_iff]
        intro kept
        have below := (has.address_prefix_of_mem_path (within above has kept)).length_le
        simp only [Visit.child, List.length_append, List.length_cons, List.length_nil] at below
        omega
      rw [inductionHypothesis fun inner innerHas kept =>
        innerHas.mem_path_of_isPrefix has ((List.prefix_append _ _).trans
          (innerHas.address_prefix_of_mem_path (within inner innerHas kept)))]
      rw [Visit.latePlaces_eq, List.filter_append, List.filter_cons_of_neg (by simp [apart]),
        List.filter_nil, List.append_nil, Visit.filter_latePlacesFrom_eq_of_inside found,
        Nat.zero_add]
      intro offset other distinct otherFound inner listed
      rw [Bool.eq_false_iff]
      intro kept
      obtain ⟨innerHas, onOther⟩ := (Tree.HasPlace.child has otherFound).of_mem_places
        (Visit.mem_latePlaces.mp (Nat.zero_add offset ▸ listed))
      have inOther := innerHas.address_prefix_of_mem_path onOther
      have inChild := innerHas.address_prefix_of_mem_path (within inner innerHas kept)
      have same := List.prefix_of_prefix_length_le inOther inChild (by simp [Visit.child])
      simp only [Visit.child, List.prefix_append_right_inj] at same
      exact distinct (List.cons_prefix_cons.mp same).1

/-- What is kept of the places of a tree and stands right below one place is kept of the children
of that place. -/
theorem filter_latePlaces_eq_children (has : tree.HasPlace place)
    (below : ∀ inner, tree.HasPlace inner → keep inner = true → inner.around = place.path) :
    tree.latePlaces.filter keep = (place.childrenFrom 0 place.tree.children).filter keep := by
  have length (inner : Place α) (innerHas : tree.HasPlace inner) (kept : keep inner = true) :
      inner.address.length = place.address.length + 1 := by
    have around := below inner innerHas kept
    cases innerHas with
    | whole => simp [Visit.path] at around
    | @child above index subtree aboveHas found =>
        rw [Visit.child_around, Visit.path, Visit.path, List.cons.injEq] at around
        simp [Visit.child, around.1]
  rw [has.filter_latePlaces_eq fun inner innerHas kept =>
    Visit.mem_path_iff.mpr (.inr (below inner innerHas kept ▸ Visit.mem_path_iff.mpr (.inl rfl)))]
  have apart : keep place = false := by
    rw [Bool.eq_false_iff]
    intro kept
    have := length place has kept
    omega
  rw [Visit.latePlaces_eq, List.filter_append, List.filter_cons_of_neg (by simp [apart]),
    List.filter_nil, List.append_nil, Visit.filter_latePlacesFrom_eq]
  intro offset subtree found inner listed
  rw [Bool.eq_false_iff]
  intro kept
  rw [Nat.zero_add] at listed
  obtain ⟨next, grandchild, foundBelow, within⟩ :=
    Visit.mem_placesFrom (Visit.mem_latePlacesFrom.mp listed)
  rw [Nat.zero_add] at within
  have childHas : tree.HasPlace (place.child offset subtree) := .child has found
  obtain ⟨innerHas, on⟩ := (Tree.HasPlace.child childHas foundBelow).of_mem_places within
  have deep := (innerHas.address_prefix_of_mem_path on).length_le
  simp only [Visit.child, List.length_append, List.length_cons, List.length_nil] at deep
  have := length inner innerHas kept
  omega

end Tree.HasPlace

/-! ## The traversal with an explicit stack

The walk with a stack of open nodes gives the events of the recursive traversal. -/

theorem Walk.run_cons (tree : Tree α) (parent : Option (Tree α)) (address : Address) (next : Nat)
    (pending : List (Tree α)) (frames : List (Walk.Frame α)) :
    Walk.run (⟨tree, parent, address, next, pending⟩ :: frames) =
      Tree.eventsAll tree address next pending
        ++ ⟨.exit, tree, parent, address⟩ :: Walk.run frames := by
  match pending with
  | [] => rw [Walk.run]; simp [Tree.eventsAll]
  | .node label children :: siblings =>
      rw [Walk.run]
      simp only [Walk.Frame.ofTree, Tree.children]
      rw [Walk.run_cons (.node label children) (some tree) (address ++ [next]) 0 children,
        Walk.run_cons tree parent address (next + 1) siblings frames]
      simp [Tree.eventsAll, Tree.events]
termination_by Tree.sizeAll pending
decreasing_by
  all_goals simp only [Tree.sizeAll, Tree.size]; omega

theorem Tree.walk_eq_events (tree : Tree α) : tree.walk = tree.events none [] := by
  cases tree with
  | node label children =>
      simp [Tree.walk, Walk.Frame.ofTree, Walk.run_cons, Walk.run, Tree.events, Tree.children]

/-! ## Every place once -/

section Once

variable {tree : Tree α} {place inner : Place α}

namespace Visit

/-- What stands in one of some children is listed for them. -/
theorem mem_placesFrom_of_mem {index offset : Nat} {children : List (Tree α)} {subtree : Tree α}
    (found : children[offset]? = some subtree)
    (listed : inner ∈ (place.child (index + offset) subtree).places) :
    inner ∈ place.placesFrom index children := by
  induction children generalizing index offset with
  | nil => simp at found
  | cons tree trees inductionHypothesis =>
      rw [placesFrom_cons, List.mem_append]
      cases offset with
      | zero =>
          obtain rfl : tree = subtree := by simpa using found
          exact .inl listed
      | succ offset =>
          refine .inr (inductionHypothesis found ?_)
          rwa [show index + 1 + offset = index + (offset + 1) by omega]

/-- The places listed from a place on are closed under going to children. -/
theorem child_mem_places {index : Nat} {subtree : Tree α} (listed : inner ∈ place.places)
    (found : inner.tree.children[index]? = some subtree) :
    inner.child index subtree ∈ place.places := by
  obtain ⟨tree, address, context⟩ := place
  induction tree using Tree.inductionOnChildren generalizing address context with
  | node label children inductionHypothesis =>
      rw [places_eq, List.mem_cons] at listed ⊢
      refine .inr ?_
      rcases listed with rfl | below
      · refine mem_placesFrom_of_mem found ?_
        rw [Nat.zero_add, places_eq]
        exact List.mem_cons_self
      · obtain ⟨offset, part, partFound, inPart⟩ := mem_placesFrom below
        exact mem_placesFrom_of_mem partFound
          (inductionHypothesis part (List.mem_of_getElem? partFound) _ _ inPart)

end Visit

namespace Tree.HasPlace

theorem mem_places (has : tree.HasPlace place) : place ∈ tree.places := by
  change place ∈ (Visit.whole tree).places
  induction has with
  | whole =>
      rw [Visit.places_eq]
      exact List.mem_cons_self
  | child _ found inductionHypothesis => exact Visit.child_mem_places inductionHypothesis found

theorem mem_latePlaces (has : tree.HasPlace place) : place ∈ tree.latePlaces :=
  Visit.mem_latePlaces.mpr has.mem_places

/-- What is listed from a place on has an address below the address of the place. -/
theorem address_prefix_of_mem_latePlaces (has : tree.HasPlace place)
    (listed : inner ∈ place.latePlaces) : place.address <+: inner.address := by
  obtain ⟨innerHas, on⟩ := has.of_mem_places (Visit.mem_latePlaces.mp listed)
  exact innerHas.address_prefix_of_mem_path on

/-- What is listed for children from a number on has an address below one of them. -/
theorem exists_prefix_of_mem_latePlacesFrom (has : tree.HasPlace place) {index : Nat}
    {children : List (Tree α)}
    (found : ∀ offset part, children[offset]? = some part →
      place.tree.children[index + offset]? = some part)
    (listed : inner ∈ place.latePlacesFrom index children) :
    ∃ offset, place.address ++ [index + offset] <+: inner.address := by
  obtain ⟨offset, part, partFound, inPart⟩ :=
    Visit.mem_placesFrom (Visit.mem_latePlacesFrom.mp listed)
  exact ⟨offset, address_prefix_of_mem_latePlaces (.child has (found offset part partFound))
    (Visit.mem_latePlaces.mpr inPart)⟩

/-- No two places listed from a place on have the same address. -/
theorem nodup_map_address (has : tree.HasPlace place) :
    (place.latePlaces.map (·.address)).Nodup := by
  obtain ⟨subtree, address, context⟩ := place
  induction subtree using Tree.inductionOnChildren generalizing address context with
  | node label children inductionHypothesis =>
      have below (index : Nat) (trees : List (Tree α))
          (found : ∀ offset part, trees[offset]? = some part →
            children[index + offset]? = some part) :
          ((Visit.latePlacesFrom ⟨.node label children, address, context⟩ index trees).map
            (·.address)).Nodup := by
        induction trees generalizing index with
        | nil => simp
        | cons part parts step =>
            have partFound := found 0 part rfl
            have rest : ∀ offset other, parts[offset]? = some other →
                children[index + 1 + offset]? = some other := fun offset other otherFound => by
              rw [show index + 1 + offset = index + (offset + 1) by omega]
              exact found (offset + 1) other otherFound
            rw [Visit.latePlacesFrom_cons, List.map_append, List.nodup_append]
            refine ⟨inductionHypothesis part (List.mem_of_getElem? partFound) _ _
              (.child has partFound), step (index + 1) rest, ?_⟩
            -- places in different children differ in the number of the child
            simp only [List.mem_map, forall_exists_index, and_imp, forall_apply_eq_imp_iff₂]
            intro left leftListed right rightListed equal
            have inLeft := address_prefix_of_mem_latePlaces (.child has partFound) leftListed
            obtain ⟨offset, inRight⟩ := exists_prefix_of_mem_latePlacesFrom has rest rightListed
            rw [equal] at inLeft
            have same := List.prefix_of_prefix_length_le inLeft inRight (by simp [Visit.child])
            simp only [Visit.child, List.prefix_append_right_inj] at same
            have := (List.cons_prefix_cons.mp same).1
            omega
      have found : ∀ offset part, children[offset]? = some part →
          children[0 + offset]? = some part := by simp
      rw [Visit.latePlaces_eq, List.map_append, List.nodup_append]
      refine ⟨below 0 children found, by simp, ?_⟩
      simp only [List.map_cons, List.map_nil, List.mem_map, List.mem_singleton,
        forall_exists_index, and_imp, forall_apply_eq_imp_iff₂, forall_eq]
      intro inner listed equal
      obtain ⟨offset, deeper⟩ := exists_prefix_of_mem_latePlacesFrom has found listed
      have := (equal ▸ deeper).length_le
      simp only [List.length_append, List.length_cons, List.length_nil] at this
      omega

end Tree.HasPlace

theorem Tree.mem_places_iff : place ∈ tree.places ↔ tree.HasPlace place :=
  ⟨Tree.hasPlace_of_mem_places, Tree.HasPlace.mem_places⟩

/-! ## Every place is reached and left -/

theorem Tree.events_subset_eventsAll {parent subtree : Tree α} {address : Address}
    {index offset : Nat} {trees : List (Tree α)} (found : trees[offset]? = some subtree) :
    subtree.events (some parent) (address ++ [index + offset]) ⊆
      Tree.eventsAll parent address index trees := by
  induction trees generalizing index offset with
  | nil => simp at found
  | cons first rest inductionHypothesis =>
      rw [Tree.eventsAll]
      cases offset with
      | zero =>
          obtain rfl : first = subtree := by simpa using found
          exact List.subset_append_left ..
      | succ offset =>
          rw [show index + (offset + 1) = index + 1 + offset by omega]
          exact List.Subset.trans (inductionHypothesis found) (List.subset_append_right ..)

namespace Tree.HasPlace

/-- The events from a place on are events of the traversal. -/
theorem events_subset_walk (has : tree.HasPlace place) :
    place.tree.events place.context.head? place.address ⊆ tree.walk := by
  induction has with
  | whole =>
      rw [Tree.walk_eq_events]
      exact List.Subset.refl _
  | @child above index subtree _ found inductionHypothesis =>
      refine List.Subset.trans ?_ inductionHypothesis
      obtain ⟨⟨label, children⟩, address, context⟩ := above
      have inChildren : subtree.events (some (.node label children)) (address ++ [index]) ⊆
          Tree.eventsAll (.node label children) address 0 children := by
        rw [← Nat.zero_add index]
        exact Tree.events_subset_eventsAll found
      rw [Tree.events]
      exact List.Subset.trans inChildren
        (List.Subset.trans (List.subset_cons_self _ _) (List.subset_append_left _ _))

/-- Every place is reached and left. -/
theorem event_mem_walk (has : tree.HasPlace place) (phase : Phase) :
    ⟨phase, place.tree, place.context.head?, place.address⟩ ∈ tree.walk := by
  apply has.events_subset_walk
  obtain ⟨⟨label, children⟩, address, context⟩ := place
  cases phase <;> simp [Tree.events]

end Tree.HasPlace

end Once

end DesignLint
