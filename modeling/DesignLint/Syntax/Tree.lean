/-!
# Ordered trees and their traversals

A labelled tree with an ordered list of subtrees. The traversals list subtrees
rather than labels, so that a visitor sees what stands below a node.
-/

namespace DesignLint

/-- A tree with labelled nodes and ordered children. -/
inductive Tree (α : Type) where
  | node (label : α) (children : List (Tree α))

namespace Tree

variable {α : Type}

/-- The label of the root. -/
def label : Tree α → α
  | node label _ => label

/-- The subtrees right below the root. -/
def children : Tree α → List (Tree α)
  | node _ children => children

mutual

/-- The number of nodes. -/
def size : Tree α → Nat
  | node _ children => sizeAll children + 1

/-- The number of nodes of a list of trees. -/
def sizeAll : List (Tree α) → Nat
  | [] => 0
  | tree :: trees => size tree + sizeAll trees

end

theorem sizeAll_append (front back : List (Tree α)) :
    sizeAll (front ++ back) = sizeAll front + sizeAll back := by
  induction front with
  | nil => simp [sizeAll]
  | cons first rest inductionHypothesis =>
      rw [List.cons_append, sizeAll, sizeAll, inductionHypothesis, Nat.add_assoc]

theorem sizeAll_filter_le (keep : Tree α → Bool) (trees : List (Tree α)) :
    sizeAll (trees.filter keep) ≤ sizeAll trees := by
  induction trees with
  | nil => simp
  | cons first rest inductionHypothesis =>
      rw [List.filter_cons]
      split <;> simp only [sizeAll] <;> omega

theorem sizeAll_children_lt (tree : Tree α) : sizeAll tree.children < tree.size := by
  cases tree with
  | node label children => simp [Tree.children, size]

/-! ## Depth first -/

mutual

/-- All subtrees, each before what stands below it, from left to right. -/
def preorder : Tree α → List (Tree α)
  | node label children => node label children :: preorderAll children

/-- The subtrees of a list of trees. -/
def preorderAll : List (Tree α) → List (Tree α)
  | [] => []
  | tree :: trees => preorder tree ++ preorderAll trees

end

mutual

/-- All subtrees that are reached without passing a stopping label, each before
what stands below it, from right to left. -/
def preorderRight (stops : α → Bool) : Tree α → List (Tree α)
  | node label children =>
    if stops label then [] else node label children :: preorderRightAll stops children

/-- The subtrees of a list of trees, from right to left. -/
def preorderRightAll (stops : α → Bool) : List (Tree α) → List (Tree α)
  | [] => []
  | tree :: trees => preorderRightAll stops trees ++ preorderRight stops tree

end

mutual

/-- All subtrees that are reached without passing through a closed label, from
left to right. The closed ones are listed too, what stands below them is not. -/
def preorderWithin (closed : α → Bool) : Tree α → List (Tree α)
  | node label children =>
    node label children :: if closed label then [] else preorderWithinAll closed children

/-- The subtrees of a list of trees. -/
def preorderWithinAll (closed : α → Bool) : List (Tree α) → List (Tree α)
  | [] => []
  | tree :: trees => preorderWithin closed tree ++ preorderWithinAll closed trees

end

/-! ## Breadth first -/

/-- Two lists of levels joined level by level. -/
def joinLevels {β : Type} : List (List β) → List (List β) → List (List β)
  | [], levels => levels
  | levels, [] => levels
  | level :: levels, other :: others => (level ++ other) :: joinLevels levels others

mutual

/-- The subtrees by distance from the root. -/
def levels : Tree α → List (List (Tree α))
  | node label children => [node label children] :: levelsAll children

/-- The subtrees of a list of trees by distance from their roots. -/
def levelsAll : List (Tree α) → List (List (Tree α))
  | [] => []
  | tree :: trees => joinLevels (levels tree) (levelsAll trees)

end

/-- All subtrees, level by level, each level from left to right. -/
def levelOrder (tree : Tree α) : List (Tree α) := tree.levels.flatten

end Tree

/-! ## Traversals with a context

What a node means often depends on what stands above it. A context is handed
down from the root: `down` turns the context of a node into the context of its
children. -/

/-- The position of a node as the child numbers on the way from the root. -/
abbrev Address := List Nat

/-- A subtree with its address and the context that was handed down to it. -/
structure Visit (α γ : Type) where
  tree : Tree α
  address : Address
  context : γ

namespace Tree

variable {α γ : Type}

mutual

/-- All subtrees with their contexts, each before what stands below it. -/
def visits (down : γ → Address → Tree α → γ) (context : γ) (address : Address) :
    Tree α → List (Visit α γ)
  | node label children =>
    ⟨node label children, address, context⟩
      :: visitsAll down (down context address (node label children)) address 0 children

/-- The subtrees of the children from number `index` on. -/
def visitsAll (down : γ → Address → Tree α → γ) (context : γ) (address : Address) (index : Nat) :
    List (Tree α) → List (Visit α γ)
  | [] => []
  | tree :: trees =>
    visits down context (address ++ [index]) tree
      ++ visitsAll down context address (index + 1) trees

end

mutual

/-- All subtrees with their contexts, each after what stands below it. -/
def lateVisits (down : γ → Address → Tree α → γ) (context : γ) (address : Address) :
    Tree α → List (Visit α γ)
  | node label children =>
    lateVisitsAll down (down context address (node label children)) address 0 children
      ++ [⟨node label children, address, context⟩]

/-- The subtrees of the children from number `index` on. -/
def lateVisitsAll (down : γ → Address → Tree α → γ) (context : γ) (address : Address)
    (index : Nat) : List (Tree α) → List (Visit α γ)
  | [] => []
  | tree :: trees =>
    lateVisits down context (address ++ [index]) tree
      ++ lateVisitsAll down context address (index + 1) trees

end

/-- All subtrees with the trees around each, the nearest first, in the order of
`preorder`. -/
def withAncestors (tree : Tree α) : List (Visit α (List (Tree α))) :=
  tree.visits (fun around _ parent => parent :: around) [] []

end Tree

/-! ## Enter and exit events -/

/-- Whether a traversal reaches a node or leaves it. -/
inductive Phase where
  | enter | exit
deriving DecidableEq, Repr

/-- A traversal reaches or leaves a node: the subtree there, the one right above
it, and the address. -/
structure Event (α : Type) where
  phase : Phase
  tree : Tree α
  parent : Option (Tree α)
  address : Address

namespace Tree

variable {α : Type}

mutual

/-- The events of a traversal: reaching the root, the events of the children in
order, and leaving the root. -/
def events (parent : Option (Tree α)) (address : Address) : Tree α → List (Event α)
  | node label children =>
    ⟨.enter, node label children, parent, address⟩
      :: eventsAll (node label children) address 0 children
      ++ [⟨.exit, node label children, parent, address⟩]

/-- The events of the children from number `index` on. -/
def eventsAll (parent : Tree α) (address : Address) (index : Nat) :
    List (Tree α) → List (Event α)
  | [] => []
  | tree :: trees =>
    events (some parent) (address ++ [index]) tree
      ++ eventsAll parent address (index + 1) trees

end

end Tree

/-! ## The traversal with an explicit stack -/

namespace Walk

variable {α : Type}

/-- A node that has been reached and not left: the children still to visit, and
the number of the next one. -/
structure Frame (α : Type) where
  tree : Tree α
  parent : Option (Tree α)
  address : Address
  next : Nat
  pending : List (Tree α)

/-- The frame of a node just reached. -/
def Frame.ofTree (tree : Tree α) (parent : Option (Tree α)) (address : Address) : Frame α :=
  ⟨tree, parent, address, 0, tree.children⟩

/-- The number of events a frame still has to give, itself and what is pending
below it. -/
def Frame.work (frame : Frame α) : Nat := 2 * Tree.sizeAll frame.pending + 1

/-- The number of events a stack still has to give. -/
def work : List (Frame α) → Nat
  | [] => 0
  | frame :: frames => frame.work + work frames

theorem work_ofTree_lt (tree : Tree α) (parent : Option (Tree α)) (address : Address) :
    (Frame.ofTree tree parent address).work < 2 * tree.size := by
  cases tree with
  | node label children =>
    simp only [Frame.ofTree, Frame.work, Tree.children, Tree.size]
    omega

/-- The events of a stack of open nodes: the next pending child of the innermost
one is reached, or, when none is left, that node is left. -/
def run : List (Frame α) → List (Event α)
  | [] => []
  | ⟨tree, parent, address, next, pending⟩ :: frames =>
    match pending with
    | [] => ⟨.exit, tree, parent, address⟩ :: run frames
    | child :: siblings =>
      ⟨.enter, child, some tree, address ++ [next]⟩
        :: run (Frame.ofTree child (some tree) (address ++ [next])
          :: ⟨tree, parent, address, next + 1, siblings⟩ :: frames)
termination_by frames => work frames
decreasing_by
  · simp only [work, Frame.work, Tree.sizeAll]
    omega
  · have bound := work_ofTree_lt child (some tree) (address ++ [next])
    simp only [work, Frame.work, Tree.sizeAll] at bound ⊢
    omega

end Walk

/-- The events of a traversal of a tree. -/
def Tree.walk {α : Type} (tree : Tree α) : List (Event α) :=
  ⟨.enter, tree, none, []⟩ :: Walk.run [Walk.Frame.ofTree tree none []]

end DesignLint
