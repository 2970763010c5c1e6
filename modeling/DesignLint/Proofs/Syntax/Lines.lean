import DesignLint.Proofs.Syntax.Reached

/-!
# Trees on the lines of a text

Every construct of a text begins on a line and ends on that line or a later one, and what it is
made of stands on its lines. Only decorators stand above the line on which their definition
begins.
-/

namespace DesignLint.Syntax

mutual

/-- Whether the constructs of a tree stand on lines from a first to a last one, the parts of each
construct on the lines of that construct. Its decorators may stand above it. -/
def standsOn (first last : Nat) : SyntaxTree → Bool
  | .node label children =>
    match label.node.position? with
    | none => allStandOn first first last children
    | some position =>
      decide (first ≤ position.line) && decide (position.line ≤ position.lastLine)
        && decide (position.lastLine ≤ last)
        && allStandOn first position.line position.lastLine children

/-- Whether the trees of some parts stand on lines from a first to a last one, and decorators on
lines from another one on. -/
def allStandOn (decorated first last : Nat) : List SyntaxTree → Bool
  | [] => true
  | tree :: trees =>
    standsOn (if tree.label.role = .decorator then decorated else first) last tree
      && allStandOn decorated first last trees

end

variable {first last decorated : Nat} {tree inner outer part : SyntaxTree}
  {position used : Position}

theorem allStandOn_iff {trees : List SyntaxTree} :
    allStandOn decorated first last trees = true ↔ ∀ tree ∈ trees,
      standsOn (if tree.label.role = .decorator then decorated else first) last tree = true := by
  induction trees with
  | nil => simp [allStandOn]
  | cons tree trees inductionHypothesis => simp [allStandOn, inductionHypothesis]

theorem standsOn_iff_of_none (own : tree.label.node.position? = none) :
    standsOn first last tree = true ↔
      ∀ child ∈ tree.children, standsOn first last child = true := by
  cases tree with
  | node label children =>
      rw [Tree.label] at own
      rw [standsOn, own]
      simp [allStandOn_iff, Tree.children]

theorem standsOn_iff_of_some (own : tree.label.node.position? = some position) :
    standsOn first last tree = true ↔
      first ≤ position.line ∧ position.line ≤ position.lastLine ∧ position.lastLine ≤ last ∧
        ∀ child ∈ tree.children, standsOn
          (if child.label.role = .decorator then first else position.line) position.lastLine
          child = true := by
  cases tree with
  | node label children =>
      rw [Tree.label] at own
      rw [standsOn, own]
      simp [allStandOn_iff, Tree.children, and_assoc]

/-- The subtrees of a tree stand on lines between those of the tree. -/
theorem exists_standsOn_of_mem_preorder (stands : standsOn first last tree = true)
    (listed : inner ∈ tree.preorder) :
    ∃ least greatest, first ≤ least ∧ greatest ≤ last ∧ standsOn least greatest inner = true := by
  refine Tree.forall_mem_preorder (motive := fun inner => ∃ least greatest, first ≤ least ∧
    greatest ≤ last ∧ standsOn least greatest inner = true) ?_
    ⟨first, last, Nat.le_refl _, Nat.le_refl _, stands⟩ inner listed
  rintro outer ⟨least, greatest, after, before, outerStands⟩ child member
  cases own : outer.label.node.position? with
  | none =>
      exact ⟨least, greatest, after, before, (standsOn_iff_of_none own).mp outerStands child member⟩
  | some position =>
      obtain ⟨begins, -, ends, parts⟩ := (standsOn_iff_of_some own).mp outerStands
      refine ⟨_, _, ?_, Nat.le_trans ends before, parts child member⟩
      split
      · exact after
      · exact Nat.le_trans after begins

/-! ## Where constructs stand -/

/-- Whether a construct of a tree stands at a position. -/
def HasPosition (tree : SyntaxTree) (position : Position) : Prop :=
  ∃ inner ∈ tree.preorder, inner.label.node.position? = some position

theorem hasPosition_self (own : tree.label.node.position? = some position) :
    HasPosition tree position :=
  ⟨tree, tree.self_mem_preorder, own⟩

theorem HasPosition.of_mem_preorder (listed : inner ∈ tree.preorder)
    (has : HasPosition inner position) : HasPosition tree position := by
  obtain ⟨deeper, below, own⟩ := has
  exact ⟨deeper, Tree.mem_preorder_trans listed below, own⟩

/-- A construct of a tree ends no sooner than it begins, on lines of the tree. -/
theorem HasPosition.on_lines (has : HasPosition tree position)
    (stands : standsOn first last tree = true) :
    first ≤ position.line ∧ position.line ≤ position.lastLine ∧ position.lastLine ≤ last := by
  obtain ⟨inner, listed, own⟩ := has
  obtain ⟨least, greatest, after, before, innerStands⟩ :=
    exists_standsOn_of_mem_preorder stands listed
  obtain ⟨begins, ordered, ends, -⟩ := (standsOn_iff_of_some own).mp innerStands
  exact ⟨Nat.le_trans after begins, ordered, Nat.le_trans ends before⟩

/-- What stands in a part of a construct other than a decorator begins no sooner than the
construct. -/
theorem line_le_line_of_part (stands : standsOn first last tree = true)
    (listed : outer ∈ tree.preorder) (own : outer.label.node.position? = some position)
    (member : part ∈ outer.children) (inside : part.label.role ≠ .decorator)
    (below : HasPosition part used) : position.line ≤ used.line := by
  obtain ⟨least, greatest, -, -, outerStands⟩ := exists_standsOn_of_mem_preorder stands listed
  obtain ⟨-, -, -, parts⟩ := (standsOn_iff_of_some own).mp outerStands
  have partStands := parts part member
  rw [if_neg inside] at partStands
  exact (below.on_lines partStands).1

/-! ## Nested lines -/

/-- Whether all constructs of a tree have lines, in their order, and those of every construct are
among the lines of the constructs around it. -/
structure IsNested (tree : SyntaxTree) : Prop where
  ordered : ∀ position, HasPosition tree position →
    1 ≤ position.line ∧ position.line ≤ position.lastLine
  inside : ∀ outer ∈ tree.preorder, ∀ position used,
    outer.label.node.position? = some position → HasPosition outer used →
      position.line ≤ used.line ∧ used.lastLine ≤ position.lastLine

theorem IsNested.of_mem_preorder (nested : IsNested tree) (listed : inner ∈ tree.preorder) :
    IsNested inner where
  ordered position has := nested.ordered position (has.of_mem_preorder listed)
  inside outer below := nested.inside outer (Tree.mem_preorder_trans listed below)

/-- Constructs nested between two lines stand on the lines between them, decorators included. -/
theorem IsNested.standsOn (nested : IsNested tree)
    (between : ∀ position, HasPosition tree position →
      first ≤ position.line ∧ position.lastLine ≤ last) :
    standsOn first last tree = true := by
  induction tree using Tree.inductionOnChildren generalizing first last with
  | node label children inductionHypothesis =>
      have reached (child : SyntaxTree) (member : child ∈ children) :
          child ∈ Tree.preorder (.node label children) :=
        Tree.mem_preorder_of_mem_children (Tree.self_mem_preorder _) member
      cases own : (Tree.label (.node label children)).node.position? with
      | none =>
          refine (standsOn_iff_of_none own).mpr fun child member => ?_
          exact inductionHypothesis child member (nested.of_mem_preorder (reached child member))
            fun position has => between position (has.of_mem_preorder (reached child member))
      | some position =>
          have has : HasPosition (.node label children) position := hasPosition_self own
          obtain ⟨begins, ends⟩ := between position has
          refine (standsOn_iff_of_some own).mpr
            ⟨begins, (nested.ordered position has).2, ends, fun child member => ?_⟩
          refine inductionHypothesis child member (nested.of_mem_preorder (reached child member)) ?_
          intro used below
          have here := nested.inside _ (Tree.self_mem_preorder _) position used own
            (below.of_mem_preorder (reached child member))
          refine ⟨?_, here.2⟩
          -- a decorator may begin as early as what stands around the definition
          split
          · exact Nat.le_trans begins here.1
          · exact here.1

end DesignLint.Syntax
