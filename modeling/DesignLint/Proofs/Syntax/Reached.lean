import DesignLint.Proofs.Syntax.Grammar
import DesignLint.Proofs.Syntax.Place
import DesignLint.Proofs.Syntax.Relabel

/-!
# What traversals reach

Every traversal of a tree lists subtrees of the tree. What holds of a tree and goes down from
trees to their children holds of all subtrees.
-/

namespace DesignLint

namespace Tree

variable {α γ : Type} {tree inner deeper child : Tree α}

/-! ## Subtrees -/

theorem mem_preorderAll_iff {trees : List (Tree α)} :
    inner ∈ preorderAll trees ↔ ∃ tree ∈ trees, inner ∈ tree.preorder := by
  induction trees with
  | nil => simp [preorderAll]
  | cons tree trees inductionHypothesis => simp [preorderAll, inductionHypothesis]

theorem mem_preorder_iff :
    inner ∈ tree.preorder ↔ inner = tree ∨ ∃ child ∈ tree.children, inner ∈ child.preorder := by
  cases tree with
  | node label children => rw [preorder, List.mem_cons, mem_preorderAll_iff, Tree.children]

theorem self_mem_preorder (tree : Tree α) : tree ∈ tree.preorder :=
  mem_preorder_iff.mpr (.inl rfl)

/-- What holds of a tree and goes down to children holds of all subtrees. -/
theorem forall_mem_preorder {motive : Tree α → Prop}
    (down : ∀ tree, motive tree → ∀ child ∈ tree.children, motive child) (root : motive tree) :
    ∀ inner ∈ tree.preorder, motive inner := by
  induction tree using Tree.inductionOnChildren with
  | node label children inductionHypothesis =>
      intro inner listed
      rcases mem_preorder_iff.mp listed with rfl | ⟨child, member, below⟩
      · exact root
      · exact inductionHypothesis child member (down _ root child member) inner below

theorem mem_preorder_of_mem_children (listed : inner ∈ tree.preorder)
    (member : child ∈ inner.children) : child ∈ tree.preorder := by
  induction tree using Tree.inductionOnChildren with
  | node label children inductionHypothesis =>
      rw [mem_preorder_iff] at listed ⊢
      rcases listed with rfl | ⟨part, partMember, below⟩
      · exact .inr ⟨child, member, child.self_mem_preorder⟩
      · exact .inr ⟨part, partMember, inductionHypothesis part partMember below⟩

theorem mem_preorder_trans (listed : inner ∈ tree.preorder) (below : deeper ∈ inner.preorder) :
    deeper ∈ tree.preorder :=
  forall_mem_preorder (motive := (· ∈ tree.preorder))
    (fun _ reached _ member => mem_preorder_of_mem_children reached member) listed deeper below

/-! ## Traversals -/

mutual

theorem map_tree_visits (down : γ → Address → Tree α → γ) :
    ∀ (tree : Tree α) (context : γ) (address : Address),
      (tree.visits down context address).map Visit.tree = tree.preorder
  | node label children, context, address => by
    rw [visits, List.map_cons, map_tree_visitsAll down children, preorder]

theorem map_tree_visitsAll (down : γ → Address → Tree α → γ) :
    ∀ (trees : List (Tree α)) (context : γ) (address : Address) (index : Nat),
      (visitsAll down context address index trees).map Visit.tree = preorderAll trees
  | [], _, _, _ => rfl
  | tree :: trees, context, address, index => by
    rw [visitsAll, List.map_append, map_tree_visits down tree, map_tree_visitsAll down trees,
      preorderAll]

end

theorem mem_preorder_of_mem_visits {down : γ → Address → Tree α → γ} {context : γ}
    {address : Address} {visit : Visit α γ} (listed : visit ∈ tree.visits down context address) :
    visit.tree ∈ tree.preorder :=
  map_tree_visits down tree context address ▸ List.mem_map_of_mem listed

theorem mem_flatten_joinLevels {β : Type} {item : β} {levels others : List (List β)} :
    item ∈ (joinLevels levels others).flatten ↔ item ∈ levels.flatten ∨ item ∈ others.flatten := by
  induction levels generalizing others with
  | nil => simp [joinLevels]
  | cons level levels inductionHypothesis =>
      cases others with
      | nil => simp [joinLevels]
      | cons other others =>
          simp only [joinLevels, List.flatten_cons, List.mem_append, inductionHypothesis]
          exact or_or_or_comm

theorem mem_flatten_levelsAll {trees : List (Tree α)} :
    inner ∈ (levelsAll trees).flatten ↔ ∃ tree ∈ trees, inner ∈ tree.levelOrder := by
  induction trees with
  | nil => simp [levelsAll]
  | cons tree trees inductionHypothesis =>
      rw [levelsAll, mem_flatten_joinLevels, inductionHypothesis, List.exists_mem_cons_iff,
        levelOrder]

theorem mem_levelOrder_iff : inner ∈ tree.levelOrder ↔ inner ∈ tree.preorder := by
  induction tree using Tree.inductionOnChildren with
  | node label children inductionHypothesis =>
      rw [levelOrder, levels, List.flatten_cons, List.mem_append, List.mem_singleton,
        mem_flatten_levelsAll, mem_preorder_iff]
      exact or_congr_right (exists_congr fun child =>
        and_congr_right fun member => inductionHypothesis child member)

theorem mem_preorderRightAll_iff {stops : α → Bool} {trees : List (Tree α)} :
    inner ∈ preorderRightAll stops trees ↔ ∃ tree ∈ trees, inner ∈ tree.preorderRight stops := by
  induction trees with
  | nil => simp [preorderRightAll]
  | cons tree trees inductionHypothesis =>
      simp [preorderRightAll, inductionHypothesis, or_comm]

theorem mem_preorder_of_mem_preorderRight {stops : α → Bool}
    (listed : inner ∈ tree.preorderRight stops) : inner ∈ tree.preorder := by
  induction tree using Tree.inductionOnChildren with
  | node label children inductionHypothesis =>
      rw [preorderRight] at listed
      split at listed
      · simp at listed
      · rw [List.mem_cons, mem_preorderRightAll_iff] at listed
        exact mem_preorder_iff.mpr (listed.imp_right fun ⟨child, member, below⟩ =>
          ⟨child, member, inductionHypothesis child member below⟩)

/-! ## Places -/

/-- A place and what stands around it are subtrees. -/
theorem HasPlace.mem_preorder {place : Place α} (has : tree.HasPlace place) :
    place.tree ∈ tree.preorder ∧ ∀ outer ∈ place.context, outer ∈ tree.preorder := by
  induction has with
  | whole => exact ⟨tree.self_mem_preorder, by simp [Visit.whole]⟩
  | child _ found inductionHypothesis =>
      obtain ⟨reached, around⟩ := inductionHypothesis
      refine ⟨mem_preorder_of_mem_children reached (List.mem_of_getElem? found), ?_⟩
      exact List.forall_mem_cons.mpr ⟨reached, around⟩

end Tree

namespace Syntax

/-- The subtrees of a tree that stands for syntax stand for syntax. -/
theorem StandsForSyntax.of_mem_preorder {tree inner : SyntaxTree} (stands : StandsForSyntax tree)
    (listed : inner ∈ tree.preorder) : StandsForSyntax inner :=
  Tree.forall_mem_preorder
    (fun _ outer child member => (outer.isPart_of_mem_children child member).1) stands inner listed

/-- The tree of a construct in a role. -/
def Node.tree (role : Role) : Node → SyntaxTree
  | .module m => m.tree
  | .stmt s => s.tree role
  | .expr e => e.tree role
  | .pattern p => p.tree
  | .parameters p => p.tree
  | .parameter p => p.tree
  | .keyword k => k.tree
  | .comprehension c => c.tree
  | .importAlias a => a.tree
  | .withItem i => i.tree
  | .matchCase c => c.tree
  | .handler h => h.tree
  | .token t => t.tree role

/-- A tree that stands for syntax is that of the construct at its root. -/
theorem StandsForSyntax.eq_tree {tree : SyntaxTree} (stands : StandsForSyntax tree) :
    tree = tree.label.node.tree tree.label.role := by
  cases stands with
  | module module => rfl
  | stmt role stmt => rw [Stmt.label_tree, Node.tree]
  | expr role expr => rw [Expr.label_tree, Node.tree]
  | pattern pattern => rw [Pattern.label_tree, Node.tree]
  | parameters parameters =>
      cases parameters
      rfl
  | parameter parameter =>
      cases parameter
      rfl
  | keyword keyword =>
      cases keyword
      rfl
  | comprehension clause =>
      cases clause
      rfl
  | importAlias item => rfl
  | withItem item => rfl
  | matchCase matchCase =>
      cases matchCase
      rfl
  | handler handler =>
      cases handler
      rfl
  | token role token => rfl

end Syntax

end DesignLint
