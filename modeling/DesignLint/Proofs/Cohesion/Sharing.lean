import DesignLint.Cohesion.Component
import DesignLint.Proofs.Cohesion.NameSet
import Mathlib.Data.Finset.Card
import Mathlib.Data.Rat.Defs

/-!
# Sharing between sets of names

The score of two blocks in terms of finite sets, and the relation between the
blocks of a unit that the overlap graph represents.
-/

namespace DesignLint.Cohesion

/-! ## Scores -/

/-- The share of common elements of two finite sets, as a percentage; 100 when either is
empty. -/
def overlapScore (rounding : Rounding) (a b : Finset String) : Rat :=
  if a = ∅ ∨ b = ∅ then 100 else rounding (100 * (a ∩ b).card / (a ∪ b).card)

theorem overlapScore_comm (rounding : Rounding) (a b : Finset String) :
    overlapScore rounding a b = overlapScore rounding b a := by
  simp only [overlapScore, Finset.inter_comm, Finset.union_comm, or_comm]

/-- The score of two lists without repetitions is the score of the sets they list. -/
theorem sharedPercentage_eq_overlapScore (rounding : Rounding) {a b : NameSet}
    (aDistinct : a.Nodup) :
    sharedPercentage rounding a b = overlapScore rounding a.toFinset b.toFinset := by
  have common : (a.inter b).length = (a.toFinset ∩ b.toFinset).card := by
    rw [← List.toFinset_card_of_nodup (NameSet.nodup_inter aDistinct)]
    congr 1
    ext name
    simp
  have either : (a.union b).length = (a.toFinset ∪ b.toFinset).card := by
    rw [← List.toFinset_card_of_nodup (NameSet.nodup_union aDistinct)]
    congr 1
    ext name
    simp
  simp only [sharedPercentage, overlapScore, Bool.or_eq_true, List.isEmpty_iff,
    List.toFinset_eq_empty_iff, common, either, Rat.mkRat_eq_div]
  split
  · rfl
  · congr 1
    push_cast
    rw [Rat.mul_comm]

/-! ## Links between blocks -/

/-- The names of a block are sets: each is listed once. -/
def Block.HasNameSets (block : Block) : Prop :=
  block.reads.Nodup ∧ block.writes.Nodup ∧ block.members.Nodup

instance (block : Block) : Decidable block.HasNameSets :=
  inferInstanceAs (Decidable (_ ∧ _ ∧ _))

theorem nodup_comparedNames {block : Block} (sets : block.HasNameSets) :
    block.comparedNames.Nodup := by
  unfold Block.comparedNames
  split
  · exact sets.2.2
  · exact NameSet.nodup_union sets.1

/-- The set of names by which a block is compared. -/
def Block.signal (block : Block) : Finset String := block.comparedNames.toFinset

@[simp]
theorem Block.mem_signal {block : Block} {name : String} :
    name ∈ block.signal ↔ name ∈ block.comparedNames := by
  simp [Block.signal]

/-- Two blocks of a list are linked if their score reaches the threshold or, where calls count, one
of them uses the name of the other as a member. -/
def Linked (rule : OverlapRule) (blocks : List Block) (i j : Nat) : Prop :=
  ∃ a b, blocks[i]? = some a ∧ blocks[j]? = some b ∧
    (rule.reaches (overlapScore rule.rounding a.signal b.signal) = true ∨
      rule.callEdges = true ∧ (a.name ∈ b.members ∨ b.name ∈ a.members))

theorem Linked.symm {rule : OverlapRule} {blocks : List Block} {i j : Nat}
    (linked : Linked rule blocks i j) : Linked rule blocks j i := by
  obtain ⟨a, b, first, second, reaches | ⟨calls, uses⟩⟩ := linked
  · exact ⟨b, a, second, first, .inl (overlapScore_comm .. ▸ reaches)⟩
  · exact ⟨b, a, second, first, .inr ⟨calls, uses.symm⟩⟩

theorem connects_iff {rule : OverlapRule} {a b : Block} (sets : a.HasNameSets) :
    rule.connects a b = true ↔
      rule.reaches (overlapScore rule.rounding a.signal b.signal) = true ∨
        rule.callEdges = true ∧ (a.name ∈ b.members ∨ b.name ∈ a.members) := by
  simp [OverlapRule.connects, OverlapRule.score, usesOther, Block.signal,
    sharedPercentage_eq_overlapScore rule.rounding (nodup_comparedNames sets)]

/-! ## Pairs -/

/-- The pairs of elements of a list, in order of the first and then of the second. -/
def pairsOf {α : Type} : List α → List (α × α)
  | [] => []
  | item :: items => items.map (item, ·) ++ pairsOf items

theorem map_pairsOf {α β : Type} (f : α → β) (items : List α) :
    pairsOf (items.map f) = (pairsOf items).map (Prod.map f f) := by
  induction items with
  | nil => rfl
  | cons item items inductionHypothesis =>
      simp [pairsOf, inductionHypothesis, Function.comp_def]

/-- A pair of a list stands at two places, the first before the second. -/
theorem mem_pairsOf_zipIdx {α : Type} {items : List α} {first second : α × Nat} :
    (first, second) ∈ pairsOf items.zipIdx ↔
      first.2 < second.2 ∧ items[first.2]? = some first.1 ∧ items[second.2]? = some second.1 := by
  suffices general : ∀ start, (first, second) ∈ pairsOf (items.zipIdx start) ↔
      first ∈ items.zipIdx start ∧ second ∈ items.zipIdx start ∧ first.2 < second.2 by
    rw [general 0, List.mem_zipIdx_iff_getElem?, List.mem_zipIdx_iff_getElem?]
    tauto
  induction items with
  | nil => simp [pairsOf]
  | cons item items inductionHypothesis =>
      intro start
      have later {entry : α × Nat} (listed : entry ∈ items.zipIdx (start + 1)) : start < entry.2 :=
        List.le_snd_of_mem_zipIdx listed
      simp only [List.zipIdx_cons, pairsOf, List.mem_append, List.mem_map, Prod.mk.injEq,
        List.mem_cons, inductionHypothesis]
      constructor
      · rintro (⟨entry, listed, rfl, rfl⟩ | ⟨firstListed, secondListed, less⟩)
        · exact ⟨.inl rfl, .inr listed, later listed⟩
        · exact ⟨.inr firstListed, .inr secondListed, less⟩
      · rintro ⟨rfl | firstListed, rfl | secondListed, less⟩
        · exact absurd less (Nat.lt_irrefl _)
        · exact .inl ⟨second, secondListed, rfl, rfl⟩
        · exact absurd (later firstListed) (Nat.lt_asymm less)
        · exact .inr ⟨firstListed, secondListed, less⟩

namespace BlockGraph

variable {rule : OverlapRule} {graph : BlockGraph} {i j : Nat}

/-! ## Edges -/

/-- Edges lead to nodes of the graph, in both directions. -/
structure Undirected (graph : BlockGraph) : Prop where
  inside : ∀ i j, j ∈ graph.neighboursOf i → j < graph.size
  symm : ∀ i j, j ∈ graph.neighboursOf i → i ∈ graph.neighboursOf j

@[simp]
theorem size_addEdge : (graph.addEdge i j).size = graph.size := by
  simp [addEdge, size]

/-- An edge makes its two ends neighbours of each other and nothing else. -/
theorem mem_neighboursOf_addEdge (first : i < graph.size) (second : j < graph.size)
    {node other : Nat} :
    other ∈ (graph.addEdge i j).neighboursOf node ↔
      other ∈ graph.neighboursOf node ∨ node = i ∧ other = j ∨ node = j ∧ other = i := by
  unfold size at first second
  simp only [addEdge, neighboursOf, List.getD_eq_getElem?_getD, List.getElem?_modify]
  by_cases bound : node < graph.adjacency.length
  · rw [List.getElem?_eq_getElem bound]
    by_cases atFirst : i = node <;> by_cases atSecond : j = node <;>
      simp [atFirst, atSecond, eq_comm (a := node), or_comm]
  · rw [List.getElem?_eq_none (Nat.le_of_not_lt bound)]
    have notFirst : node ≠ i := fun same => bound (same ▸ first)
    have notSecond : node ≠ j := fun same => bound (same ▸ second)
    simp [notFirst, notSecond]

/-- Adding an edge keeps all edges undirected. -/
theorem Undirected.addEdge (undirected : graph.Undirected) (first : i < graph.size)
    (second : j < graph.size) : (graph.addEdge i j).Undirected where
  inside node other next := by
    rw [size_addEdge]
    rcases (mem_neighboursOf_addEdge first second).mp next with before | ⟨-, rfl⟩ | ⟨-, rfl⟩
    · exact undirected.inside node other before
    · exact second
    · exact first
  symm node other next := by
    rw [mem_neighboursOf_addEdge first second] at next ⊢
    rcases next with before | ⟨rfl, rfl⟩ | ⟨rfl, rfl⟩
    · exact .inl (undirected.symm node other before)
    · exact .inr (.inr ⟨rfl, rfl⟩)
    · exact .inr (.inl ⟨rfl, rfl⟩)

@[simp]
theorem neighboursOf_unconnected (size node : Nat) : (unconnected size).neighboursOf node = [] := by
  rw [neighboursOf, unconnected, List.getD_eq_getElem?_getD, List.getElem?_replicate]
  split <;> rfl

theorem undirected_unconnected (size : Nat) : (unconnected size).Undirected where
  inside i j next := by simp at next
  symm i j next := by simp at next

/-! ## One comparison -/

section Comparison

variable {first second : Block × Nat}

@[simp]
theorem pairCount_comparePair :
    (graph.comparePair rule first second).pairCount = graph.pairCount + 1 := by
  unfold comparePair
  split <;> rfl

@[simp]
theorem scoreTotal_comparePair : (graph.comparePair rule first second).scoreTotal =
    rule.rounding (graph.scoreTotal + rule.score first.1 second.1) := by
  unfold comparePair
  split <;> rfl

@[simp]
theorem size_comparePair : (graph.comparePair rule first second).size = graph.size := by
  unfold comparePair
  split
  · exact size_addEdge
  · rfl

/-- A comparison makes two blocks neighbours of each other if they have to be connected. -/
theorem mem_neighboursOf_comparePair (firstBound : first.2 < graph.size)
    (secondBound : second.2 < graph.size) {node other : Nat} :
    other ∈ (graph.comparePair rule first second).neighboursOf node ↔
      other ∈ graph.neighboursOf node ∨ rule.connects first.1 second.1 = true ∧
        (node = first.2 ∧ other = second.2 ∨ node = second.2 ∧ other = first.2) := by
  unfold comparePair
  split
  · rename_i connected
    exact (mem_neighboursOf_addEdge firstBound secondBound).trans
      (by simp [connected, neighboursOf])
  · rename_i apart
    simp only [apart, false_and, or_false, Bool.false_eq_true]
    rfl

theorem Undirected.comparePair (undirected : graph.Undirected) (firstBound : first.2 < graph.size)
    (secondBound : second.2 < graph.size) : (graph.comparePair rule first second).Undirected := by
  unfold BlockGraph.comparePair
  have counted : Undirected { graph with
      pairCount := graph.pairCount + 1
      scoreTotal := rule.rounding (graph.scoreTotal + rule.score first.1 second.1) } :=
    ⟨undirected.inside, undirected.symm⟩
  split
  · exact counted.addEdge firstBound secondBound
  · exact counted

end Comparison

/-! ## All comparisons -/

/-- The nested loop compares the pairs one after the other. -/
theorem compareAll_eq_foldl (numbered : List (Block × Nat)) :
    graph.compareAll rule numbered =
      (pairsOf numbered).foldl (fun graph pair => graph.comparePair rule pair.1 pair.2) graph := by
  induction numbered generalizing graph with
  | nil => rfl
  | cons first later inductionHypothesis =>
      rw [compareAll, inductionHypothesis, pairsOf, List.foldl_append, List.foldl_map]

section Pairs

variable {pairs : List ((Block × Nat) × (Block × Nat))}

theorem size_foldl_comparePair :
    (pairs.foldl (fun graph pair => graph.comparePair rule pair.1 pair.2) graph).size =
      graph.size := by
  induction pairs generalizing graph with
  | nil => rfl
  | cons pair pairs inductionHypothesis =>
      rw [List.foldl_cons, inductionHypothesis, size_comparePair]

theorem pairCount_foldl_comparePair :
    (pairs.foldl (fun graph pair => graph.comparePair rule pair.1 pair.2) graph).pairCount =
      graph.pairCount + pairs.length := by
  induction pairs generalizing graph with
  | nil => rfl
  | cons pair pairs inductionHypothesis =>
      rw [List.foldl_cons, inductionHypothesis, pairCount_comparePair, List.length_cons]
      omega

theorem scoreTotal_foldl_comparePair :
    (pairs.foldl (fun graph pair => graph.comparePair rule pair.1 pair.2) graph).scoreTotal =
      pairs.foldl (fun total pair => rule.rounding (total + rule.score pair.1.1 pair.2.1))
        graph.scoreTotal := by
  induction pairs generalizing graph with
  | nil => rfl
  | cons pair pairs inductionHypothesis =>
      rw [List.foldl_cons, inductionHypothesis, scoreTotal_comparePair, List.foldl_cons]

variable (bounded : ∀ pair ∈ pairs, pair.1.2 < graph.size ∧ pair.2.2 < graph.size)

include bounded

/-- After all comparisons those are neighbours that were before or that some comparison
connected. -/
theorem mem_neighboursOf_foldl_comparePair {node other : Nat} :
    other ∈ (pairs.foldl (fun graph pair => graph.comparePair rule pair.1 pair.2)
        graph).neighboursOf node ↔
      other ∈ graph.neighboursOf node ∨ ∃ pair ∈ pairs,
        rule.connects pair.1.1 pair.2.1 = true ∧
          (node = pair.1.2 ∧ other = pair.2.2 ∨ node = pair.2.2 ∧ other = pair.1.2) := by
  induction pairs generalizing graph with
  | nil => simp
  | cons pair pairs inductionHypothesis =>
      obtain ⟨first, second⟩ := bounded pair List.mem_cons_self
      rw [List.foldl_cons, inductionHypothesis fun other listed => by
          simpa using bounded other (List.mem_cons_of_mem _ listed),
        mem_neighboursOf_comparePair first second]
      simp only [List.mem_cons, exists_eq_or_imp, or_assoc]

/-- All comparisons keep all edges undirected. -/
theorem Undirected.foldl_comparePair (undirected : graph.Undirected) :
    (pairs.foldl (fun graph pair => graph.comparePair rule pair.1 pair.2) graph).Undirected := by
  induction pairs generalizing graph with
  | nil => exact undirected
  | cons pair pairs inductionHypothesis =>
      obtain ⟨first, second⟩ := bounded pair List.mem_cons_self
      exact inductionHypothesis
        (fun other listed => by simpa using bounded other (List.mem_cons_of_mem _ listed))
        (undirected.comparePair first second)

end Pairs

end BlockGraph

/-! ## The overlap graph -/

section Graph

variable {rule : OverlapRule} {blocks : List Block} {i j : Nat}

theorem blockGraph_eq_foldl : blockGraph rule blocks =
    (pairsOf blocks.zipIdx).foldl (fun graph pair => graph.comparePair rule pair.1 pair.2)
      (BlockGraph.unconnected blocks.length) :=
  BlockGraph.compareAll_eq_foldl _

theorem pairsOf_eq_map : pairsOf blocks = (pairsOf blocks.zipIdx).map (Prod.map (·.1) (·.1)) := by
  rw [← map_pairsOf, List.zipIdx_map_fst]

theorem size_blockGraph : (blockGraph rule blocks).size = blocks.length := by
  rw [blockGraph_eq_foldl, BlockGraph.size_foldl_comparePair]
  exact List.length_replicate

theorem pairCount_blockGraph : (blockGraph rule blocks).pairCount = (pairsOf blocks).length := by
  rw [blockGraph_eq_foldl, BlockGraph.pairCount_foldl_comparePair, pairsOf_eq_map, List.length_map]
  exact Nat.zero_add _

theorem scoreTotal_blockGraph : (blockGraph rule blocks).scoreTotal =
    (pairsOf blocks).foldl (fun total (a, b) => rule.rounding (total + rule.score a b)) 0 := by
  rw [blockGraph_eq_foldl, BlockGraph.scoreTotal_foldl_comparePair, pairsOf_eq_map, List.foldl_map]
  rfl

theorem bounded_pairsOf_zipIdx : ∀ pair ∈ pairsOf blocks.zipIdx,
    pair.1.2 < (BlockGraph.unconnected blocks.length).size ∧
      pair.2.2 < (BlockGraph.unconnected blocks.length).size := by
  rintro ⟨first, second⟩ listed
  obtain ⟨-, firstFound, secondFound⟩ := mem_pairsOf_zipIdx.mp listed
  rw [BlockGraph.size, BlockGraph.unconnected, List.length_replicate]
  exact ⟨(List.getElem?_eq_some_iff.mp firstFound).1, (List.getElem?_eq_some_iff.mp secondFound).1⟩

/-- The overlap graph is undirected, since it is built by adding edges. -/
theorem undirected_blockGraph : (blockGraph rule blocks).Undirected := by
  rw [blockGraph_eq_foldl]
  exact BlockGraph.Undirected.foldl_comparePair bounded_pairsOf_zipIdx
    (BlockGraph.undirected_unconnected _)

theorem linked_iff_connects (sets : ∀ block ∈ blocks, block.HasNameSets) :
    Linked rule blocks i j ↔
      ∃ a b, blocks[i]? = some a ∧ blocks[j]? = some b ∧ rule.connects a b = true := by
  unfold Linked
  refine exists_congr fun a => exists_congr fun b => and_congr_right fun first => ?_
  rw [connects_iff (sets a (List.mem_of_getElem? first))]

/-- The neighbours of a block are the other blocks linked to it. -/
theorem mem_neighboursOf_blockGraph (sets : ∀ block ∈ blocks, block.HasNameSets) :
    j ∈ (blockGraph rule blocks).neighboursOf i ↔ i ≠ j ∧ Linked rule blocks i j := by
  rw [blockGraph_eq_foldl, BlockGraph.mem_neighboursOf_foldl_comparePair bounded_pairsOf_zipIdx,
    BlockGraph.neighboursOf_unconnected]
  simp only [List.not_mem_nil, false_or]
  constructor
  · rintro ⟨⟨first, second⟩, listed, connected, ends⟩
    obtain ⟨less, firstFound, secondFound⟩ := mem_pairsOf_zipIdx.mp listed
    have linked : Linked rule blocks first.2 second.2 :=
      (linked_iff_connects sets).mpr ⟨_, _, firstFound, secondFound, connected⟩
    rcases ends with ⟨rfl, rfl⟩ | ⟨rfl, rfl⟩
    · exact ⟨Nat.ne_of_lt less, linked⟩
    · exact ⟨Nat.ne_of_gt less, linked.symm⟩
  · rintro ⟨distinct, linked⟩
    -- the pair was compared once, with the earlier block first
    rcases Nat.lt_or_gt_of_ne distinct with less | less
    · obtain ⟨a, b, first, second, connected⟩ := (linked_iff_connects sets).mp linked
      exact ⟨((a, i), (b, j)), mem_pairsOf_zipIdx.mpr ⟨less, first, second⟩, connected,
        .inl ⟨rfl, rfl⟩⟩
    · obtain ⟨b, a, second, first, connected⟩ := (linked_iff_connects sets).mp linked.symm
      exact ⟨((b, j), (a, i)), mem_pairsOf_zipIdx.mpr ⟨less, second, first⟩, connected,
        .inr ⟨rfl, rfl⟩⟩

end Graph

end DesignLint.Cohesion
