import DesignLint.Cohesion.Block
import DesignLint.Number.Basic

/-!
# The overlap graph of a unit

Two blocks are compared by the share of names that both use among the names
that either uses, as a percentage. Blocks whose score reaches the threshold are
connected; methods are also connected when one uses the other's name. Scores
are rational numbers passed through a rounding: the one of doubles when the
analysis runs, none where exact arithmetic is the subject.
-/

namespace DesignLint.Cohesion

/-! ## Arithmetic of scores -/

/-- How the results of arithmetic on scores are rounded. -/
abbrev Rounding := Rat → Rat

namespace Rounding

/-- No rounding. -/
def exact : Rounding := fun value => value

/-- Rounding to the nearest double. -/
def binary64 : Rounding := fun value => (Binary64.nearest value).value?.getD 0

/-- A rational rounded to one decimal place, ties to even. -/
def toTenths (value : Rat) : Rat := Rat.ofInt (roundHalfEven (value * 10)) / 10

end Rounding

/-- The score of two sets of names: the size of the intersection as a percentage
of the size of the union, and 100 when either is empty. -/
def sharedPercentage (rounding : Rounding) (a b : NameSet) : Rat :=
  if a.isEmpty || b.isEmpty then 100
  else rounding (mkRat ((a.inter b).length * 100) (a.union b).length)

/-- Whether one of two blocks uses the name of the other as a member. -/
def usesOther (a b : Block) : Bool :=
  b.members.contains a.name || a.members.contains b.name

/-! ## Connection -/

/-- How the blocks of a unit are compared. -/
structure OverlapRule where
  rounding : Rounding := Rounding.binary64
  threshold : Number
  callEdges : Bool

namespace OverlapRule

/-- The score of two blocks. -/
def score (rule : OverlapRule) (a b : Block) : Rat :=
  sharedPercentage rule.rounding a.comparedNames b.comparedNames

/-- Whether a score reaches the threshold. -/
def reaches (rule : OverlapRule) (score : Rat) : Bool :=
  rule.threshold.le (.float (.finite score))

/-- Whether two blocks are connected. -/
def connects (rule : OverlapRule) (a b : Block) : Bool :=
  rule.reaches (rule.score a b) || (rule.callEdges && usesOther a b)

end OverlapRule

/-! ## The graph -/

/-- The comparison of all pairs of blocks: the neighbours of each block, the
number of pairs and of connected ones, and the sum of the scores. -/
structure BlockGraph where
  adjacency : List (List Nat)
  pairCount : Nat
  scoreTotal : Rat
  edgeCount : Nat
deriving DecidableEq, Repr

namespace BlockGraph

/-- The graph of so many blocks before any two of them are compared. -/
def unconnected (size : Nat) : BlockGraph := ⟨List.replicate size [], 0, 0, 0⟩

/-- The number of blocks. -/
def size (graph : BlockGraph) : Nat := graph.adjacency.length

/-- The numbers next to a node, in the order in which they were connected to it. -/
def neighboursOf (graph : BlockGraph) (node : Nat) : List Nat := graph.adjacency.getD node []

/-- Two nodes become neighbours of each other. -/
def addEdge (graph : BlockGraph) (i j : Nat) : BlockGraph :=
  { graph with
    adjacency := (graph.adjacency.modify i (· ++ [j])).modify j (· ++ [i])
    edgeCount := graph.edgeCount + 1 }

/-- The comparison of two numbered blocks: their score is counted, and they are
connected if they have to be. -/
def comparePair (rule : OverlapRule) (graph : BlockGraph) (first second : Block × Nat) :
    BlockGraph :=
  let counted := { graph with
    pairCount := graph.pairCount + 1
    scoreTotal := rule.rounding (graph.scoreTotal + rule.score first.1 second.1) }
  if rule.connects first.1 second.1 then counted.addEdge first.2 second.2 else counted

/-- The comparison of each block with every block behind it, one after the other. -/
def compareAll (rule : OverlapRule) (graph : BlockGraph) : List (Block × Nat) → BlockGraph
  | [] => graph
  | first :: later => (later.foldl (comparePair rule · first ·) graph).compareAll rule later

/-- The mean score of all pairs with one decimal place; zero without pairs. -/
def meanScore (graph : BlockGraph) (rounding : Rounding) : Rat :=
  if graph.pairCount = 0 then 0
  else Rounding.toTenths (rounding (graph.scoreTotal / Rat.ofInt graph.pairCount))

end BlockGraph

/-- The overlap graph of a list of blocks. -/
def blockGraph (rule : OverlapRule) (blocks : List Block) : BlockGraph :=
  (BlockGraph.unconnected blocks.length).compareAll rule blocks.zipIdx

end DesignLint.Cohesion
