import DesignLint.Cohesion.Overlap

/-!
# Connected groups of blocks

The blocks of a unit fall into the connected components of their overlap graph.
A unit lacks cohesion when there is more than one.
-/

namespace DesignLint.Cohesion

/-! ## Components -/

/-- A connected component: the numbers of its blocks in increasing order. -/
abbrev Component := List Nat

/-- A breadth-first search: which nodes were met so far, those that wait to be
looked at, and those that were looked at. -/
structure Search where
  met : List Bool
  queue : List Nat
  members : List Nat
deriving DecidableEq, Repr

namespace Search

/-- A node is met. Unless that happened before, it has to wait. -/
def meet (search : Search) (node : Nat) : Search :=
  if search.met[node]? = some false then
    { search with met := search.met.set node true, queue := search.queue ++ [node] }
  else search

/-- The nodes that are still to be looked at, whether they wait or were not met yet. -/
def remaining (search : Search) : Nat := search.queue.length + search.met.count false

theorem remaining_meet (search : Search) (node : Nat) :
    (search.meet node).remaining = search.remaining := by
  unfold meet
  split
  · rename_i unmet
    obtain ⟨bound, value⟩ := List.getElem?_eq_some_iff.mp unmet
    have one : 0 < search.met.count false := List.count_pos_iff.mpr (value ▸ List.getElem_mem bound)
    have fewer : (search.met.set node true).count false = search.met.count false - 1 := by
      simp [List.count_set bound, value]
    simp only [remaining, fewer, List.length_append, List.length_singleton]
    omega
  · rfl

theorem remaining_foldl_meet (search : Search) (nodes : List Nat) :
    (nodes.foldl meet search).remaining = search.remaining := by
  induction nodes generalizing search with
  | nil => rfl
  | cons node nodes inductionHypothesis =>
      rw [List.foldl_cons, inductionHypothesis, remaining_meet]

end Search

namespace BlockGraph

/-- The search goes on until no node waits: the first of the queue is looked at,
and its neighbours are met. -/
def search (graph : BlockGraph) : Search → Search
  | ⟨met, [], members⟩ => ⟨met, [], members⟩
  | ⟨met, node :: queue, members⟩ =>
    graph.search ((graph.neighboursOf node).foldl Search.meet ⟨met, queue, members ++ [node]⟩)
termination_by search => search.remaining
decreasing_by
  rw [Search.remaining_foldl_meet]
  simp [Search.remaining]

/-- A node that was not met yet is the start of a new component. -/
def searchFrom (graph : BlockGraph) (found : List Bool × List Component) (start : Nat) :
    List Bool × List Component :=
  if found.1[start]? = some false then
    let search := graph.search ⟨found.1.set start true, [start], []⟩
    (search.met, found.2 ++ [search.members.mergeSort])
  else found

/-- The components, searched for from each node in turn. -/
def components (graph : BlockGraph) : List Component :=
  ((List.range graph.size).foldl graph.searchFrom (List.replicate graph.size false, [])).2

end BlockGraph

/-- Whether a unit with these components lacks cohesion. -/
def fallsApart (components : List Component) : Bool := decide (1 < components.length)

/-! ## Summaries -/

/-- One connected group of blocks inside a reported unit. -/
structure ComponentSummary where
  memberNames : List String
  sharedIdentifiers : List String
  blockTypeTags : List String
  lineRanges : List String
deriving DecidableEq, Repr

/-- The blocks with the given numbers. -/
def blocksAt (blocks : List Block) (component : Component) : List Block :=
  component.filterMap (blocks[·]?)

/-- The summary of one component: names, types and lines of its blocks, and all
names they use. -/
def summarize (blocks : List Block) (component : Component) : ComponentSummary :=
  let members := blocksAt blocks component
  { memberNames := members.map (·.name)
    sharedIdentifiers :=
      (members.foldl (fun names block => NameSet.union names block.comparedNames) []).sorted
    blockTypeTags := members.map (·.type.label)
    lineRanges := members.map (·.lines) }

/-- The group as a line: its members and the names they use. -/
def ComponentSummary.line (detail : ComponentSummary) : String :=
  let names := ", ".intercalate detail.sharedIdentifiers
  "[" ++ ", ".intercalate detail.memberNames ++ "] uses \x7b"
    ++ (if names.isEmpty then "-" else names) ++ "\x7d"

end DesignLint.Cohesion
