import DesignLint.Proofs.Cohesion.Sharing
import DesignLint.Proofs.Cohesion.Traversal
import Mathlib.Logic.Relation
import Mathlib.Data.List.Pairwise
import Mathlib.Data.List.Sort

/-!
# Components of the overlap graph

The components of a graph are the classes of the reflexive and transitive closure
of its edges, listed by their smallest nodes.
-/

namespace DesignLint.Cohesion

open Relation

namespace BlockGraph

variable {graph : BlockGraph}

/-! ## Reaching nodes -/

/-- Whether a node is reached from another one along edges. -/
def Connected (graph : BlockGraph) : Nat → Nat → Prop :=
  ReflTransGen fun i j => j ∈ graph.neighboursOf i

theorem Undirected.connected_symm (undirected : graph.Undirected) {i j : Nat}
    (connected : graph.Connected i j) : graph.Connected j i := by
  induction connected with
  | refl => exact .refl
  | tail _ next inductionHypothesis => exact .head (undirected.symm _ _ next) inductionHypothesis

end BlockGraph

/-! ## One search -/

namespace Search

/-- Whether a node was met. -/
def HasMet (search : Search) (node : Nat) : Prop := search.met[node]? = some true

/-- The nodes that were met during a search: those that were looked at and those that wait. -/
def listed (search : Search) : List Nat := search.members ++ search.queue

variable {graph : BlockGraph} {before : Nat → Prop} {start : Nat} {search : Search}

/-! ### Meeting nodes -/

theorem getElem?_set_true {met : List Bool} {node i : Nat} (bound : node < met.length) :
    (met.set node true)[i]? = some true ↔ met[i]? = some true ∨ i = node := by
  rw [List.getElem?_set]
  by_cases same : node = i
  · subst same
    simp [bound]
  · simp [same, Ne.symm same]

/-- A node that was met is passed over, any other one is marked and waits. -/
theorem meet_cases {node : Nat} (bound : node < search.met.length) :
    search.HasMet node ∧ search.meet node = search ∨
      ¬search.HasMet node ∧
        search.meet node = ⟨search.met.set node true, search.queue ++ [node], search.members⟩ := by
  unfold HasMet meet
  rw [List.getElem?_eq_getElem bound]
  cases search.met[node] <;> simp

theorem length_met_meet {node : Nat} : (search.meet node).met.length = search.met.length := by
  unfold meet
  split
  · exact List.length_set
  · rfl

theorem members_meet {node : Nat} : (search.meet node).members = search.members := by
  unfold meet
  split <;> rfl

theorem members_foldl_meet {nodes : List Nat} :
    (nodes.foldl meet search).members = search.members := by
  induction nodes generalizing search with
  | nil => rfl
  | cons node nodes inductionHypothesis => rw [List.foldl_cons, inductionHypothesis, members_meet]

theorem hasMet_meet {node i : Nat} (bound : node < search.met.length) :
    (search.meet node).HasMet i ↔ search.HasMet i ∨ i = node := by
  rcases meet_cases bound with ⟨already, same⟩ | ⟨-, new⟩
  · rw [same]
    exact ⟨.inl, fun either => either.elim id fun equal => equal ▸ already⟩
  · rw [new]
    exact getElem?_set_true bound

theorem hasMet_foldl_meet {nodes : List Nat} (bounded : ∀ node ∈ nodes, node < search.met.length)
    {i : Nat} : (nodes.foldl meet search).HasMet i ↔ search.HasMet i ∨ i ∈ nodes := by
  induction nodes generalizing search with
  | nil => simp
  | cons node nodes inductionHypothesis =>
      rw [List.foldl_cons, inductionHypothesis fun other listed => by
          rw [length_met_meet]
          exact bounded other (List.mem_cons_of_mem _ listed),
        hasMet_meet (bounded node List.mem_cons_self), List.mem_cons, or_assoc]

/-! ### The invariant -/

/-- What holds of a search in a graph at every moment, when some nodes were met before it: the
nodes met since then are listed, each once, and reached from the start. -/
structure Explores (graph : BlockGraph) (before : Nat → Prop) (start : Nat) (search : Search) :
    Prop where
  size : search.met.length = graph.size
  hasMet_iff : ∀ i, search.HasMet i ↔ before i ∨ i ∈ search.listed
  fresh : ∀ i ∈ search.listed, ¬before i
  distinct : search.listed.Nodup
  hasStart : start ∈ search.listed
  reached : ∀ i ∈ search.listed, graph.Connected start i

/-- All neighbours of the nodes that were looked at were met. -/
def IsClosed (graph : BlockGraph) (search : Search) : Prop :=
  ∀ i ∈ search.members, ∀ j ∈ graph.neighboursOf i, search.HasMet j

/-- Meeting a node that is reached from the start keeps the invariant. -/
theorem Explores.meet (explores : search.Explores graph before start) {node : Nat}
    (bound : node < graph.size) (reached : graph.Connected start node) :
    (search.meet node).Explores graph before start := by
  have inside : node < search.met.length := explores.size ▸ bound
  rcases meet_cases inside with ⟨-, same⟩ | ⟨unmet, new⟩
  · rwa [same]
  · obtain ⟨notBefore, notListed⟩ := not_or.mp (mt (explores.hasMet_iff node).mpr unmet)
    have longer : (search.meet node).listed = search.listed ++ [node] := by
      rw [new, listed, listed, List.append_assoc]
    refine ⟨length_met_meet.trans explores.size, fun i => ?_, ?_, ?_, ?_, ?_⟩ <;> rw [longer]
    · rw [hasMet_meet inside, explores.hasMet_iff, List.mem_append, List.mem_singleton, or_assoc]
    · simpa [or_imp, forall_and] using ⟨explores.fresh, notBefore⟩
    · exact List.nodup_append.mpr ⟨explores.distinct, List.nodup_singleton _, by
        rintro i member other last rfl
        exact notListed (List.mem_singleton.mp last ▸ member)⟩
    · exact List.mem_append_left _ explores.hasStart
    · simpa [or_imp, forall_and] using ⟨explores.reached, reached⟩

theorem Explores.foldl_meet (explores : search.Explores graph before start) {nodes : List Nat}
    (bounded : ∀ node ∈ nodes, node < graph.size)
    (reached : ∀ node ∈ nodes, graph.Connected start node) :
    (nodes.foldl Search.meet search).Explores graph before start := by
  induction nodes generalizing search with
  | nil => exact explores
  | cons node nodes inductionHypothesis =>
      exact inductionHypothesis
        (explores.meet (bounded node List.mem_cons_self) (reached node List.mem_cons_self))
        (fun other listed => bounded other (List.mem_cons_of_mem _ listed))
        (fun other listed => reached other (List.mem_cons_of_mem _ listed))

section Step

variable {met : List Bool} {node : Nat} {queue members : List Nat} (undirected : graph.Undirected)

include undirected

/-- Looking at the first node of the queue keeps the invariant. -/
theorem Explores.step (explores : Explores graph before start ⟨met, node :: queue, members⟩) :
    ((graph.neighboursOf node).foldl Search.meet ⟨met, queue, members ++ [node]⟩).Explores
      graph before start := by
  have sameListed : listed ⟨met, queue, members ++ [node]⟩ = listed ⟨met, node :: queue, members⟩ :=
    List.append_cons .. |>.symm
  have popped : Explores graph before start ⟨met, queue, members ++ [node]⟩ := {
    size := explores.size
    hasMet_iff := sameListed ▸ explores.hasMet_iff
    fresh := sameListed ▸ explores.fresh
    distinct := sameListed ▸ explores.distinct
    hasStart := sameListed ▸ explores.hasStart
    reached := sameListed ▸ explores.reached }
  have reached : graph.Connected start node :=
    explores.reached node (List.mem_append_right _ List.mem_cons_self)
  exact popped.foldl_meet (fun other next => undirected.inside node other next)
    fun other next => reached.tail next

theorem IsClosed.step (explores : Explores graph before start ⟨met, node :: queue, members⟩)
    (closed : IsClosed graph ⟨met, node :: queue, members⟩) :
    ((graph.neighboursOf node).foldl Search.meet ⟨met, queue, members ++ [node]⟩).IsClosed
      graph := by
  intro i member j next
  have bounded : ∀ other ∈ graph.neighboursOf node, other < met.length := fun other next =>
    (undirected.inside node other next).trans_eq explores.size.symm
  rw [members_foldl_meet] at member
  rw [hasMet_foldl_meet bounded]
  rcases List.mem_append.mp member with before | last
  · exact .inl (closed i before j next)
  · exact .inr (List.mem_singleton.mp last ▸ next)

/-- The whole search keeps the invariant and leaves no node waiting. -/
theorem explores_search (search : Search) (explores : search.Explores graph before start)
    (closed : search.IsClosed graph) :
    (graph.search search).Explores graph before start ∧ (graph.search search).IsClosed graph ∧
      (graph.search search).queue = [] := by
  induction search using BlockGraph.search.induct graph with
  | case1 met members =>
      rw [BlockGraph.search]
      exact ⟨explores, closed, rfl⟩
  | case2 met node queue members inductionHypothesis =>
      rw [BlockGraph.search]
      exact inductionHypothesis (explores.step undirected) (closed.step undirected explores)

end Step

/-- A search that ended has looked at the nodes connected to its start, if what was met before it
was closed under edges. -/
theorem Explores.mem_members_iff (explores : search.Explores graph before start)
    (closed : search.IsClosed graph) (ended : search.queue = []) (undirected : graph.Undirected)
    (separate : ∀ i j, before i → j ∈ graph.neighboursOf i → before j) (i : Nat) :
    i ∈ search.members ↔ graph.Connected start i := by
  have all : search.listed = search.members := by rw [listed, ended, List.append_nil]
  constructor
  · exact fun member => explores.reached i (all ▸ member)
  · intro connected
    induction connected with
    | refl => exact all ▸ explores.hasStart
    | @tail middle last _ next inductionHypothesis =>
        rcases (explores.hasMet_iff last).mp (closed middle inductionHypothesis last next) with
          earlier | listed
        · -- an edge back would have led from what was met before to the middle
          have back := separate last middle earlier (undirected.symm middle last next)
          exact absurd back (explores.fresh middle (all ▸ inductionHypothesis))
        · exact all ▸ listed

end Search

/-! ## All searches -/

namespace BlockGraph

variable {graph : BlockGraph}

/-- What the searches from the first `count` nodes have found: components are classes of connected
nodes in increasing order, each with its smallest node among the first ones; they come in the
order of these nodes, have no node in common, and hold the nodes that were met, the first ones
among them. -/
structure Covers (graph : BlockGraph) (count : Nat) (found : List Bool × List Component) :
    Prop where
  size : found.1.length = graph.size
  met_iff : ∀ i, found.1[i]? = some true ↔ ∃ component ∈ found.2, i ∈ component
  smallest : ∀ component ∈ found.2, ∃ node < count,
    (∀ i, i ∈ component ↔ graph.Connected node i) ∧ ∀ i ∈ component, node ≤ i
  complete : ∀ i < count, ∃ component ∈ found.2, i ∈ component
  increasing : ∀ component ∈ found.2, component.Pairwise (· < ·)
  ordered : found.2.Pairwise fun first second => ∃ node, node ∈ first ∧ ∀ i ∈ second, node < i
  disjoint : found.2.Pairwise fun first second => ∀ i ∈ first, i ∉ second

/-- What a search from a node adds, when that node was not met: a new component. -/
structure FindsComponent (graph : BlockGraph) (met : List Bool) (start : Nat) (search : Search) :
    Prop where
  size : search.met.length = graph.size
  met_iff : ∀ i, search.met[i]? = some true ↔ met[i]? = some true ∨ i ∈ search.members
  fresh : ∀ i ∈ search.members, ¬met[i]? = some true
  distinct : search.members.Nodup
  mem_iff : ∀ i, i ∈ search.members ↔ graph.Connected start i

section Components

variable (undirected : graph.Undirected)

include undirected

theorem Undirected.findsComponent {met : List Bool} {start : Nat} (size : met.length = graph.size)
    (unmet : met[start]? = some false)
    (separate : ∀ i j, met[i]? = some true → j ∈ graph.neighboursOf i → met[j]? = some true) :
    graph.FindsComponent met start (graph.search ⟨met.set start true, [start], []⟩) := by
  have bound : start < met.length := (List.getElem?_eq_some_iff.mp unmet).1
  have begins : Search.Explores graph (fun i => met[i]? = some true) start
      ⟨met.set start true, [start], []⟩ := {
    size := List.length_set.trans size
    hasMet_iff := fun i => (Search.getElem?_set_true bound).trans (by simp [Search.listed])
    fresh := by simp [Search.listed, unmet]
    distinct := List.nodup_singleton _
    hasStart := List.mem_singleton_self _
    reached := fun i member => List.mem_singleton.mp member ▸ .refl }
  obtain ⟨explores, closed, ended⟩ :=
    Search.explores_search undirected _ begins (fun i member => by simp at member)
  have all : (graph.search ⟨met.set start true, [start], []⟩).listed =
      (graph.search ⟨met.set start true, [start], []⟩).members := by
    rw [Search.listed, ended, List.append_nil]
  exact {
    size := explores.size
    met_iff := all ▸ explores.hasMet_iff
    fresh := all ▸ explores.fresh
    distinct := all ▸ explores.distinct
    mem_iff := explores.mem_members_iff closed ended undirected separate }

omit undirected in
/-- What was met is closed under edges, since it is made of whole components. -/
theorem Covers.separate {count : Nat} {found : List Bool × List Component}
    (covers : graph.Covers count found) (i j : Nat) (met : found.1[i]? = some true)
    (next : j ∈ graph.neighboursOf i) : found.1[j]? = some true := by
  obtain ⟨component, member, inside⟩ := (covers.met_iff i).mp met
  obtain ⟨node, -, class_iff, -⟩ := covers.smallest component member
  exact (covers.met_iff j).mpr
    ⟨component, member, (class_iff j).mpr (((class_iff i).mp inside).tail next)⟩

omit undirected in
theorem FindsComponent.increasing {met : List Bool} {start : Nat} {search : Search}
    (finds : graph.FindsComponent met start search) :
    search.members.mergeSort.Pairwise (· < ·) := by
  have ordered : search.members.mergeSort.Pairwise (· ≤ ·) := List.pairwise_mergeSort' (· ≤ ·) _
  exact (ordered.and ((List.mergeSort_perm _ _).nodup_iff.mpr finds.distinct)).imp
    fun ⟨le, ne⟩ => Nat.lt_of_le_of_ne le ne

omit undirected in
/-- The next node may have been met already. -/
theorem Covers.succ_of_met {count : Nat} {found : List Bool × List Component}
    (covers : graph.Covers count found) (met : found.1[count]? = some true) :
    graph.Covers (count + 1) found := by
  obtain ⟨own, member, inside⟩ := (covers.met_iff count).mp met
  exact { covers with
    smallest := fun component member => by
      obtain ⟨node, less, facts⟩ := covers.smallest component member
      exact ⟨node, Nat.lt_succ_of_lt less, facts⟩
    complete := fun i less => by
      rcases Nat.lt_or_eq_of_le (Nat.le_of_lt_succ less) with before | rfl
      · exact covers.complete i before
      · exact ⟨own, member, inside⟩ }

omit undirected in
/-- Otherwise it is the smallest node of a component that comes after the others. -/
theorem Covers.append {count : Nat} {found : List Bool × List Component} {met : List Bool}
    {component : Component} (covers : graph.Covers count found) (size : met.length = graph.size)
    (met_iff : ∀ i, met[i]? = some true ↔ found.1[i]? = some true ∨ i ∈ component)
    (fresh : ∀ i ∈ component, ¬found.1[i]? = some true)
    (increasing : component.Pairwise (· < ·))
    (class_iff : ∀ i, i ∈ component ↔ graph.Connected count i) :
    graph.Covers (count + 1) (met, found.2 ++ [component]) := by
  have apart : ∀ other ∈ found.2, ∀ i ∈ other, i ∉ component :=
    fun other member i inside new => fresh i new ((covers.met_iff i).mpr ⟨other, member, inside⟩)
  have least : ∀ i ∈ component, count ≤ i := by
    intro i new
    by_contra less
    obtain ⟨other, member, inside⟩ := covers.complete i (by omega)
    exact apart other member i inside new
  refine ⟨size, fun i => ?met_iff, ?smallest, fun i less => ?complete, ?increasing, ?ordered,
    ?disjoint⟩
  case met_iff =>
    rw [met_iff, covers.met_iff]
    simp [or_and_right, exists_or]
  case smallest =>
    simp only [List.mem_append, List.mem_singleton, or_imp, forall_and, forall_eq]
    refine ⟨fun other member => ?_, count, Nat.lt_succ_self _, class_iff, least⟩
    obtain ⟨node, less, facts⟩ := covers.smallest other member
    exact ⟨node, Nat.lt_succ_of_lt less, facts⟩
  case complete =>
    rcases Nat.lt_or_eq_of_le (Nat.le_of_lt_succ less) with before | rfl
    · obtain ⟨other, member, inside⟩ := covers.complete i before
      exact ⟨other, List.mem_append_left _ member, inside⟩
    · exact ⟨component, List.mem_append_right _ (List.mem_singleton_self _),
        (class_iff i).mpr .refl⟩
  case increasing =>
    simpa [or_imp, forall_and] using ⟨covers.increasing, increasing⟩
  case ordered =>
    refine List.pairwise_append.mpr ⟨covers.ordered, List.pairwise_singleton .., ?_⟩
    intro first member second new
    obtain rfl := List.mem_singleton.mp new
    obtain ⟨node, less, own_iff, -⟩ := covers.smallest first member
    exact ⟨node, (own_iff node).mpr .refl, fun i inNew => less.trans_le (least i inNew)⟩
  case disjoint =>
    refine List.pairwise_append.mpr ⟨covers.disjoint, List.pairwise_singleton .., ?_⟩
    intro first member second new
    obtain rfl := List.mem_singleton.mp new
    exact apart first member

/-- A search from the next node keeps the invariant. -/
theorem Covers.searchFrom {count : Nat} {found : List Bool × List Component}
    (covers : graph.Covers count found) (bound : count < graph.size) :
    graph.Covers (count + 1) (graph.searchFrom found count) := by
  unfold BlockGraph.searchFrom
  split
  · rename_i unmet
    have finds := undirected.findsComponent covers.size unmet covers.separate
    refine covers.append finds.size (fun i => ?_) (fun i new => ?_) finds.increasing fun i => ?_
    · rw [finds.met_iff, List.mem_mergeSort]
    · exact finds.fresh i (List.mem_mergeSort.mp new)
    · rw [List.mem_mergeSort, finds.mem_iff]
  · rename_i met
    apply covers.succ_of_met
    rw [List.getElem?_eq_getElem (covers.size ▸ bound)] at met ⊢
    simpa using met

/-- The searches from all nodes, one after the other, find all components. -/
theorem Undirected.covers_components : ∃ met, graph.Covers graph.size (met, graph.components) := by
  have upTo (count : Nat) (bound : count ≤ graph.size) : graph.Covers count
      ((List.range count).foldl graph.searchFrom (List.replicate graph.size false, [])) := by
    induction count with
    | zero =>
        refine ⟨List.length_replicate, fun i => ?_, ?_, ?_, ?_, ?_, ?_⟩ <;>
          simp [List.getElem?_replicate]
    | succ count inductionHypothesis =>
        rw [List.range_succ, List.foldl_append]
        exact (inductionHypothesis (by omega)).searchFrom undirected bound
  exact ⟨_, upTo graph.size (Nat.le_refl _)⟩

end Components

end BlockGraph

/-! ## Classes of linked blocks -/

/-- A list of components lists the classes of the reflexive and transitive closure of a relation on
the numbers below `size`: each number is in exactly one component, the numbers of a component
increase, and the components come in the order of their smallest numbers. -/
structure ListsClasses (linked : Nat → Nat → Prop) (size : Nat) (found : List Component) :
    Prop where
  classes : ∀ component ∈ found, ∃ start < size, ∀ i, i ∈ component ↔ ReflTransGen linked start i
  complete : ∀ start < size, ∃ component ∈ found, ∀ i, i ∈ component ↔ ReflTransGen linked start i
  partition : found.flatten.Perm (List.range size)
  increasing : ∀ component ∈ found, component.Pairwise (· < ·)
  ordered : found.Pairwise fun first second => ∃ i ∈ first, ∀ j ∈ second, i < j

/-- A number is in only one component. -/
theorem ListsClasses.eq_of_mem {linked : Nat → Nat → Prop} {size : Nat} {found : List Component}
    (classes : ListsClasses linked size found) {first second : Component} (member : first ∈ found)
    (otherMember : second ∈ found) {i : Nat} (inFirst : i ∈ first) (inSecond : i ∈ second) :
    first = second := by
  have distinct : found.flatten.Nodup := classes.partition.nodup_iff.mpr List.nodup_range
  have disjoint := (List.nodup_flatten.mp distinct).2
  by_contra apart
  have symm : Std.Symm fun a b : Component => a.Disjoint b := ⟨fun _ _ => List.Disjoint.symm⟩
  exact disjoint.forall member otherMember apart inFirst inSecond

/-- Steps from a node to itself reach nothing new. -/
theorem reflTransGen_ne_and_iff {linked : Nat → Nat → Prop} {i j : Nat} :
    ReflTransGen (fun i j => i ≠ j ∧ linked i j) i j ↔ ReflTransGen linked i j := by
  constructor
  · intro connected
    induction connected with
    | refl => exact .refl
    | tail _ step inductionHypothesis => exact inductionHypothesis.tail step.2
  · intro connected
    induction connected with
    | refl => exact .refl
    | @tail middle last _ step inductionHypothesis =>
        by_cases same : middle = last
        · exact same ▸ inductionHypothesis
        · exact inductionHypothesis.tail ⟨same, step⟩

section Blocks

variable {rule : OverlapRule} {blocks : List Block}

theorem connected_blockGraph_iff (sets : ∀ block ∈ blocks, block.HasNameSets) {i j : Nat} :
    (blockGraph rule blocks).Connected i j ↔ ReflTransGen (Linked rule blocks) i j := by
  have edges : (fun i j => j ∈ (blockGraph rule blocks).neighboursOf i) =
      fun i j => i ≠ j ∧ Linked rule blocks i j := by
    funext i j
    exact propext (mem_neighboursOf_blockGraph sets)
  rw [BlockGraph.Connected, edges, reflTransGen_ne_and_iff]

theorem listsClasses_components (sets : ∀ block ∈ blocks, block.HasNameSets) :
    ListsClasses (Linked rule blocks) blocks.length (blockGraph rule blocks).components := by
  have undirected : (blockGraph rule blocks).Undirected := undirected_blockGraph
  obtain ⟨met, covers⟩ := undirected.covers_components
  have size : (blockGraph rule blocks).size = blocks.length := size_blockGraph
  rw [size] at covers
  refine ⟨fun component member => ?_, fun start less => ?_, ?_, covers.increasing, covers.ordered⟩
  · obtain ⟨node, less, class_iff, -⟩ := covers.smallest component member
    exact ⟨node, less, fun i => (class_iff i).trans (connected_blockGraph_iff sets)⟩
  · obtain ⟨component, member, inside⟩ := covers.complete start less
    obtain ⟨node, -, class_iff, -⟩ := covers.smallest component member
    have reached := (class_iff start).mp inside
    refine ⟨component, member, fun i => ?_⟩
    rw [class_iff, ← connected_blockGraph_iff sets]
    exact ⟨(undirected.connected_symm reached).trans, reached.trans⟩
  · have distinct : (blockGraph rule blocks).components.flatten.Nodup :=
      List.nodup_flatten.mpr ⟨fun component member =>
        (covers.increasing component member).imp Nat.ne_of_lt, covers.disjoint⟩
    rw [List.perm_ext_iff_of_nodup distinct List.nodup_range]
    intro i
    rw [List.mem_flatten, List.mem_range]
    refine ⟨fun held => ?_, covers.complete i⟩
    have bound := (List.getElem?_eq_some_iff.mp ((covers.met_iff i).mpr held)).1
    rwa [covers.size, size] at bound

/-! ## Summaries -/

/-- A summary of a component lists the names, types and lines of its blocks in order, and in
increasing order, each once, the names by which they are compared. -/
def Summarizes (blocks : List Block) (component : Component) (summary : ComponentSummary) : Prop :=
  ∃ members : List Block, members.map some = component.map (blocks[·]?) ∧
    summary.memberNames = members.map (·.name) ∧
    summary.blockTypeTags = members.map (·.type.label) ∧
    summary.lineRanges = members.map (·.lines) ∧
    summary.sharedIdentifiers.Pairwise (· < ·) ∧
    ∀ name, name ∈ summary.sharedIdentifiers ↔ ∃ block ∈ members, name ∈ block.signal

theorem mem_foldl_union {members : List Block} {names : NameSet} {name : String} :
    name ∈ members.foldl (fun names block => NameSet.union names block.comparedNames) names ↔
      name ∈ names ∨ ∃ block ∈ members, name ∈ block.signal := by
  induction members generalizing names with
  | nil => simp
  | cons block members inductionHypothesis =>
      rw [List.foldl_cons, inductionHypothesis]
      simp [or_assoc]

theorem nodup_foldl_union {members : List Block} {names : NameSet} (distinct : names.Nodup) :
    (members.foldl (fun names block => NameSet.union names block.comparedNames) names).Nodup := by
  induction members generalizing names with
  | nil => exact distinct
  | cons block members inductionHypothesis =>
      exact inductionHypothesis (NameSet.nodup_union distinct)

theorem map_some_blocksAt {component : Component} (bounded : ∀ i ∈ component, i < blocks.length) :
    (blocksAt blocks component).map some = component.map (blocks[·]?) := by
  induction component with
  | nil => rfl
  | cons i component inductionHypothesis =>
      obtain ⟨block, found⟩ : ∃ block, blocks[i]? = some block :=
        ⟨_, List.getElem?_eq_getElem (bounded i List.mem_cons_self)⟩
      have rest := inductionHypothesis fun j member => bounded j (List.mem_cons_of_mem _ member)
      rw [blocksAt] at rest ⊢
      rw [List.filterMap_cons_some found, List.map_cons, List.map_cons, rest, found]

theorem summarizes_summarize {component : Component}
    (bounded : ∀ i ∈ component, i < blocks.length) :
    Summarizes blocks component (summarize blocks component) := by
  refine ⟨blocksAt blocks component, map_some_blocksAt bounded, rfl, rfl, rfl, ?_, fun name => ?_⟩
  · exact NameSet.pairwise_sorted (nodup_foldl_union List.nodup_nil)
  · simp only [summarize, NameSet.mem_sorted, mem_foldl_union, List.not_mem_nil, false_or]

/-! ## Connectivity -/

/-- The components of the overlap graph are the classes of linked blocks, their summaries list what
their blocks hold, and blocks in different components neither share enough nor, where calls
count, use each other's names. -/
theorem components_blockGraph (rule : OverlapRule) (blocks : List Block)
    (sets : ∀ block ∈ blocks, block.HasNameSets) :
    ListsClasses (Linked rule blocks) blocks.length (blockGraph rule blocks).components ∧
      (∀ component ∈ (blockGraph rule blocks).components,
        Summarizes blocks component (summarize blocks component)) ∧
      ∀ first ∈ (blockGraph rule blocks).components,
        ∀ second ∈ (blockGraph rule blocks).components, first ≠ second →
          ∀ i ∈ first, ∀ j ∈ second, ∀ a b, blocks[i]? = some a → blocks[j]? = some b →
            rule.reaches (overlapScore rule.rounding a.signal b.signal) = false ∧
              (rule.callEdges = true → a.name ∉ b.members ∧ b.name ∉ a.members) := by
  have classes : ListsClasses (Linked rule blocks) blocks.length
    (blockGraph rule blocks).components := listsClasses_components sets
  refine ⟨classes, fun component member => summarizes_summarize fun i inside => ?_, ?_⟩
  · have listed : i ∈ (blockGraph rule blocks).components.flatten :=
      List.mem_flatten.mpr ⟨component, member, inside⟩
    exact List.mem_range.mp (classes.partition.mem_iff.mp listed)
  · intro first firstMember second secondMember apart i inFirst j inSecond a b foundA foundB
    have notLinked : ¬Linked rule blocks i j := by
      intro linked
      obtain ⟨start, -, class_iff⟩ := classes.classes first firstMember
      have inBoth : j ∈ first := (class_iff j).mpr (((class_iff i).mp inFirst).tail linked)
      exact apart (classes.eq_of_mem firstMember secondMember inBoth inSecond)
    constructor
    · rw [Bool.eq_false_iff]
      exact fun reaches => notLinked ⟨a, b, foundA, foundB, .inl reaches⟩
    · intro calls
      exact ⟨fun uses => notLinked ⟨a, b, foundA, foundB, .inr ⟨calls, .inl uses⟩⟩,
        fun uses => notLinked ⟨a, b, foundA, foundB, .inr ⟨calls, .inr uses⟩⟩⟩

end Blocks

/-- Two methods without a common member, where calls do not count, are two classes. -/
theorem components_blockGraph_disjoint_methods :
    let handle : Block := ⟨0, .method, "handle", 5, 6, [], [], ["body"]⟩
    let reset : Block := ⟨1, .method, "reset", 7, 8, [], [], ["state"]⟩
    let rule : OverlapRule := ⟨Rounding.exact, 40, false⟩
    ListsClasses (Linked rule [handle, reset]) 2 (blockGraph rule [handle, reset]).components :=
  (components_blockGraph _ _ (by decide)).1

/-! ## Blocks of analysed units -/

theorem mem_foldl_extract? {frames : List OpenBlock} {blocks : List Block} {block : Block}
    (listed : block ∈ frames.foldl
      (fun blocks frame => blocks ++ (frame.extract? blocks.length).toList) blocks) :
    block ∈ blocks ∨ ∃ frame ∈ frames, ∃ index, frame.extract? index = some block := by
  induction frames generalizing blocks with
  | nil => exact .inl listed
  | cons frame frames inductionHypothesis =>
      rcases inductionHypothesis listed with before | ⟨other, member, extracted⟩
      · rcases List.mem_append.mp before with before | new
        · exact .inl before
        · exact .inr ⟨frame, List.mem_cons_self, blocks.length, by simpa using new⟩
      · exact .inr ⟨other, List.mem_cons_of_mem _ member, extracted⟩

/-- A block has the names of the frame that it was extracted from. -/
theorem hasNameSets_of_extract? {frame : OpenBlock} {index : Nat} {block : Block}
    (extracted : frame.extract? index = some block)
    (sets : frame.reads.Nodup ∧ frame.writes.Nodup ∧ frame.members.Nodup) : block.HasNameSets := by
  unfold OpenBlock.extract? at extracted
  split at extracted
  · simp at extracted
  · split at extracted
    · simp at extracted
    · cases extracted
      exact sets

theorem nodup_usageOf (places : List SyntaxPlace) (block : SyntaxPlace) :
    (usageOf places block).reads.Nodup ∧ (usageOf places block).writes.Nodup ∧
      (usageOf places block).members.Nodup := by
  unfold usageOf
  split
  · exact ⟨NameSet.nodup_ofNames _, NameSet.nodup_ofNames _, List.nodup_nil⟩
  · exact ⟨List.nodup_nil, List.nodup_nil, NameSet.nodup_ofNames _⟩
  · exact ⟨List.nodup_nil, List.nodup_nil, List.nodup_nil⟩

/-- The blocks of every unit that a traversal closes have sets of names. -/
theorem hasNameSets_of_mem_closedUnits (module : Syntax.Module) :
    ∀ unit ∈ closedUnits module.tree, ∀ block ∈ unit.blocks, block.HasNameSets := by
  rw [closedUnits_eq (.module module)]
  intro unit listed block member
  obtain ⟨place, -, rfl⟩ := List.mem_map.mp listed
  rcases mem_foldl_extract? member with impossible | ⟨frame, frameMember, index, extracted⟩
  · simp at impossible
  · obtain ⟨inner, -, rfl⟩ := List.mem_map.mp frameMember
    exact hasNameSets_of_extract? extracted (nodup_usageOf _ inner)

end DesignLint.Cohesion
