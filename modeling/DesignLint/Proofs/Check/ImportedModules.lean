import DesignLint.Check.Imports
import DesignLint.Proofs.Cohesion.Enclosure
import DesignLint.Proofs.Number.Order
import DesignLint.Proofs.Syntax.OwnScope
import DesignLint.Proofs.Syntax.Targets

/-!
# Imported modules

The check takes trees from a stack and puts their parts back. The imports it comes by are those at
the places of the module, in the order of the text, without the ones in the body of an `if` for type
checkers if these do not count. The modules that are listed are told apart by their first import.
-/

namespace DesignLint.Check

open Syntax Cohesion

/-! ## Imports by their places -/

/-- What an import is from: each dotted name, or the dots and the module behind them. -/
inductive ImportsFrom : Node → String → Prop where
  | named {position : Position} {names : List Alias} {item : Alias} (member : item ∈ names) :
      ImportsFrom (.stmt (.importNames position names)) item.name
  | relative (position : Position) (module : Option String) (names : List Alias) (level : Nat) :
      ImportsFrom (.stmt (.importFrom position module names level))
        (String.ofList (List.replicate level '.') ++ module.getD "")

/-- A condition that holds for type checkers only: the bare or dotted name. -/
inductive HoldsForTypeCheckers : Expr → Prop where
  | bare (position : Position) (context : Context) :
      HoldsForTypeCheckers (.name position "TYPE_CHECKING" context)
  | dotted (position : Position) (value : Expr) (context : Context) :
      HoldsForTypeCheckers (.attr position value "TYPE_CHECKING" context)

/-- Whether a place is a statement in the body of an `if` for type checkers. The alternative of the
`if` is no such place. -/
def isTypeOnlyPart (place : SyntaxPlace) : Bool :=
  place.tree.label.role == .body && place.context.head?.any isTypeOnly

/-- Whether a place lies in the body of an `if` for type checkers. -/
def isForTypeCheckers (place : SyntaxPlace) : Bool := place.path.any isTypeOnlyPart

/-- Whether an import that counts stands at a place. -/
def isCountedImport (skipTypeOnly : Bool) (place : SyntaxPlace) : Bool :=
  isImport place.tree && !(skipTypeOnly && isForTypeCheckers place)

/-- The places of the imports that count, in the order of the text. -/
def importPlaces (skipTypeOnly : Bool) (tree : SyntaxTree) : List SyntaxPlace :=
  tree.places.filter (isCountedImport skipTypeOnly)

variable {tree : SyntaxTree} {place inner : SyntaxPlace} {skipTypeOnly : Bool}

theorem isTypeOnlyTest_iff {test : Expr} :
    isTypeOnlyTest test = true ↔ HoldsForTypeCheckers test := by
  constructor
  · intro holds
    unfold isTypeOnlyTest at holds
    split at holds
    · rw [beq_iff_eq] at holds
      exact holds ▸ .bare _ _
    · rw [beq_iff_eq] at holds
      exact holds ▸ .dotted _ _ _
    · cases holds
  · rintro (_ | _) <;> rfl

theorem isTypeOnly_iff :
    isTypeOnly tree = true ↔ ∃ position test body orElse,
      tree.label.node = .stmt (.ifStmt position test body orElse) ∧ HoldsForTypeCheckers test := by
  cases node : tree.label.node with
  | stmt stmt => cases stmt <;> simp [isTypeOnly, node, isTypeOnlyTest_iff]
  | _ => simp [isTypeOnly, node]

theorem isTypeOnlyPart_iff :
    isTypeOnlyPart place = true ↔ place.tree.label.role = .body ∧
      ∃ position test body orElse,
        nodeAbove place.context.head? = some (.stmt (.ifStmt position test body orElse)) ∧
          HoldsForTypeCheckers test := by
  cases above : place.context.head? <;>
    simp [isTypeOnlyPart, above, isTypeOnly_iff, nodeAbove]

theorem exists_stmt_of_isImport (found : isImport tree = true) :
    ∃ stmt, tree.label.node = .stmt stmt := by
  cases node : tree.label.node with
  | stmt stmt => exact ⟨stmt, rfl⟩
  | _ => simp [isImport, node] at found

theorem mem_modulesOf_iff {name : String} :
    name ∈ modulesOf tree ↔ ImportsFrom tree.label.node name := by
  rw [modulesOf]
  constructor
  · intro listed
    split at listed
    · rename_i stmt node
      rw [node]
      unfold importedModules at listed
      split at listed
      · obtain ⟨item, member, rfl⟩ := List.mem_map.mp listed
        exact .named member
      · exact List.mem_singleton.mp listed ▸ .relative ..
      · cases listed
    · cases listed
  · intro imports
    generalize tree.label.node = node at imports
    cases imports with
    | named member => exact List.mem_map_of_mem member
    | relative position module names level => exact List.mem_singleton_self _

/-- What an import is made of holds no statements. -/
theorem holdsStatements_of_isImport (stands : StandsForSyntax tree) (found : isImport tree = true)
    {part : SyntaxTree} (member : part ∈ tree.children) :
    holdsStatements part.label.node = false := by
  have ofNames (names : List Alias) (listed : part ∈ names.map Alias.tree) :
      holdsStatements part.label.node = false := by
    obtain ⟨item, -, rfl⟩ := List.mem_map.mp listed
    rw [Alias.label_tree]
    rfl
  obtain ⟨stmt, node⟩ := exists_stmt_of_isImport found
  rw [stands.eq_tree, node] at member
  rw [isImport, node] at found
  cases stmt with
  | importNames position names => exact ofNames names member
  | importFrom position module names level => exact ofNames names member
  | _ => cases found

/-! ## The stack -/

/-- Below what holds no statements there is no import. -/
theorem filter_isCountedImport_eq_nil_of_holdsStatements (stands : StandsForSyntax tree)
    (has : tree.HasPlace place) (holds : holdsStatements place.tree.label.node = false) :
    place.places.filter (isCountedImport skipTypeOnly) = [] := by
  refine List.filter_eq_nil_iff.mpr fun inner listed counted => ?_
  obtain ⟨innerHas, on⟩ := has.of_mem_places listed
  obtain ⟨stmt, node⟩ := exists_stmt_of_isImport (Bool.and_eq_true_iff.mp counted).1
  have above := holdsStatements_of_mem_path stands innerHas (by rw [node, holdsStatements]) on
  rw [holds] at above
  cases above

/-- In the body of an `if` for type checkers no import counts. -/
theorem filter_isCountedImport_eq_nil_of_isTypeOnlyPart (has : tree.HasPlace place)
    (part : isTypeOnlyPart place = true) :
    place.places.filter (isCountedImport true) = [] := by
  refine List.filter_eq_nil_iff.mpr fun inner listed counted => ?_
  obtain ⟨-, on⟩ := has.of_mem_places listed
  have inside : isForTypeCheckers inner = true := List.any_eq_true.mpr ⟨place, on, part⟩
  simp [isCountedImport, inside] at counted

/-- Whether a part is searched for imports. -/
def isSearched (skipTypeOnly : Bool) (part : SyntaxPlace) : Bool :=
  !(skipTypeOnly && part.context.head?.any isTypeOnly) || part.tree.label.role == .orElse

theorem searchedParts_eq_map (skipTypeOnly : Bool) (place : SyntaxPlace) :
    searchedParts skipTypeOnly place.tree =
      (place.children.filter (isSearched skipTypeOnly)).map Visit.tree := by
  rw [searchedParts, ← Visit.map_tree_children, List.filter_map]
  refine congrArg (List.map _) (List.filter_congr fun part member => ?_)
  obtain ⟨index, subtree, -, rfl⟩ := Visit.mem_children_iff.mp member
  rfl

/-- The parts of an `if` besides its alternative are its test and its body. -/
theorem test_or_body_of_isTypeOnly (stands : StandsForSyntax tree)
    (typeOnly : isTypeOnly tree = true) {part : SyntaxTree} (member : part ∈ tree.children)
    (notOrElse : part.label.role ≠ .orElse) :
    holdsStatements part.label.node = false ∨ part.label.role = .body := by
  obtain ⟨position, test, body, orElse, node, -⟩ := isTypeOnly_iff.mp typeOnly
  rw [stands.eq_tree, node] at member
  simp only [Node.tree, Stmt.tree, Tree.children, Stmt.trees_eq_map, List.cons_append,
    List.mem_cons, List.mem_append, List.mem_map] at member
  rcases member with rfl | ⟨stmt, -, rfl⟩ | ⟨stmt, -, rfl⟩
  · exact .inl (by rw [Expr.label_tree]; rfl)
  · exact .inr (by rw [Stmt.label_tree])
  · exact absurd (by rw [Stmt.label_tree]) notOrElse

/-- In what is not searched below a place that is, no import counts. -/
theorem filter_isCountedImport_eq_nil_of_not_isSearched (stands : StandsForSyntax tree)
    (has : tree.HasPlace place) (member : inner ∈ place.children)
    (passedOver : isSearched skipTypeOnly inner = false) :
    inner.places.filter (isCountedImport skipTypeOnly) = [] := by
  obtain ⟨index, subtree, found, rfl⟩ := Visit.mem_children_iff.mp member
  obtain ⟨skips, notOrElse⟩ := Bool.or_eq_false_iff.mp passedOver
  obtain ⟨rfl, typeOnly⟩ : skipTypeOnly = true ∧ isTypeOnly place.tree = true := by
    simpa [Visit.child] using skips
  have childHas : tree.HasPlace (place.child index subtree) := .child has found
  rcases test_or_body_of_isTypeOnly (standsForSyntax_of_hasPlace stands has) typeOnly
    (List.mem_of_getElem? found) (by simpa [Visit.child] using notOrElse) with test | body
  · exact filter_isCountedImport_eq_nil_of_holdsStatements stands childHas test
  · exact filter_isCountedImport_eq_nil_of_isTypeOnlyPart childHas
      (by simp [isTypeOnlyPart, Visit.child, body, typeOnly])

/-- What is searched below a place outside the bodies for type checkers lies outside of them. -/
theorem isForTypeCheckers_child (member : inner ∈ place.children)
    (searched : isSearched skipTypeOnly inner = true)
    (outside : (skipTypeOnly && isForTypeCheckers place) = false) :
    (skipTypeOnly && isForTypeCheckers inner) = false := by
  obtain ⟨index, subtree, -, rfl⟩ := Visit.mem_children_iff.mp member
  cases skipTypeOnly with
  | false => rfl
  | true =>
      have apart : isTypeOnlyPart (place.child index subtree) = false := by
        rw [isSearched, Bool.or_eq_true] at searched
        rcases searched with notTypeOnly | orElse
        · simp only [Bool.true_and, Bool.not_eq_true'] at notTypeOnly
          rw [isTypeOnlyPart, notTypeOnly, Bool.and_false]
        · rw [isTypeOnlyPart, beq_iff_eq.mp orElse]
          rfl
      rw [Bool.true_and] at outside ⊢
      rw [isForTypeCheckers, Visit.path, Visit.child_around, List.any_cons, apart, Bool.false_or]
      exact outside

/-- A list of parts on the stack gives what each of its searched parts gives. -/
theorem importsOn_filter_append {parts : List SyntaxPlace} {searched : SyntaxPlace → Bool}
    {listed : SyntaxPlace → List SyntaxTree}
    (each : ∀ part ∈ parts, searched part = true → ∀ stack,
      importsOn skipTypeOnly (part.tree :: stack) = listed part ++ importsOn skipTypeOnly stack)
    (others : ∀ part ∈ parts, searched part = false → listed part = [])
    (stack : List SyntaxTree) :
    importsOn skipTypeOnly ((parts.filter searched).map Visit.tree ++ stack) =
      parts.flatMap listed ++ importsOn skipTypeOnly stack := by
  induction parts with
  | nil => rfl
  | cons part parts inductionHypothesis =>
      have rest := inductionHypothesis
        (fun other member => each other (List.mem_cons_of_mem _ member))
        (fun other member => others other (List.mem_cons_of_mem _ member))
      rw [List.flatMap_cons]
      cases isKept : searched part with
      | true =>
          rw [List.filter_cons_of_pos isKept, List.map_cons, List.cons_append,
            each part List.mem_cons_self isKept, rest, List.append_assoc]
      | false =>
          rw [List.filter_cons_of_neg (by simp [isKept]), others part List.mem_cons_self isKept,
            rest, List.nil_append]

/-- A tree on top of the stack gives the imports that count at its places, in the order of the
text, before the rest of the stack is looked at. -/
theorem importsOn_cons (stands : StandsForSyntax tree) (has : tree.HasPlace place)
    (outside : (skipTypeOnly && isForTypeCheckers place) = false) (stack : List SyntaxTree) :
    importsOn skipTypeOnly (place.tree :: stack) =
      (place.places.filter (isCountedImport skipTypeOnly)).map Visit.tree ++
        importsOn skipTypeOnly stack := by
  -- the rest of the stack is kept general: below the first part lie its neighbours
  induction place using Visit.inductionOnChildren generalizing stack with
  | step place inductionHypothesis =>
      rw [importsOn, Visit.places_eq_flatMap]
      cases found : isImport place.tree with
      | true =>
          have counted : isCountedImport skipTypeOnly place = true := by
            rw [isCountedImport, found, outside]
            rfl
          have below : (place.children.flatMap Visit.places).filter
              (isCountedImport skipTypeOnly) = [] := by
            rw [List.filter_flatMap]
            refine List.flatMap_eq_nil_iff.mpr fun part member => ?_
            obtain ⟨index, subtree, foundPart, rfl⟩ := Visit.mem_children_iff.mp member
            exact filter_isCountedImport_eq_nil_of_holdsStatements stands (.child has foundPart)
              (holdsStatements_of_isImport (standsForSyntax_of_hasPlace stands has) found
                (List.mem_of_getElem? foundPart))
          rw [if_pos rfl, List.filter_cons_of_pos counted, below]
          rfl
      | false =>
          have notCounted : ¬ isCountedImport skipTypeOnly place = true := by
            simp [isCountedImport, found]
          rw [if_neg Bool.false_ne_true, List.filter_cons_of_neg notCounted, List.filter_flatMap,
            List.map_flatMap, searchedParts_eq_map]
          refine importsOn_filter_append (fun part member searched stack => ?_)
            (fun part member passedOver => ?_) stack
          · have partOutside := isForTypeCheckers_child member searched outside
            obtain ⟨index, subtree, foundPart, rfl⟩ := Visit.mem_children_iff.mp member
            exact inductionHypothesis _ member (.child has foundPart) partOutside stack
          · rw [filter_isCountedImport_eq_nil_of_not_isSearched stands has member passedOver,
              List.map_nil]

theorem importsOn_singleton (stands : StandsForSyntax tree) :
    importsOn skipTypeOnly [tree] = (importPlaces skipTypeOnly tree).map Visit.tree := by
  have outside : (skipTypeOnly && isForTypeCheckers (.whole tree)) = false := by
    rw [isForTypeCheckers, Visit.path, Visit.whole_around, List.any_cons, isTypeOnlyPart]
    simp [Visit.whole]
  have onTop := importsOn_cons stands .whole outside []
  rw [importsOn.eq_1, List.append_nil] at onTop
  exact onTop

/-! ## First imports -/

/-- The modules that the imports name, one after the other as in the text. -/
def sources (skipTypeOnly : Bool) (tree : SyntaxTree) : List String :=
  (importPlaces skipTypeOnly tree).flatMap fun place => modulesOf place.tree

theorem moduleNames_eq_sources (stands : StandsForSyntax tree) :
    moduleNames skipTypeOnly tree = sources skipTypeOnly tree := by
  rw [moduleNames, importsOn_singleton stands, sources, List.flatMap_map]

/-- A module is from an import that stands anywhere but in a body for type checkers, if these do
not count. -/
theorem mem_sources_iff {name : String} :
    name ∈ sources skipTypeOnly tree ↔ ∃ place, tree.HasPlace place ∧
      ImportsFrom place.tree.label.node name ∧
        (skipTypeOnly = true → ∀ outer ∈ place.path, isTypeOnlyPart outer = false) := by
  have outside (place : SyntaxPlace) : (skipTypeOnly && isForTypeCheckers place) = false ↔
      (skipTypeOnly = true → ∀ outer ∈ place.path, isTypeOnlyPart outer = false) := by
    cases skipTypeOnly <;> simp [isForTypeCheckers]
  simp only [sources, List.mem_flatMap, importPlaces, List.mem_filter, Tree.mem_places_iff,
    isCountedImport, Bool.and_eq_true, Bool.not_eq_true', outside, mem_modulesOf_iff]
  constructor
  · rintro ⟨place, ⟨has, -, counts⟩, imports⟩
    exact ⟨place, has, imports, counts⟩
  · rintro ⟨place, has, imports, counts⟩
    refine ⟨place, ⟨has, ?_, counts⟩, imports⟩
    rw [isImport]
    generalize place.tree.label.node = node at imports
    cases imports <;> rfl

/-- Going through names with a list of those met already keeps the first of each name. -/
theorem foldl_countedModules (patterns names counted : List String) :
    names.foldl (fun counted name =>
        if counted.contains name || isIgnoredModule patterns name then counted
        else counted ++ [name]) counted =
      counted ++ (names.filter fun name =>
        !(counted.contains name || isIgnoredModule patterns name)).eraseDups := by
  induction names generalizing counted with
  | nil => simp
  | cons name names inductionHypothesis =>
      rw [List.foldl_cons]
      cases dropped : counted.contains name || isIgnoredModule patterns name with
      | true =>
          rw [if_pos rfl, inductionHypothesis, List.filter_cons_of_neg (by rw [dropped]; decide)]
      | false =>
          rw [if_neg Bool.false_ne_true, inductionHypothesis,
            List.filter_cons_of_pos (by rw [dropped]; rfl), List.eraseDups_cons, List.filter_filter,
            List.append_assoc, List.singleton_append]
          refine congrArg (fun rest => counted ++ name :: List.eraseDups rest) ?_
          refine List.filter_congr fun other _ => ?_
          rw [Bool.eq_iff_iff]
          simp
          tauto

theorem countedModules_eq (options : ImportOptions) (stands : StandsForSyntax tree) :
    countedModules options tree =
      ((sources options.ignoreTypeImports tree).filter fun name =>
        !isIgnoredModule options.ignorePatterns name).eraseDups := by
  rw [countedModules, foldl_countedModules, moduleNames_eq_sources stands]
  simp

/-- Without repetitions names stand in the order of their first occurrences. -/
theorem pairwise_idxOf_eraseDups (names : List String) (keep : String → Bool) :
    (names.filter keep).eraseDups.Pairwise fun a b => names.idxOf a < names.idxOf b := by
  induction names generalizing keep with
  | nil => simp
  | cons name names inductionHypothesis =>
      have later {keep : String → Bool} (apart : keep name = false) :
          (names.filter keep).eraseDups.Pairwise fun a b =>
            (name :: names).idxOf a < (name :: names).idxOf b := by
        refine (inductionHypothesis keep).imp_of_mem fun {a b} first second before => ?_
        have ne {other : String} (member : other ∈ (names.filter keep).eraseDups) :
            name ≠ other := by
          rintro rfl
          have kept := (List.mem_filter.mp (List.mem_eraseDups.mp member)).2
          rw [apart] at kept
          cases kept
        rw [List.idxOf_cons_ne _ (ne first), List.idxOf_cons_ne _ (ne second)]
        exact Nat.succ_lt_succ before
      cases kept : keep name with
      | false =>
          rw [List.filter_cons_of_neg (by simp [kept])]
          exact later kept
      | true =>
          rw [List.filter_cons_of_pos kept, List.eraseDups_cons, List.filter_filter,
            List.pairwise_cons]
          refine ⟨fun other member => ?_, later (by simp)⟩
          have differs : name ≠ other := by
            rintro rfl
            simpa using (List.mem_filter.mp (List.mem_eraseDups.mp member)).2
          rw [List.idxOf_cons_self, List.idxOf_cons_ne _ differs]
          exact Nat.succ_pos _

theorem nodup_countedModules (options : ImportOptions) (stands : StandsForSyntax tree) :
    (countedModules options tree).Nodup := by
  rw [countedModules_eq options stands]
  refine (pairwise_idxOf_eraseDups _ _).imp fun {first second} before => ?_
  rintro rfl
  exact Nat.lt_irrefl _ before

theorem mem_countedModules_iff {options : ImportOptions} (stands : StandsForSyntax tree)
    {name : String} :
    name ∈ countedModules options tree ↔ name ∈ sources options.ignoreTypeImports tree ∧
      ∀ pattern ∈ options.ignorePatterns, wildcardMatches pattern name = false := by
  simp [countedModules_eq options stands, isIgnoredModule]

/-! ## The verdict -/

/-- The violation by a module that imports from a list of modules. -/
structure ListsModules (options : ImportOptions) (module : Module) (names : List String)
    (violation : Violation) : Prop where
  ruleId : violation.ruleId = .cplImports
  lineStart : violation.lineStart = 1
  lineEnd : violation.lineEnd = lastLineOf module
  column : violation.column = 0
  symbol : violation.symbol = "<module>"
  message : violation.message = "File has high import coupling: " ++ toString names.length ++
    " module imports (max: " ++ options.maxImports.text ++ ").\n\nImported modules:\n" ++
    "\n".intercalate (names.map fun name => "  - " ++ name) ++
    "\n\nConsider splitting this module into smaller, focused modules."
  snippet : violation.snippet = "# imports=" ++ toString names.length
  details : violation.details = [("modules", .strings names)]

/-- What it means that violations are those of the imports of a module: there is one if it imports
from too many modules, and it lists them. -/
structure ReportsImports (options : ImportOptions) (module : Module) (violations : List Violation) :
    Prop where
  listed : ∀ name, name ∈ countedModules options module.tree ↔
    (∃ place, module.tree.HasPlace place ∧ ImportsFrom place.tree.label.node name ∧
      (options.ignoreTypeImports = true → ∀ outer ∈ place.path, ¬ (outer.tree.label.role = .body ∧
        ∃ position test body orElse,
          nodeAbove outer.context.head? = some (.stmt (.ifStmt position test body orElse)) ∧
            HoldsForTypeCheckers test))) ∧
      ∀ pattern ∈ options.ignorePatterns, wildcardMatches pattern name = false
  once : (countedModules options module.tree).Nodup
  /-- The modules stand in the order of the imports that name them first. -/
  inOrder : (countedModules options module.tree).Pairwise fun first second =>
    (sources options.ignoreTypeImports module.tree).idxOf first <
      (sources options.ignoreTypeImports module.tree).idxOf second
  exceeds : options.maxImports.lt (.int (countedModules options module.tree).length) = true →
    ∃ violation, violations = [violation] ∧
      ListsModules options module (countedModules options module.tree) violation
  within : options.maxImports.lt (.int (countedModules options module.tree).length) = false →
    violations = []
  limit : ∀ limit : Int, options.maxImports = .int limit →
    ∀ count : Nat, options.maxImports.lt (.int count) = true ↔ limit < count

/-- The check reports a module that imports from too many others, once and with all of them. -/
theorem importViolations_reportsImports (options : ImportOptions) (module : Module) :
    ReportsImports options module (importViolations options module) where
  listed name := by
    simp only [mem_countedModules_iff (.module module), mem_sources_iff, ← isTypeOnlyPart_iff,
      Bool.not_eq_true]
  once := nodup_countedModules options (.module module)
  inOrder := by
    rw [countedModules_eq options (.module module)]
    exact pairwise_idxOf_eraseDups _ _
  exceeds tooMany := by
    simp only [importViolations, if_pos tooMany]
    refine ⟨_, rfl, ?_⟩
    constructor <;> simp [String.append_assoc]
  within few := by simp [importViolations, few]
  limit limit same count := by
    rw [same]
    exact Number.int_lt_int_iff

end DesignLint.Check
