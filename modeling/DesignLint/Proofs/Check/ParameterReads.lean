import DesignLint.Proofs.Check.LateReads
import DesignLint.Proofs.Check.Lines
import DesignLint.Proofs.Check.LocalNames
import DesignLint.Proofs.Check.Related
import DesignLint.Proofs.Cohesion.Variables

/-!
# Reads of parameters

The check takes every read of the name of a parameter in the body of its function for a read of the
parameter. Where a construct inside has a variable of the same name, its reads are of that one. What
is reported is right as long as no such read comes first.
-/

namespace DesignLint.Check

open Syntax Cohesion

/-! ## Reads -/

/-- The places in the body of a function where a name is read. -/
def readsIn (function : SyntaxPlace) : List SyntaxPlace :=
  ((bodyPlaces function).flatMap Visit.places).filter fun place =>
    (nameUse? place.tree).any fun use => use.context == .load

/-- The places in the body where a name is read that is written in a certain way. -/
def readsWritten (function : SyntaxPlace) (name : String) : List SyntaxPlace :=
  (readsIn function).filter fun place => (nameUse? place.tree).any fun use => use.name == name

/-- The places in the body where a name is read that stands for a variable of the function. -/
def readsOf (tree : SyntaxTree) (function : SyntaxPlace) (name : String) : List SyntaxPlace :=
  (readsIn function).filter fun place =>
    (nameUse? place.tree).any fun use =>
      (variableOf? tree place use.name).any fun (scope, full) =>
        scope.address == function.address && full == fullName function name

/-- The lines of names. -/
def linesOf (places : List SyntaxPlace) : List Nat :=
  places.filterMap fun place => (nameUse? place.tree).map fun use => use.position.line

/-- Whether a line is too far below the line of a function. -/
def isLateLine (options : LateUsageOptions) (function : SyntaxPlace) (line : Nat) : Bool :=
  function.tree.label.node.position?.any fun position =>
    options.isLate (lineDistance position.line line)

/-- The first line of some places, if it is too far below the function. -/
def lateLine? (options : LateUsageOptions) (function : SyntaxPlace) (places : List SyntaxPlace) :
    Option Nat :=
  (linesOf places).min?.filter (isLateLine options function)

/-- The parameters that are measured: those that take one argument and are not the receiver. -/
def measuredParameters (function : SyntaxPlace) : List String :=
  match function.tree.label.node with
  | .stmt (.functionDef _ _ _ parameters ..) =>
    ((parameters.positional ++ parameters.keywordOnly).map Parameter.name).filter fun name =>
      selfNameOf function.tree function.context.head? != some name
  | _ => []

variable {tree : SyntaxTree} {function place : SyntaxPlace} {name : String}
  {options : LateUsageOptions}

/-! ## First lines -/

theorem isLateLine_of_le {line last : Nat} (late : isLateLine options function line = true)
    (le : line ≤ last) : isLateLine options function last = true := by
  rw [isLateLine, Option.any_eq_true] at late ⊢
  obtain ⟨position, found, late⟩ := late
  refine ⟨position, found, Number.lt_int_of_le late ?_⟩
  simp only [lineDistance, Int.ofNat_eq_natCast]
  omega

/-- Some lines begin before all others, and this makes a difference: what comes first of the others
is late, or there are no others and the lines themselves are late. -/
def IsAhead (late : Nat → Bool) (lines others : List Nat) : Prop :=
  ∃ line ∈ lines, (∀ other ∈ others, line < other) ∧
    ((∀ own ∈ lines, late own = true) ∨ others ≠ [] ∧ ∀ other ∈ others, late other = true)

section Ahead

variable {late : Nat → Bool} {lines others : List Nat}
  (later : ∀ line last, late line = true → line ≤ last → late last = true)

include later

theorem isAhead_iff :
    IsAhead late lines others ↔
      ∃ line, lines.min? = some line ∧
        (others.min? = none ∧ late line = true ∨
          ∃ other, others.min? = some other ∧ line < other ∧ late other = true) := by
  constructor
  · rintro ⟨line, listed, before, decided⟩
    obtain ⟨first, least⟩ : ∃ first, lines.min? = some first :=
      Option.isSome_iff_exists.mp (List.isSome_min?_of_mem listed)
    obtain ⟨firstListed, notAfter⟩ := List.min?_eq_some_iff.mp least
    refine ⟨first, least, ?_⟩
    cases leastOther : others.min? with
    | none =>
        refine .inl ⟨rfl, ?_⟩
        rw [List.min?_eq_none_iff] at leastOther
        rcases decided with own | ⟨nonempty, -⟩
        · exact own first firstListed
        · exact absurd leastOther nonempty
    | some other =>
        have otherListed := (List.min?_eq_some_iff.mp leastOther).1
        have less : first < other :=
          Nat.lt_of_le_of_lt (notAfter line listed) (before other otherListed)
        refine .inr ⟨other, rfl, less, ?_⟩
        rcases decided with own | ⟨-, all⟩
        · exact later first other (own first firstListed) (Nat.le_of_lt less)
        · exact all other otherListed
  · rintro ⟨line, least, decided⟩
    obtain ⟨listed, notAfter⟩ := List.min?_eq_some_iff.mp least
    refine ⟨line, listed, ?_⟩
    rcases decided with ⟨none, isLate⟩ | ⟨other, leastOther, less, isLate⟩
    · rw [List.min?_eq_none_iff] at none
      exact ⟨by simp [none], .inl fun own member => later line own isLate (notAfter own member)⟩
    · obtain ⟨otherListed, notBefore⟩ := List.min?_eq_some_iff.mp leastOther
      refine ⟨fun next member => Nat.lt_of_lt_of_le less (notBefore next member), .inr ⟨?_, ?_⟩⟩
      · exact List.ne_nil_of_mem otherListed
      · exact fun next member => later other next isLate (notBefore next member)

/-- Two lists of lines have the same late first line if neither is ahead of the other. -/
theorem filter_min?_eq_iff :
    lines.min?.filter late = others.min?.filter late ↔
      ¬IsAhead late lines others ∧ ¬IsAhead late others lines := by
  rw [isAhead_iff later, isAhead_iff later]
  cases lines.min? with
  | none => cases others.min? <;> simp [Option.filter]
  | some line =>
      cases others.min? with
      | none => simp [Option.filter]
      | some other =>
          have up := later line other
          have down := later other line
          cases first : late line <;> cases second : late other <;> simp_all [Option.filter]
          omega

end Ahead

/-! ## What the check reports -/

/-- The parameters with a late line among the reads that are written like them. -/
def lateParameters (options : LateUsageOptions) (tree : SyntaxTree) :
    List (SyntaxPlace × String) :=
  (functionPlaces tree).flatMap fun function =>
    ((measuredParameters function).filter fun name =>
      (lateLine? options function (readsWritten function name)).isSome).map fun name =>
        (function, name)

/-- The violation by a parameter of a function. -/
structure ReportsParameter (options : LateUsageOptions) (measured : SyntaxPlace × String)
    (violation : Violation) : Prop where
  ruleId : violation.ruleId = .lateArgument
  shown : ∃ position used, measured.1.tree.label.node.position? = some position ∧
    lateLine? options measured.1 (readsWritten measured.1 measured.2) = some used ∧
    violation.lineStart = position.line ∧ violation.lineEnd = used ∧
    violation.column = position.column ∧ violation.details = [("usage_line", .nat used)] ∧
    violation.message = "Argument \"" ++ measured.2 ++ "\" is used " ++
      toString (lineDistance position.line used) ++ " lines after its declaration (max: " ++
      options.maxLines.text ++ ")."
  named : ∃ shownName, definedName measured.1.tree = some shownName ∧
    violation.symbol = shownName ++ "." ++ measured.2 ∧
    violation.snippet = "def " ++ shownName ++ "(… " ++ measured.2 ++ " …)"

theorem readLines_eq (name : String) (function : SyntaxPlace) :
    readLines name (childrenIn .body function.tree) = linesOf (readsWritten function name) := by
  have reached : Tree.preorderAll (childrenIn .body function.tree) =
      ((bodyPlaces function).flatMap Visit.places).map Visit.tree := by
    rw [← map_tree_bodyPlaces, Tree.preorderAll_eq_flatMap, List.flatMap_map, List.map_flatMap]
    exact List.flatMap_congr fun place _ =>
      (Tree.map_tree_visits _ place.tree place.context place.address).symm
  rw [readLines, reached, List.filterMap_map, linesOf, readsWritten, readsIn, List.filter_filter,
    List.filterMap_filter]
  refine List.filterMap_congr fun place _ => ?_
  rw [Function.comp_apply, nameUse?]
  cases place.tree.label.node with
  | expr expr =>
      cases expr with
      | name position id context =>
          cases context <;> by_cases same : id = name <;> simp [same]
      | _ => rfl
  | _ => rfl

/-- A parameter is reported if the first read that is written like it is late. -/
theorem lateParameter?_reports {position : Position} {isAsync : Bool} {shownName : String}
    {parameters : Parameters} {body : List Stmt} {decorators : List Expr} {returns : Option Expr}
    (node : function.tree.label.node = .stmt
      (.functionDef position isAsync shownName parameters body decorators returns)) :
    if (lateLine? options function (readsWritten function name)).isSome then
      ∃ violation,
        lateParameter? options function.tree position.line position.column name = some violation ∧
          ReportsParameter options (function, name) violation
    else lateParameter? options function.tree position.line position.column name = none := by
  have stands : function.tree.label.node.position? = some position := by
    rw [node, Node.position?, Stmt.position]
  have called : definedName function.tree = some shownName := by rw [definedName, node]
  have judged (used : Nat) : isLateLine options function used =
      options.isLate (lineDistance position.line used) := by
    rw [isLateLine, stands, Option.any_some]
  rw [lateParameter?, readLines_eq, leastLine_eq_min?, called, Option.getD_some]
  cases least : (linesOf (readsWritten function name)).min? with
  | none => simp [lateLine?, least]
  | some used =>
      have found : lateLine? options function (readsWritten function name) =
          if options.isLate (lineDistance position.line used) then some used else none := by
        rw [lateLine?, least, Option.filter_some, judged]
      cases late : options.isLate (lineDistance position.line used) with
      | false => simp [found, late]
      | true =>
          rw [late, if_pos rfl] at found
          rw [found, Option.isSome_some, if_pos rfl]
          refine ⟨_, by simp only [Option.bind_eq_bind, Option.bind_some, late, if_true]; rfl, rfl,
            ⟨position, used, stands, found, rfl, rfl, rfl, rfl, ?_⟩, shownName, called, rfl, ?_⟩
          · simp [String.append_assoc]
          · simp [String.append_assoc]

/-- The violations by the parameters of a function are those with a late line. -/
theorem lateParametersOf_reports (isFunction : isFunctionDef function.tree = true)
    {parent : SyntaxTree} (above : function.context.head? = some parent) :
    List.Forall₂ (ReportsParameter options)
      (((measuredParameters function).filter fun name =>
        (lateLine? options function (readsWritten function name)).isSome).map fun name =>
          (function, name))
      (lateParametersOf options function.tree parent) := by
  rw [isFunctionDef] at isFunction
  split at isFunction
  · rename_i position isAsync shownName parameters body decorators returns node
    rw [measuredParameters, lateParametersOf, node, above, List.forall₂_map_left_iff]
    exact forall₂_filter_filterMap fun name _ => lateParameter?_reports node
  · cases isFunction

/-- The check reports every measured parameter with a late line. -/
theorem lateArguments_reportsEach (options : LateUsageOptions) (module : Module) :
    ReportsEach (ReportsParameter options) (lateParameters options module.tree)
      (lateArguments options module.tree) := by
  have root : isFunctionDef module.tree = false := rfl
  have each : List.Forall₂ (ReportsParameter options) (lateParameters options module.tree)
      ((functionPlaces module.tree).flatMap fun function =>
        function.context.head?.elim [] (lateParametersOf options function.tree)) := by
    refine forall₂_flatMap fun function listed => ?_
    obtain ⟨has, isFunction⟩ := mem_functionPlaces_iff.mp listed
    cases has with
    | whole => cases root.symm.trans isFunction
    | child aboveHas foundChild => exact lateParametersOf_reports isFunction rfl
  have perm := (functionsIn_perm_parents root).symm.flatMap_right
    fun pair => pair.2.elim [] (lateParametersOf options pair.1)
  rw [List.flatMap_map, List.flatMap_map] at perm
  exact ⟨_, each, perm⟩

/-! ## What a read stands for -/

theorem kindAt?_of_isFunctionDef (isFunction : isFunctionDef function.tree = true) :
    kindAt? function = some .function := by
  rw [isFunctionDef] at isFunction
  rw [kindAt?_eq]
  split at isFunction <;> simp_all

theorem mem_readsIn_iff (has : tree.HasPlace function) :
    place ∈ readsIn function ↔
      tree.HasPlace place ∧ (∃ body ∈ bodyPlaces function, body ∈ place.path) ∧
        ∃ use, nameUse? place.tree = some use ∧ use.context = .load := by
  simp only [readsIn, List.mem_filter, List.mem_flatMap, Option.any_eq_true, beq_iff_eq]
  constructor
  · rintro ⟨⟨body, listed, below⟩, use⟩
    obtain ⟨index, subtree, found, role, rfl⟩ := mem_bodyPlaces_iff.mp listed
    obtain ⟨placeHas, on⟩ := (Tree.HasPlace.child has found).of_mem_places below
    exact ⟨placeHas, ⟨_, listed, on⟩, use⟩
  · rintro ⟨placeHas, ⟨body, listed, on⟩, use⟩
    exact ⟨⟨body, listed, placeHas.mem_places_of_mem_path on⟩, use⟩

/-- A measured parameter is a variable of the function. -/
theorem standing_of_measuredParameter (stands : StandsForSyntax tree)
    (has : tree.HasPlace function) (measured : name ∈ measuredParameters function) :
    standing tree function (fullName function name) = .own := by
  unfold measuredParameters at measured
  split at measured
  · rename_i position isAsync shownName parameters body decorators returns node
    have isParameters : parametersOf function.tree = some parameters := by rw [parametersOf, node]
    have isFunction : kindAt? function = some .function :=
      kindAt?_of_isFunctionDef (by rw [isFunctionDef, node])
    have listed : name ∈ parameterNames parameters := by
      rw [parameterNames, List.map_append, List.map_append, List.mem_append, List.mem_append]
      exact .inl (.inl (List.mem_of_mem_filter measured))
    obtain ⟨parameter, isParameter, binds⟩ :=
      (mem_parameterNames_iff stands has isParameters).mp listed
    have bound : boundName? parameter.tree.label.node = some name := by
      generalize parameter.tree.label.node = construct at binds
      cases binds
      rfl
    have nearest := nearestScope?_of_mem_parameterPlaces stands has
      (hasOwnScope_of_kindAt? isFunction) isParameter
    exact standing_of_parameter isParameter bound (fullName_of_nearestScope? stands
      (hasPlace_of_mem_parameterPlaces has isParameter) isFunction nearest name)
  · cases measured

/-- A read in the body stands for a parameter if no construct in between has something to say about
its name. -/
theorem mem_readsOf_iff (stands : StandsForSyntax tree) (listed : function ∈ functionPlaces tree)
    (measured : name ∈ measuredParameters function) (read : place ∈ readsIn function)
    {use : NameUse} (written : nameUse? place.tree = some use) :
    place ∈ readsOf tree function name ↔
      fullName place use.name = fullName function name ∧
        ∀ inner ∈ scopesSeenFrom place, function ∈ inner.around →
          standing tree inner (fullName function name) = .outer := by
  obtain ⟨has, isDefinition⟩ := mem_functionPlaces_iff.mp listed
  have isFunction := kindAt?_of_isFunctionDef isDefinition
  obtain ⟨placeHas, ⟨body, inBody, on⟩, -⟩ := (mem_readsIn_iff has).mp read
  have seen := mem_scopesSeenFrom_of_function isFunction
    (mem_scopesOver_of_body stands placeHas has isFunction inBody on)
  have own := standing_of_measuredParameter stands has measured
  simp only [readsOf, List.mem_filter, read, true_and, written, Option.any_some,
    Option.any_eq_true, Bool.and_eq_true, beq_iff_eq, Prod.exists]
  constructor
  · rintro ⟨scope, full, variableIs, address, rfl⟩
    obtain ⟨scopeSeen, same⟩ := mem_scopesSeenFrom_of_variableOf? variableIs
    have scopeHas := placeHas.around (mem_around_of_mem_scopesSeenFrom scopeSeen)
    obtain rfl := scopeHas.eq_of_address_eq has address
    rw [same] at own variableIs
    exact ⟨same.symm, same ▸ ((variableOf?_eq_some_iff placeHas seen own).mp variableIs).passes⟩
  · rintro ⟨same, passes⟩
    rw [← same] at own passes
    exact ⟨function, fullName place use.name,
      (variableOf?_eq_some_iff placeHas seen own).mpr ⟨seen, passes⟩, rfl, same⟩

/-! ## Reports and reads -/

/-- What it means that violations go by how reads are written. The reads that stand for a parameter
may be others, and what is reported is right unless one sort of reads is ahead of the other. -/
structure ReportsWrittenReads (options : LateUsageOptions) (tree : SyntaxTree)
    (violations : List Violation) : Prop where
  reported : ReportsEach (ReportsParameter options) (lateParameters options tree) violations
  once : ((functionPlaces tree).map (·.address)).Nodup
  functions : ∀ function, function ∈ functionPlaces tree ↔
    tree.HasPlace function ∧ isFunctionDef function.tree = true
  late : ∀ limit : Int, options.maxLines = .int limit → ∀ function ∈ functionPlaces tree,
    ∀ position, function.tree.label.node.position? = some position →
      ∀ line, isLateLine options function line = true ↔ position.line + limit < line
  reads : ∀ function ∈ functionPlaces tree, ∀ place, place ∈ readsIn function ↔
    tree.HasPlace place ∧ (∃ body ∈ bodyPlaces function, body ∈ place.path) ∧
      ∃ use, nameUse? place.tree = some use ∧ use.context = .load
  /-- Reads of private names aside, a read that is written like a parameter stands for it unless a
  scope inside has a variable of that name. -/
  stands : ∀ function ∈ functionPlaces tree, ∀ name ∈ measuredParameters function,
    ∀ place ∈ readsIn function, ∀ use, nameUse? place.tree = some use →
      (place ∈ readsOf tree function name ↔
        fullName place use.name = fullName function name ∧
          ∀ inner ∈ scopesSeenFrom place, function ∈ inner.around →
            standing tree inner (fullName function name) = .outer)
  right : ∀ function ∈ functionPlaces tree, ∀ name ∈ measuredParameters function,
    lateLine? options function (readsWritten function name) =
        lateLine? options function (readsOf tree function name) ↔
      ¬IsAhead (isLateLine options function) (linesOf (readsWritten function name))
          (linesOf (readsOf tree function name)) ∧
        ¬IsAhead (isLateLine options function) (linesOf (readsOf tree function name))
          (linesOf (readsWritten function name))

/-- The late parameters of a module are reported by the first reads that are written like them. -/
theorem lateArguments_reportsWrittenReads (options : LateUsageOptions) (module : Module) :
    ReportsWrittenReads options module.tree (lateArguments options module.tree) where
  reported := lateArguments_reportsEach options module
  once := nodup_address_functionPlaces _
  functions _ := mem_functionPlaces_iff
  late limit same function _ position stands line := by
    obtain ⟨maxLines⟩ := options
    obtain rfl : maxLines = .int limit := same
    rw [isLateLine, stands, Option.any_some, isLate_lineDistance_iff]
  reads _ listed _ := mem_readsIn_iff (mem_functionPlaces_iff.mp listed).1
  stands _ listed _ measured _ read _ written :=
    mem_readsOf_iff (.module module) listed measured read written
  right _ _ _ _ := filter_min?_eq_iff fun _ _ late le => isLateLine_of_le late le

/-- A function that hands its parameter to a lambda with a parameter of the same name. -/
def keyFunction : Stmt :=
  .functionDef ⟨1, 0, some 5⟩ false "handle"
    (.mk [] [.mk ⟨1, 11, some 1⟩ "request" none] none [] [] none [])
    [.assign ⟨2, 4, some 2⟩ [.name ⟨2, 4, some 2⟩ "key" .store]
        (.lambda ⟨2, 10, some 2⟩
          (.mk [] [.mk ⟨2, 17, some 2⟩ "request" none] none [] [] none [])
          (.attr ⟨2, 26, some 2⟩ (.name ⟨2, 26, some 2⟩ "request" .load) "id" .load)),
      .passStmt ⟨3, 4, some 3⟩,
      .passStmt ⟨4, 4, some 4⟩,
      .returnStmt ⟨5, 4, some 5⟩
        (some (.call ⟨5, 11, some 5⟩ (.name ⟨5, 11, some 5⟩ "key" .load)
          [.name ⟨5, 15, some 5⟩ "request" .load] []))] [] none

/-- A module that consists of this function. -/
def keyModule : Module := ⟨[keyFunction]⟩

/-- The place of this function. -/
def keyPlace : SyntaxPlace := (Visit.whole keyModule.tree).child 0 (keyFunction.tree .body)

/-- The read in the lambda hides that the parameter is read late. -/
theorem lateArguments_keyModule :
    ReportsWrittenReads ⟨2⟩ keyModule.tree (lateArguments ⟨2⟩ keyModule.tree) ∧
      linesOf (readsWritten keyPlace "request") = [2, 5] ∧
      linesOf (readsOf keyModule.tree keyPlace "request") = [5] ∧
      lateLine? ⟨2⟩ keyPlace (readsOf keyModule.tree keyPlace "request") = some 5 ∧
      (lateArguments ⟨2⟩ keyModule.tree).isEmpty = true :=
  ⟨lateArguments_reportsWrittenReads ⟨2⟩ keyModule, by decide +kernel, by decide +kernel,
    by decide +kernel, by decide +kernel⟩

end DesignLint.Check
