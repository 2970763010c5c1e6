import DesignLint.Proofs.Check.Related
import DesignLint.Proofs.Rule.Failure
import DesignLint.Proofs.Rule.Numbering
import DesignLint.Proofs.Syntax.FunctionParts
import DesignLint.Proofs.Syntax.OwnScope

/-!
# Own defaults of parameters

A positional parameter and its default have the same number when both are counted from the end. A
keyword-only parameter and its default have the same number. The check pairs them in this way as
long as there are no more defaults than parameters, so it looks at every parameter of every function
once, with the default that is its own.
-/

namespace DesignLint.Check

open Syntax Cohesion

/-! ## Parameters and their defaults -/

/-- The parameters that can have a default, by number: the positional ones, whether or not they can
be given by name, and the keyword-only ones. -/
inductive ParameterIndex where
  | positional (number : Nat)
  | keywordOnly (number : Nat)
deriving DecidableEq

/-- The parameter with an index. -/
def parameterAt? (parameters : Parameters) : ParameterIndex → Option Parameter
  | .positional number => parameters.positional[number]?
  | .keywordOnly number => parameters.keywordOnly[number]?

/-- The default of the parameter with an index: the last positional parameter has the last default,
and so on. -/
def ownDefault? (parameters : Parameters) : ParameterIndex → Option Expr
  | .positional number => parameters.defaults.reverse[parameters.positional.length - 1 - number]?
  | .keywordOnly number => parameters.keywordDefaults[number]?.join

/-- The indexes of the parameters of a function, in order. -/
def indexesOf (parameters : Parameters) : List ParameterIndex :=
  (List.range parameters.positional.length).map .positional ++
    (List.range parameters.keywordOnly.length).map .keywordOnly

/-- Whether there are no more defaults than positional parameters, and a slot for a default for each
keyword-only one. -/
def alignsDefaults (parameters : Parameters) : Bool :=
  decide (parameters.defaults.length ≤ parameters.positional.length) &&
    parameters.keywordDefaults.length == parameters.keywordOnly.length

/-- Whether the parameters of all functions in a tree have their defaults aligned. -/
def isAligned (tree : SyntaxTree) : Bool :=
  tree.preorder.all fun inner =>
    match inner.label.node with
    | .parameters parameters => alignsDefaults parameters
    | _ => true

/-- A construct is a function definition or a lambda with some parameters. -/
inductive Takes : Node → Parameters → Prop where
  | definition (position : Position) (isAsync : Bool) (name : String) (parameters : Parameters)
      (body : List Stmt) (decorators : List Expr) (returns : Option Expr) :
      Takes (.stmt (.functionDef position isAsync name parameters body decorators returns))
        parameters
  | lambda (position : Position) (parameters : Parameters) (body : Expr) :
      Takes (.expr (.lambda position parameters body)) parameters

/-- A parameter of a function. -/
structure Slot where
  function : SyntaxPlace
  index : ParameterIndex

/-- The parameters of the function at a place. -/
def slotsOf (place : SyntaxPlace) : List Slot :=
  match parametersOf place.tree with
  | some parameters => (indexesOf parameters).map (Slot.mk place)
  | none => []

/-! ## Flags -/

/-- A name is a question: a question word alone, or with an underscore or a capital letter behind
it. -/
def IsQuestion (name : String) : Prop :=
  ∃ word ∈ questionWords, ∃ rest : List Char, name.toList = word.toList ++ rest ∧
    ∀ c ∈ rest.head?, c = '_' ∨ Unicode.isUpper c = true

/-- A type is that of truth values, by its bare, dotted or quoted name. -/
inductive IsBool : Expr → Prop where
  | bare (position : Position) (context : Context) : IsBool (.name position "bool" context)
  | dotted (position : Position) (value : Expr) (context : Context) :
      IsBool (.attr position value "bool" context)
  | quoted (position : Position) (text : String) (kind : Option String)
      (trimmed : Unicode.trim text = "bool") : IsBool (.constant position (.str text) kind)

/-- A parameter with its default is a flag without being named as a question. -/
def IsFlag (options : BooleanOptions) (parameter : Parameter) (default : Option Expr) : Prop :=
  ¬ IsQuestion parameter.name ∧
    ((∃ hint, parameter.hint = some hint ∧ IsBool hint) ∨
      options.ignoreDefault = false ∧
        ∃ position value kind, default = some (.constant position (.bool value) kind))

variable {options : BooleanOptions} {tree : SyntaxTree} {place : SyntaxPlace}

theorem beginsWithWord_iff {name word : List Char} :
    beginsWithWord name word = true ↔
      ∃ rest, name = word ++ rest ∧ ∀ c ∈ rest.head?, c = '_' ∨ Unicode.isUpper c = true := by
  have behind (rest : List Char) : beginsWithWord (word ++ rest) word = true ↔
      ∀ c ∈ rest.head?, c = '_' ∨ Unicode.isUpper c = true := by
    have front : word.isPrefixOf (word ++ rest) = true :=
      List.isPrefixOf_iff_prefix.mpr (List.prefix_append word rest)
    rw [beginsWithWord, front, List.drop_left, Bool.true_and]
    cases rest <;> simp
  constructor
  · intro begins
    have front := List.isPrefixOf_iff_prefix.mp (Bool.and_eq_true_iff.mp begins).1
    obtain ⟨rest, rfl⟩ := front
    exact ⟨rest, rfl, (behind rest).mp begins⟩
  · rintro ⟨rest, rfl, next⟩
    exact (behind rest).mpr next

theorem readsAsQuestion_iff {name : String} : readsAsQuestion name = true ↔ IsQuestion name := by
  simp only [readsAsQuestion, List.any_eq_true, beginsWithWord_iff, IsQuestion]

theorem isBoolType_iff {hint : Expr} : isBoolType hint = true ↔ IsBool hint := by
  constructor
  · intro isBool
    unfold isBoolType at isBool
    split at isBool
    · obtain rfl := beq_iff_eq.mp isBool
      exact .bare ..
    · obtain rfl := beq_iff_eq.mp isBool
      exact .dotted ..
    · exact .quoted _ _ _ (beq_iff_eq.mp isBool)
    · cases isBool
  · rintro (_ | _ | ⟨position, text, kind, trimmed⟩)
    · rfl
    · rfl
    · exact beq_iff_eq.mpr trimmed

theorem isTruthValue_iff {default : Expr} :
    isTruthValue default = true ↔
      ∃ position value kind, default = .constant position (.bool value) kind := by
  constructor
  · intro isTruth
    unfold isTruthValue at isTruth
    split at isTruth
    · exact ⟨_, _, _, rfl⟩
    · cases isTruth
  · rintro ⟨position, value, kind, rfl⟩
    rfl

theorem parametersOf_eq_some_iff {parameters : Parameters} :
    parametersOf tree = some parameters ↔ Takes tree.label.node parameters := by
  constructor
  · intro found
    unfold parametersOf at found
    split at found
    · rename_i node
      cases found
      rw [node]
      exact .definition ..
    · rename_i node
      cases found
      rw [node]
      exact .lambda ..
    · cases found
  · intro takes
    unfold parametersOf
    cases node : tree.label.node <;> rw [node] at takes <;> cases takes <;> rfl

/-! ## Pairs of parameters and defaults -/

theorem filterMap_range_getElem? {α β : Type} (items : List α) (f : Nat → β) :
    ((List.range items.length).filterMap fun number => items[number]?.map (·, f number)) =
      items.zip ((List.range items.length).map f) := by
  induction items generalizing f with
  | nil => rfl
  | cons item items inductionHypothesis =>
      rw [List.length_cons, List.range_succ_eq_map, List.map_cons, List.zip_cons_cons, List.map_map,
        ← inductionHypothesis, List.filterMap_cons, List.filterMap_map]
      rfl

/-- Defaults with nothing put before them but what fills the places of the parameters without one
are those with the same number from the end. -/
theorem padded_defaults_eq {count : Nat} {defaults : List Expr} (fit : defaults.length ≤ count) :
    List.replicate (count - defaults.length) none ++ defaults.map some =
      (List.range count).map fun number => defaults.reverse[count - 1 - number]? := by
  refine List.ext_getElem (by simp; omega) fun number inFirst inSecond => ?_
  have within : number < count := by simpa using inSecond
  rw [List.getElem_map, List.getElem_range]
  -- counted from the end, the parameters without a default lie beyond the defaults
  by_cases early : number < count - defaults.length
  · rw [List.getElem_append_left (by simpa using early), List.getElem_replicate,
      List.getElem?_eq_none (by simp; omega)]
  · rw [List.getElem_append_right (by simpa using Nat.le_of_not_lt early), List.getElem_map,
      List.getElem?_reverse (by omega), List.getElem?_eq_getElem (by omega), Option.some.injEq]
    congr 1
    rw [List.length_replicate]
    omega

theorem slots_eq (slots : List (Option Expr)) :
    slots = (List.range slots.length).map fun number => slots[number]?.join := by
  refine List.ext_getElem (by simp) fun number inFirst inSecond => ?_
  rw [List.getElem_map, List.getElem_range, List.getElem?_eq_getElem inFirst, Option.join_some]

/-- The check pairs every parameter with its own default. -/
theorem parametersWithDefaults_eq {parameters : Parameters}
    (aligned : alignsDefaults parameters = true) :
    parametersWithDefaults parameters = (indexesOf parameters).filterMap fun index =>
      (parameterAt? parameters index).map (·, ownDefault? parameters index) := by
  obtain ⟨fit, sameLength⟩ := Bool.and_eq_true_iff.mp aligned
  have keyword : parameters.keywordDefaults = (List.range parameters.keywordOnly.length).map
      fun number => parameters.keywordDefaults[number]?.join := by
    rw [← beq_iff_eq.mp sameLength]
    exact slots_eq _
  rw [parametersWithDefaults, padded_defaults_eq (of_decide_eq_true fit), keyword, indexesOf,
    List.filterMap_append, List.filterMap_map, List.filterMap_map, ← filterMap_range_getElem?,
    ← filterMap_range_getElem?]
  rfl

/-! ## Slots -/

theorem mem_indexesOf_iff {parameters : Parameters} {index : ParameterIndex} :
    index ∈ indexesOf parameters ↔ ∃ parameter, parameterAt? parameters index = some parameter := by
  have within (items : List Parameter) (number : Nat) :
      number < items.length ↔ ∃ parameter, items[number]? = some parameter := by
    simp [List.getElem?_eq_some_iff]
  rw [indexesOf, List.mem_append, List.mem_map, List.mem_map]
  cases index <;> simp [parameterAt?, within]

theorem nodup_indexesOf (parameters : Parameters) : (indexesOf parameters).Nodup := by
  refine List.nodup_append.mpr ⟨?_, ?_, ?_⟩
  · exact List.nodup_range.map fun _ _ => ParameterIndex.positional.inj
  · exact List.nodup_range.map fun _ _ => ParameterIndex.keywordOnly.inj
  · simp

theorem mem_slotsOf_iff {slot : Slot} :
    slot ∈ slotsOf place ↔ slot.function = place ∧ ∃ parameters parameter,
      Takes place.tree.label.node parameters ∧
        parameterAt? parameters slot.index = some parameter := by
  simp only [← parametersOf_eq_some_iff]
  rw [slotsOf]
  cases found : parametersOf place.tree with
  | none => simp
  | some parameters =>
      simp only [List.mem_map, mem_indexesOf_iff, Option.some.injEq]
      constructor
      · rintro ⟨index, ⟨parameter, isParameter⟩, rfl⟩
        exact ⟨rfl, parameters, parameter, rfl, isParameter⟩
      · rintro ⟨rfl, _, parameter, rfl, isParameter⟩
        exact ⟨slot.index, ⟨parameter, isParameter⟩, rfl⟩

/-- The place and the index of a slot. -/
def Slot.key (slot : Slot) : Address × ParameterIndex := (slot.function.address, slot.index)

theorem nodup_key_slotsOf (place : SyntaxPlace) : ((slotsOf place).map Slot.key).Nodup := by
  rw [slotsOf]
  cases parametersOf place.tree with
  | none => exact List.nodup_nil
  | some parameters =>
      rw [List.map_map]
      exact (nodup_indexesOf parameters).map fun _ _ same => (Prod.ext_iff.mp same).2

/-- Every parameter has one slot. -/
theorem nodup_key_slots (tree : SyntaxTree) :
    ((tree.places.flatMap slotsOf).map Slot.key).Nodup := by
  rw [List.map_flatMap, List.nodup_flatMap]
  refine ⟨fun place _ => nodup_key_slotsOf place, ?_⟩
  have places := List.pairwise_map.mp tree.nodup_map_address_places
  refine places.imp fun apart key inFirst inSecond => ?_
  obtain ⟨slot, inSlots, rfl⟩ := List.mem_map.mp inFirst
  obtain ⟨other, inOthers, same⟩ := List.mem_map.mp inSecond
  have address := (Prod.ext_iff.mp same).1
  rw [Slot.key, Slot.key, (mem_slotsOf_iff.mp inSlots).1,
    (mem_slotsOf_iff.mp inOthers).1] at address
  exact apart address.symm

/-! ## The violations of functions -/

/-- Whether a parameter is a flag without being named as a question. -/
def showsFlag (options : BooleanOptions) (slot : Slot) : Bool :=
  (parametersOf slot.function.tree).any fun parameters =>
    (parameterAt? parameters slot.index).any fun parameter =>
      !readsAsQuestion parameter.name &&
        options.marksBoolean parameter (ownDefault? parameters slot.index)

/-- The parameters of the functions in a tree that are flags, in the order of the text. -/
def flagSlots (options : BooleanOptions) (tree : SyntaxTree) : List Slot :=
  (tree.places.flatMap slotsOf).filter (showsFlag options)

/-- The violation by a parameter of a function. -/
structure ShowsFlag (function : SyntaxTree) (parameter : Parameter) (violation : Violation) :
    Prop where
  ruleId : violation.ruleId = .boolParam
  lineStart : violation.lineStart = parameter.position.line
  lineEnd : violation.lineEnd = parameter.position.lastLine
  column : violation.column = parameter.position.column
  symbol : violation.symbol = (definedName function).getD "lambda" ++ "." ++ parameter.name
  message : violation.message = "Boolean parameter \"" ++ parameter.name ++
    "\" is discouraged. Consider using descriptive objects or enums instead, e.g., replace \"" ++
    violation.snippet ++ "\" with \"" ++ suggestedReplacement parameter.name ++ "\"."
  snippet : violation.snippet = parameter.name ++ ": bool"
  details : violation.details = [("parameter", .string parameter.name)]

/-- The violation by the parameter in a slot. -/
def ReportsFlag (slot : Slot) (violation : Violation) : Prop :=
  ∃ parameters parameter, Takes slot.function.tree.label.node parameters ∧
    parameterAt? parameters slot.index = some parameter ∧
      ShowsFlag slot.function.tree parameter violation

theorem isFlag_iff {parameter : Parameter} {default : Option Expr} :
    (!readsAsQuestion parameter.name && options.marksBoolean parameter default) = true ↔
      IsFlag options parameter default := by
  simp only [Bool.and_eq_true, Bool.not_eq_true', ← Bool.not_eq_true, readsAsQuestion_iff,
    BooleanOptions.marksBoolean, Bool.or_eq_true, Option.any_eq_true, isBoolType_iff,
    isTruthValue_iff]
  refine and_congr_right fun _ => or_congr_right ?_
  rw [and_comm, Bool.not_eq_true]
  refine and_congr_right fun _ => ?_
  constructor
  · rintro ⟨_, found, position, value, kind, rfl⟩
    exact ⟨position, value, kind, found⟩
  · rintro ⟨position, value, kind, found⟩
    exact ⟨_, found, position, value, kind, rfl⟩

theorem mem_flagSlots_iff {slot : Slot} :
    slot ∈ flagSlots options tree ↔ tree.HasPlace slot.function ∧ ∃ parameters parameter,
      Takes slot.function.tree.label.node parameters ∧
        parameterAt? parameters slot.index = some parameter ∧
          IsFlag options parameter (ownDefault? parameters slot.index) := by
  have shown : showsFlag options slot = true ↔ ∃ parameters parameter,
      Takes slot.function.tree.label.node parameters ∧
        parameterAt? parameters slot.index = some parameter ∧
          IsFlag options parameter (ownDefault? parameters slot.index) := by
    simp only [showsFlag, Option.any_eq_true, isFlag_iff, parametersOf_eq_some_iff,
      exists_and_left]
  rw [flagSlots, List.mem_filter, List.mem_flatMap, shown]
  constructor
  · rintro ⟨⟨place, listed, inPlace⟩, isFlag⟩
    obtain ⟨rfl, -⟩ := mem_slotsOf_iff.mp inPlace
    exact ⟨Tree.hasPlace_of_mem_places listed, isFlag⟩
  · rintro ⟨has, parameters, parameter, takes, isParameter, isFlag⟩
    exact ⟨⟨slot.function, has.mem_places,
      mem_slotsOf_iff.mpr ⟨rfl, parameters, parameter, takes, isParameter⟩⟩,
      parameters, parameter, takes, isParameter, isFlag⟩

/-- The violation that the check makes of a slot. -/
def flagViolation? (options : BooleanOptions) (slot : Slot) : Option Violation :=
  (parametersOf slot.function.tree).bind fun parameters =>
    ((parameterAt? parameters slot.index).filter fun parameter =>
      !readsAsQuestion parameter.name &&
        options.marksBoolean parameter (ownDefault? parameters slot.index)).map
          (booleanViolation slot.function.tree)

theorem showsFlag_booleanViolation (function : SyntaxTree) (parameter : Parameter) :
    ShowsFlag function parameter (booleanViolation function parameter) := by
  constructor <;> simp [booleanViolation, String.append_assoc]

/-- The check makes a violation of a slot with a flag, and of no other. -/
theorem flagViolation?_eq (slot : Slot) :
    if showsFlag options slot then
      ∃ violation, flagViolation? options slot = some violation ∧ ReportsFlag slot violation
    else flagViolation? options slot = none := by
  rw [showsFlag, flagViolation?]
  cases found : parametersOf slot.function.tree with
  | none => simp
  | some parameters =>
      cases isParameter : parameterAt? parameters slot.index with
      | none => simp [isParameter]
      | some parameter =>
          rw [Option.any_some, Option.bind_some, isParameter, Option.any_some, Option.filter_some]
          split
          · exact ⟨_, rfl, parameters, parameter, parametersOf_eq_some_iff.mp found, isParameter,
              showsFlag_booleanViolation _ _⟩
          · rfl

theorem functionBooleans_eq
    (aligned : ∀ parameters, parametersOf place.tree = some parameters →
      alignsDefaults parameters = true) :
    functionBooleans options place.tree = (slotsOf place).filterMap (flagViolation? options) := by
  rw [functionBooleans, slotsOf]
  cases found : parametersOf place.tree with
  | none => rfl
  | some parameters =>
      simp only [parametersWithDefaults_eq (aligned parameters found), List.filter_filterMap,
        List.map_filterMap, List.filterMap_map]
      refine List.filterMap_congr fun index _ => ?_
      rw [Function.comp_apply, flagViolation?, found, Option.bind_some]
      cases parameterAt? parameters index with
      | none => rfl
      | some parameter =>
          rw [Option.map_some, Option.filter_some, Option.filter_some]
          split <;> rfl

/-! ## What the check reports -/

/-- Functions in an aligned tree have their defaults aligned. -/
theorem alignsDefaults_of_isAligned (stands : StandsForSyntax tree)
    (aligned : isAligned tree = true) (has : tree.HasPlace place) {parameters : Parameters}
    (found : parametersOf place.tree = some parameters) : alignsDefaults parameters = true := by
  obtain ⟨rest, children, -⟩ :=
    exists_children_of_parametersOf (standsForSyntax_of_hasPlace stands has) found
  have isPart : parameters.tree ∈ place.tree.children := by
    rw [children]
    exact List.mem_cons_self
  have below := Tree.mem_preorder_of_mem_children place.tree.self_mem_preorder isPart
  have inTree : place.tree ∈ tree.preorder := by
    rw [← Tree.map_tree_places]
    exact List.mem_map_of_mem has.mem_places
  have fits := List.all_eq_true.mp aligned _ (Tree.mem_preorder_trans inTree below)
  rwa [Parameters.label_tree] at fits

/-- The check reports every flag of the functions in a tree once. -/
theorem booleanParameters_reportsEach (stands : StandsForSyntax tree)
    (aligned : isAligned tree = true) :
    ReportsEach ReportsFlag (flagSlots options tree) (booleanParameters options tree) := by
  have each : tree.places.flatMap (fun place => functionBooleans options place.tree) =
      (tree.places.flatMap slotsOf).filterMap (flagViolation? options) := by
    rw [List.filterMap_flatMap]
    refine List.flatMap_congr fun place listed => ?_
    exact functionBooleans_eq fun parameters found =>
      alignsDefaults_of_isAligned stands aligned (Tree.hasPlace_of_mem_places listed) found
  -- the order by levels only permutes what the order of the text lists
  refine ⟨(tree.places.flatMap slotsOf).filterMap (flagViolation? options),
    forall₂_filter_filterMap fun slot _ => flagViolation?_eq slot, ?_⟩
  rw [← each, booleanParameters, ← List.flatMap_map, Tree.map_tree_places]
  exact ((Tree.flatten_levels_perm tree).flatMap_right (functionBooleans options)).symm

/-! ## The findings in the order of the source -/

/-- The analyzer of the check. -/
def flagAnalyzer (options : BooleanOptions) (severity : Severity) : Analyzer :=
  ⟨.booleans options, severity⟩

/-- The finding for the parameter in a slot in a file, with any identifier. -/
def FindsFlag (analyzer : Analyzer) (path : String) (slot : Slot) (finding : Finding) : Prop :=
  ∃ violation, ReportsFlag slot violation ∧
    ∃ id, finding = { analyzer.findingOf path violation with id := id }

/-- A finding stands on an earlier line than another one, or no further to the right on the same
line. -/
def StandsBefore (first second : Finding) : Prop :=
  first.location.lineStart < second.location.lineStart ∨
    first.location.lineStart = second.location.lineStart ∧
      first.location.column ≤ second.location.column

theorem standsBefore_of_sourceOrder {first second : Finding}
    (samePath : first.location.path = second.location.path)
    (ordered : first.sourceOrder second = true) : StandsBefore first second := by
  have ranks := Finding.sourceOrder_iff.mp ordered
  simp only [FindingKey.rank, FindingKey.rankInFile, Finding.key, samePath,
    Prod.Lex.toLex_le_toLex, lt_self_iff_false, true_and, false_or] at ranks
  rcases ranks with line | ⟨line, column | ⟨column, -⟩⟩
  · exact .inl line
  · exact .inr ⟨line, column.le⟩
  · exact .inr ⟨line, column.le⟩

theorem path_of_mem_numbered {analyzer : Analyzer} {path : String} {violations : List Violation}
    {finding : Finding}
    (listed : finding ∈ analyzer.numbered (violations.map (analyzer.findingOf path))) :
    finding.location.path = path := by
  obtain ⟨own, member, number, rfl⟩ := Analyzer.exists_of_mem_numbered listed
  obtain ⟨violation, -, rfl⟩ := List.mem_map.mp member
  rfl

/-- The findings in a file are those for its flags, in the order of the source. -/
theorem flagFindings_of_checkText {module : Module} {severity : Severity} {path : String}
    {findings : List Finding} (aligned : isAligned module.tree = true)
    (checked : (flagAnalyzer options severity).checkText (.ok module) path = .ok findings) :
    ReportsEach (FindsFlag (flagAnalyzer options severity) path)
        (flagSlots options module.tree) findings ∧ findings.Pairwise StandsBefore := by
  obtain ⟨-, violations, reported, -, rfl⟩ := checkText_eq_ok_iff.mp checked
  obtain rfl : booleanParameters options module.tree = violations := Except.ok.inj reported
  generalize flagAnalyzer options severity = analyzer
  constructor
  · have made : List.Forall₂ (fun violation finding => finding = analyzer.findingOf path violation)
        (booleanParameters options module.tree)
        ((booleanParameters options module.tree).map (analyzer.findingOf path)) :=
      List.forall₂_map_right_iff.mpr (List.forall₂_same.mpr fun _ _ => rfl)
    obtain ⟨raw, ofFlags, perm⟩ :=
      (booleanParameters_reportsEach (.module module) aligned).trans made
    have inOrder : ReportsEach _ (flagSlots options module.tree) (inSourceOrder _) :=
      ⟨raw, ofFlags, perm.trans (List.mergeSort_perm _ _).symm⟩
    obtain ⟨listed, each, same⟩ := inOrder.trans (analyzer.forall₂_numbered _)
    refine ⟨listed, each.imp ?_, same⟩
    rintro slot _ ⟨_, ⟨violation, ofSlot, rfl⟩, id, rfl⟩
    exact ⟨violation, ofSlot, id, rfl⟩
  · refine (analyzer.pairwise_numbered _).imp_of_mem fun first second ordered => ?_
    exact standsBefore_of_sourceOrder
      ((path_of_mem_numbered first).trans (path_of_mem_numbered second).symm) ordered

/-- What it means that the check reports the flags among the parameters of a module, with the
default that each has of its own. -/
structure ReportsFlags (options : BooleanOptions) (module : Module) : Prop where
  listed : ∀ slot, slot ∈ flagSlots options module.tree ↔
    module.tree.HasPlace slot.function ∧ ∃ parameters parameter,
      Takes slot.function.tree.label.node parameters ∧
        parameterAt? parameters slot.index = some parameter ∧
          IsFlag options parameter (ownDefault? parameters slot.index)
  once : ((flagSlots options module.tree).map Slot.key).Nodup
  reports : ReportsEach ReportsFlag (flagSlots options module.tree)
    (booleanParameters options module.tree)
  succeeds : ∀ severity path, isUsablePath path = true →
    ((∃ findings, (flagAnalyzer options severity).checkText (.ok module) path = .ok findings) ↔
      ¬ (flagAnalyzer options severity).FailsOn module path)
  finds : ∀ severity path findings,
    (flagAnalyzer options severity).checkText (.ok module) path = .ok findings →
      ReportsEach (FindsFlag (flagAnalyzer options severity) path)
        (flagSlots options module.tree) findings ∧ findings.Pairwise StandsBefore

/-- The check reports every parameter that is a flag once, for its type or for its own default, in
the order of the source. -/
theorem booleanParameters_reportsFlags (options : BooleanOptions) (module : Module)
    (aligned : isAligned module.tree = true) : ReportsFlags options module where
  listed _ := mem_flagSlots_iff
  once := (nodup_key_slots module.tree).sublist (List.filter_sublist.map _)
  reports := booleanParameters_reportsEach (.module module) aligned
  succeeds _ _ usable := Analyzer.exists_checkText_iff usable
  finds _ _ _ checked := flagFindings_of_checkText aligned checked

/-- A function that draws a shape with its outline, its shadow and what it is made of, and returns a
lambda. -/
def drawModule : Module :=
  ⟨[.functionDef ⟨1, 0, some 2⟩ false "draw"
    (.mk [.mk ⟨1, 9, some 1⟩ "shape" none]
      [.mk ⟨1, 19, some 1⟩ "filled" none, .mk ⟨1, 32, some 1⟩ "width" none] none
      [.mk ⟨1, 44, some 1⟩ "shadow" (some (.name ⟨1, 52, some 1⟩ "bool" .load)),
        .mk ⟨1, 58, some 1⟩ "is_round" none]
      [none, some (.constant ⟨1, 67, some 1⟩ (.bool false) none)] none
      [.constant ⟨1, 26, some 1⟩ (.bool true) none, .constant ⟨1, 38, some 1⟩ (.int 1) none])
    [.returnStmt ⟨2, 4, some 2⟩ (some (.lambda ⟨2, 11, some 2⟩
      (.mk [] [.mk ⟨2, 18, some 2⟩ "debug" none] none [] [] none
        [.constant ⟨2, 24, some 2⟩ (.bool false) none])
      (.name ⟨2, 31, some 2⟩ "shape" .load)))] [] none]⟩

/-- The first default is that of the second parameter, the type of the shadow is written behind it,
and the parameter that is a question is no flag. -/
theorem booleanParameters_drawModule :
    isAligned drawModule.tree = true ∧ ReportsFlags ⟨false⟩ drawModule ∧
      (flagSlots ⟨false⟩ drawModule.tree).map Slot.key =
        [([0], .positional 1), ([0], .keywordOnly 0), ([0, 1, 0], .positional 0)] ∧
      (booleanParameters ⟨false⟩ drawModule.tree).map (·.snippet) =
        ["filled: bool", "shadow: bool", "debug: bool"] := by
  have aligned : isAligned drawModule.tree = true := by decide
  exact ⟨aligned, booleanParameters_reportsFlags ⟨false⟩ drawModule aligned, by decide, by decide⟩

end DesignLint.Check
