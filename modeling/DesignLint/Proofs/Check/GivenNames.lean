import DesignLint.Check.Naming
import DesignLint.Proofs.Check.Related
import DesignLint.Proofs.Cohesion.Enclosure
import DesignLint.Proofs.Number.Order
import DesignLint.Proofs.Syntax.OwnScope

/-!
# Names in their scopes

The check hands scopes down the tree and keeps the names that it has met. The scope of a name is
also told by the way out from its place alone, as the nearest scope there. What is reported of a
name in a scope is its first occurrence there, whatever is called the same elsewhere.
-/

namespace DesignLint.Check

open Syntax Cohesion

/-! ## Names and scopes by their places -/

/-- The constructs that give a name, with the name and where they stand. -/
inductive Gives (checkProperties : Bool) : Node → String → Position → Prop where
  | function (position : Position) (isAsync : Bool) (name : String) (parameters : Parameters)
      (body : List Stmt) (decorators : List Expr) (returns : Option Expr) :
      Gives checkProperties
        (.stmt (.functionDef position isAsync name parameters body decorators returns)) name
        position
  | class (position : Position) (name : String) (bases : List Expr) (keywords : List Keyword)
      (body : List Stmt) (decorators : List Expr) :
      Gives checkProperties (.stmt (.classDef position name bases keywords body decorators)) name
        position
  | parameter (parameter : Parameter) :
      Gives checkProperties (.parameter parameter) parameter.name parameter.position
  | variable (position : Position) (name : String) :
      Gives checkProperties (.expr (.name position name .store)) name position
  | property (asked : checkProperties = true) (position : Position) (value : Expr)
      (name : String) :
      Gives checkProperties (.expr (.attr position value name .store)) name position

/-- The kinds of the constructs that open a scope. -/
def scopeKinds : List String :=
  ["Module", "FunctionDef", "AsyncFunctionDef", "Lambda", "ClassDef"]

/-- Whether a place opens a scope. -/
def isScopePlace (place : SyntaxPlace) : Bool :=
  scopeKinds.contains place.tree.label.node.kindName

/-- The scope of a name that a place gives: the nearest one around it. A definition lies outside of
the scope that it opens. -/
def scopeOver? (place : SyntaxPlace) : Option SyntaxPlace := place.around.find? isScopePlace

/-- Whether a place gives a name to a scope. -/
def givesTo (checkProperties : Bool) (scope : SyntaxPlace) (name : String) (place : SyntaxPlace) :
    Bool :=
  (nameGiven? checkProperties place.tree.label.node).any (·.1 == name) &&
    (scopeOver? place).any (·.address == scope.address)

/-- The places that give a name to a scope, in the order of the text. -/
def occurrences (checkProperties : Bool) (tree : SyntaxTree) (scope : SyntaxPlace)
    (name : String) : List SyntaxPlace :=
  tree.places.filter (givesTo checkProperties scope name)

variable {checkProperties : Bool} {tree : SyntaxTree} {place scope : SyntaxPlace} {name : String}

theorem nameGiven?_eq_some_iff {node : Node} {position : Position} :
    nameGiven? checkProperties node = some (name, position) ↔
      Gives checkProperties node name position := by
  constructor
  · intro given
    unfold nameGiven? at given
    split at given
    · cases given
      exact .function ..
    · cases given
      exact .class ..
    · cases given
      exact .parameter _
    · cases given
      exact .variable ..
    · split at given
      · rename_i asked
        cases given
        exact .property asked ..
      · cases given
    · cases given
  · rintro (_ | _ | _ | _ | ⟨asked⟩)
    · rfl
    · rfl
    · rfl
    · rfl
    · rw [nameGiven?, if_pos asked]

/-- The check tells by constructors what the names of the kinds tell. -/
theorem opensScope_eq (place : SyntaxPlace) : opensScope place.tree = isScopePlace place := by
  obtain ⟨⟨⟨role, node⟩, children⟩, address, context⟩ := place
  cases node with
  | stmt stmt =>
      cases stmt with
      | functionDef _ isAsync => cases isAsync <;> rfl
      | forStmt _ isAsync => cases isAsync <;> rfl
      | withStmt _ isAsync => cases isAsync <;> rfl
      | tryStmt _ isStar => cases isStar <;> rfl
      | _ => rfl
  | expr expr => cases expr <;> rfl
  | pattern pattern => cases pattern <;> rfl
  | token token =>
      cases token with
      | context context => cases context <;> rfl
      | boolOp op => cases op <;> rfl
      | binOp op => cases op <;> rfl
      | unaryOp op => cases op <;> rfl
      | compareOp op => cases op <;> rfl
  | _ => rfl

theorem isScopePlace_of_scopeOver? (found : scopeOver? place = some scope) :
    isScopePlace scope = true :=
  List.find?_some found

theorem hasPlace_of_scopeOver? (has : tree.HasPlace place) (found : scopeOver? place = some scope) :
    tree.HasPlace scope :=
  has.around (List.mem_of_find?_eq_some found)

theorem mem_occurrences_iff (scopeHas : tree.HasPlace scope) :
    place ∈ occurrences checkProperties tree scope name ↔
      tree.HasPlace place ∧
        (∃ position, Gives checkProperties place.tree.label.node name position) ∧
          scopeOver? place = some scope := by
  rw [occurrences, List.mem_filter, Tree.mem_places_iff]
  refine and_congr_right fun has => ?_
  rw [givesTo, Bool.and_eq_true, Option.any_eq_true, Option.any_eq_true]
  refine and_congr ⟨?_, ?_⟩ ⟨?_, ?_⟩
  · rintro ⟨⟨given, position⟩, found, same⟩
    obtain rfl : given = name := beq_iff_eq.mp same
    exact ⟨position, nameGiven?_eq_some_iff.mp found⟩
  · rintro ⟨position, given⟩
    exact ⟨_, nameGiven?_eq_some_iff.mpr given, beq_self_eq_true name⟩
  · rintro ⟨other, isOver, sameAddress⟩
    rw [isOver, (hasPlace_of_scopeOver? has isOver).eq_of_address_eq scopeHas
      (beq_iff_eq.mp sameAddress)]
  · intro isOver
    exact ⟨scope, isOver, beq_self_eq_true _⟩

/-! ## The scopes that the check hands down -/

/-- What the check hands down to a place. -/
def nameScopeAt (place : SyntaxPlace) : NameScope :=
  match scopeOver? place with
  | some scope => ⟨scope.address, (definedName scope.tree).getD "<module>"⟩
  | none => ⟨[], "<module>"⟩

theorem nameScopeAt_child (place : SyntaxPlace) (index : Nat) (subtree : SyntaxTree) :
    nameScopeAt (place.child index subtree) =
      (nameScopeAt place).below place.address place.tree := by
  rw [nameScopeAt, NameScope.below, scopeOver?, Visit.child_around, Visit.path, opensScope_eq]
  cases opens : isScopePlace place with
  | true => rw [List.find?_cons_of_pos opens, if_pos rfl]
  | false =>
      rw [List.find?_cons_of_neg (by simp [opens]), if_neg Bool.false_ne_true, nameScopeAt,
        scopeOver?]

/-- The name given at a place, with what the check hands down. -/
def givenAt? (checkProperties : Bool) (place : SyntaxPlace) : Option GivenName :=
  (nameGiven? checkProperties place.tree.label.node).map fun (name, position) =>
    ⟨name, position, nameScopeAt place⟩

theorem givenNames_eq (checkProperties : Bool) (tree : SyntaxTree) :
    givenNames checkProperties tree = tree.places.filterMap (givenAt? checkProperties) := by
  have start : (⟨[], "<module>"⟩ : NameScope) = nameScopeAt (.whole tree) := rfl
  have visits := Visit.visits_eq_map_places nameScopeAt_child (.whole tree)
  rw [givenNames, start]
  refine (congrArg (List.filterMap _) visits).trans ?_
  rw [List.filterMap_map]
  rfl

/-! ## First occurrences -/

/-- What tells one name from another: the name, and where its scope stands. -/
def GivenName.key (given : GivenName) : String × Address := (given.name, given.scope.address)

theorem sameName_iff {given other : GivenName} :
    given.sameName other = true ↔ given.key = other.key := by
  simp [GivenName.sameName, GivenName.key]

theorem any_sameName_eq (met : List GivenName) (given : GivenName) :
    met.any given.sameName = met.any (·.key == given.key) := by
  refine List.any_congr rfl fun other => ?_
  rw [Bool.eq_iff_iff, sameName_iff, beq_iff_eq, eq_comm]

/-- The places that the check keeps: for every name it has not met the first place that gives it,
and no place for the names that it has met. -/
theorem exists_newOccurrences_eq {α : Type} (given? : α → Option GivenName) (items : List α)
    (met : List GivenName) :
    ∃ kept : List α, kept.Sublist items ∧
      newOccurrences met (items.filterMap given?) = kept.filterMap given? ∧
        ∀ key, kept.filter (fun item => (given? item).any (·.key == key)) =
          if met.any (·.key == key) then []
          else (items.filter fun item => (given? item).any (·.key == key)).take 1 := by
  induction items generalizing met with
  | nil => exact ⟨[], .slnil, rfl, by simp⟩
  | cons item items inductionHypothesis =>
      cases found : given? item with
      | none =>
          obtain ⟨kept, part, same, each⟩ := inductionHypothesis met
          refine ⟨kept, part.cons item, ?_, fun key => ?_⟩
          · rw [List.filterMap_cons_none found, same]
          · rw [List.filter_cons_of_neg (by simp [found]), each]
      | some given =>
          rw [List.filterMap_cons_some found, newOccurrences, any_sameName_eq]
          cases isMet : met.any (·.key == given.key) with
          | true =>
              obtain ⟨kept, part, same, each⟩ := inductionHypothesis met
              refine ⟨kept, part.cons item, by rw [if_pos rfl, same], fun key => ?_⟩
              rw [each]
              by_cases own : given.key = key
              · rw [← own, isMet, if_pos rfl, if_pos rfl]
              · rw [List.filter_cons_of_neg (by simp [found, own])]
          | false =>
              -- the item is the first with its key, and the rest is searched with the key met
              obtain ⟨kept, part, same, each⟩ := inductionHypothesis (given :: met)
              refine ⟨item :: kept, part.cons_cons item, ?_, fun key => ?_⟩
              · rw [if_neg Bool.false_ne_true, same, List.filterMap_cons_some found]
              · by_cases own : given.key = key
                · rw [List.filter_cons_of_pos (by simp [found, own]), each,
                    List.filter_cons_of_pos (by simp [found, own]), ← own, isMet]
                  simp
                · rw [List.filter_cons_of_neg (by simp [found, own]), each,
                    List.filter_cons_of_neg (by simp [found, own])]
                  simp [own]

/-- Whatever gives a name in a module lies in a scope. -/
theorem exists_scopeOver? {module : Module} (has : module.tree.HasPlace place) {position : Position}
    (given : Gives checkProperties place.tree.label.node name position) :
    ∃ scope, scopeOver? place = some scope := by
  cases has with
  | whole => cases given
  | @child above index subtree aboveHas found =>
      have root : Visit.whole module.tree ∈ (above.child index subtree).around := by
        rw [Visit.child_around]
        exact aboveHas.mem_path_of_isPrefix .whole List.nil_prefix
      exact Option.isSome_iff_exists.mp (List.find?_isSome.mpr ⟨_, root, rfl⟩)

/-- The key of what a place gives tells the name and the scope that the place gives it to. -/
theorem any_key_eq_givesTo {module : Module} (has : module.tree.HasPlace place)
    (scope : SyntaxPlace) (name : String) :
    (givenAt? checkProperties place).any (·.key == (name, scope.address)) =
      givesTo checkProperties scope name place := by
  rw [givenAt?, Option.any_map, givesTo]
  cases given : nameGiven? checkProperties place.tree.label.node with
  | none => rfl
  | some pair =>
      obtain ⟨own, position⟩ := pair
      obtain ⟨isOver, found⟩ := exists_scopeOver? has (nameGiven?_eq_some_iff.mp given)
      simp only [nameScopeAt, found, Option.any_some]
      rfl

/-! ## The verdict -/

/-- Whether a name means too little. -/
def IsPoor (options : NamingOptions) (name : String) : Prop :=
  name ∉ options.allowedNames ∧
    (name ∈ options.disallowedNames ∨ (Number.int name.length).lt options.minLength = true)

/-- The violation by a name of a scope. -/
structure ShowsName (options : NamingOptions) (scope : SyntaxPlace) (name : String)
    (position : Position) (violation : Violation) : Prop where
  disallowed : name ∈ options.disallowedNames → violation.ruleId = .namDisallowed ∧
    violation.message =
      "Name \"" ++ name ++ "\" is not allowed. Consider using a more descriptive name."
  short : name ∉ options.disallowedNames → violation.ruleId = .namTooShort ∧
    violation.message = "Name \"" ++ name ++ "\" is too short (minimum " ++
      options.minLength.text ++ " characters)."
  lineStart : violation.lineStart = position.line
  lineEnd : violation.lineEnd = position.line
  column : violation.column = position.column
  symbol : violation.symbol = (definedName scope.tree).getD "<module>" ++ "." ++ name
  snippet : violation.snippet = name
  details : violation.details = [("name", .string name)]

/-- The violation by the name that a place gives to its scope. -/
def ReportsName (options : NamingOptions) (place : SyntaxPlace) (violation : Violation) : Prop :=
  ∃ scope name position, scopeOver? place = some scope ∧
    Gives options.checkProperties place.tree.label.node name position ∧
      ShowsName options scope name position violation

/-- Whether the name that a place gives means too little. -/
def givesPoorName (options : NamingOptions) (place : SyntaxPlace) : Bool :=
  (givenAt? options.checkProperties place).any fun given =>
    (options.objection? given.name).isSome

theorem objection?_isSome_iff {options : NamingOptions} :
    (options.objection? name).isSome = true ↔ IsPoor options name := by
  unfold NamingOptions.objection? IsPoor
  split <;> rename_i allowed
  · simp [List.contains_iff_mem.mp allowed]
  · split <;> rename_i disallowed
    · simpa [List.contains_iff_mem.mp disallowed] using allowed
    · split <;> simp_all

theorem objection?_eq_some {options : NamingOptions} {ruleId : RuleId} {message : String}
    (raised : options.objection? name = some (ruleId, message)) :
    (name ∈ options.disallowedNames → ruleId = .namDisallowed ∧ message =
        "Name \"" ++ name ++ "\" is not allowed. Consider using a more descriptive name.") ∧
      (name ∉ options.disallowedNames → ruleId = .namTooShort ∧ message =
        "Name \"" ++ name ++ "\" is too short (minimum " ++ options.minLength.text ++
          " characters).") := by
  unfold NamingOptions.objection? at raised
  split at raised
  · cases raised
  · split at raised <;> rename_i listed
    · cases raised
      exact ⟨fun _ => ⟨rfl, rfl⟩, fun missing => absurd (List.contains_iff_mem.mp listed) missing⟩
    · split at raised
      · cases raised
        exact ⟨fun member => absurd (List.contains_iff_mem.mpr member) listed,
          fun _ => ⟨rfl, rfl⟩⟩
      · cases raised

/-- The check makes a violation of a place whose name means too little, and of no other. -/
theorem namingViolation?_givenAt? {module : Module} (options : NamingOptions)
    (has : module.tree.HasPlace place) :
    if givesPoorName options place then
      ∃ violation, (givenAt? options.checkProperties place).bind (namingViolation? options) =
          some violation ∧ ReportsName options place violation
    else (givenAt? options.checkProperties place).bind (namingViolation? options) = none := by
  rw [givesPoorName, givenAt?]
  cases given : nameGiven? options.checkProperties place.tree.label.node with
  | none => simp
  | some pair =>
      obtain ⟨name, position⟩ := pair
      have gives := nameGiven?_eq_some_iff.mp given
      obtain ⟨scope, isOver⟩ := exists_scopeOver? has gives
      simp only [Option.map_some, Option.any_some, Option.bind_some, namingViolation?, nameScopeAt,
        isOver]
      cases raised : options.objection? name with
      | none => simp
      | some objection =>
          obtain ⟨ruleId, message⟩ := objection
          obtain ⟨disallowed, short⟩ := objection?_eq_some raised
          rw [Option.isSome_some, if_pos rfl]
          exact ⟨_, rfl, scope, name, position, isOver, gives,
            ⟨disallowed, short, rfl, rfl, rfl, rfl, rfl, rfl⟩⟩

/-- All places that give one name to a scope mean too little, or none does. -/
theorem givesPoorName_of_givesTo {options : NamingOptions}
    (gives : givesTo options.checkProperties scope name place = true) :
    givesPoorName options place = true ↔ IsPoor options name := by
  obtain ⟨⟨given, position⟩, found, same⟩ :=
    (Option.any_eq_true _ _).mp (Bool.and_eq_true_iff.mp gives).1
  obtain rfl : given = name := beq_iff_eq.mp same
  rw [givesPoorName, givenAt?, found, Option.map_some, Option.any_some, objection?_isSome_iff]

/-- What it means that violations are those of the names of a module that mean too little, each once
in each of its scopes. -/
structure ReportsNames (options : NamingOptions) (module : Module) (violations : List Violation) :
    Prop where
  /-- Of the places that give a name to a scope the first one is reported if the name means too
  little, and none otherwise. -/
  reported : ∃ places : List SyntaxPlace, places.Sublist module.tree.places ∧
    List.Forall₂ (ReportsName options) places violations ∧
      ∀ scope, module.tree.HasPlace scope → ∀ name,
        (IsPoor options name → places.filter (givesTo options.checkProperties scope name) =
          (occurrences options.checkProperties module.tree scope name).take 1) ∧
        (¬ IsPoor options name →
          places.filter (givesTo options.checkProperties scope name) = [])
  occurs : ∀ scope, module.tree.HasPlace scope → ∀ name place,
    place ∈ occurrences options.checkProperties module.tree scope name ↔
      module.tree.HasPlace place ∧
        (∃ position, Gives options.checkProperties place.tree.label.node name position) ∧
          scopeOver? place = some scope
  hasScope : ∀ place, module.tree.HasPlace place → ∀ name position,
    Gives options.checkProperties place.tree.label.node name position →
      ∃ scope, module.tree.HasPlace scope ∧ isScopePlace scope = true ∧
        scopeOver? place = some scope
  limit : ∀ least : Int, options.minLength = .int least →
    ∀ length : Nat, (Number.int length).lt options.minLength = true ↔ length < least

theorem exists_reported_places (options : NamingOptions) (module : Module) :
    ∃ places : List SyntaxPlace, places.Sublist module.tree.places ∧
      List.Forall₂ (ReportsName options) places (meaninglessNames options module.tree) ∧
        ∀ scope name,
          places.filter (givesTo options.checkProperties scope name) =
            ((occurrences options.checkProperties module.tree scope name).take 1).filter
              (givesPoorName options) := by
  obtain ⟨kept, part, same, each⟩ :=
    exists_newOccurrences_eq (givenAt? options.checkProperties) module.tree.places []
  have has : ∀ place ∈ kept, module.tree.HasPlace place :=
    fun place member => Tree.hasPlace_of_mem_places (part.subset member)
  refine ⟨kept.filter (givesPoorName options), List.filter_sublist.trans part, ?_, ?_⟩
  · rw [meaninglessNames, givenNames_eq, firstOccurrences, same, List.filterMap_filterMap]
    exact forall₂_filter_filterMap fun place member =>
      namingViolation?_givenAt? options (has place member)
  · intro scope name
    have keyed {places : List SyntaxPlace}
        (areIn : ∀ place ∈ places, module.tree.HasPlace place) :
        (places.filter fun place => (givenAt? options.checkProperties place).any
            (·.key == (name, scope.address))) =
          places.filter (givesTo options.checkProperties scope name) :=
      List.filter_congr fun place member => any_key_eq_givesTo (areIn place member) scope name
    have first := each (name, scope.address)
    rw [keyed has, keyed fun place => Tree.hasPlace_of_mem_places] at first
    rw [List.filter_comm, first]
    rfl

end DesignLint.Check
