import DesignLint.Proofs.Cohesion.FunctionUnits

/-!
# Functions and classes side by side

An analysis tracks functions and classes in one traversal, whichever side has limits. A
unit is judged when it ends, by the limits for its kind, and judging it touches none of
the units that are still open. So each side reports what it would report alone.
-/

namespace DesignLint.Cohesion

open DesignLint.Syntax

/-! ## Judging while the traversal goes on -/

/-- An analysis in the middle of a traversal: the open units, and the reports so far. -/
structure Progress where
  state : OpenUnits Address := .empty
  reports : List CohesionReport := []

namespace CohesionAnalysis

/-- One event of an analysis that judges every unit as soon as it ends. -/
def advance (analysis : CohesionAnalysis) (progress : Progress) (event : Event Occurrence) :
    Progress :=
  let next := Run.step ⟨progress.state, []⟩ event
  ⟨next.state, progress.reports ++ next.closed.reverse.filterMap analysis.report?⟩

/-- An analysis after some events. -/
def progress (analysis : CohesionAnalysis) (events : List (Event Occurrence)) : Progress :=
  events.foldl analysis.advance {}

/-- The report on the unit at a place of a tree. -/
def reportAt? (analysis : CohesionAnalysis) (tree : SyntaxTree) (unit : SyntaxPlace) :
    Option CohesionReport :=
  analysis.report? (unitAt tree.places tree.latePlaces unit)

end CohesionAnalysis

theorem exitElement_eq_append (state : OpenUnits Address) (closed : List CodeUnit)
    (element : Element) :
    exitElement ⟨state, closed⟩ element =
      ⟨(exitElement ⟨state, []⟩ element).state,
        (exitElement ⟨state, []⟩ element).closed ++ closed⟩ := by
  cases element <;> simp [exitElement]

/-- What an event does to the open units, and which unit it closes, does not depend on the
units closed before. -/
theorem Run.step_eq_append (state : OpenUnits Address) (closed : List CodeUnit)
    (event : Event Occurrence) :
    Run.step ⟨state, closed⟩ event =
      ⟨(Run.step ⟨state, []⟩ event).state, (Run.step ⟨state, []⟩ event).closed ++ closed⟩ := by
  unfold Run.step
  cases event.phase with
  | enter => cases elementOf? event.tree event.parent <;> rfl
  | exit =>
      cases element : elementOf? event.tree event.parent with
      | none => cases inHeader : state.inHeader event.address <;> simp
      | some found =>
          simp only [exitElement_eq_append state closed found]
          cases inHeader : state.inHeader event.address <;> simp

/-- Judging units as they end and judging them afterwards is the same. -/
theorem CohesionAnalysis.foldl_advance_eq (analysis : CohesionAnalysis) (run : Run)
    (events : List (Event Occurrence)) :
    events.foldl analysis.advance ⟨run.state, run.closed.reverse.filterMap analysis.report?⟩ =
      ⟨(events.foldl Run.step run).state,
        (events.foldl Run.step run).closed.reverse.filterMap analysis.report?⟩ := by
  induction events generalizing run with
  | nil => rfl
  | cons event events inductionHypothesis =>
      obtain ⟨state, closed⟩ := run
      have judged := inductionHypothesis (Run.step ⟨state, closed⟩ event)
      rw [List.foldl_cons, List.foldl_cons, ← judged, Run.step_eq_append state closed event]
      simp [advance]

theorem CohesionAnalysis.progress_eq (analysis : CohesionAnalysis)
    (events : List (Event Occurrence)) :
    analysis.progress events =
      ⟨(events.foldl Run.step {}).state,
        (events.foldl Run.step {}).closed.reverse.filterMap analysis.report?⟩ :=
  analysis.foldl_advance_eq {} events

/-! ## One side alone -/

/-- An analysis is one side of another one: it has the same limits for one kind of units, and
none for the other kind. -/
structure CohesionAnalysis.IsSideOf (side : CohesionAnalysis) (kind : UnitKind)
    (both : CohesionAnalysis) : Prop where
  rounding : side.rounding = both.rounding
  limits : side.limitsFor kind = both.limitsFor kind
  unlimited : ∀ other, other ≠ kind → side.limitsFor other = none

theorem isSideOf_function (functionLimits classLimits : Option CohesionLimits)
    (rounding : Rounding) :
    (⟨functionLimits, none, rounding⟩ : CohesionAnalysis).IsSideOf .function
      ⟨functionLimits, classLimits, rounding⟩ where
  rounding := rfl
  limits := rfl
  unlimited
    | .function, apart => absurd rfl apart
    | .class, _ => rfl

theorem isSideOf_class (functionLimits classLimits : Option CohesionLimits)
    (rounding : Rounding) :
    (⟨none, classLimits, rounding⟩ : CohesionAnalysis).IsSideOf .class
      ⟨functionLimits, classLimits, rounding⟩ where
  rounding := rfl
  limits := rfl
  unlimited
    | .function, _ => rfl
    | .class, apart => absurd rfl apart

section Sides

variable {side both : CohesionAnalysis} {kind : UnitKind} {unit : CodeUnit}

theorem report?_eq_none_of_limitsFor (unlimited : both.limitsFor unit.kind = none) :
    both.report? unit = none := by
  simp [CohesionAnalysis.report?, unlimited]

/-- A side judges the units of its kind as they are judged with the other side, and no others. -/
theorem CohesionAnalysis.IsSideOf.report?_eq (isSide : side.IsSideOf kind both)
    (unit : CodeUnit) :
    side.report? unit = if unit.kind = kind then both.report? unit else none := by
  by_cases same : unit.kind = kind
  · subst same
    simp [CohesionAnalysis.report?, isSide.limits, isSide.rounding]
  · rw [if_neg same, report?_eq_none_of_limitsFor (isSide.unlimited _ same)]

/-- A report tells the kind of its unit. -/
theorem filter_report?_eq (kind : UnitKind) (unit : CodeUnit) :
    (both.report? unit).filter (fun report => report.kind == kind) =
      if unit.kind = kind then both.report? unit else none := by
  cases reported : both.report? unit with
  | none => simp
  | some report =>
      obtain ⟨limits, -, judged⟩ := Option.bind_eq_some_iff.mp reported
      simp [Option.filter_some, (showsGroups_of_judge judged).kind]

/-- Of the reports on some units, those on one kind are the reports of its side. -/
theorem CohesionAnalysis.IsSideOf.filter_filterMap_eq (isSide : side.IsSideOf kind both)
    (units : List CodeUnit) :
    (units.filterMap both.report?).filter (fun report => report.kind == kind) =
      units.filterMap side.report? := by
  rw [List.filter_filterMap]
  exact List.filterMap_congr fun unit _ => by rw [filter_report?_eq, isSide.report?_eq]

/-- The reports on a tree by the places of its units, in the order in which these end. -/
theorem reportsOn_eq_filterMap_reportAt? {tree : SyntaxTree} (syntaxTree : StandsForSyntax tree)
    (analysis : CohesionAnalysis) :
    analysis.reportsOn tree = (unitPlaces tree).filterMap (analysis.reportAt? tree) := by
  rw [CohesionAnalysis.reportsOn, closedUnits_eq syntaxTree, List.filterMap_map]
  rfl

/-- A side reports at places of units of its kind only, and there what both sides report. -/
theorem CohesionAnalysis.IsSideOf.reportAt?_eq (isSide : side.IsSideOf kind both)
    (tree : SyntaxTree) {place : SyntaxPlace} {found : UnitKind}
    (isUnit : kindAt? place = some found) :
    side.reportAt? tree place = if found = kind then both.reportAt? tree place else none := by
  simp [CohesionAnalysis.reportAt?, isSide.report?_eq, unitAt, isUnit]

theorem CohesionAnalysis.IsSideOf.reportsOn_eq (isSide : side.IsSideOf kind both)
    {tree : SyntaxTree} (syntaxTree : StandsForSyntax tree) :
    side.reportsOn tree = (unitPlacesOf kind tree).filterMap (side.reportAt? tree) := by
  have ofKind : unitPlacesOf kind tree =
      (unitPlaces tree).filter fun unit => kindAt? unit == some kind := by
    rw [unitPlaces, unitPlacesOf, List.filter_filter]
    refine List.filter_congr fun unit _ => ?_
    cases kindAt? unit <;> simp
  rw [reportsOn_eq_filterMap_reportAt? syntaxTree, ofKind, List.filterMap_filter]
  refine List.filterMap_congr fun place listed => ?_
  obtain ⟨found, kindEq⟩ := Option.isSome_iff_exists.mp (List.mem_filter.mp listed).2
  by_cases same : found = kind <;> simp [isSide.reportAt?_eq tree kindEq, kindEq, same]

end Sides

/-- Functions and classes are reported independently. With limits for both, the reports on
functions are those without limits for classes, the reports on classes those without limits
for functions, and the list takes the units in the order in which they end, each from the side
for its kind. This holds at every moment of a traversal that judges units as they end, and the
open units are at every moment the same. Without limits nothing is reported. -/
theorem reportsOn_sides {tree : SyntaxTree} (syntaxTree : StandsForSyntax tree)
    (functionLimits classLimits : Option CohesionLimits) (rounding : Rounding) :
    let both : CohesionAnalysis := ⟨functionLimits, classLimits, rounding⟩
    let functions : CohesionAnalysis := ⟨functionLimits, none, rounding⟩
    let classes : CohesionAnalysis := ⟨none, classLimits, rounding⟩
    (both.reportsOn tree).filter (fun report => report.kind == .function) =
        functions.reportsOn tree ∧
      (both.reportsOn tree).filter (fun report => report.kind == .class) =
        classes.reportsOn tree ∧
      functions.reportsOn tree =
        (unitPlacesOf .function tree).filterMap (functions.reportAt? tree) ∧
      classes.reportsOn tree = (unitPlacesOf .class tree).filterMap (classes.reportAt? tree) ∧
      both.reportsOn tree = (unitPlaces tree).filterMap (fun unit =>
        if kindAt? unit = some .function then functions.reportAt? tree unit
        else classes.reportAt? tree unit) ∧
      (⟨none, none, rounding⟩ : CohesionAnalysis).reportsOn tree = [] ∧
      both.reportsOn tree = (both.progress tree.walk).reports ∧
      ∀ events : List (Event Occurrence),
        (both.progress events).state = (functions.progress events).state ∧
        (both.progress events).state = (classes.progress events).state ∧
        (both.progress events).reports.filter (fun report => report.kind == .function) =
          (functions.progress events).reports ∧
        (both.progress events).reports.filter (fun report => report.kind == .class) =
          (classes.progress events).reports := by
  intro both functions classes
  have ofFunctions : functions.IsSideOf .function both := isSideOf_function ..
  have ofClasses : classes.IsSideOf .class both := isSideOf_class ..
  refine ⟨ofFunctions.filter_filterMap_eq _, ofClasses.filter_filterMap_eq _,
    ofFunctions.reportsOn_eq syntaxTree, ofClasses.reportsOn_eq syntaxTree, ?_, ?_, ?_,
    fun events => ?_⟩
  · rw [reportsOn_eq_filterMap_reportAt? syntaxTree]
    refine List.filterMap_congr fun unit listed => ?_
    obtain ⟨kind, kindEq⟩ := Option.isSome_iff_exists.mp (List.mem_filter.mp listed).2
    rw [ofFunctions.reportAt?_eq tree kindEq, ofClasses.reportAt?_eq tree kindEq, kindEq]
    cases kind <;> simp
  · exact List.filterMap_eq_nil_iff.mpr fun unit _ =>
      report?_eq_none_of_limitsFor (by cases unit.kind <;> rfl)
  · rw [CohesionAnalysis.progress_eq]
    rfl
  · simp only [CohesionAnalysis.progress_eq]
    exact ⟨trivial, trivial, ofFunctions.filter_filterMap_eq _, ofClasses.filter_filterMap_eq _⟩

/-- A class of two methods without a common member. The first one has two branches without a
common name. -/
def looseStore : Module :=
  let self : Parameters := .mk [] [.mk ⟨2, 13, none⟩ "self" none] none [] [] none []
  let use (line : Nat) (member : String) : Stmt :=
    .expr ⟨line, 8, none⟩ (.attr ⟨line, 8, none⟩ (.name ⟨line, 8, none⟩ "self" .load) member .load)
  let branch (line : Nat) (test : String) : Stmt :=
    .ifStmt ⟨line, 8, some (line + 1)⟩ (.name ⟨line, 11, none⟩ test .load)
      [.passStmt ⟨line + 1, 12, none⟩] []
  ⟨[.classDef ⟨1, 0, some 9⟩ "Store" [] []
    [.functionDef ⟨2, 4, some 7⟩ false "load" self
      [branch 3 "ready", branch 5 "empty", use 7 "path"] [] none,
     .functionDef ⟨8, 4, some 9⟩ false "save" self [use 9 "data"] [] none] []]⟩

/-- The class ends after its method, and each is reported by its own side. -/
theorem reportsOn_looseStore :
    let limits : CohesionLimits := ⟨40, 1⟩
    let both : CohesionAnalysis := ⟨some limits, some limits, Rounding.exact⟩
    let functions : CohesionAnalysis := ⟨some limits, none, Rounding.exact⟩
    let classes : CohesionAnalysis := ⟨none, some limits, Rounding.exact⟩
    StandsForSyntax looseStore.tree ∧
      (both.reportsOn looseStore.tree).filter (fun report => report.kind == .function) =
        functions.reportsOn looseStore.tree ∧
      (both.reportsOn looseStore.tree).filter (fun report => report.kind == .class) =
        classes.reportsOn looseStore.tree ∧
      (both.reportsOn looseStore.tree).map (·.name) = ["load", "Store"] ∧
      (functions.reportsOn looseStore.tree).map (·.name) = ["load"] ∧
      (classes.reportsOn looseStore.tree).map (·.name) = ["Store"] := by
  intro limits both functions classes
  have sides := reportsOn_sides (.module looseStore) (some limits) (some limits) Rounding.exact
  exact ⟨.module looseStore, sides.1, sides.2.1, by decide +kernel, by decide +kernel,
    by decide +kernel⟩

end DesignLint.Cohesion
