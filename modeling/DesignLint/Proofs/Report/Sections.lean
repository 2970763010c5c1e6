import DesignLint.Proofs.Finding.Order
import DesignLint.Proofs.Report.Groups
import DesignLint.Proofs.Result.Totals
import DesignLint.Report.Export
import Mathlib.Data.Finset.Sort
import Mathlib.Data.List.Rotate

/-!
# Reports file by file

A report for a terminal has one section for each file with findings, in the order of their paths. A
section shows exactly the findings of its file, by line, column and rule, each with its groups right
below it. Sections hold together because the findings are sorted before they are listed: what is
sorted by a key is put together from the items under each key. So the order in which findings come
only matters for those that share file, line, column and rule.
-/

namespace DesignLint

/-! ## Lists grouped by a key -/

section Grouping

variable {α κ : Type} [LinearOrder κ] {key : α → κ} {items : List α}

/-- In a sorted list, the items with the least key stand first. -/
theorem filter_append_filter_ne {least : κ} (atLeast : ∀ a ∈ items, least ≤ key a)
    (sorted : items.Pairwise fun a b => key a ≤ key b) :
    items.filter (key · = least) ++ items.filter (key · ≠ least) = items := by
  induction items with
  | nil => rfl
  | cons first items inductionHypothesis =>
      obtain ⟨before, rest⟩ := List.pairwise_cons.mp sorted
      obtain ⟨own, others⟩ := List.forall_mem_cons.mp atLeast
      by_cases here : key first = least
      · simpa [here] using inductionHypothesis others rest
      · have apart : ∀ a ∈ items, key a ≠ least := by
          intro a listed
          exact (lt_of_lt_of_le (lt_of_le_of_ne own (Ne.symm here)) (before a listed)).ne'
        have none : items.filter (key · = least) = [] :=
          List.filter_eq_nil_iff.mpr fun a listed => by simpa using apart a listed
        simpa [here, none] using apart

/-- A sorted list is put together from the items under each key. -/
theorem flatMap_filter_eq {keys : List κ} (increasing : keys.Pairwise (· < ·))
    (sorted : items.Pairwise fun a b => key a ≤ key b) (listed : ∀ a ∈ items, key a ∈ keys) :
    (keys.flatMap fun k => items.filter (key · = k)) = items := by
  induction keys generalizing items with
  | nil =>
      symm
      exact List.eq_nil_iff_forall_not_mem.mpr fun a inItems => List.not_mem_nil (listed a inItems)
  | cons least keys inductionHypothesis =>
      obtain ⟨below, rest⟩ := List.pairwise_cons.mp increasing
      have atLeast : ∀ a ∈ items, least ≤ key a := by
        intro a inItems
        rcases List.mem_cons.mp (listed a inItems) with same | later
        · exact same.ge
        · exact (below _ later).le
      have later : ∀ a ∈ items.filter (key · ≠ least), key a ∈ keys := by
        intro a inRest
        obtain ⟨inItems, other⟩ := List.mem_filter.mp inRest
        exact (List.mem_cons.mp (listed a inItems)).resolve_left (of_decide_eq_true other)
      have under : ∀ k ∈ keys, items.filter (key · = k) =
          (items.filter (key · ≠ least)).filter (key · = k) := by
        intro k inKeys
        rw [List.filter_filter]
        refine List.filter_congr fun a _ => ?_
        by_cases same : key a = k
        · simp [same, (below k inKeys).ne']
        · simp [same]
      rw [List.flatMap_cons, List.flatMap_congr under,
        inductionHypothesis rest (sorted.filter _) later,
        filter_append_filter_ne atLeast sorted]

end Grouping

/-! ## Sections of a report -/

/-- What a report shows of one file. -/
structure FileSection where
  path : String
  findings : List Finding

namespace FileSection

/-- The lines of a section: the path, each finding with its groups right below it, and a blank
line. -/
def lines (part : FileSection) : List String :=
  part.path :: part.findings.flatMap TextReport.findingLines ++ [""]

/-- Whether a section has findings, all of them in its file. -/
structure IsOwn (part : FileSection) : Prop where
  filled : part.findings ≠ []
  own : ∀ finding ∈ part.findings, finding.location.path = part.path

end FileSection

namespace TextReport

variable {path : String} {findings others : List Finding}

theorem linesAfter_of_forall_ne (other : ∀ finding ∈ findings, finding.location.path ≠ path) :
    linesAfter (some path) findings = "" :: linesAfter none findings := by
  cases findings with
  | nil => rfl
  | cons finding findings =>
      have here := (other finding List.mem_cons_self).symm
      simp [linesAfter, here]

theorem linesAfter_append (own : ∀ finding ∈ findings, finding.location.path = path) :
    linesAfter (some path) (findings ++ others) =
      findings.flatMap findingLines ++ linesAfter (some path) others := by
  induction findings with
  | nil => rfl
  | cons finding findings inductionHypothesis =>
      obtain ⟨here, rest⟩ := List.forall_mem_cons.mp own
      simp [linesAfter, here, inductionHypothesis rest]

/-- The findings of a file make a section, if no others of the file follow. -/
theorem linesAfter_section {part : FileSection} (isOwn : part.IsOwn)
    (apart : ∀ finding ∈ others, finding.location.path ≠ part.path) :
    linesAfter none (part.findings ++ others) = part.lines ++ linesAfter none others := by
  obtain ⟨path, findings⟩ := part
  obtain ⟨filled, own⟩ := isOwn
  cases findings with
  | nil => exact absurd rfl filled
  | cons finding findings =>
      obtain ⟨here, rest⟩ := List.forall_mem_cons.mp own
      dsimp only at here rest apart ⊢
      simp [linesAfter, FileSection.lines, here, linesAfter_append rest,
        linesAfter_of_forall_ne apart]

/-- Findings that stand file by file make one section for each file. -/
theorem linesAfter_flatMap {parts : List FileSection} (isOwn : ∀ part ∈ parts, part.IsOwn)
    (apart : parts.Pairwise fun a b => a.path ≠ b.path) :
    linesAfter none (parts.flatMap FileSection.findings) = parts.flatMap FileSection.lines := by
  induction parts with
  | nil => rfl
  | cons part parts inductionHypothesis =>
      obtain ⟨here, rest⟩ := List.forall_mem_cons.mp isOwn
      obtain ⟨differs, restApart⟩ := List.pairwise_cons.mp apart
      have others : ∀ finding ∈ parts.flatMap FileSection.findings,
          finding.location.path ≠ part.path := by
        intro finding listed
        obtain ⟨other, inParts, inOther⟩ := List.mem_flatMap.mp listed
        rw [(rest other inParts).own finding inOther]
        exact (differs other inParts).symm
      rw [List.flatMap_cons, linesAfter_section here others, inductionHypothesis rest restApart,
        List.flatMap_cons]

end TextReport

/-! ## The sections of findings -/

/-- The paths of findings, each once and in increasing order. -/
def pathsOf (findings : List Finding) : List String :=
  (findings.map (·.location.path)).toFinset.sort (· ≤ ·)

/-- The findings file by file, in source order. -/
def fileSections (findings : List Finding) : List FileSection :=
  (pathsOf findings).map fun path =>
    ⟨path, (inSourceOrder findings).filter (·.location.path = path)⟩

variable {findings : List Finding} {path : String}

theorem mem_pathsOf_iff :
    path ∈ pathsOf findings ↔ ∃ finding ∈ findings, finding.location.path = path := by
  simp [pathsOf]

theorem pairwise_pathsOf (findings : List Finding) : (pathsOf findings).Pairwise (· < ·) :=
  (Finset.sortedLT_sort _).pairwise

/-- Source order goes file by file. -/
theorem flatMap_fileSections (findings : List Finding) :
    (fileSections findings).flatMap FileSection.findings = inSourceOrder findings := by
  have sorted : (inSourceOrder findings).Pairwise fun a b => a.location.path ≤ b.location.path := by
    refine (pairwise_inSourceOrder findings).imp fun before => ?_
    rcases FindingKey.rank_le_rank_iff.mp before with below | ⟨same, -⟩
    · exact below.le
    · exact same.le
  rw [fileSections, List.flatMap_map]
  refine flatMap_filter_eq (pairwise_pathsOf findings) sorted fun finding listed => ?_
  exact mem_pathsOf_iff.mpr ⟨finding, (inSourceOrder_perm findings).mem_iff.mp listed, rfl⟩

/-- Sections that show findings file by file: one section for each path, in increasing order, with
exactly the findings of that path, by line, column and rule. Findings that tie keep their order. -/
structure ShowsByFile (parts : List FileSection) (findings : List Finding) : Prop where
  increasing : parts.Pairwise fun a b => a.path < b.path
  covers : ∀ path, (∃ part ∈ parts, part.path = path) ↔
    ∃ finding ∈ findings, finding.location.path = path
  complete : ∀ part ∈ parts, part.findings.Perm (findings.filter (·.location.path = part.path))
  sorted : ∀ part ∈ parts, part.findings.Pairwise fun a b => a.key.rankInFile ≤ b.key.rankInFile
  ties : ∀ part ∈ parts, ∀ key, key.path = part.path →
    part.findings.filter (·.key = key) = findings.filter (·.key = key)
  once : (parts.flatMap FileSection.findings).Perm findings

theorem isOwn_of_mem_fileSections {part : FileSection} (listed : part ∈ fileSections findings) :
    part.IsOwn := by
  obtain ⟨path, inPaths, rfl⟩ := List.mem_map.mp listed
  obtain ⟨finding, inFindings, own⟩ := mem_pathsOf_iff.mp inPaths
  constructor
  · refine List.ne_nil_of_mem (List.mem_filter.mpr ⟨?_, decide_eq_true own⟩)
    exact (inSourceOrder_perm findings).mem_iff.mpr inFindings
  · intro other inOthers
    exact of_decide_eq_true (List.mem_filter.mp inOthers).2

theorem pairwise_fileSections (findings : List Finding) :
    (fileSections findings).Pairwise fun a b => a.path < b.path :=
  List.pairwise_map.mpr (pairwise_pathsOf findings)

theorem fileSections_showsByFile (findings : List Finding) :
    ShowsByFile (fileSections findings) findings where
  increasing := pairwise_fileSections findings
  covers path := by
    rw [← mem_pathsOf_iff]
    simp [fileSections]
  complete := by
    rw [fileSections, List.forall_mem_map]
    intro path _
    exact (inSourceOrder_perm findings).filter _
  sorted := by
    intro part listed
    have own := (isOwn_of_mem_fileSections listed).own
    obtain ⟨path, -, rfl⟩ := List.mem_map.mp listed
    refine ((pairwise_inSourceOrder findings).filter _).imp_of_mem fun inPart inPartToo before => ?_
    have same := (own _ inPart).trans (own _ inPartToo).symm
    rcases FindingKey.rank_le_rank_iff.mp before with below | ⟨-, inFile⟩
    · exact absurd same below.ne
    · exact inFile
  ties := by
    rw [fileSections, List.forall_mem_map]
    intro path _ key here
    rw [← filter_key_inSourceOrder findings key, List.filter_filter]
    refine List.filter_congr fun finding _ => ?_
    by_cases same : finding.key = key
    · have own : finding.location.path = path := (congrArg FindingKey.path same).trans here
      simp [same, own]
    · simp [same]
  once := by
    rw [flatMap_fileSections]
    exact inSourceOrder_perm findings

/-! ## The text of a report -/

/-- Lines with line ends between them and behind them. -/
theorem intercalate_append_lineEnd {lines : List String} (nonempty : lines ≠ []) :
    "\n".intercalate lines ++ "\n" = String.join (lines.map (· ++ "\n")) := by
  induction lines with
  | nil => exact absurd rfl nonempty
  | cons line lines inductionHypothesis =>
      cases lines with
      | nil => simp
      | cons next lines =>
          have rest := inductionHypothesis (List.cons_ne_nil next lines)
          rw [List.map_cons, String.join_cons, ← rest, String.intercalate_cons_cons,
            String.append_assoc]

namespace RunResult

/-- The line that closes a report: without findings it says so, otherwise it tells the numbers of
findings, of errors, of warnings and of files. -/
def closingLine (result : RunResult) : String :=
  if result.findings.isEmpty then "No problems found."
  else toString result.findings.length
    ++ (if result.findings.length = 1 then " problem (" else " problems (")
    ++ toString (result.number .error) ++ " errors, "
    ++ toString (result.number .warning) ++ " warnings) in "
    ++ toString result.filesScanned ++ " files"

theorem textReport_lines (result : RunResult) :
    TextReport.lines result =
      TextReport.linesAfter none (inSourceOrder result.findings) ++ [result.closingLine] :=
  rfl

theorem textReport_eq (result : RunResult) :
    textReport result =
      String.join (((fileSections result.findings).flatMap FileSection.lines
        ++ [result.closingLine]).map (· ++ "\n")) := by
  have apart : (fileSections result.findings).Pairwise fun a b => a.path ≠ b.path :=
    (pairwise_fileSections result.findings).imp ne_of_lt
  rw [textReport, textReport_lines, ← flatMap_fileSections,
    TextReport.linesAfter_flatMap (fun _ => isOwn_of_mem_fileSections) apart]
  exact intercalate_append_lineEnd (by simp)

variable {result : RunResult} {topCount : Int} {reproducible : Bool}

theorem report_text_eq_ok_iff {text : String} :
    result.report .text topCount reproducible = .ok text ↔
      (∀ finding ∈ result.findings, ∃ lines, finding.readGroups = .ok lines) ∧
        text = textReport result := by
  have listable : reportFault? result .text topCount = none ↔
      ∀ finding ∈ result.findings, ∃ lines, finding.readGroups = .ok lines := by
    simp only [reportFault?, List.findSome?_eq_none_iff, Finding.groupFault?_eq_none_iff,
      (inSourceOrder_perm result.findings).mem_iff]
  rw [report, ← listable]
  cases reportFault? result .text topCount with
  | none => simp [reportText, eq_comm]
  | some fault => simp

theorem closingLine_of_perm {others : List Finding} (same : others.Perm result.findings) :
    closingLine { result with findings := others } = result.closingLine := by
  have numbers (grade : Grade) :
      number { result with findings := others } grade = result.number grade :=
    (same.filter _).length_eq
  have empty : others.isEmpty = result.findings.isEmpty := by
    rw [Bool.eq_iff_iff, List.isEmpty_iff_length_eq_zero, List.isEmpty_iff_length_eq_zero,
      same.length_eq]
  simp only [closingLine, numbers, empty, same.length_eq]

/-- The report does not depend on the order of findings that differ in file, line, column or
rule. -/
theorem report_text_eq_of_filter {others : List Finding}
    (same : ∀ key : FindingKey,
      others.filter (Finding.key · = key) = result.findings.filter (Finding.key · = key)) :
    report { result with findings := others } .text topCount reproducible =
      result.report .text topCount reproducible := by
  have ordered : inSourceOrder others = inSourceOrder result.findings :=
    inSourceOrder_eq_of_filter same
  have perm : others.Perm result.findings :=
    (inSourceOrder_perm others).symm.trans (ordered ▸ inSourceOrder_perm result.findings)
  have faults : reportFault? { result with findings := others } .text topCount =
      reportFault? result .text topCount := by
    simp only [reportFault?, ordered]
  have texts : textReport { result with findings := others } = textReport result := by
    rw [textReport, textReport, textReport_lines, textReport_lines, closingLine_of_perm perm,
      ordered]
  simp only [report, faults, reportText, texts]

/-- What the report of a result for a terminal is. It exists exactly if the groups of all findings
can be listed, so always for a result whose document is valid. It shows the findings file by file,
each with the numbered groups of its report on cohesion below it, and its last line tells the
numbers of errors and warnings, which make up all findings. Findings that differ in file, line,
column or rule may come in any order. -/
structure ReportsByFile (result : RunResult) (topCount : Int) (reproducible : Bool) : Prop where
  exists_iff : (∃ text, result.report .text topCount reproducible = .ok text) ↔
    ∀ finding ∈ result.findings, ∃ lines, finding.readGroups = .ok lines
  valid : (bundledSchema? RunResultSchema.name).map (·.errors result.toJson) = some [] →
    ∃ text, result.report .text topCount reproducible = .ok text
  shown : ∀ text, result.report .text topCount reproducible = .ok text →
    ∃ parts, ShowsByFile parts result.findings ∧
      text = String.join ((parts.flatMap FileSection.lines ++ [result.closingLine]).map (· ++ "\n"))
  groups : ∀ finding ∈ result.findings, ∀ report : Cohesion.CohesionReport,
    finding.cohesion? = some (.object report.toJsonObject) →
      finding.breakdown = report.components.zipIdx.map fun (detail, index) =>
        toString (index + 1) ++ ". " ++ detail.line
  ungrouped : ∀ finding ∈ result.findings, finding.cohesion? = none → finding.breakdown = []
  rearranged : ∀ others : List Finding,
    (∀ key : FindingKey, others.filter (Finding.key · = key) =
      result.findings.filter (Finding.key · = key)) →
    report { result with findings := others } .text topCount reproducible =
      result.report .text topCount reproducible
  permuted : ∀ others : List Finding, others.Perm result.findings →
    (others.map Finding.key).Nodup →
    report { result with findings := others } .text topCount reproducible =
      result.report .text topCount reproducible
  graded : result.number .error + result.number .warning = result.findings.length

/-- The report of every result for a terminal groups its findings completely. -/
theorem reportsByFile (result : RunResult) (topCount : Int) (reproducible : Bool) :
    result.ReportsByFile topCount reproducible where
  exists_iff := by
    simp only [report_text_eq_ok_iff, exists_and_left, exists_eq, and_true]
  valid accepted := by
    exact ⟨_, report_text_eq_ok_iff.mpr ⟨result.exists_readGroups_of_valid accepted, rfl⟩⟩
  shown text reported := by
    obtain ⟨-, rfl⟩ := report_text_eq_ok_iff.mp reported
    exact ⟨_, fileSections_showsByFile result.findings, result.textReport_eq⟩
  groups _ _ _ told := Finding.breakdown_of_report told
  ungrouped _ _ absent := Finding.breakdown_of_cohesion?_eq_none absent
  rearranged _ same := report_text_eq_of_filter same
  permuted _ same apart := report_text_eq_of_filter (filter_eq_of_perm apart same)
  graded := result.number_error_add_number_warning

end RunResult

/-- A finding of a rule in one line. -/
def findingAt (path : String) (line : Int) (severity : Severity) (details : JsonObject) :
    Finding where
  id := "id"
  family := .complexity
  severity := severity
  confidence := 1
  message := "Split this."
  location := ⟨path, line, line, 0⟩
  fingerprint := "sha256:0"
  snippet := ""
  metadata := ("rule_id", .string "SPLIT_001") :: ("rule", .string "split") :: details

/-- A function of two halves, one of which uses no names. -/
def twoHalves : Cohesion.CohesionReport where
  kind := .function
  name := "report"
  span := ⟨2, 9⟩
  componentCount := 2
  average := 0
  threshold := 30
  components :=
    [⟨["if:4"], ["users", "wanted"], ["if"], ["4-6"]⟩, ⟨["for:7"], [], ["for"], ["7-9"]⟩]

/-- Findings in two files, out of order. -/
def scattered : RunResult where
  runId := "run"
  projectId := ""
  createdAt := "then"
  config := .object []
  filesScanned := 2
  findings := [
    findingAt "b.py" 10 .medium [],
    findingAt "a.py" 2 .high [("cohesion", .object twoHalves.toJsonObject)],
    findingAt "b.py" 4 .critical []]

/-- The report on the scattered findings. -/
def scatteredReport : String := String.join ([
  "a.py",
  "     2  error    Split this.  split",
  "          1. [if:4] uses \x7busers, wanted\x7d",
  "          2. [for:7] uses \x7b-\x7d",
  "",
  "b.py",
  "     4  error    Split this.  split",
  "    10  warning  Split this.  split",
  "",
  "3 problems (2 errors, 1 warnings) in 2 files"].map (· ++ "\n"))

/-- The scattered findings are reported in two sections, and the same when they come in the
opposite order. -/
theorem report_scattered :
    (∃ parts, ShowsByFile parts scattered.findings ∧
      scatteredReport = String.join
        ((parts.flatMap FileSection.lines ++ [scattered.closingLine]).map (· ++ "\n"))) ∧
      RunResult.report { scattered with findings := scattered.findings.reverse } .text 20 false =
        .ok scatteredReport := by
  have apart : (scattered.findings.map Finding.key).Nodup := by decide +kernel
  have sorted : (scattered.findings.rotate 1).Pairwise fun a b => a.sourceOrder b = true := by
    decide +kernel
  have ordered : inSourceOrder scattered.findings = scattered.findings.rotate 1 := by
    rw [inSourceOrder_eq_of_filter (filter_eq_of_perm apart (List.rotate_perm _ 1).symm)]
    exact List.mergeSort_of_pairwise sorted
  have reported : scattered.report .text 20 false = .ok scatteredReport := by
    refine RunResult.report_text_eq_ok_iff.mpr ⟨?_, ?_⟩
    · simp only [← Finding.groupFault?_eq_none_iff]
      decide +kernel
    · rw [textReport, TextReport.lines, ordered]
      decide +kernel
  have reports := scattered.reportsByFile 20 false
  refine ⟨reports.shown _ reported, ?_⟩
  rw [← reported]
  exact reports.permuted _ (List.reverse_perm _) (by decide +kernel)

end DesignLint
