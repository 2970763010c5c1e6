import DesignLint.Proofs.Scan.Refusal
import DesignLint.Proofs.Service.Body
import DesignLint.Result.Stamp
import DesignLint.Service.Answer

/-!
# How the service answers scans of texts

A well-formed request for the scan of a text gets one of four answers. It is told that the text is
too large, that its settings are wrong or that its text has a syntax error, or what was found.
For anything else that goes wrong in the scan there is no answer, and the service fails: when the
parser refuses the text or its path, and when an analyzer fails in the module.
-/

namespace DesignLint.Service

open Syntax

/-! ## Requests for the scan of a text -/

/-- The documents that ask for the scan of a text. The path, the preset and the rules may be left
out, and the preset may be null. -/
structure WritesSourceBody (entries : JsonObject) (body : SourceBody) : Prop where
  once : (Json.object entries).NamesKeysOnce
  source : entries.lookup "source" = some (.string body.source)
  path : entries.lookup "path" = some (.string body.path) ∨
    entries.lookup "path" = none ∧ body.path = unnamedPath
  preset : entries.lookup "preset" = body.preset.map .string ∨
    entries.lookup "preset" = some .null ∧ body.preset = none
  rules : entries.lookup "rules" = some (.object body.rules) ∨
    entries.lookup "rules" = none ∧ body.rules = []

theorem WritesSourceBody.readSourceBody_eq {entries : JsonObject} {body : SourceBody}
    (writes : WritesSourceBody entries body) :
    readSourceBody unnamedPath (some (.object entries)) = .ok body := by
  have path : textOr entries "path" unnamedPath = .ok body.path := by
    unfold textOr
    rcases writes.path with given | ⟨absent, usual⟩
    · rw [given]
    · rw [absent, usual]
  unfold readSourceBody
  simp only [bodyEntries, requiredText_eq_ok_iff.mpr writes.source, path,
    optionalText_eq_ok_iff.mpr writes.preset, optionalMapping_eq_ok_iff.mpr writes.rules, bind,
    Except.bind]
  rfl

theorem WritesSourceBody.namesKeysOnce_rules {entries : JsonObject} {body : SourceBody}
    (writes : WritesSourceBody entries body) : (Json.object body.rules).NamesKeysOnce := by
  rcases writes.rules with given | ⟨-, nothing⟩
  · cases writes.once with
    | object _ parts => exact parts _ (JsonObject.mem_of_lookup_eq_some given)
  · rw [nothing]
    exact .object .nil (by simp)

/-- A well-formed request for the scan of a text. -/
structure Request.AsksForScan (request : Request) (body : SourceBody) : Prop where
  method : request.method = "POST"
  path : request.address.path = Route.sourceScan.path
  document : ∃ entries, request.body = some (.object entries) ∧ WritesSourceBody entries body

/-- The settings and the text are all that counts of a well-formed request. -/
theorem Host.answer_of_asksForScan (host : Host) {request : Request} {body : SourceBody}
    (asks : request.AsksForScan body) :
    host.answer request = host.answerSource body request.parsed := by
  obtain ⟨entries, given, writes⟩ := asks.document
  have route : Route.find? Route.sourceScan.path = some .sourceScan := by decide
  have posted : Route.sourceScan.methods.contains "POST" = true := by decide
  unfold Host.answer
  simp only [asks.method, asks.path, route, posted, if_true, String.reduceEq, if_false,
    Host.answerAt, given, writes.readSourceBody_eq]

/-! ## Outcomes of a scan -/

section Outcomes

variable {host : Host} {body : SourceBody} {parsed : ParseResult}

/-- The preset that counts for a scan: the one that is asked for, or the one of the service. -/
def Host.presetFor (host : Host) (body : SourceBody) : String :=
  match body.preset with
  | some preset => if preset.isEmpty then host.settings.preset else preset
  | none => host.settings.preset

/-- Whether a source text is small enough. -/
def Host.Admits (host : Host) (body : SourceBody) : Prop :=
  body.source.utf8ByteSize ≤ host.settings.maxSourceBytes

/-- The scans that are refused: the settings are wrong, or some rule is on and the text has a syntax
error. -/
inductive Host.Refuses (host : Host) (body : SourceBody) (parsed : ParseResult) : Prop
  | settings (wrong : Misconfigured (host.presetFor body) body.rules)
  | text {table : RuleTable} {rule : Rule} {line : Option Int} {message : String}
    (layered : layeredRules (host.presetFor body) body.rules = .ok table)
    (enabled : (table rule).level ≠ .off) (usable : isUsablePath body.path = true)
    (broken : parsed = .error (.syntaxError line message))

/-- The scans that the service has no answer to: some rule is on and the path cannot be one, the
parser refuses the text, or an analyzer fails in the module. -/
inductive Host.Fails (host : Host) (body : SourceBody) (parsed : ParseResult) : Prop
  | path {table : RuleTable} {rule : Rule}
    (layered : layeredRules (host.presetFor body) body.rules = .ok table)
    (enabled : (table rule).level ≠ .off) (unusable : isUsablePath body.path = false)
  | text {table : RuleTable} {rule : Rule} {message : String}
    (layered : layeredRules (host.presetFor body) body.rules = .ok table)
    (enabled : (table rule).level ≠ .off) (refused : parsed = .error (.refused message))
  | analyzer {table : RuleTable} {analyzers : List Analyzer} {analyzer : Analyzer}
      {module : Module}
    (layered : layeredRules (host.presetFor body) body.rules = .ok table)
    (made : table.analyzers = .ok analyzers) (listed : analyzer ∈ analyzers)
    (usable : isUsablePath body.path = true) (whole : parsed = .ok module)
    (fails : analyzer.FailsOn module body.path)

/-- The status of the answer to a scan with an outcome. -/
def statusOf : Except SourceScanError (List Finding) → Nat
  | .ok _ => 200
  | .error (.config _) => 422
  | .error (.check (.unparsed (.syntaxError _ _))) => 422
  | .error (.check _) => 500

theorem Host.status_answerSource (admits : host.Admits body) :
    (host.answerSource body parsed).status =
      statusOf (scanText parsed body.path (host.presetFor body) body.rules) := by
  have preset : (if (body.preset.getD "").isEmpty then host.settings.preset
      else body.preset.getD "") = host.presetFor body := by
    unfold presetFor
    cases body.preset <;> rfl
  unfold answerSource
  rw [if_neg (not_lt.mpr admits)]
  dsimp only
  rw [preset]
  split <;> simp_all [statusOf, Response.ok, Response.refused, Response.failed]

theorem statusOf_check {failure : CheckError} (other : ∀ reason, failure ≠ .unparsed reason) :
    statusOf (.error (.check failure)) = 500 := by
  cases failure with
  | unparsed reason => exact absurd rfl (other reason)
  | noSourceText => rfl
  | unencodable => rfl

section Statuses

variable (once : (Json.object body.rules).NamesKeysOnce) (admits : host.Admits body)

include once admits

theorem Host.status_of_refuses (refuses : host.Refuses body parsed) :
    (host.answerSource body parsed).status = 422 := by
  rw [status_answerSource admits]
  cases refuses with
  | settings wrong =>
      obtain ⟨error, failed⟩ := (exists_error_iff_misconfigured once.isMapping).mpr wrong
      rw [scanText, failed]
      rfl
  | text layered enabled usable broken =>
      have unparsed := (if_pos usable : parsed.under body.path = parsed).trans broken
      rw [scanText_of_enabled once layered unparsed ⟨_, enabled⟩]
      rfl

theorem Host.status_of_fails (fails : host.Fails body parsed) :
    (host.answerSource body parsed).status = 500 := by
  rw [status_answerSource admits]
  cases fails with
  | path layered enabled unusable =>
      have unparsed : parsed.under body.path = .error (.refused "embedded null character") :=
        if_neg (ne_true_of_eq_false unusable)
      rw [scanText_of_enabled once layered unparsed ⟨_, enabled⟩]
      rfl
  | text layered enabled refused =>
      obtain ⟨message, unparsed⟩ :
          ∃ message, parsed.under body.path = .error (.refused message) := by
        unfold ParseResult.under
        split
        · exact ⟨_, refused⟩
        · exact ⟨_, rfl⟩
      rw [scanText_of_enabled once layered unparsed ⟨_, enabled⟩]
      rfl
  | analyzer layered made listed usable whole fails =>
      rw [scanText_eq_of_resolved parsed body.path layered made, whole]
      cases outcome : checkAll _ _ body.path with
      | ok findings => exact absurd fails ((exists_checkAll_iff usable).mp ⟨_, outcome⟩ _ listed)
      | error failure => exact statusOf_check (ne_unparsed_of_checkAll usable outcome)

/-- A scan that is not refused and does not fail is answered. -/
theorem Host.status_of_neither (right : ¬host.Refuses body parsed)
    (works : ¬host.Fails body parsed) : (host.answerSource body parsed).status = 200 := by
  rw [status_answerSource admits]
  obtain ⟨table, layered⟩ : ∃ table,
      layeredRules (host.presetFor body) body.rules = .ok table := by
    cases layered : layeredRules (host.presetFor body) body.rules with
    | ok table => exact ⟨table, rfl⟩
    | error error =>
        exact absurd (.settings ((exists_error_iff_misconfigured once.isMapping).mp ⟨_, layered⟩))
          right
  obtain ⟨analyzers, made, served⟩ := exists_analyzers_of_layeredRules once layered
  rw [scanText_eq_of_resolved parsed body.path layered made]
  suffices found : ∃ findings, checkAll analyzers parsed body.path = .ok findings by
    obtain ⟨findings, checked⟩ := found
    rw [checked]
    rfl
  by_cases asked : ∃ rule, (table rule).level ≠ .off
  · obtain ⟨rule, enabled⟩ := asked
    have usable : isUsablePath body.path = true := by
      by_contra unusable
      exact works (.path layered enabled (Bool.not_eq_true _ ▸ unusable))
    cases parsed with
    | error error =>
        cases error with
        | syntaxError => exact absurd (.text layered enabled usable rfl) right
        | refused => exact absurd (.text layered enabled rfl) works
    | ok module =>
        refine (exists_checkAll_iff usable).mpr fun analyzer listed fails => ?_
        exact works (.analyzer layered made listed usable rfl fails)
  · -- with all rules off the text does not matter
    obtain rfl := served.eq_nil_iff.mpr (by simpa using asked)
    exact ⟨[], checkAll_nil parsed body.path⟩

end Statuses

end Outcomes

/-- The service as it is usually set up, without any files. -/
def usualHost : Host := ⟨⟨.directory [], [], false⟩, .usual, .fresh [] 0⟩

/-- A text with a character that no source code has. -/
def zeroBody : SourceBody := ⟨"a\x00b\n", unnamedPath, none, []⟩

/-- The request to scan this text, which the parser refuses. -/
def zeroRequest : Request where
  method := "POST"
  address := ⟨"/scan/source", []⟩
  body := some (.object [("source", .string "a\x00b\n")])
  parsed := .error (.refused "source code string cannot contain null bytes")

theorem asksForScan_zeroRequest : zeroRequest.AsksForScan zeroBody where
  method := rfl
  path := rfl
  document := by
    refine ⟨_, rfl, ⟨?_, rfl, .inr ⟨rfl, rfl⟩, .inl rfl, .inr ⟨rfl, rfl⟩⟩⟩
    exact .object (by decide) (List.forall_mem_singleton.mpr (.string _))

end DesignLint.Service
