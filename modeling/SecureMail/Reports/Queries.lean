import SecureMail.Py.Value
import SecureMail.Reports.Assembly
import SecureMail.Reports.LastWrite

/-!
# The queries of the dashboard

Whoever reads the catalog trusts nothing in it: the bytes of a report are parsed and validated again
at each query, and the case of the manifest must be the case that was asked for. The list of all
cases is built from the same parse, so one report that does not pass takes the whole list with it.

A query is a function of the root, with parsing and rendering as parameters, so what it answers can
be said of any sequence of publications before it. The exceptions of the reader are kept apart by
what the interface makes of them: a case that is not there, a report that is not valid, and a
repository that cannot be read. The list and the single case go through the same validation, and
that is why the one fails as a whole where the other fails for one case.
-/

namespace SecureMail
namespace Reports

open Py Fallible Calls Validation
open Jobs (isIdentifier)

/-- The exceptions of the libraries, as the handlers of the queries tell them apart. -/
inductive Raised where
  | unicodeDecodeError
  | jsonDecodeError
  | validationError
  | typeError
  | valueError
  | other
  deriving DecidableEq, Repr

/-- What a query raises: a `ReportQueryError`, a `ReportError`, an `ArtifactNotReadyError`, or what
goes through its handlers. -/
inductive Failure where
  | reportTooLarge (message : String)
  | invalidReport (message : String)
  | caseNotFound (message : String)
  | caseMismatch (message : String)
  | catalog (message : String)
  | report (message : String)
  | artifactNotReady (message : String)
  | raised (e : Raised)
  deriving DecidableEq, Repr

abbrev Answer := Except Failure

/-- A `CanonicalReport` that its model has validated. -/
abbrev Report := Validated CanonicalReport.checks

/-- The libraries: `json.loads` of the decoded bytes, pydantic, RFC 8785, the digest, and the two
renderers. A dump of a report goes to `canonicalize` wherever it is taken, before anything else reads
it, so an exception of `model_dump` is one of `canonicalize` here and the dump itself is total. -/
structure Libraries where
  loads : Bytes → Except Raised Val
  modelValidate : List (String × Val) → Except Raised Report
  modelDump : Report → List (String × Val)
  canonicalize : List (String × Val) → Except Raised Bytes
  digest : Bytes → Sha256Hex
  renderHtml : List (String × Val) → Except Raised String
  renderPdf : String → Except Raised Bytes

/-- `MAX_REPORT_BYTES`. -/
def maxReportBytes : Nat := 8 * 1024 * 1024

/-- A handler that makes some exceptions an `InvalidCanonicalReportError`. -/
def orInvalid {α : Type} (caught : List Raised) (message : String) (x : Except Raised α) : Answer α :=
  x.mapError fun e => if e ∈ caught then .invalidReport message else .raised e

structure ParsedReport where
  report : Report
  canonicalBytes : Bytes

variable (lib : Libraries)

/-- The second handler of `parse_report`: a `ValueError` is also what its subclasses are. -/
def validateCanonical (payload : List (String × Val)) : Except Raised ParsedReport := do
  let report ← lib.modelValidate payload
  return ⟨report, ← lib.canonicalize (lib.modelDump report)⟩

/-- `parse_report`. The size is checked first, then the syntax, then the schema, each with a message
of its own. -/
def parseReport (raw : Bytes) : Answer ParsedReport := do
  if maxReportBytes < raw.length then
    throw (.reportTooLarge ("report input exceeds " ++ toString maxReportBytes ++ " bytes"))
  match ← orInvalid [.unicodeDecodeError, .jsonDecodeError] "report input must be valid UTF-8 JSON"
      (lib.loads raw) with
  | .dict payload =>
    orInvalid [.validationError, .typeError, .valueError, .unicodeDecodeError, .jsonDecodeError]
      "report does not match securemail.report/v1" (validateCanonical lib payload)
  | _ => throw (.invalidReport "report JSON must be an object")

structure GetCaseReportResult where
  caseId : Text 160
  report : Report
  canonicalBytes : Bytes

/-- `repository.get_report`, with its handler. -/
def readCase (root : ReportRoot) (caseId : String) : Answer (Option Bytes) :=
  (getReport {} root caseId).mapError fun _ => .catalog "report catalog is unavailable"

/-- `get_case_report`. A report under the wrong case is refused, although it is a valid one. -/
def getCaseReport (root : ReportRoot) (caseId : Text 160) : Answer GetCaseReportResult := do
  match ← readCase root caseId.val with
  | none => throw (.caseNotFound "case report not found")
  | some raw =>
    let parsed ← parseReport lib raw
    if parsed.report.val.manifest.val.caseId ≠ some caseId.val then
      throw (.caseMismatch "case report manifest does not match requested case")
    return ⟨caseId, parsed.report, parsed.canonicalBytes⟩

structure FindingSeverityCounts where
  high : Nat
  medium : Nat
  low : Nat
  informational : Nat
  deriving DecidableEq

/-- `Counter(..)[severity]`. -/
def severityCount (findings : List Findings.ScoredEndpointFinding)
    (severity : FindingSeverity) : Nat :=
  (findings.map (·.severity)).count severity

structure CaseSummary where
  caseId : String
  generatedAt : Py.Datetime
  assessmentState : Findings.AssessmentState
  riskScore : Option Nat
  findingCount : Nat
  severityCounts : FindingSeverityCounts
  unknownCount : Nat
  notObservableCount : Nat
  advisoryPresent : Bool
  analystConclusionsPresent : Bool

def CaseSummary.checks (summary : CaseSummary) : List (Bool × Failure) :=
  [(within 1 160 summary.caseId, .raised .validationError),
   (summary.riskScore.all (· ≤ 100), .raised .validationError)]

/-- What the dashboard lists of a report. Most numbers are read off the posture and not off the
manifest; that these agree is the work of the schema. -/
def summaryOfCase (caseId : String) (report : CanonicalReport) : CaseSummary where
  caseId := caseId
  generatedAt := report.manifest.val.generatedAt
  assessmentState := report.evidence.posture.assessmentState
  riskScore := report.evidence.posture.riskScore.map (·.val)
  findingCount := report.evidence.posture.prioritizedFindings.val.length
  severityCounts :=
    { high := severityCount report.evidence.posture.prioritizedFindings.val .high
      medium := severityCount report.evidence.posture.prioritizedFindings.val .medium
      low := severityCount report.evidence.posture.prioritizedFindings.val .low
      informational := severityCount report.evidence.posture.prioritizedFindings.val .informational }
  unknownCount := report.evidence.posture.coverage.overall.unknownCount
  notObservableCount := report.evidence.posture.coverage.overall.notObservableCount
  advisoryPresent := report.advisory.val.present
  analystConclusionsPresent := report.analystConclusions.val.present

/-- `_case_summary`. -/
def caseSummary (caseId : String) (report : CanonicalReport) : Answer (Validated CaseSummary.checks) :=
  if report.manifest.val.caseId ≠ some caseId then
    .error (.caseMismatch "case report manifest does not match catalog case")
  else validate CaseSummary.checks (summaryOfCase caseId report)

/-- The loop of `list_case_summaries`. -/
def summarizeEntry (root : ReportRoot) (entry : ReportCatalogEntry) :
    Answer (Validated CaseSummary.checks) := do
  match ← readCase root entry.caseId with
  | none => throw (.catalog "cataloged report is unavailable")
  | some raw => caseSummary entry.caseId (← parseReport lib raw).report.val

/-- `list_case_summaries`. -/
def listCaseSummaries (root : ReportRoot) : Answer (List (Validated CaseSummary.checks)) := do
  let entries ← (listReports {} root).mapError fun _ => .catalog "report catalog is unavailable"
  entries.mapM (summarizeEntry lib root)

/-! ## A case -/

section

variable {lib : Libraries} {limits : Limits} {root : ReportRoot} {m : String → Option Bytes}
  {caseId : String} {raw : Bytes}

/-- What the queries make of a report of the case: it parses, and its manifest names the case. -/
def Readable (lib : Libraries) (caseId : String) (raw : Bytes) (parsed : ParsedReport) : Prop :=
  parseReport lib raw = .ok parsed ∧ parsed.report.val.manifest.val.caseId = some caseId

theorem readCase_eq (h : Stores {} root m) (caseId : String) :
    readCase root caseId = .ok (m caseId) := by
  rw [readCase, h.getReport_eq (by decide)]
  rfl

theorem getCaseReport_eq_ok_iff (h : Stores {} root m) {caseId : Text 160}
    {result : GetCaseReportResult} : getCaseReport lib root caseId = .ok result ↔
      ∃ raw, m caseId.val = some raw ∧
        Readable lib caseId.val raw ⟨result.report, result.canonicalBytes⟩ ∧
        result.caseId = caseId := by
  unfold getCaseReport
  rw [readCase_eq h]
  cases hm : m caseId.val with
  | none =>
    refine iff_of_false (fun hok => ?_) (fun ⟨raw, hraw, _⟩ => by cases hraw)
    cases hok
  | some raw =>
    show (parseReport lib raw >>= fun parsed => _) = _ ↔ _
    rw [bind_eq_ok]
    constructor
    · rintro ⟨parsed, hparsed, hok⟩
      by_cases hcase : parsed.report.val.manifest.val.caseId = some caseId.val
      · simp only [hcase, ne_eq, not_true_eq_false, if_false] at hok
        obtain rfl := pure_eq_ok.mp hok
        exact ⟨raw, rfl, ⟨hparsed, hcase⟩, rfl⟩
      · simp only [hcase, ne_eq, not_false_eq_true, if_true] at hok
        cases hok
    · rintro ⟨raw', hraw, ⟨hparsed, hcase⟩, rfl⟩
      obtain rfl := Option.some.inj hraw
      exact ⟨_, hparsed, if_neg (not_not.mpr hcase)⟩

theorem returns_getCaseReport_iff (h : Stores {} root m) {caseId : Text 160} :
    Returns (getCaseReport lib root caseId) ↔
      ∃ raw parsed, m caseId.val = some raw ∧ Readable lib caseId.val raw parsed := by
  constructor
  · rintro ⟨result, hok⟩
    obtain ⟨raw, hm, hreadable, -⟩ := (getCaseReport_eq_ok_iff h).mp hok
    exact ⟨raw, _, hm, hreadable⟩
  · rintro ⟨raw, parsed, hm, hreadable⟩
    exact ⟨⟨caseId, parsed.report, parsed.canonicalBytes⟩,
      (getCaseReport_eq_ok_iff h).mpr ⟨raw, hm, hreadable, rfl⟩⟩

/-! ## The list of cases -/

/-- The case ID and the score come from fields with the same bounds. -/
theorem passes_summaryOfCase (hcase : 1 ≤ caseId.length ∧ caseId.length ≤ 160)
    (report : CanonicalReport) : Passes (summaryOfCase caseId report).checks := by
  cases hscore : report.evidence.posture.riskScore with
  | none => simp [CaseSummary.checks, summaryOfCase, hcase, hscore]
  | some score => simp [CaseSummary.checks, summaryOfCase, hcase, hscore, score.property]

theorem summarizeEntry_eq_ok_iff (h : Stores {} root m) (hm : m caseId = some raw) {size : Nat}
    {summary : Validated CaseSummary.checks} :
    summarizeEntry lib root ⟨caseId, size⟩ = .ok summary ↔
      ∃ parsed, Readable lib caseId raw parsed ∧
        summary.val = summaryOfCase caseId parsed.report.val := by
  unfold summarizeEntry
  rw [readCase_eq h, hm]
  show (parseReport lib raw >>= fun parsed => caseSummary caseId parsed.report.val) = _ ↔ _
  rw [bind_eq_ok]
  refine exists_congr fun parsed => ?_
  rw [Readable, and_assoc]
  refine and_congr_right fun _ => ?_
  unfold caseSummary
  by_cases hmanifest : parsed.report.val.manifest.val.caseId = some caseId
  · rw [if_neg (not_not.mpr hmanifest), validate_eq_ok_iff]
    exact (and_iff_right hmanifest).symm
  · rw [if_pos hmanifest]
    exact iff_of_false (fun hok => by cases hok) fun hok => hmanifest hok.1

theorem Stores.isIdentifier_of_some (h : Stores limits root m) (hm : m caseId = some raw) :
    isIdentifier caseId = true := by
  obtain ⟨item, hitem, rfl⟩ := h.exists_item hm
  exact (h.published item hitem).1

/-- The list, as a loop over the cases of the map. -/
theorem listCaseSummaries_eq (h : Stores {} root m) :
    listCaseSummaries lib root =
      ((items root).map (Stores.entryOf m)).mapM (summarizeEntry lib root) := by
  rw [listCaseSummaries, h.listReports_eq (by decide)]
  rfl

theorem summarizeItem_eq_ok_iff (h : Stores {} root m) {item : CatalogItem} (hitem : item ∈ items root)
    {summary : Validated CaseSummary.checks} :
    summarizeEntry lib root (Stores.entryOf m item) = .ok summary ↔
      ∃ raw parsed, m item.caseId = some raw ∧ Readable lib item.caseId raw parsed ∧
        summary.val = summaryOfCase item.caseId parsed.report.val := by
  obtain ⟨raw, -, -, hm⟩ := h.files item hitem
  rw [Stores.entryOf, summarizeEntry_eq_ok_iff h hm]
  constructor
  · rintro ⟨parsed, hparsed⟩
    exact ⟨raw, parsed, hm, hparsed⟩
  · rintro ⟨raw', parsed, hm', hparsed⟩
    obtain rfl := Option.some.inj (hm.symm.trans hm')
    exact ⟨parsed, hparsed⟩

theorem returns_listCaseSummaries_iff (h : Stores {} root m) :
    Returns (listCaseSummaries lib root) ↔
      ∀ caseId raw, m caseId = some raw → ∃ parsed, Readable lib caseId raw parsed := by
  rw [listCaseSummaries_eq h, List.mapM_map, returns_mapM_iff]
  constructor
  · intro hall caseId raw hm
    obtain ⟨item, hitem, rfl⟩ := h.exists_item hm
    obtain ⟨summary, hsummary⟩ := hall item hitem
    obtain ⟨raw', parsed, hm', hparsed, -⟩ := (summarizeItem_eq_ok_iff h hitem).mp hsummary
    obtain rfl := Option.some.inj (hm.symm.trans hm')
    exact ⟨parsed, hparsed⟩
  · intro hall item hitem
    obtain ⟨raw, -, -, hm⟩ := h.files item hitem
    obtain ⟨parsed, hparsed⟩ := hall item.caseId raw hm
    exact ⟨⟨_, passes_summaryOfCase (length_caseId (h.published item hitem).1) parsed.report.val⟩,
      (summarizeItem_eq_ok_iff h hitem).mpr ⟨raw, parsed, hm, hparsed, rfl⟩⟩

theorem mem_summaries_iff (h : Stores {} root m) {summaries : List (Validated CaseSummary.checks)}
    (hlist : listCaseSummaries lib root = .ok summaries) {summary : Validated CaseSummary.checks} :
    summary ∈ summaries ↔ ∃ caseId raw parsed, m caseId = some raw ∧ Readable lib caseId raw parsed ∧
      summary.val = summaryOfCase caseId parsed.report.val := by
  rw [listCaseSummaries_eq h, List.mapM_map] at hlist
  constructor
  · intro hmem
    obtain ⟨item, hitem, hsummary⟩ := exists_of_mem_mapM hlist hmem
    obtain ⟨raw, parsed, hparsed⟩ := (summarizeItem_eq_ok_iff h hitem).mp hsummary
    exact ⟨item.caseId, raw, parsed, hparsed⟩
  · rintro ⟨caseId, raw, parsed, hm, hparsed⟩
    obtain ⟨item, hitem, rfl⟩ := h.exists_item hm
    exact mem_of_mapM hlist hitem
      ((summarizeItem_eq_ok_iff h hitem).mpr ⟨raw, parsed, hm, hparsed⟩)

theorem summaries_sorted (h : Stores {} root m) {summaries : List (Validated CaseSummary.checks)}
    (hlist : listCaseSummaries lib root = .ok summaries) :
    summaries.Pairwise fun a b => a.val.caseId < b.val.caseId := by
  rw [listCaseSummaries_eq h, List.mapM_map] at hlist
  have hids : summaries.map (·.val.caseId) = (items root).map (·.caseId) := by
    refine map_of_mapM ?_ hlist
    intro item hitem summary hsummary
    obtain ⟨raw, parsed, -, -, hval⟩ := (summarizeItem_eq_ok_iff h hitem).mp hsummary
    rw [hval]
    rfl
  have hsorted := h.sorted
  rw [← List.pairwise_map (f := fun item : CatalogItem => item.caseId)
    (R := fun a b => a < b), ← hids, List.pairwise_map] at hsorted
  exact hsorted

/-! ## What goes wrong -/

theorem orInvalid_error {α : Type} {caught : List Raised} {message : String} {x : Except Raised α}
    {e : Failure} (h : orInvalid caught message x = .error e) :
    e = .invalidReport message ∨ ∃ r, e = .raised r := by
  cases x with
  | ok a => cases h
  | error r =>
    obtain rfl := Except.error.inj h
    by_cases hcaught : r ∈ caught
    · exact Or.inl (if_pos hcaught)
    · exact Or.inr ⟨r, if_neg hcaught⟩

/-- What a query says of a report that it found: invalid, of another case, or what no handler takes. -/
inductive Rejected : Failure → Prop
  | invalid (message : String) : Rejected (.invalidReport message)
  | mismatch (message : String) : Rejected (.caseMismatch message)
  | raised (r : Raised) : Rejected (.raised r)

theorem parseReport_error (hfits : raw.length ≤ maxReportBytes) {e : Failure}
    (h : parseReport lib raw = .error e) : Rejected e := by
  have hcaught : ∀ {message}, e = .invalidReport message ∨ (∃ r, e = .raised r) → Rejected e := by
    rintro message (rfl | ⟨r, rfl⟩)
    · exact .invalid message
    · exact .raised r
  unfold parseReport at h
  simp only [not_lt.mpr hfits, if_false] at h
  rcases bind_eq_error.mp h with hloads | ⟨value, -, h⟩
  · exact hcaught (orInvalid_error hloads)
  · cases value with
    | dict payload => exact hcaught (orInvalid_error h)
    | _ =>
      obtain rfl := Except.error.inj h
      exact .invalid _

theorem Stores.length_le (h : Stores {} root m) (hm : m caseId = some raw) :
    raw.length ≤ maxReportBytes := by
  obtain ⟨item, hitem, rfl⟩ := h.exists_item hm
  obtain ⟨bytes, -, hle, hbytes⟩ := h.files item hitem
  obtain rfl := Option.some.inj (hm.symm.trans hbytes)
  exact hle

theorem getCaseReport_error (h : Stores {} root m) {caseId : Text 160} {e : Failure}
    (he : getCaseReport lib root caseId = .error e) :
    (m caseId.val = none ∧ e = .caseNotFound "case report not found") ∨
      ((m caseId.val).isSome = true ∧ Rejected e) := by
  unfold getCaseReport at he
  rw [readCase_eq h] at he
  cases hm : m caseId.val with
  | none =>
    rw [hm] at he
    exact Or.inl ⟨rfl, (Except.error.inj he).symm⟩
  | some raw =>
    rw [hm] at he
    refine Or.inr ⟨rfl, ?_⟩
    change (parseReport lib raw >>= fun parsed => _) = _ at he
    rcases bind_eq_error.mp he with hparse | ⟨parsed, -, he⟩
    · exact parseReport_error (h.length_le hm) hparse
    · by_cases hcase : parsed.report.val.manifest.val.caseId = some caseId.val
      · rw [if_neg (not_not.mpr hcase)] at he
        cases he
      · rw [if_pos hcase] at he
        obtain rfl := Except.error.inj he
        exact .mismatch _

/-! ## What a summary says -/

/-- Each finding is counted under its severity. -/
theorem sum_severityCount (findings : List Findings.ScoredEndpointFinding) :
    severityCount findings .high + severityCount findings .medium + severityCount findings .low +
      severityCount findings .informational = findings.length := by
  induction findings with
  | nil => rfl
  | cons finding rest ih =>
    rw [List.length_cons, ← ih]
    cases hseverity : finding.severity <;> simp [severityCount, hseverity] <;> omega

/-- The summary has the numbers of the manifest, and as many findings in its classes as in all. -/
structure CaseSummary.Agrees (summary : CaseSummary) (posture : PostureSummary) : Prop where
  state : summary.assessmentState = posture.assessmentState
  risk : summary.riskScore = posture.riskScore
  findings : summary.findingCount = posture.findingCount
  unknown : summary.unknownCount = posture.unknownCount
  notObservable : summary.notObservableCount = posture.notObservableCount
  severities : summary.severityCounts.high + summary.severityCounts.medium +
    summary.severityCounts.low + summary.severityCounts.informational = summary.findingCount

theorem summaryOfCase_agrees (report : Report) :
    (summaryOfCase caseId report.val).Agrees report.val.manifest.val.postureSummary.val := by
  rw [((passes_checks_iff report.val).mp report.property).summary]
  exact ⟨rfl, rfl, rfl, rfl, rfl, sum_severityCount _⟩

end

/-- **What the dashboard shows after any publications.** A query for a case parses the bytes that were
last published for it, and shows them only if they are a report of that case. It fails with "not
found" if nothing was published, and otherwise only because of the report. The list returns exactly if
the query of each published case does; it has one summary for each, in the order of the case IDs, with
the numbers of the manifest. -/
theorem queries_of_publications (lib : Libraries) (created : Bool) (reports : List (String × Bytes)) :
    let written := runCalls (publish {}) (emptyRoot created) reports
    let shown := getCaseReport lib written.1
    (∀ caseId result, shown caseId = .ok result →
      result.report.val.manifest.val.caseId = some caseId.val ∧
      ∃ raw, lastWrite written.2 caseId.val = some raw ∧
        parseReport lib raw = .ok ⟨result.report, result.canonicalBytes⟩) ∧
    (∀ caseId e, shown caseId = .error e →
      (lastWrite written.2 caseId.val = none ∧ e = .caseNotFound "case report not found") ∨
      ((lastWrite written.2 caseId.val).isSome = true ∧ Rejected e)) ∧
    (Returns (listCaseSummaries lib written.1) ↔
      ∀ caseId : Text 160, (lastWrite written.2 caseId.val).isSome = true → Returns (shown caseId)) ∧
    ∀ summaries, listCaseSummaries lib written.1 = .ok summaries →
      (summaries.Pairwise fun a b => a.val.caseId < b.val.caseId) ∧
      (∀ caseId : Text 160, (∃ summary ∈ summaries, summary.val.caseId = caseId.val) ↔
        (lastWrite written.2 caseId.val).isSome = true) ∧
      ∀ summary ∈ summaries, ∃ caseId result, shown caseId = .ok result ∧
        summary.val = summaryOfCase caseId.val result.report.val ∧
        summary.val.Agrees result.report.val.manifest.val.postureSummary.val := by
  intro written shown
  have h : Stores {} written.1 (lastWrite written.2) :=
    (publish_refines {}).run (stores_emptyRoot {} created)
  have hcaseId : ∀ {caseId raw}, lastWrite written.2 caseId = some raw →
      1 ≤ caseId.length ∧ caseId.length ≤ 160 := fun hm => length_caseId (h.isIdentifier_of_some hm)
  refine ⟨?_, fun caseId e => getCaseReport_error h, ?_, ?_⟩
  · intro caseId result hok
    obtain ⟨raw, hm, ⟨hparsed, hcase⟩, -⟩ := (getCaseReport_eq_ok_iff h).mp hok
    exact ⟨hcase, raw, hm, hparsed⟩
  · rw [returns_listCaseSummaries_iff h]
    constructor
    · intro hall caseId hsome
      obtain ⟨raw, hm⟩ := Option.isSome_iff_exists.mp hsome
      obtain ⟨parsed, hparsed⟩ := hall caseId.val raw hm
      exact (returns_getCaseReport_iff h).mpr ⟨raw, parsed, hm, hparsed⟩
    · intro hall caseId raw hm
      obtain ⟨raw', parsed, hm', hparsed⟩ := (returns_getCaseReport_iff h).mp
        (hall ⟨caseId, hcaseId hm⟩ (Option.isSome_iff_exists.mpr ⟨raw, hm⟩))
      obtain rfl := Option.some.inj (hm.symm.trans hm')
      exact ⟨parsed, hparsed⟩
  · intro summaries hlist
    refine ⟨summaries_sorted h hlist, ?_, ?_⟩
    · intro caseId
      constructor
      · rintro ⟨summary, hmem, hid⟩
        obtain ⟨caseId', raw, parsed, hm, -, hval⟩ := (mem_summaries_iff h hlist).mp hmem
        have hsame : caseId' = caseId.val := by
          rw [← hid, hval]
          rfl
        rw [← hsame, hm]
        rfl
      · intro hsome
        obtain ⟨raw, hm⟩ := Option.isSome_iff_exists.mp hsome
        obtain ⟨parsed, hparsed⟩ := (returns_listCaseSummaries_iff h).mp ⟨summaries, hlist⟩ _ raw hm
        exact ⟨⟨_, passes_summaryOfCase (hcaseId hm) parsed.report.val⟩,
          (mem_summaries_iff h hlist).mpr ⟨_, raw, parsed, hm, hparsed, rfl⟩, rfl⟩
    · intro summary hmem
      obtain ⟨caseId, raw, parsed, hm, hparsed, hval⟩ := (mem_summaries_iff h hlist).mp hmem
      refine ⟨⟨caseId, hcaseId hm⟩, ⟨⟨caseId, hcaseId hm⟩, parsed.report, parsed.canonicalBytes⟩,
        (getCaseReport_eq_ok_iff h).mpr ⟨raw, hm, hparsed, rfl⟩, hval, ?_⟩
      rw [hval]
      exact summaryOfCase_agrees parsed.report

end Reports
end SecureMail
