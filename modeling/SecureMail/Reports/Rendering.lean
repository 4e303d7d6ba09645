import SecureMail.Lib.Leaders
import SecureMail.Reports.Queries

/-!
# Rendering a report

A list of formats names each format that is to be rendered, and everything that is rendered comes from
one dump of the report. A download of a case renders the report that a query for it returns, so the
JSON that is downloaded is the JSON of the view.

The renderers are parameters. What they are given and what their errors become is the code's own,
and that is what is modelled: the formats in their order, each at most once, the dump that they
share, the rule that JSON is always rendered from the same text. A download is a query and a
rendering in one: it fails as the query does or as the rendering does, and what a library raises
passes through as it is.
-/

namespace SecureMail
namespace Reports

open Py Fallible

variable (lib : Libraries)

inductive ReportFormat where
  | json
  | html
  | pdf
  deriving DecidableEq, Repr

def ReportFormat.value : ReportFormat → String
  | .json => "json"
  | .html => "html"
  | .pdf => "pdf"

/-- `ALLOWED_REPORT_FORMATS`. -/
def allowedReportFormats : List String := ["json", "html", "pdf"]

/-- The cases of the loop of `parse_report_formats`. -/
def formatOf (token : String) : Option ReportFormat :=
  if token = "json" then some .json
  else if token = "html" then some .html
  else if token = "pdf" then some .pdf
  else none

/-- One token, with `ordered` and `seen`. A repetition is passed over, and the first token that is
no format ends the loop. -/
def addFormat (acc : List ReportFormat × List String) (token : String) :
    Answer (List ReportFormat × List String) :=
  if token ∈ acc.2 then .ok acc
  else
    match formatOf token with
    | some format => .ok (acc.1 ++ [format], token :: acc.2)
    | none => .error (.report ("unsupported report format: " ++ token))

def formatTokens (raw : String) : List String :=
  ((splitOnChar ',' raw).filter fun item => strip item ≠ "").map fun item => lower (strip item)

/-- `parse_report_formats`. -/
def parseReportFormats (raw : String) : Answer (List ReportFormat) := do
  if formatTokens raw = [] then
    throw (.report "at least one report format is required")
  return (← (formatTokens raw).foldlM addFormat ([], [])).1

structure RenderedReport where
  payload : List (String × Val)
  jsonBytes : Bytes
  sha256 : Sha256Hex
  html : Option String
  pdf : Option Bytes

/-- An exception of a library that nobody handles. -/
def unhandled {α : Type} (x : Except Raised α) : Answer α := x.mapError .raised

/-- The HTML of `render_report`, which the PDF needs too. -/
def htmlOf (payload : List (String × Val)) (formats : List String) : Answer (Option String) :=
  if "html" ∈ formats ∨ "pdf" ∈ formats then some <$> unhandled (lib.renderHtml payload)
  else pure none

def pdfOf (html : Option String) (formats : List String) : Answer (Option Bytes) :=
  if "pdf" ∈ formats then
    match html with
    | none => .error (.report "PDF rendering requires HTML derived from the same object")
    | some page => some <$> unhandled (lib.renderPdf page)
  else pure none

/-- `render_report`. The formats are checked here too, so that a caller need not have parsed a list
of them. -/
def renderReport (report : Report) (formats : List String) : Answer RenderedReport := do
  -- `sorted(unknown)[0]`
  match (formats.filter (· ∉ allowedReportFormats)).insertionSort (· ≤ ·) with
  | unknown :: _ => .error (.report ("unsupported report format: " ++ unknown))
  | [] =>
    if formats = [] then .error (.report "at least one report format is required")
    else
      let payload := lib.modelDump report
      let jsonBytes ← unhandled (lib.canonicalize payload)
      let html ← htmlOf lib payload formats
      let pdf ← pdfOf lib html formats
      return ⟨payload, jsonBytes, lib.digest jsonBytes, html, pdf⟩

/-- `s.encode("utf-8")`. -/
def encodeUtf8 (s : String) : Bytes := s.toUTF8.toList

/-- The format that `render_case_artifact` takes out of what it rendered. -/
def artifactOf (rendered : RenderedReport) (fmt : String) : Answer Bytes :=
  if fmt = "json" then .ok rendered.jsonBytes
  else if fmt = "html" then
    match rendered.html with
    | none => .error (.artifactNotReady "HTML artifact is unavailable")
    | some page => .ok (encodeUtf8 page)
  else
    match rendered.pdf with
    | none => .error (.artifactNotReady "PDF artifact is unavailable")
    | some pdf => .ok pdf

/-- The handler of `render_case_artifact`. -/
def orNotReady : Failure → Failure
  | .report message => .artifactNotReady message
  | e => e

/-- `render_case_artifact`. -/
def renderCaseArtifact (root : ReportRoot) (caseId : Text 160) (fmt : String) : Answer Bytes := do
  let result ← getCaseReport lib root caseId
  artifactOf (← (renderReport lib result.report [fmt]).mapError orNotReady) fmt

/-! ## The formats of a report -/

section

variable {lib : Libraries} {token : String} {done tokens : List String}
  {acc : List ReportFormat × List String}

theorem formatOf_eq_some_iff {format : ReportFormat} :
    formatOf token = some format ↔ format.value = token := by
  constructor
  · intro h
    unfold formatOf at h
    split_ifs at h with hjson hhtml hpdf <;> obtain rfl := Option.some.inj h
    · exact hjson.symm
    · exact hhtml.symm
    · exact hpdf.symm
  · rintro rfl
    cases format <;> rfl

theorem value_injective : Function.Injective ReportFormat.value := by
  intro format format' h
  exact Option.some.inj ((formatOf_eq_some_iff.mpr h).symm.trans (formatOf_eq_some_iff.mpr rfl))

theorem mem_allowed_iff :
    token ∈ allowedReportFormats ↔ ∃ format : ReportFormat, format.value = token := by
  constructor
  · intro h
    simp only [allowedReportFormats, List.mem_cons, List.not_mem_nil, or_false] at h
    rcases h with rfl | rfl | rfl
    · exact ⟨.json, rfl⟩
    · exact ⟨.html, rfl⟩
    · exact ⟨.pdf, rfl⟩
  · rintro ⟨format, rfl⟩
    cases format <;> decide

/-- `ordered` and `seen` behind these tokens: the first of each. -/
structure Ordered (done : List String) (acc : List ReportFormat × List String) : Prop where
  ordered : acc.1.map ReportFormat.value = done.eraseDups
  seen : ∀ t, t ∈ acc.2 ↔ t ∈ done

theorem ordered_nil : Ordered [] ([], []) := ⟨rfl, fun _ => Iff.rfl⟩

theorem Ordered.addFormat (h : Ordered done acc) (hallowed : token ∈ allowedReportFormats) :
    ∃ acc', Reports.addFormat acc token = .ok acc' ∧ Ordered (done ++ [token]) acc' := by
  obtain ⟨format, hformat⟩ := mem_allowed_iff.mp hallowed
  unfold Reports.addFormat
  by_cases hmem : token ∈ done
  · refine ⟨acc, if_pos ((h.seen token).mpr hmem), ?_, ?_⟩
    · rw [h.ordered, List.eraseDups_append]
      simp [List.removeAll, hmem]
    · intro t
      rw [h.seen, List.mem_append, List.mem_singleton]
      exact ⟨Or.inl, fun ht => ht.elim id fun heq => heq ▸ hmem⟩
  · refine ⟨(acc.1 ++ [format], token :: acc.2), ?_, ?_, ?_⟩
    · rw [if_neg fun hseen => hmem ((h.seen token).mp hseen), formatOf_eq_some_iff.mpr hformat]
    · rw [List.map_append, h.ordered, List.eraseDups_append]
      simp [List.removeAll, hmem, hformat, List.eraseDups_cons]
    · intro t
      rw [List.mem_cons, h.seen, List.mem_append, List.mem_singleton, or_comm]

theorem Ordered.foldlM (hallowed : ∀ token ∈ tokens, token ∈ allowedReportFormats)
    (h : Ordered done acc) :
    ∃ acc', tokens.foldlM Reports.addFormat acc = .ok acc' ∧ Ordered (done ++ tokens) acc' := by
  induction tokens generalizing done acc with
  | nil => exact ⟨acc, rfl, by rwa [List.append_nil]⟩
  | cons token rest ih =>
    obtain ⟨acc', hstep, hnext⟩ := h.addFormat (hallowed token List.mem_cons_self)
    obtain ⟨last, hrest, hlast⟩ := ih (fun t ht => hallowed t (List.mem_cons_of_mem _ ht)) hnext
    refine ⟨last, foldlM_cons_eq_ok.mpr ⟨acc', hstep, hrest⟩, ?_⟩
    rwa [List.append_assoc, List.singleton_append] at hlast

/-- A loop that returns has seen no other token. -/
theorem allowed_of_foldlM {acc' : List ReportFormat × List String}
    (hseen : ∀ t ∈ acc.2, t ∈ allowedReportFormats) (h : tokens.foldlM addFormat acc = .ok acc') :
    ∀ token ∈ tokens, token ∈ allowedReportFormats := by
  induction tokens generalizing acc with
  | nil => simp
  | cons token rest ih =>
    obtain ⟨next, hstep, hrest⟩ := foldlM_cons_eq_ok.mp h
    unfold addFormat at hstep
    by_cases hmem : token ∈ acc.2
    · rw [if_pos hmem] at hstep
      obtain rfl := Except.ok.inj hstep
      exact List.forall_mem_cons.mpr ⟨hseen token hmem, ih hseen hrest⟩
    · rw [if_neg hmem] at hstep
      cases hformat : formatOf token with
      | none =>
        rw [hformat] at hstep
        cases hstep
      | some format =>
        rw [hformat] at hstep
        obtain rfl := Except.ok.inj hstep
        have hallowed := mem_allowed_iff.mpr ⟨format, formatOf_eq_some_iff.mp hformat⟩
        exact List.forall_mem_cons.mpr
          ⟨hallowed, ih (List.forall_mem_cons.mpr ⟨hallowed, hseen⟩) hrest⟩

theorem parseReportFormats_eq_ok_iff {raw : String} {formats : List ReportFormat} :
    parseReportFormats raw = .ok formats ↔
      (formatTokens raw ≠ [] ∧ ∀ token ∈ formatTokens raw, token ∈ allowedReportFormats) ∧
      formats.map ReportFormat.value = (formatTokens raw).eraseDups := by
  unfold parseReportFormats
  by_cases hempty : formatTokens raw = []
  · refine iff_of_false (fun h => ?_) fun h => h.1.1 hempty
    simp only [hempty, if_true] at h
    cases h
  · simp only [hempty, if_false, ne_eq, not_false_eq_true, true_and]
    show ((formatTokens raw).foldlM addFormat ([], []) >>= fun acc => pure acc.1) = _ ↔ _
    rw [bind_eq_ok]
    constructor
    · rintro ⟨acc, hloop, hok⟩
      obtain rfl := pure_eq_ok.mp hok
      have hallowed := allowed_of_foldlM (by simp) hloop
      obtain ⟨acc', hloop', hordered⟩ := ordered_nil.foldlM hallowed
      obtain rfl := Except.ok.inj (hloop.symm.trans hloop')
      exact ⟨hallowed, hordered.ordered⟩
    · rintro ⟨hallowed, hformats⟩
      obtain ⟨acc, hloop, hordered⟩ := ordered_nil.foldlM hallowed
      refine ⟨acc, hloop, pure_eq_ok.mpr ?_⟩
      exact value_injective.list_map (hordered.ordered.trans hformats.symm)

end

/-! ## A report that is rendered -/

/-- Everything that is rendered comes from one payload, and nothing that was not asked for but the
HTML of the PDF. -/
structure RenderedReport.Of (lib : Libraries) (report : Report) (formats : List String)
    (rendered : RenderedReport) : Prop where
  payload : rendered.payload = lib.modelDump report
  json : lib.canonicalize rendered.payload = .ok rendered.jsonBytes
  digest : rendered.sha256 = lib.digest rendered.jsonBytes
  html : ∀ page, rendered.html = some page ↔
    ("html" ∈ formats ∨ "pdf" ∈ formats) ∧ lib.renderHtml rendered.payload = .ok page
  pdf : ∀ printed, rendered.pdf = some printed ↔
    "pdf" ∈ formats ∧ ∃ page, rendered.html = some page ∧ lib.renderPdf page = .ok printed

/-- A library that rendering calls refuses, where those called before it answered: the dump is
serialized first, the page is rendered where HTML or PDF is asked for, and printed where PDF is. -/
inductive Refuses (lib : Libraries) (report : Report) (formats : List String) : Raised → Prop
  | json {r : Raised} : lib.canonicalize (lib.modelDump report) = .error r →
      Refuses lib report formats r
  | html {jsonBytes : Bytes} {r : Raised} :
      lib.canonicalize (lib.modelDump report) = .ok jsonBytes →
      "html" ∈ formats ∨ "pdf" ∈ formats → lib.renderHtml (lib.modelDump report) = .error r →
      Refuses lib report formats r
  | pdf {jsonBytes : Bytes} {page : String} {r : Raised} :
      lib.canonicalize (lib.modelDump report) = .ok jsonBytes → "pdf" ∈ formats →
      lib.renderHtml (lib.modelDump report) = .ok page → lib.renderPdf page = .error r →
      Refuses lib report formats r

section

variable {lib : Libraries} {report : Report} {formats : List String}

theorem unhandled_eq_error {α : Type} {x : Except Raised α} {e : Failure} :
    unhandled x = .error e ↔ ∃ r, x = .error r ∧ e = .raised r := by
  cases x with
  | ok a => simp [unhandled, Except.mapError]
  | error r => simp [unhandled, Except.mapError, eq_comm]

theorem map_unhandled_eq_ok {α : Type} {x : Except Raised α} {made : Option α} :
    some <$> unhandled x = .ok made ↔ ∃ a, x = .ok a ∧ made = some a := by
  cases x with
  | ok a => simp [unhandled, Except.mapError, eq_comm]
  | error r => simp [unhandled, Except.mapError]

theorem map_unhandled_eq_error {α : Type} {x : Except Raised α} {e : Failure} :
    some <$> unhandled x = .error e ↔ ∃ r, x = .error r ∧ e = .raised r := by
  cases x with
  | ok a => simp [unhandled, Except.mapError]
  | error r => simp [unhandled, Except.mapError, eq_comm]

theorem renderReport_of_allowed (hne : formats ≠ [])
    (hallowed : ∀ format ∈ formats, format ∈ allowedReportFormats) :
    renderReport lib report formats = (do
      let jsonBytes ← unhandled (lib.canonicalize (lib.modelDump report))
      let html ← htmlOf lib (lib.modelDump report) formats
      let pdf ← pdfOf lib html formats
      return ⟨lib.modelDump report, jsonBytes, lib.digest jsonBytes, html, pdf⟩) := by
  have hunknown : formats.filter (· ∉ allowedReportFormats) = [] := by
    rw [List.filter_eq_nil_iff]
    intro format hformat
    simpa using hallowed format hformat
  unfold renderReport
  rw [hunknown]
  exact if_neg hne

theorem of_htmlOf {payload : List (String × Val)} {html : Option String}
    (h : htmlOf lib payload formats = .ok html) (page : String) : html = some page ↔
      ("html" ∈ formats ∨ "pdf" ∈ formats) ∧ lib.renderHtml payload = .ok page := by
  unfold htmlOf at h
  by_cases hneeded : "html" ∈ formats ∨ "pdf" ∈ formats
  · rw [if_pos hneeded] at h
    obtain ⟨page', hpage, rfl⟩ := map_unhandled_eq_ok.mp h
    simp [hneeded, hpage]
  · rw [if_neg hneeded] at h
    obtain rfl := pure_eq_ok.mp h
    simp [hneeded]

theorem of_pdfOf {html : Option String} {pdf : Option Bytes} (h : pdfOf lib html formats = .ok pdf)
    (printed : Bytes) : pdf = some printed ↔
      "pdf" ∈ formats ∧ ∃ page, html = some page ∧ lib.renderPdf page = .ok printed := by
  unfold pdfOf at h
  by_cases hneeded : "pdf" ∈ formats
  · rw [if_pos hneeded] at h
    cases html with
    | none => cases h
    | some page =>
      obtain ⟨printed', hprinted, rfl⟩ := map_unhandled_eq_ok.mp h
      simp [hneeded, hprinted]
  · rw [if_neg hneeded] at h
    obtain rfl := pure_eq_ok.mp h
    simp [hneeded]

theorem htmlOf_eq_error {payload : List (String × Val)} {e : Failure} :
    htmlOf lib payload formats = .error e ↔ ("html" ∈ formats ∨ "pdf" ∈ formats) ∧
      ∃ r, lib.renderHtml payload = .error r ∧ e = .raised r := by
  unfold htmlOf
  by_cases hneeded : "html" ∈ formats ∨ "pdf" ∈ formats
  · rw [if_pos hneeded, map_unhandled_eq_error]
    exact (and_iff_right hneeded).symm
  · rw [if_neg hneeded]
    exact iff_of_false (fun h => by cases h) fun h => hneeded h.1

/-- The HTML is there when the PDF needs it, so that only the renderer of the PDF refuses one. -/
theorem pdfOf_eq_error {payload : List (String × Val)} {html : Option String} {e : Failure}
    (hhtml : htmlOf lib payload formats = .ok html) :
    pdfOf lib html formats = .error e ↔ "pdf" ∈ formats ∧
      ∃ page, lib.renderHtml payload = .ok page ∧
        ∃ r, lib.renderPdf page = .error r ∧ e = .raised r := by
  unfold pdfOf
  by_cases hneeded : "pdf" ∈ formats
  · rw [htmlOf, if_pos (Or.inr hneeded)] at hhtml
    obtain ⟨page, hpage, rfl⟩ := map_unhandled_eq_ok.mp hhtml
    rw [if_pos hneeded]
    show some <$> unhandled (lib.renderPdf page) = .error e ↔ _
    simp only [map_unhandled_eq_error, hneeded, hpage, Except.ok.injEq, exists_eq_left', true_and]
  · rw [if_neg hneeded]
    exact iff_of_false (fun h => by cases h) fun h => hneeded h.1

theorem of_renderReport (hne : formats ≠ [])
    (hallowed : ∀ format ∈ formats, format ∈ allowedReportFormats) {rendered : RenderedReport}
    (h : renderReport lib report formats = .ok rendered) : rendered.Of lib report formats := by
  rw [renderReport_of_allowed hne hallowed] at h
  obtain ⟨jsonBytes, hjson, h⟩ := bind_eq_ok.mp h
  obtain ⟨html, hhtml, h⟩ := bind_eq_ok.mp h
  obtain ⟨pdf, hpdf, h⟩ := bind_eq_ok.mp h
  obtain rfl := pure_eq_ok.mp h
  exact ⟨rfl, mapError_eq_ok.mp hjson, rfl, of_htmlOf hhtml, of_pdfOf hpdf⟩

/-- Rendering ends in an exception exactly if a library that is called ends in it. -/
theorem renderReport_eq_error (hne : formats ≠ [])
    (hallowed : ∀ format ∈ formats, format ∈ allowedReportFormats) {e : Failure} :
    renderReport lib report formats = .error e ↔
      ∃ r, e = .raised r ∧ Refuses lib report formats r := by
  rw [renderReport_of_allowed hne hallowed, bind_eq_error]
  constructor
  · rintro (hjson | ⟨jsonBytes, hjson, h⟩)
    · obtain ⟨r, hr, rfl⟩ := unhandled_eq_error.mp hjson
      exact ⟨r, rfl, .json hr⟩
    have hbytes := mapError_eq_ok.mp hjson
    rcases bind_eq_error.mp h with hhtml | ⟨html, hhtml, h⟩
    · obtain ⟨hneeded, r, hr, rfl⟩ := htmlOf_eq_error.mp hhtml
      exact ⟨r, rfl, .html hbytes hneeded hr⟩
    rcases bind_eq_error.mp h with hpdf | ⟨pdf, -, h⟩
    · obtain ⟨hneeded, page, hpage, r, hr, rfl⟩ := (pdfOf_eq_error hhtml).mp hpdf
      exact ⟨r, rfl, .pdf hbytes hneeded hpage hr⟩
    · cases h
  · rintro ⟨r, rfl, hr⟩
    cases hr with
    | json hjson => exact Or.inl (unhandled_eq_error.mpr ⟨r, hjson, rfl⟩)
    | html hjson hneeded hpage =>
      refine Or.inr ⟨_, mapError_eq_ok.mpr hjson, bind_eq_error.mpr (Or.inl ?_)⟩
      exact htmlOf_eq_error.mpr ⟨hneeded, r, hpage, rfl⟩
    | @pdf jsonBytes page _ hjson hneeded hpage hprinted =>
      refine Or.inr ⟨_, mapError_eq_ok.mpr hjson, bind_eq_error.mpr (Or.inr ?_)⟩
      have hhtml : htmlOf lib (lib.modelDump report) formats = .ok (some page) := by
        rw [htmlOf, if_pos (Or.inr hneeded)]
        exact map_unhandled_eq_ok.mpr ⟨_, hpage, rfl⟩
      refine ⟨_, hhtml, bind_eq_error.mpr (Or.inl ?_)⟩
      exact (pdfOf_eq_error hhtml).mpr ⟨hneeded, _, hpage, r, hprinted, rfl⟩

/-- A report is rendered unless a library that is called refuses. -/
theorem returns_renderReport_iff (hne : formats ≠ [])
    (hallowed : ∀ format ∈ formats, format ∈ allowedReportFormats) :
    Returns (renderReport lib report formats) ↔ ∀ r, ¬Refuses lib report formats r := by
  constructor
  · rintro ⟨rendered, hok⟩ r hr
    have herror := (renderReport_eq_error hne hallowed).mpr ⟨r, rfl, hr⟩
    cases hok.symm.trans herror
  · intro h
    cases hrun : renderReport lib report formats with
    | ok rendered => exact ⟨rendered, rfl⟩
    | error e =>
      obtain ⟨r, -, hr⟩ := (renderReport_eq_error hne hallowed).mp hrun
      exact absurd hr (h r)

end

/-- **The formats of a list are rendered, each once.** A list of formats is accepted exactly if it has
tokens and each is a format, and the formats are its tokens with the repetitions left out. What was
accepted is rendered unless a library that is called refuses, and then the error is that library's;
what is returned is the renderings of one payload. -/
theorem renderReport_parsed (lib : Libraries) (raw : String) :
    (Returns (parseReportFormats raw) ↔
      formatTokens raw ≠ [] ∧ ∀ token ∈ formatTokens raw, token ∈ allowedReportFormats) ∧
    ∀ formats, parseReportFormats raw = .ok formats →
      formats.map ReportFormat.value = (formatTokens raw).eraseDups ∧ formats.Nodup ∧
      ∀ report,
        (∀ rendered, renderReport lib report (formats.map ReportFormat.value) = .ok rendered →
          rendered.Of lib report (formats.map ReportFormat.value)) ∧
        (∀ e, renderReport lib report (formats.map ReportFormat.value) = .error e ↔
          ∃ r, e = .raised r ∧ Refuses lib report (formats.map ReportFormat.value) r) ∧
        (Returns (renderReport lib report (formats.map ReportFormat.value)) ↔
          ∀ r, ¬Refuses lib report (formats.map ReportFormat.value) r) := by
  constructor
  · constructor
    · rintro ⟨formats, h⟩
      exact (parseReportFormats_eq_ok_iff.mp h).1
    · rintro ⟨hne, hallowed⟩
      obtain ⟨acc, -, hordered⟩ := ordered_nil.foldlM hallowed
      exact ⟨acc.1, parseReportFormats_eq_ok_iff.mpr ⟨⟨hne, hallowed⟩, hordered.ordered⟩⟩
  · intro formats h
    obtain ⟨⟨hne, hallowed⟩, hformats⟩ := parseReportFormats_eq_ok_iff.mp h
    have hnodup : (formats.map ReportFormat.value).Nodup := by
      rw [hformats]
      exact Leaders.nodup_eraseDups _
    have hsome : formats.map ReportFormat.value ≠ [] := by
      obtain ⟨token, htoken⟩ := List.exists_mem_of_ne_nil _ hne
      rw [hformats]
      exact List.ne_nil_of_mem (List.mem_eraseDups.mpr htoken)
    have hall : ∀ format ∈ formats.map ReportFormat.value, format ∈ allowedReportFormats := by
      intro format hformat
      rw [hformats, List.mem_eraseDups] at hformat
      exact hallowed format hformat
    exact ⟨hformats, hnodup.of_map _, fun report =>
      ⟨fun rendered => of_renderReport hsome hall, fun e => renderReport_eq_error hsome hall,
        returns_renderReport_iff hsome hall⟩⟩

/-! ## The downloads of a case -/

section

variable {lib : Libraries} {root : ReportRoot} {caseId : Text 160} {result : GetCaseReportResult}

/-- The bytes of a parsed report are those of its own payload. -/
theorem canonicalize_of_parseReport {raw : Bytes} {parsed : ParsedReport}
    (h : parseReport lib raw = .ok parsed) :
    lib.canonicalize (lib.modelDump parsed.report) = .ok parsed.canonicalBytes := by
  unfold parseReport at h
  by_cases hlarge : maxReportBytes < raw.length
  · rw [if_pos hlarge] at h
    cases h
  · rw [if_neg hlarge] at h
    obtain ⟨value, -, h⟩ := bind_eq_ok.mp h
    cases value with
    | dict payload =>
      obtain ⟨report, -, h⟩ := bind_eq_ok.mp (mapError_eq_ok.mp h)
      obtain ⟨bytes, hbytes, h⟩ := bind_eq_ok.mp h
      obtain rfl := pure_eq_ok.mp h
      exact hbytes
    | _ => cases h

theorem canonicalize_of_getCaseReport (h : getCaseReport lib root caseId = .ok result) :
    lib.canonicalize (lib.modelDump result.report) = .ok result.canonicalBytes := by
  obtain ⟨found, -, h⟩ := bind_eq_ok.mp h
  cases found with
  | none => cases h
  | some raw =>
    obtain ⟨parsed, hparsed, h⟩ := bind_eq_ok.mp h
    by_cases hcase : parsed.report.val.manifest.val.caseId = some caseId.val
    · rw [if_neg (not_not.mpr hcase)] at h
      obtain rfl := pure_eq_ok.mp h
      exact canonicalize_of_parseReport hparsed
    · rw [if_pos hcase] at h
      cases h

/-- What a download of a report is in each format. -/
inductive Downloads (lib : Libraries) (result : GetCaseReportResult) : ReportFormat → Bytes → Prop
  | json : Downloads lib result .json result.canonicalBytes
  | html {page : String} : lib.renderHtml (lib.modelDump result.report) = .ok page →
      Downloads lib result .html (encodeUtf8 page)
  | pdf {page : String} {printed : Bytes} :
      lib.renderHtml (lib.modelDump result.report) = .ok page → lib.renderPdf page = .ok printed →
      Downloads lib result .pdf printed

theorem renderReport_single (format : ReportFormat)
    (hjson : lib.canonicalize (lib.modelDump result.report) = .ok result.canonicalBytes) :
    renderReport lib result.report [format.value] = (do
      let html ← htmlOf lib (lib.modelDump result.report) [format.value]
      let pdf ← pdfOf lib html [format.value]
      return ⟨lib.modelDump result.report, result.canonicalBytes, lib.digest result.canonicalBytes,
        html, pdf⟩) := by
  rw [renderReport_of_allowed (List.cons_ne_nil _ _) fun token htoken =>
    List.mem_singleton.mp htoken ▸ mem_allowed_iff.mpr ⟨format, rfl⟩, hjson]
  rfl

/-- The three formats, one by one. -/
theorem artifact_eq_ok_iff {format : ReportFormat} {bytes : Bytes}
    (hjson : lib.canonicalize (lib.modelDump result.report) = .ok result.canonicalBytes) :
    (renderReport lib result.report [format.value] >>= fun rendered =>
      artifactOf rendered format.value) = .ok bytes ↔ Downloads lib result format bytes := by
  rw [renderReport_single format hjson]
  cases format with
  | json =>
    show (.ok result.canonicalBytes : Answer Bytes) = .ok bytes ↔ _
    constructor
    · intro h
      obtain rfl := Except.ok.inj h
      exact .json
    · rintro ⟨⟩
      rfl
  | html =>
    show ((some <$> unhandled (lib.renderHtml (lib.modelDump result.report)) >>= fun html => _) >>=
      fun rendered => _) = _ ↔ _
    cases hpage : lib.renderHtml (lib.modelDump result.report) with
    | error r =>
      refine iff_of_false (fun h => by cases h) ?_
      rintro (_ | hpage' | _)
      cases hpage.symm.trans hpage'
    | ok page =>
      show (.ok (encodeUtf8 page) : Answer Bytes) = .ok bytes ↔ _
      constructor
      · intro h
        obtain rfl := Except.ok.inj h
        exact .html hpage
      · rintro (_ | hpage' | _)
        obtain rfl := Except.ok.inj (hpage.symm.trans hpage')
        rfl
  | pdf =>
    show ((some <$> unhandled (lib.renderHtml (lib.modelDump result.report)) >>= fun html => _) >>=
      fun rendered => _) = _ ↔ _
    cases hpage : lib.renderHtml (lib.modelDump result.report) with
    | error r =>
      refine iff_of_false (fun h => by cases h) ?_
      rintro (_ | _ | ⟨hpage', -⟩)
      cases hpage.symm.trans hpage'
    | ok page =>
      show ((some <$> unhandled (lib.renderPdf page) >>= fun pdf => _) >>= fun rendered => _) = _ ↔ _
      cases hprinted : lib.renderPdf page with
      | error r =>
        refine iff_of_false (fun h => by cases h) ?_
        rintro (_ | _ | ⟨hpage', hprinted'⟩)
        obtain rfl := Except.ok.inj (hpage.symm.trans hpage')
        cases hprinted.symm.trans hprinted'
      | ok printed =>
        show (.ok printed : Answer Bytes) = .ok bytes ↔ _
        constructor
        · intro h
          obtain rfl := Except.ok.inj h
          exact .pdf hpage hprinted
        · rintro (_ | _ | ⟨hpage', hprinted'⟩)
          obtain rfl := Except.ok.inj (hpage.symm.trans hpage')
          obtain rfl := Except.ok.inj (hprinted.symm.trans hprinted')
          rfl

/-- **A download of a case is a rendering of what a query for the case shows**, and its JSON is the
JSON of the view; there are no other formats. -/
theorem renderCaseArtifact_eq_ok_iff {fmt : String} {bytes : Bytes} :
    renderCaseArtifact lib root caseId fmt = .ok bytes ↔
      ∃ result format, getCaseReport lib root caseId = .ok result ∧
        ReportFormat.value format = fmt ∧ Downloads lib result format bytes := by
  have hrun : ∀ (result : GetCaseReportResult) (format : ReportFormat),
      getCaseReport lib root caseId = .ok result →
      (((renderReport lib result.report [format.value]).mapError orNotReady >>= fun rendered =>
        artifactOf rendered format.value) = .ok bytes ↔ Downloads lib result format bytes) := by
    intro result format hresult
    rw [← artifact_eq_ok_iff (canonicalize_of_getCaseReport hresult), bind_eq_ok, bind_eq_ok]
    simp only [mapError_eq_ok]
  unfold renderCaseArtifact
  rw [bind_eq_ok]
  constructor
  · rintro ⟨result, hresult, h⟩
    by_cases hallowed : fmt ∈ allowedReportFormats
    · obtain ⟨format, rfl⟩ := mem_allowed_iff.mp hallowed
      exact ⟨result, format, hresult, rfl, (hrun result format hresult).mp h⟩
    · have hraises : renderReport lib result.report [fmt] =
          .error (.report ("unsupported report format: " ++ fmt)) := by
        simp [renderReport, hallowed]
      rw [hraises] at h
      cases h
  · rintro ⟨result, format, hresult, rfl, h⟩
    exact ⟨result, hresult, (hrun result format hresult).mpr h⟩

end

end Reports
end SecureMail
