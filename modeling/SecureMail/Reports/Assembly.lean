import SecureMail.Reports.Schema

/-!
# `assemble_report`

A report wraps an evidence document in a manifest that is filled from the document and the request.
Most fields come from fields with the same bounds. Three do not: the name of a capture may be longer
than that of an artifact, the digest of the trust store may be any text in the evidence, and the time
of the request may have no reading in UTC. Where these are right the report is assembled
(`assembly_total_iff`), and a report that is assembled agrees with its evidence by type.

The manifest says again what the evidence says, and the schema checks that the two agree. That check
cannot fail here, since the fields of the manifest are copied, and it is proved that it does not:
the validator of a report is its agreement with the evidence, no more and no less
(`passes_checks_iff`). So what can fail is a field by itself, and the three that can are found by
comparing the bound of each field with the bound of where it comes from.
-/

namespace SecureMail
namespace Reports

open Validation
open Fallible (Returns returns_bind returns_bind_and)

/-- `datetime.now(UTC)`. -/
abbrev UtcReading := { t : Py.Datetime // t.offset = some 0 }

structure AssembleReportRequest where
  caseId : Text 160
  analysisRunId : Text 160
  captureFilename : Text 255
  generatedAt : Option Py.Datetime := none
  dependencyVersions : { versions : Py.Dict String String // versions.entries.length ≤ 32 }

/-- The time of the report, in UTC. -/
def generatedAt (request : AssembleReportRequest) (now : UtcReading) : Result Py.Datetime :=
  match (request.generatedAt.getD now.val).asUtc? with
  | some t => pure t
  | none => throw .overflowError

/-- The first 32 digits of the capture's hash. -/
def captureId (document : EvidenceDocument) : String :=
  String.ofList (document.runIdentity.captureSha256.val.toList.take 32)

/-- What a reader is told of the limits of the capture. -/
def limitationNotes (document : EvidenceDocument) : List String :=
  (if document.capturePreflight.truncatedPacketsPresent then
      ["Capture contains truncated packets; reconstruction may be incomplete."] else []) ++
    (if qualityCount .incomplete document ≠ 0 then
      [toString (qualityCount .incomplete document) ++
        " flow(s) have incomplete TCP reconstruction."] else []) ++
    (if qualityCount .conflicting document ≠ 0 then
      [toString (qualityCount .conflicting document) ++
        " flow(s) have conflicting TCP reconstructions."] else []) ++
    (if notObservableCerts document ≠ 0 then
      [toString (notObservableCerts document) ++
        " handshake(s) have certificates that are not observable."] else [])

def limitationsOf (document : EvidenceDocument) : CaptureLimitations where
  truncatedPacketsPresent := document.capturePreflight.truncatedPacketsPresent
  incompleteFlowCount := qualityCount .incomplete document
  conflictingFlowCount := qualityCount .conflicting document
  notObservableCertificateCount := notObservableCerts document
  unknownCheckCount := document.posture.coverage.overall.unknownCount
  notObservableCheckCount := document.posture.coverage.overall.notObservableCount
  notes := (limitationNotes document).take 32

/-- The records the report is assembled from. -/
def sourceRecordsOf (document : EvidenceDocument) (request : AssembleReportRequest) :
    List SourceRecord :=
  [{ kind := .case, identifier := some request.caseId.val, availability := .present },
   { kind := .capture, identifier := some (captureId document), availability := .present },
   { kind := .analysisRun, identifier := some request.analysisRunId.val, availability := .present }]

def captureArtifact (document : EvidenceDocument) (request : AssembleReportRequest) :
    ArtifactHash where
  name := request.captureFilename.val
  sha256 := some document.runIdentity.captureSha256.val
  availability := .present

def summaryOf (document : EvidenceDocument) : PostureSummary where
  assessmentState := document.posture.assessmentState
  riskScore := document.posture.riskScore.map (·.val)
  findingCount := document.posture.prioritizedFindings.val.length
  unknownCount := document.posture.coverage.overall.unknownCount
  notObservableCount := document.posture.coverage.overall.notObservableCount

/-- The manifest, of parts that are validated. Its own constructor has still to accept it, which is
where the bounds of its fields come in. -/
def manifestOf (document : EvidenceDocument) (request : AssembleReportRequest)
    (renderer : RendererManifest) (time : Py.Datetime)
    (sources : List (Validated SourceRecord.checks)) (artifact : Validated ArtifactHash.checks)
    (summary : Validated PostureSummary.checks) : ReportManifest where
  generatedAt := time
  caseId := some request.caseId.val
  captureId := some (captureId document)
  analysisRunId := some request.analysisRunId.val
  sourceCaptureSha256 := document.runIdentity.captureSha256.val
  workingCopySha256 := some document.runIdentity.captureSha256.val
  workingCopyAvailability := .present
  sourceRecords := sources
  artifactHashes := [artifact]
  renderer := renderer
  postureSummary := summary
  configurationDigest := document.runIdentity.configurationDigest.val
  analyzerBundleDigest := document.runIdentity.analyzerBundleDigest.val
  policyProfile := document.runIdentity.policyProfile.value
  policyPackVersion := document.runIdentity.policyPackVersion.val
  trustStoreDigest := document.runIdentity.trustStoreDigest
  osContainer := none
  osContainerAvailability := .unavailable
  dependencyVersions := request.dependencyVersions.val

/-- `assemble_report`. The parts are validated from the inside out, so the first bound that is
exceeded is the error. -/
def assembleReport (document : EvidenceDocument) (request : AssembleReportRequest)
    (renderer : RendererManifest) (now : UtcReading) :
    Result (Validated CanonicalReport.checks) := do
  let time ← generatedAt request now
  let limitations ← validate CaptureLimitations.checks (limitationsOf document)
  let sources ← (sourceRecordsOf document request).mapM (validate SourceRecord.checks)
  let artifact ← validate ArtifactHash.checks (captureArtifact document request)
  let summary ← validate PostureSummary.checks (summaryOf document)
  let manifest ← validate ReportManifest.checks
    (manifestOf document request renderer time sources artifact summary)
  let advisory ← validate advisoryChecks {}
  let analyst ← validate analystChecks {}
  validate CanonicalReport.checks ⟨manifest, document, limitations, advisory, analyst⟩

/-! ## What a report says of its evidence -/

/-- The manifest, its summary and the limitations are those of the evidence. Each clause is one
comparison of the validator of the schema. -/
structure CanonicalReport.Tracks (report : CanonicalReport) (document : EvidenceDocument) : Prop where
  evidence : report.evidence = document
  capture : report.manifest.val.sourceCaptureSha256 = document.runIdentity.captureSha256.val
  configuration :
    report.manifest.val.configurationDigest = document.runIdentity.configurationDigest.val
  analyzerBundle :
    report.manifest.val.analyzerBundleDigest = document.runIdentity.analyzerBundleDigest.val
  policyProfile : report.manifest.val.policyProfile = document.runIdentity.policyProfile.value
  policyPack : report.manifest.val.policyPackVersion = document.runIdentity.policyPackVersion.val
  trustStore : report.manifest.val.trustStoreDigest = document.runIdentity.trustStoreDigest
  summary : report.manifest.val.postureSummary.val = summaryOf document
  counts : report.limitations.val.truncatedPacketsPresent =
      document.capturePreflight.truncatedPacketsPresent ∧
    report.limitations.val.incompleteFlowCount = qualityCount .incomplete document ∧
    report.limitations.val.conflictingFlowCount = qualityCount .conflicting document ∧
    report.limitations.val.notObservableCertificateCount = notObservableCerts document ∧
    report.limitations.val.unknownCheckCount = document.posture.coverage.overall.unknownCount ∧
    report.limitations.val.notObservableCheckCount =
      document.posture.coverage.overall.notObservableCount

/-- **The validator of a report is its agreement with the evidence.** Its messages name the fields
one by one, and so do the clauses on the other side. -/
theorem passes_checks_iff (report : CanonicalReport) :
    Passes report.checks ↔ report.Tracks report.evidence := by
  simp only [CanonicalReport.checks, passes_cons, passes_nil, decide_eq_true_eq, and_true]
  constructor
  · rintro ⟨hcapture, hconfiguration, hbundle, hprofile, hpack, htrust, hstate, hscore, hfindings,
      hunknown, hunseen, hcounts⟩
    exact ⟨rfl, hcapture, hconfiguration, hbundle, hprofile, hpack, htrust,
      PostureSummary.ext_iff.mpr ⟨hstate, hscore, hfindings, hunknown, hunseen⟩, hcounts⟩
  · intro h
    obtain ⟨hstate, hscore, hfindings, hunknown, hunseen⟩ := PostureSummary.ext_iff.mp h.summary
    exact ⟨h.capture, h.configuration, h.analyzerBundle, h.policyProfile, h.policyPack,
      h.trustStore, hstate, hscore, hfindings, hunknown, hunseen, h.counts⟩

theorem tracks_of_assembleReport {document : EvidenceDocument} {request : AssembleReportRequest}
    {renderer : RendererManifest} {now : UtcReading} {report : Validated CanonicalReport.checks}
    (h : assembleReport document request renderer now = .ok report) :
    report.val.Tracks document := by
  obtain ⟨time, -, h⟩ := Fallible.bind_eq_ok.mp h
  obtain ⟨limitations, -, h⟩ := Fallible.bind_eq_ok.mp h
  obtain ⟨sources, -, h⟩ := Fallible.bind_eq_ok.mp h
  obtain ⟨artifact, -, h⟩ := Fallible.bind_eq_ok.mp h
  obtain ⟨summary, -, h⟩ := Fallible.bind_eq_ok.mp h
  obtain ⟨manifest, -, h⟩ := Fallible.bind_eq_ok.mp h
  obtain ⟨advisory, -, h⟩ := Fallible.bind_eq_ok.mp h
  obtain ⟨analyst, -, h⟩ := Fallible.bind_eq_ok.mp h
  have hevidence : report.val.evidence = document := by rw [val_of_validate h]
  rw [← hevidence]
  exact (passes_checks_iff report.val).mp report.property

/-! ## The bounds of the fields -/

section

variable {document : EvidenceDocument} {request : AssembleReportRequest}
  {renderer : RendererManifest} {now : UtcReading}

/-- The three fields whose bounds are tighter in the report than where they come from. Each is a
condition on an argument of the use case, so that a caller can check it before the call. -/
structure Admissible (document : EvidenceDocument) (request : AssembleReportRequest) : Prop where
  filename : request.captureFilename.val.length ≤ 160
  trustStore : ∀ digest ∈ document.runIdentity.trustStoreDigest, IsSha256Hex digest
  time : ∀ t ∈ request.generatedAt, t.asUtc?.isSome = true

/-- A reading in UTC is its own. -/
theorem asUtc?_of_utc (now : UtcReading) : now.val.asUtc?.isSome = true := by
  obtain ⟨t, ht⟩ := now
  have hrange : 0 ≤ t.micros - 0 ∧ t.micros - 0 < Py.daysInRange * Py.microsPerDay := by
    rw [Int.sub_zero]
    exact t.inRange
  simp only [Py.Datetime.asUtc?, ht, dif_pos hrange, Option.isSome_some]

theorem returns_generatedAt_iff :
    Returns (generatedAt request now) ↔ ∀ t ∈ request.generatedAt, t.asUtc?.isSome = true := by
  have hreturns : Returns (generatedAt request now) ↔
      (request.generatedAt.getD now.val).asUtc?.isSome = true := by
    unfold generatedAt
    cases (request.generatedAt.getD now.val).asUtc? with
    | none => exact iff_of_false (Fallible.not_returns_throw _) (by simp)
    | some t => exact iff_of_true (Fallible.returns_pure t) rfl
  rw [hreturns]
  cases request.generatedAt with
  | none => simp [asUtc?_of_utc now]
  | some t => simp

theorem passes_limitations : Passes (limitationsOf document).checks := by
  simp [CaptureLimitations.checks, limitationsOf, List.length_take]

theorem length_captureId : (captureId document).length ≤ 160 := by
  rw [captureId, String.length_ofList, List.length_take]
  omega

theorem passes_sources : ∀ source ∈ sourceRecordsOf document request, Passes source.checks := by
  have hcase := request.caseId.property.2
  have hrun := request.analysisRunId.property.2
  simp [sourceRecordsOf, SourceRecord.checks, hcase, hrun, length_captureId]

theorem passes_artifact_iff : Passes (captureArtifact document request).checks ↔
    request.captureFilename.val.length ≤ 160 := by
  have hpos := request.captureFilename.property.1
  have hdigest := document.runIdentity.captureSha256.property
  simp [ArtifactHash.checks, captureArtifact, hpos, hdigest]

theorem passes_summary : Passes (summaryOf document).checks := by
  cases hscore : document.posture.riskScore with
  | none => simp [PostureSummary.checks, summaryOf, hscore]
  | some score => simp [PostureSummary.checks, summaryOf, hscore, score.property]

theorem passes_manifest_iff {time : Py.Datetime} {sources : List (Validated SourceRecord.checks)}
    (hsources : sources.length = 3) (artifact : Validated ArtifactHash.checks)
    (summary : Validated PostureSummary.checks) :
    Passes (manifestOf document request renderer time sources artifact summary).checks ↔
      ∀ digest ∈ document.runIdentity.trustStoreDigest, IsSha256Hex digest := by
  have hcase := request.caseId.property.2
  have hrun := request.analysisRunId.property.2
  have hcapture := document.runIdentity.captureSha256.property
  have hconfiguration := document.runIdentity.configurationDigest.property
  have hbundle := document.runIdentity.analyzerBundleDigest.property
  have hpack := document.runIdentity.policyPackVersion.property
  have hversions := request.dependencyVersions.property
  have hprofile : 1 ≤ document.runIdentity.policyProfile.value.length ∧
      document.runIdentity.policyProfile.value.length ≤ 64 := by
    cases document.runIdentity.policyProfile <;> decide
  simp [ReportManifest.checks, manifestOf, hcase, hrun, length_captureId, hcapture,
    hconfiguration, hbundle, hpack, hversions, hprofile, hsources]

theorem passes_sections : Passes (advisoryChecks {}) ∧ Passes (analystChecks {}) := by
  simp [advisoryChecks, analystChecks]

theorem returns_assembleReport_iff :
    Returns (assembleReport document request renderer now) ↔ Admissible document request := by
  have hsources : Returns ((sourceRecordsOf document request).mapM (validate SourceRecord.checks)) :=
    Fallible.returns_mapM_iff.mpr fun source hsource =>
      returns_validate_iff.mpr (passes_sources source hsource)
  unfold assembleReport
  constructor
  · intro h
    obtain ⟨htime, h⟩ := returns_bind.mp h
    obtain ⟨time, ht⟩ := htime
    obtain ⟨hlimitations, h⟩ := returns_bind.mp (h time ht)
    obtain ⟨limitations, hl⟩ := hlimitations
    obtain ⟨hmade, h⟩ := returns_bind.mp (h limitations hl)
    obtain ⟨sources, hs⟩ := hmade
    obtain ⟨hartifact, h⟩ := returns_bind.mp (h sources hs)
    obtain ⟨artifact, ha⟩ := hartifact
    obtain ⟨hsummary, h⟩ := returns_bind.mp (h artifact ha)
    obtain ⟨summary, hsum⟩ := hsummary
    obtain ⟨hmanifest, -⟩ := returns_bind.mp (h summary hsum)
    have hlength : sources.length = 3 := Fallible.length_of_mapM hs
    exact ⟨passes_artifact_iff.mp (returns_validate_iff.mp ⟨artifact, ha⟩),
      (passes_manifest_iff hlength artifact summary).mp (returns_validate_iff.mp hmanifest),
      returns_generatedAt_iff.mp ⟨time, ht⟩⟩
  · intro h
    refine returns_bind.mpr ⟨returns_generatedAt_iff.mpr h.time, fun time _ => ?_⟩
    refine returns_bind.mpr ⟨returns_validate_iff.mpr passes_limitations, fun limitations hl => ?_⟩
    refine returns_bind.mpr ⟨hsources, fun sources hs => ?_⟩
    refine returns_bind.mpr ⟨returns_validate_iff.mpr (passes_artifact_iff.mpr h.filename),
      fun artifact _ => ?_⟩
    refine returns_bind.mpr ⟨returns_validate_iff.mpr passes_summary, fun summary hsum => ?_⟩
    have hlength : sources.length = 3 := Fallible.length_of_mapM hs
    refine returns_bind.mpr ⟨returns_validate_iff.mpr
      ((passes_manifest_iff hlength artifact summary).mpr h.trustStore), fun manifest hm => ?_⟩
    refine returns_bind.mpr ⟨returns_validate_iff.mpr passes_sections.1, fun advisory _ => ?_⟩
    refine returns_bind.mpr ⟨returns_validate_iff.mpr passes_sections.2, fun analyst _ => ?_⟩
    -- The report is filled from the document, so its validator finds what it looks for.
    refine returns_validate_iff.mpr ((passes_checks_iff _).mpr ?_)
    have hmanifest := val_of_validate hm
    have hlimitations := val_of_validate hl
    have hsummary := val_of_validate hsum
    refine ⟨rfl, ?_, ?_, ?_, ?_, ?_, ?_, ?_, ?_⟩ <;>
      simp only [hmanifest, hlimitations, hsummary, manifestOf, limitationsOf, and_self]

/-- **A report is assembled exactly when the three fields are within its bounds, and a report that
is assembled agrees with its evidence.** -/
theorem assembly_total_iff (document : EvidenceDocument) (request : AssembleReportRequest)
    (renderer : RendererManifest) (now : UtcReading) :
    (∃ report, assembleReport document request renderer now = .ok report ∧
      report.val.Tracks document) ↔ Admissible document request := by
  rw [← @returns_assembleReport_iff document request renderer now]
  constructor
  · rintro ⟨report, h, -⟩
    exact ⟨report, h⟩
  · rintro ⟨report, h⟩
    exact ⟨report, h, tracks_of_assembleReport h⟩

end

/-! ## A capture with a long name -/

theorem isSha256Hex_zeros :
    IsSha256Hex "0000000000000000000000000000000000000000000000000000000000000000" := by decide +kernel

def zeroDigest : Sha256Hex := ⟨_, isSha256Hex_zeros⟩

/-- The document of a capture in which nothing was found. -/
def emptyDocument : EvidenceDocument where
  runIdentity := {
    captureSha256 := zeroDigest, analyzerBundleDigest := zeroDigest,
    configurationDigest := zeroDigest, analysisTime := ⟨63923731200000000, some 0, by decide⟩,
    policyProfile := .ietfCurrent, policyPackVersion := zeroDigest }
  capturePreflight := { truncatedPacketsPresent := false }
  posture := Findings.emptyPostureAssessment

/-- A name of two hundred characters. -/
def longName : String := String.ofList (List.replicate 195 'a') ++ ".pcap"

theorem length_longName : longName.length = 200 := by
  unfold longName
  rw [String.length_append, String.length_ofList, List.length_replicate]
  decide

def longNameRequest : AssembleReportRequest where
  caseId := ⟨"case-1", by decide⟩
  analysisRunId := ⟨"r0000000000000000", by decide⟩
  captureFilename := ⟨longName, by rw [length_longName]; decide⟩
  dependencyVersions := ⟨∅, by decide⟩

def bundledPins : RendererManifest where
  pdfRendererVersion := ⟨"66.0", by decide⟩
  templateSha256 := zeroDigest
  fonts := [⟨⟨"NotoSans-Regular.ttf", by decide⟩, zeroDigest, ⟨"Noto Sans", by decide⟩,
    ⟨400, by decide⟩, false⟩]
  fonts_bounds := by decide

theorem long_name_not_assembled :
    longNameRequest.captureFilename.val.length = 200 ∧
      ¬∃ report, assembleReport emptyDocument longNameRequest bundledPins
          ⟨⟨63923817600000000, some 0, by decide⟩, rfl⟩ = .ok report ∧
        report.val.Tracks emptyDocument := by
  have hlength : longNameRequest.captureFilename.val.length = 200 := by
    simp only [longNameRequest, length_longName]
  refine ⟨hlength, ?_⟩
  rintro ⟨report, h, -⟩
  have hbound := (returns_assembleReport_iff.mp ⟨report, h⟩).filename
  omega

end Reports
end SecureMail
