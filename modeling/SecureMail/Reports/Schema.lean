import SecureMail.Evidence.Document
import SecureMail.Lib.Validation

/-!
# The schema of a report

Each document of the schema is a record of what its constructor is called with, and the list of its
checks: those of the fields first, then those of its validator, with their messages. A count is a
natural number, so the check that it is not negative is in its type.

A checked record is a subtype by its list of checks (`Validated`), so that a value of such a type is
proof that its constructor did not raise. The constructor raises the first check that fails, with
the name of the model and of the field; a list of checks in the order of the source is therefore all
that is needed to say which error a caller sees. A field that is a checked record itself is
validated before the record it is in.
-/

namespace SecureMail
namespace Reports

open Validation (Validated Passes within)

inductive Availability where
  | present
  | unavailable
  | notApplicable
  deriving DecidableEq, Repr

inductive SourceRecordKind where
  | case
  | capture
  | analysisRun
  deriving DecidableEq, Repr

/-- An optional text has the pattern of a digest. -/
def digestOrNone (digest : Option String) : Bool := digest.all fun d => IsSha256Hex d

@[simp] theorem digestOrNone_iff {digest : Option String} :
    digestOrNone digest = true ↔ ∀ d ∈ digest, IsSha256Hex d := by
  cases digest <;> simp [digestOrNone]

structure SourceRecord where
  kind : SourceRecordKind
  identifier : Option String := none
  availability : Availability

def SourceRecord.checks (source : SourceRecord) : List (Bool × Error) :=
  [(source.identifier.all (within 0 160), .validation "SourceRecord" "identifier")]

structure ArtifactHash where
  name : String
  sha256 : Option String := none
  availability : Availability

/-- The last two are `_hash_matches_availability`. -/
def ArtifactHash.checks (artifact : ArtifactHash) : List (Bool × Error) :=
  [(within 1 160 artifact.name, .validation "ArtifactHash" "name"),
   (digestOrNone artifact.sha256, .validation "ArtifactHash" "sha256"),
   (artifact.availability ≠ .present || artifact.sha256.isSome,
     .validation "ArtifactHash" "present artifact hashes require sha256"),
   (artifact.availability = .present || artifact.sha256.isNone,
     .validation "ArtifactHash" "unavailable artifact hashes must not include sha256")]

structure FontResource where
  filename : Text 160
  sha256 : Sha256Hex
  family : Text 80
  weight : { n : Nat // 100 ≤ n ∧ n ≤ 900 }
  italic : Bool := false

/-- The pins of the renderers, which a caller passes on as they were validated. -/
structure RendererManifest where
  pdfRendererVersion : Text 32
  templateSha256 : Sha256Hex
  fonts : List FontResource
  fonts_bounds : 1 ≤ fonts.length ∧ fonts.length ≤ 16

@[ext] structure PostureSummary where
  assessmentState : Findings.AssessmentState
  riskScore : Option Nat
  findingCount : Nat
  unknownCount : Nat
  notObservableCount : Nat

def PostureSummary.checks (summary : PostureSummary) : List (Bool × Error) :=
  [(summary.riskScore.all (· ≤ 100), .validation "PostureSummary" "risk_score")]

structure ReportManifest where
  generatedAt : Py.Datetime
  caseId : Option String := none
  captureId : Option String := none
  analysisRunId : Option String := none
  sourceCaptureSha256 : String
  workingCopySha256 : Option String := none
  workingCopyAvailability : Availability
  sourceRecords : List (Validated SourceRecord.checks)
  artifactHashes : List (Validated ArtifactHash.checks) := []
  renderer : RendererManifest
  postureSummary : Validated PostureSummary.checks
  configurationDigest : String
  analyzerBundleDigest : String
  policyProfile : String
  policyPackVersion : String
  trustStoreDigest : Option String := none
  osContainer : Option String := none
  osContainerAvailability : Availability
  dependencyVersions : Py.Dict String String := ∅

/-- The last four are `_working_copy_matches_availability`. -/
def ReportManifest.checks (manifest : ReportManifest) : List (Bool × Error) :=
  [(manifest.caseId.all (within 0 160), .validation "ReportManifest" "case_id"),
   (manifest.captureId.all (within 0 160), .validation "ReportManifest" "capture_id"),
   (manifest.analysisRunId.all (within 0 160), .validation "ReportManifest" "analysis_run_id"),
   (IsSha256Hex manifest.sourceCaptureSha256,
     .validation "ReportManifest" "source_capture_sha256"),
   (digestOrNone manifest.workingCopySha256, .validation "ReportManifest" "working_copy_sha256"),
   (1 ≤ manifest.sourceRecords.length && manifest.sourceRecords.length ≤ 16,
     .validation "ReportManifest" "source_records"),
   (manifest.artifactHashes.length ≤ 32, .validation "ReportManifest" "artifact_hashes"),
   (IsSha256Hex manifest.configurationDigest, .validation "ReportManifest" "configuration_digest"),
   (IsSha256Hex manifest.analyzerBundleDigest,
     .validation "ReportManifest" "analyzer_bundle_digest"),
   (within 1 64 manifest.policyProfile, .validation "ReportManifest" "policy_profile"),
   (IsSha256Hex manifest.policyPackVersion, .validation "ReportManifest" "policy_pack_version"),
   (digestOrNone manifest.trustStoreDigest, .validation "ReportManifest" "trust_store_digest"),
   (manifest.osContainer.all (within 0 160), .validation "ReportManifest" "os_container"),
   (manifest.dependencyVersions.entries.length ≤ 32,
     .validation "ReportManifest" "dependency_versions"),
   (manifest.workingCopyAvailability ≠ .present || manifest.workingCopySha256.isSome,
     .validation "ReportManifest" "present working-copy hash requires sha256"),
   (manifest.workingCopyAvailability = .present || manifest.workingCopySha256.isNone,
     .validation "ReportManifest" "unavailable working-copy hash must be omitted"),
   (manifest.osContainerAvailability ≠ .present || manifest.osContainer.isSome,
     .validation "ReportManifest" "present os_container requires a value"),
   (manifest.osContainerAvailability = .present || manifest.osContainer.isNone,
     .validation "ReportManifest" "unavailable os_container must be omitted")]

structure CaptureLimitations where
  truncatedPacketsPresent : Bool
  incompleteFlowCount : Nat
  conflictingFlowCount : Nat
  notObservableCertificateCount : Nat
  unknownCheckCount : Nat
  notObservableCheckCount : Nat
  notes : List String := []

def CaptureLimitations.checks (limitations : CaptureLimitations) : List (Bool × Error) :=
  [(limitations.notes.length ≤ 32, .validation "CaptureLimitations" "notes")]

/-- The sections that a report has beside the evidence: each is there with what it shows, or absent. -/
structure Section (α : Type) where
  present : Bool := false
  items : List α := []

structure AdvisoryItem where
  code : Text 64
  reason : Text 1000

/-- `AdvisorySection`, with `_empty_when_absent`. -/
def advisoryChecks (advisory : Section AdvisoryItem) : List (Bool × Error) :=
  [(advisory.items.length ≤ 256, .validation "AdvisorySection" "items"),
   (advisory.present || advisory.items.isEmpty,
     .validation "AdvisorySection" "advisory items require present=true"),
   (!advisory.present || !advisory.items.isEmpty,
     .validation "AdvisorySection" "present advisory section requires items")]

/-- `AnalystSection`, with `_empty_when_absent`. -/
def analystChecks (analyst : Section String) : List (Bool × Error) :=
  [(analyst.items.length ≤ 64, .validation "AnalystSection" "notes"),
   (analyst.present || analyst.items.isEmpty,
     .validation "AnalystSection" "analyst notes require present=true"),
   (!analyst.present || !analyst.items.isEmpty,
     .validation "AnalystSection" "present analyst section requires notes")]

/-! ## The report -/

/-- The flows of a quality. -/
def qualityCount (quality : ReconstructionQuality) (document : EvidenceDocument) : Nat :=
  document.flows.countP (·.reconstructionQuality = quality)

/-- The handshakes whose server certificate cannot be seen. -/
def notObservableCerts (document : EvidenceDocument) : Nat :=
  document.handshakes.countP (·.serverCertificateState = .notObservable)

structure CanonicalReport where
  manifest : Validated ReportManifest.checks
  evidence : EvidenceDocument
  limitations : Validated CaptureLimitations.checks
  advisory : Validated advisoryChecks
  analystConclusions : Validated analystChecks

/-- `_manifest_tracks_evidence`. -/
def CanonicalReport.checks (report : CanonicalReport) : List (Bool × Error) :=
  let run := report.evidence.runIdentity
  let manifest := report.manifest.val
  let posture := report.evidence.posture
  let summary := manifest.postureSummary.val
  let overall := posture.coverage.overall
  let limitations := report.limitations.val
  [(manifest.sourceCaptureSha256 = run.captureSha256.val,
     .validation "CanonicalReport" "manifest.source_capture_sha256 must match run identity"),
   (manifest.configurationDigest = run.configurationDigest.val,
     .validation "CanonicalReport" "manifest.configuration_digest must match run identity"),
   (manifest.analyzerBundleDigest = run.analyzerBundleDigest.val,
     .validation "CanonicalReport" "manifest.analyzer_bundle_digest must match run identity"),
   (manifest.policyProfile = run.policyProfile.value,
     .validation "CanonicalReport" "manifest.policy_profile must match run identity"),
   (manifest.policyPackVersion = run.policyPackVersion.val,
     .validation "CanonicalReport" "manifest.policy_pack_version must match run identity"),
   (manifest.trustStoreDigest = run.trustStoreDigest,
     .validation "CanonicalReport" "manifest.trust_store_digest must match run identity"),
   (summary.assessmentState = posture.assessmentState,
     .validation "CanonicalReport" "posture_summary.assessment_state must match evidence"),
   (summary.riskScore = posture.riskScore.map (·.val),
     .validation "CanonicalReport" "posture_summary.risk_score must match evidence"),
   (summary.findingCount = posture.prioritizedFindings.val.length,
     .validation "CanonicalReport" "posture_summary.finding_count must match prioritized findings"),
   (summary.unknownCount = overall.unknownCount,
     .validation "CanonicalReport" "posture_summary.unknown_count must match coverage"),
   (summary.notObservableCount = overall.notObservableCount,
     .validation "CanonicalReport" "posture_summary.not_observable_count must match coverage"),
   (limitations.truncatedPacketsPresent = report.evidence.capturePreflight.truncatedPacketsPresent,
     .validation "CanonicalReport" "limitations.truncated_packets_present must match preflight"),
   (limitations.incompleteFlowCount = qualityCount .incomplete report.evidence,
     .validation "CanonicalReport" "limitations.incomplete_flow_count must match flows"),
   (limitations.conflictingFlowCount = qualityCount .conflicting report.evidence,
     .validation "CanonicalReport" "limitations.conflicting_flow_count must match flows"),
   (limitations.notObservableCertificateCount = notObservableCerts report.evidence,
     .validation "CanonicalReport"
       "limitations.not_observable_certificate_count must match handshakes"),
   (limitations.unknownCheckCount = overall.unknownCount,
     .validation "CanonicalReport" "limitations.unknown_check_count must match coverage"),
   (limitations.notObservableCheckCount = overall.notObservableCount,
     .validation "CanonicalReport" "limitations.not_observable_check_count must match coverage")]

end Reports
end SecureMail
