import SecureMail.Evidence.Reconstruction
import SecureMail.Findings.Score
import SecureMail.Policy.Engine

/-!
# The evidence document

What an analysis leaves: the identity of the run, the evidence, what the policy says of it and the
posture. The report, the catalog and the dashboard read nothing else, so what they may rely on has
to be a property of the document and not of the run that made it.

`Evaluated` is that property. A document is evaluated when its findings and checks are those of the
policy engine on its own evidence, and its posture is scored from just these. It is stated with the
pack, the capture digest and the time of the evaluation as parameters, because a document does not
record the pack itself, only its digest in each finding.
-/

namespace SecureMail

/-- `empty_posture_assessment`, the posture of a document before it is scored: no headline and no
count, and the state `none` rather than a score of zero. -/
def Findings.emptyPostureAssessment : Findings.PostureAssessment where
  assessmentState := .none
  riskScore := none
  prioritizedFindings := ⟨[], Nat.zero_le _⟩
  coverage := { overall := Findings.zeroCounts }

/-- The digest of the trust store is any text here. -/
structure AnalysisRun where
  captureSha256 : Sha256Hex
  analyzerBundleDigest : Sha256Hex
  configurationDigest : Sha256Hex
  analysisTime : Py.Datetime
  policyProfile : PolicyProfile
  policyPackVersion : Sha256Hex
  trustStoreDigest : Option String := none
  deriving DecidableEq

structure EvidenceDocument where
  runIdentity : AnalysisRun
  capturePreflight : CapturePreflight
  flows : List Flow := []
  sessions : List EmailSession := []
  handshakes : List TlsHandshake := []
  certificates : List CertificateEvidence := []
  findings : List Finding := []
  policyChecks : List PolicyCheck := []
  policyChecks_le : policyChecks.length ≤ 16384 := by decide
  posture : Findings.PostureAssessment

namespace EvidenceDocument

/-- The evidence that the policy engine is given. -/
def batch (document : EvidenceDocument) : Policy.EvidenceBatch where
  flows := document.flows
  sessions := document.sessions
  handshakes := document.handshakes
  certificates := document.certificates

/-- The findings, the checks and the posture of the document belong to its own evidence. It ties the
parts of a document by the functions that made them, for results that read more than one part. -/
structure Evaluated (document : EvidenceDocument) (run : Policy.EvaluationRun)
    (evaluationTime : Py.Datetime) : Prop where
  evaluation : run.evaluatePolicyBatch evaluationTime document.batch =
    .ok ⟨document.findings, document.policyChecks⟩
  posture : ∃ request : Findings.ScoreRequest, request.findings = document.findings ∧
    request.policyChecks = document.policyChecks ∧
    Findings.scoreFindings run.sha256 request = .ok document.posture

end EvidenceDocument
end SecureMail
