import SecureMail.Analysis.Configuration
import SecureMail.Jobs.Intake
import SecureMail.Normalize.Certificates
import SecureMail.Normalize.Flows
import SecureMail.Normalize.Handshakes
import SecureMail.Normalize.Sessions

/-!
# `run_analysis`

One run: the capture is hashed and given to the analyzers, the normalizers make evidence of what the
analyzers say, the policy engine judges the evidence, and the judgement is scored. The analyzers run
in containers, so what they answer is an input here.

The module puts in order what other modules define, and adds the fields that are about the run
itself: the digests of the capture, the pack and the configuration. Each stage can raise, and the
stages are bound in the order of the source, since the exception a caller sees is that of the first
stage that fails. `normalizeEvidence_eq_ok` and its kin take a run that returned apart into the
results of its stages, and that is how later modules refer to it.
-/

namespace SecureMail
namespace Analysis

open Py (Val)
open Normalize (Record getLog boundedRecords maxRecords)
open Normalize.Certificates (ExtractedCertificate ArtifactStore)
open Pki (X509Library IdentityCodec TrustStoreSnapshot)
open Policy (EvidenceBatch EvaluationRun PolicyEvaluation PolicyPack)

/-- `AnalyzerError`. -/
structure AnalyzerError where
  message : String
  deriving DecidableEq

structure ZeekRunResult where
  logs : Record
  extractedCertificates : List ExtractedCertificate := []
  analyzerBundleDigest : String

/-- What the analyzers answer for a capture. There may be no TShark. -/
structure Analyzers where
  preflight : Except AnalyzerError CapturePreflight
  zeek : Except AnalyzerError ZeekRunResult
  tshark : Option (Except AnalyzerError (List Val)) := none

/-- What a run is given besides: libraries, a store, pinned data and the clock. -/
structure Tools where
  lib : X509Library
  codec : IdentityCodec
  sha1 : List UInt8 → String
  sha256 : List UInt8 → Sha256Hex
  artifactStore : ArtifactStore
  trustSnapshot : Option (TrustStoreSnapshot lib) := none
  tlsParameters : Tls.TlsParameterIndex
  tlsParametersDigest : String
  policyPack : PolicyPack
  policyPackDigest : String
  now : Py.Datetime

/-- The digest of a text. -/
def Tools.sha256Text (tools : Tools) (text : String) : Sha256Hex :=
  tools.sha256 text.toUTF8.data.toList

inductive Failure where
  | fileNotFound (message : String)
  | invalidCapture (message : String)
  /-- `AnalysisError` itself. -/
  | analysis (message : String)
  | raised (e : Error)
  deriving DecidableEq

abbrev Outcome := Except Failure

/-- An error of the normalizers, the engine or the models goes through as it is. -/
def through {α : Type} (x : Result α) : Outcome α := x.mapError Failure.raised

/-- `raise AnalysisError(str(exc)) from exc`. -/
def answered {α : Type} (x : Except AnalyzerError α) : Outcome α :=
  x.mapError fun e => .analysis e.message

/-! ## The request -/

/-- `_normalize_expected_hostname`. -/
def normalizeExpectedHostname (value : Option String) : Option String :=
  (value.map Py.strip).filter (· ≠ "")

/-- The hostname is the one its validator returned. -/
structure AnalyzeRequest where
  capturePath : String
  analysisTime : Option Py.Datetime := none
  expiryWarningSeconds : Nat := 30 * 24 * 60 * 60
  expectedHostname : Option String := none
  policyProfile : PolicyProfile := .ietfCurrent
  expiryWarningSeconds_pos : 1 ≤ expiryWarningSeconds := by decide

/-- The file has to be there and start as a capture does. -/
def readCapture (request : AnalyzeRequest) : Option (List UInt8) → Outcome (List UInt8)
  | none => throw (.fileNotFound s!"capture not found: {request.capturePath}")
  | some bytes =>
    if bytes.take 4 ≠ Jobs.pcapngMagic ∧ bytes.take 4 ∉ Jobs.pcapMagics then
      throw (.invalidCapture s!"not a PCAP/PCAPNG file: {request.capturePath}")
    else pure bytes

/-- `timedelta(seconds=..)`, in microseconds: at most 999999999 days. -/
def timedelta (seconds : Nat) : Result Int :=
  if seconds < 86400 * 1000000000 then pure (seconds * 1000000) else throw .overflowError

/-! ## Evidence -/

/-- `needs_tshark_corroboration`. TShark is run only if a session, a TLS row or a port of implicit
TLS makes it worth the time, and so its frames are a function of the first pass. -/
def needsTsharkCorroboration (sessions : List EmailSession) (flows : List Flow) (logs : Record) :
    Bool :=
  (sessions.any fun session =>
    session.protocol.isSome ||
      [PayloadEvidence.smtp, .imap, .pop3].contains session.payloadEvidence) ||
    ((boundedRecords (getLog logs "ssl.log") maxRecords).any fun row =>
      (Normalize.Sessions.asStr (row.get "uid") Normalize.Sessions.maxUidLen).isSome) ||
    flows.any fun flow => Starttls.implicitTlsPorts.contains flow.resp.port.val

/-- The frames of TShark, where it is there and asked. -/
def tsharkFrames (tshark : Option (Except AnalyzerError (List Val))) (needed : Bool) :
    Outcome (Option (List Val)) :=
  match tshark with
  | none => pure none
  | some answer => if needed then some <$> answered answer else pure none

/-- What `normalize_certificates` is given. The hostname and the times are those of the request, and
everything else belongs to the installation. -/
def Tools.environment (tools : Tools) (request : AnalyzeRequest) (analysisTime : Py.Datetime)
    (warningWindow : Int) : Normalize.Certificates.Environment where
  lib := tools.lib
  codec := tools.codec
  sha1 := tools.sha1
  store := tools.artifactStore
  analysisTime := analysisTime
  expiryWarning := warningWindow
  trustSnapshot := tools.trustSnapshot
  expectedHostname := request.expectedHostname

/-- With the frames of TShark the sessions are made a second time. -/
def corroborate (logs : Record) (flows : List Flow) (sessions : List EmailSession) :
    Option (List Val) → Outcome (List EmailSession)
  | none => pure sessions
  | some frames => through (Normalize.Sessions.normalizeSessions logs flows (some frames))

/-- The four normalizers. The sessions are normalized twice where frames come in. The flows and the
first sessions decide whether they do. -/
def normalizeEvidence (tlsParameters : Tls.TlsParameterIndex)
    (env : Normalize.Certificates.Environment) (preflight : CapturePreflight)
    (zeek : ZeekRunResult) (tshark : Option (Except AnalyzerError (List Val))) :
    Outcome EvidenceBatch := do
  let flows ← through (Normalize.Flows.normalizeFlows zeek.logs preflight)
  let sessions ← through (Normalize.Sessions.normalizeSessions zeek.logs flows none)
  let frames ← tsharkFrames tshark (needsTsharkCorroboration sessions flows zeek.logs)
  let sessions ← corroborate zeek.logs flows sessions frames
  let handshakes ← through
    (Normalize.Handshakes.normalizeHandshakes zeek.logs flows tlsParameters frames)
  let certificates ← through
    (env.normalizeCertificates zeek.logs zeek.extractedCertificates handshakes)
  pure { flows := flows, sessions := sessions, handshakes := handshakes,
         certificates := certificates }

@[simp] theorem through_eq_ok {α : Type} {x : Result α} {a : α} : through x = .ok a ↔ x = .ok a :=
  Fallible.mapError_eq_ok

@[simp] theorem answered_eq_ok {α : Type} {x : Except AnalyzerError α} {a : α} :
    answered x = .ok a ↔ x = .ok a :=
  Fallible.mapError_eq_ok

/-- **The sessions of a run are those of the frames it went by.** The first sessions decide no more
than whether TShark is asked. -/
theorem normalizeEvidence_eq_ok {tlsParameters : Tls.TlsParameterIndex}
    {env : Normalize.Certificates.Environment} {preflight : CapturePreflight}
    {zeek : ZeekRunResult} {tshark : Option (Except AnalyzerError (List Val))}
    {batch : EvidenceBatch} :
    normalizeEvidence tlsParameters env preflight zeek tshark = .ok batch ↔
      ∃ first frames, Normalize.Flows.normalizeFlows zeek.logs preflight = .ok batch.flows ∧
        Normalize.Sessions.normalizeSessions zeek.logs batch.flows none = .ok first ∧
        tsharkFrames tshark (needsTsharkCorroboration first batch.flows zeek.logs) = .ok frames ∧
        Normalize.Sessions.normalizeSessions zeek.logs batch.flows frames = .ok batch.sessions ∧
        Normalize.Handshakes.normalizeHandshakes zeek.logs batch.flows tlsParameters frames =
          .ok batch.handshakes ∧
        env.normalizeCertificates zeek.logs zeek.extractedCertificates batch.handshakes =
          .ok batch.certificates := by
  constructor
  · intro h
    obtain ⟨flows, hflows, h⟩ := Fallible.bind_eq_ok.mp h
    obtain ⟨first, hfirst, h⟩ := Fallible.bind_eq_ok.mp h
    obtain ⟨frames, hframes, h⟩ := Fallible.bind_eq_ok.mp h
    obtain ⟨sessions, hsessions, h⟩ := Fallible.bind_eq_ok.mp h
    obtain ⟨handshakes, hhandshakes, h⟩ := Fallible.bind_eq_ok.mp h
    obtain ⟨certificates, hcertificates, h⟩ := Fallible.bind_eq_ok.mp h
    obtain rfl := Fallible.pure_eq_ok.mp h
    refine ⟨first, frames, through_eq_ok.mp hflows, through_eq_ok.mp hfirst, hframes, ?_,
      through_eq_ok.mp hhandshakes, through_eq_ok.mp hcertificates⟩
    cases frames with
    | none =>
      obtain rfl := Fallible.pure_eq_ok.mp hsessions
      exact through_eq_ok.mp hfirst
    | some frames => exact through_eq_ok.mp hsessions
  · rintro ⟨first, frames, hflows, hfirst, hframes, hsessions, hhandshakes, hcertificates⟩
    refine Fallible.bind_eq_ok.mpr ⟨batch.flows, through_eq_ok.mpr hflows, ?_⟩
    refine Fallible.bind_eq_ok.mpr ⟨first, through_eq_ok.mpr hfirst, ?_⟩
    refine Fallible.bind_eq_ok.mpr ⟨frames, hframes, ?_⟩
    refine Fallible.bind_eq_ok.mpr ⟨batch.sessions, ?_, ?_⟩
    · cases frames with
      | none => exact congrArg Except.ok (Except.ok.inj (hfirst.symm.trans hsessions))
      | some frames => exact through_eq_ok.mpr hsessions
    refine Fallible.bind_eq_ok.mpr ⟨batch.handshakes, through_eq_ok.mpr hhandshakes, ?_⟩
    exact Fallible.bind_eq_ok.mpr ⟨batch.certificates, through_eq_ok.mpr hcertificates, rfl⟩

/-! ## Judgement -/

/-- `resolve_evaluation_clock`, with its `PolicyEngineError` as an `AnalysisError`. A historical
profile without a start time is refused, since any other instant would be a guess. -/
def resolveEvaluationClock (pack : PolicyPack) (analysisTime : Py.Datetime)
    (captureStartTime : Option Py.Datetime) : Outcome Py.Datetime :=
  match pack.evaluationClock, captureStartTime with
  | .analysisTime, _ => through (Policy.asUtc analysisTime)
  | .captureStartTime, some start => through (Policy.asUtc start)
  | .captureStartTime, none =>
      throw (.analysis "capture start time unavailable; historical policy cannot be evaluated")

def Tools.evaluationRun (tools : Tools) (captureSha256 : Sha256Hex) : EvaluationRun where
  sha256 := tools.sha256Text
  pack := tools.policyPack
  packDigest := tools.policyPackDigest
  captureSha256 := captureSha256.val

/-- `ScoreRequest` and `score_findings`. The two limits are fields of the request, so that a run
with more findings ends here. -/
def scoreEvaluation (sha256 : String → Sha256Hex) (evaluation : PolicyEvaluation) :
    Result Findings.PostureAssessment :=
  if hfindings : evaluation.findings.length ≤ 4096 then
    if hchecks : evaluation.checks.length ≤ 16384 then
      Findings.scoreFindings sha256
        { findings := evaluation.findings, findings_le := hfindings
          policyChecks := evaluation.checks, policyChecks_le := hchecks
          assetContext_le := Findings.noAssetContext_le }
    else throw (.validation "ScoreRequest" "policy_checks")
  else throw (.validation "ScoreRequest" "findings")

/-- `AnalysisRun`. The digests are validated as the constructor does; a bundle digest comes from
outside and may be anything. -/
def runIdentity (tools : Tools) (request : AnalyzeRequest) (analysisTime : Py.Datetime)
    (captureSha256 : Sha256Hex) (analyzerBundleDigest : String) : Result AnalysisRun := do
  let bundle ← Sha256Hex.validate "AnalysisRun" "analyzer_bundle_digest" analyzerBundleDigest
  let pack ← Sha256Hex.validate "AnalysisRun" "policy_pack_version" tools.policyPackDigest
  pure
    { captureSha256 := captureSha256
      analyzerBundleDigest := bundle
      configurationDigest := configurationDigest tools.sha256Text (some tools.tlsParametersDigest)
        request.expiryWarningSeconds request.expectedHostname
      analysisTime := analysisTime
      policyProfile := request.policyProfile
      policyPackVersion := pack
      trustStoreDigest := tools.trustSnapshot.map (·.digest.val) }

/-- `EvidenceDocument`. The one check that is left is on the number of checks, as every other list
has its limit from where it was made. -/
def buildDocument (identity : AnalysisRun) (preflight : CapturePreflight) (batch : EvidenceBatch)
    (evaluation : PolicyEvaluation) (posture : Findings.PostureAssessment) :
    Result EvidenceDocument :=
  if hchecks : evaluation.checks.length ≤ 16384 then
    pure
      { runIdentity := identity
        capturePreflight := preflight
        flows := batch.flows
        sessions := batch.sessions
        handshakes := batch.handshakes
        certificates := batch.certificates
        findings := evaluation.findings
        policyChecks := evaluation.checks
        policyChecks_le := hchecks
        posture := posture }
  else throw (.validation "EvidenceDocument" "policy_checks")

/-- What follows the analyzers. Nothing in it depends on the analyzers but through the evidence and
the digest of their bundle. -/
def concludeAnalysis (tools : Tools) (request : AnalyzeRequest) (analysisTime : Py.Datetime)
    (captureSha256 : Sha256Hex) (preflight : CapturePreflight) (analyzerBundleDigest : String)
    (batch : EvidenceBatch) : Outcome EvidenceDocument := do
  let evaluationTime ←
    resolveEvaluationClock tools.policyPack analysisTime preflight.captureStartTime
  let evaluation ← through
    ((tools.evaluationRun captureSha256).evaluatePolicyBatch evaluationTime batch)
  let posture ← through (scoreEvaluation tools.sha256Text evaluation)
  let identity ← through
    (runIdentity tools request analysisTime captureSha256 analyzerBundleDigest)
  through (buildDocument identity preflight batch evaluation posture)

/-- `run_analysis`. The order of the stages is that of the source, and the first that raises is what
the caller sees. -/
def runAnalysis (tools : Tools) (request : AnalyzeRequest) (capture : Option (List UInt8))
    (analyzers : Analyzers) : Outcome EvidenceDocument := do
  let bytes ← readCapture request capture
  let analysisTime ← through (Policy.asUtc (request.analysisTime.getD tools.now))
  let warningWindow ← through (timedelta request.expiryWarningSeconds)
  let preflight ← answered analyzers.preflight
  let zeek ← answered analyzers.zeek
  let batch ← normalizeEvidence tools.tlsParameters
    (tools.environment request analysisTime warningWindow) preflight zeek analyzers.tshark
  concludeAnalysis tools request analysisTime (tools.sha256 bytes) preflight
    zeek.analyzerBundleDigest batch

/-! ## What a run went through -/

/-- What the steps of a run made on the way to its document. -/
structure Stages (tools : Tools) (request : AnalyzeRequest) (capture : Option (List UInt8))
    (analyzers : Analyzers) where
  bytes : List UInt8
  analysisTime : Py.Datetime
  warningWindow : Int
  preflight : CapturePreflight
  zeek : ZeekRunResult
  batch : EvidenceBatch
  read : readCapture request capture = .ok bytes
  time : Policy.asUtc (request.analysisTime.getD tools.now) = .ok analysisTime
  window : timedelta request.expiryWarningSeconds = .ok warningWindow
  preflight_ok : analyzers.preflight = .ok preflight
  zeek_ok : analyzers.zeek = .ok zeek
  evidence : normalizeEvidence tools.tlsParameters
    (tools.environment request analysisTime warningWindow) preflight zeek analyzers.tshark =
      .ok batch

theorem runAnalysis_eq_ok {tools : Tools} {request : AnalyzeRequest}
    {capture : Option (List UInt8)} {analyzers : Analyzers} {document : EvidenceDocument} :
    runAnalysis tools request capture analyzers = .ok document ↔
      ∃ stages : Stages tools request capture analyzers,
        concludeAnalysis tools request stages.analysisTime (tools.sha256 stages.bytes)
          stages.preflight stages.zeek.analyzerBundleDigest stages.batch = .ok document := by
  constructor
  · intro h
    obtain ⟨bytes, hread, h⟩ := Fallible.bind_eq_ok.mp h
    obtain ⟨analysisTime, htime, h⟩ := Fallible.bind_eq_ok.mp h
    obtain ⟨warningWindow, hwindow, h⟩ := Fallible.bind_eq_ok.mp h
    obtain ⟨preflight, hpreflight, h⟩ := Fallible.bind_eq_ok.mp h
    obtain ⟨zeek, hzeek, h⟩ := Fallible.bind_eq_ok.mp h
    obtain ⟨batch, hbatch, h⟩ := Fallible.bind_eq_ok.mp h
    exact ⟨⟨bytes, analysisTime, warningWindow, preflight, zeek, batch, hread,
      through_eq_ok.mp htime, through_eq_ok.mp hwindow, answered_eq_ok.mp hpreflight,
      answered_eq_ok.mp hzeek, hbatch⟩, h⟩
  · rintro ⟨stages, h⟩
    refine Fallible.bind_eq_ok.mpr ⟨stages.bytes, stages.read, ?_⟩
    refine Fallible.bind_eq_ok.mpr ⟨stages.analysisTime, through_eq_ok.mpr stages.time, ?_⟩
    refine Fallible.bind_eq_ok.mpr ⟨stages.warningWindow, through_eq_ok.mpr stages.window, ?_⟩
    refine Fallible.bind_eq_ok.mpr
      ⟨stages.preflight, answered_eq_ok.mpr stages.preflight_ok, ?_⟩
    refine Fallible.bind_eq_ok.mpr ⟨stages.zeek, answered_eq_ok.mpr stages.zeek_ok, ?_⟩
    exact Fallible.bind_eq_ok.mpr ⟨stages.batch, stages.evidence, h⟩

theorem buildDocument_eq_ok {identity : AnalysisRun} {preflight : CapturePreflight}
    {batch : EvidenceBatch} {evaluation : PolicyEvaluation}
    {posture : Findings.PostureAssessment} {document : EvidenceDocument} :
    buildDocument identity preflight batch evaluation posture = .ok document ↔
      document.runIdentity = identity ∧ document.capturePreflight = preflight ∧
        document.batch = batch ∧ document.findings = evaluation.findings ∧
        document.policyChecks = evaluation.checks ∧ document.posture = posture := by
  unfold buildDocument
  constructor
  · intro h
    split at h
    · obtain rfl := Fallible.pure_eq_ok.mp h
      exact ⟨rfl, rfl, rfl, rfl, rfl, rfl⟩
    · cases h
  · rintro ⟨rfl, rfl, rfl, hfindings, hchecks, rfl⟩
    rw [dif_pos (hchecks ▸ document.policyChecks_le)]
    cases document
    cases evaluation
    cases hfindings
    cases hchecks
    rfl

/-- **A document holds the evidence it was judged by**, the judgement and its score. It is the
inversion of the last stages, and the results about documents start from it. -/
theorem concludeAnalysis_eq_ok {tools : Tools} {request : AnalyzeRequest}
    {analysisTime : Py.Datetime} {captureSha256 : Sha256Hex} {preflight : CapturePreflight}
    {analyzerBundleDigest : String} {batch : EvidenceBatch} {document : EvidenceDocument} :
    concludeAnalysis tools request analysisTime captureSha256 preflight analyzerBundleDigest
        batch = .ok document ↔
      document.batch = batch ∧ document.capturePreflight = preflight ∧
        runIdentity tools request analysisTime captureSha256 analyzerBundleDigest =
          .ok document.runIdentity ∧
        ∃ evaluationTime, resolveEvaluationClock tools.policyPack analysisTime
            preflight.captureStartTime = .ok evaluationTime ∧
          (tools.evaluationRun captureSha256).evaluatePolicyBatch evaluationTime batch =
            .ok ⟨document.findings, document.policyChecks⟩ ∧
          scoreEvaluation tools.sha256Text ⟨document.findings, document.policyChecks⟩ =
            .ok document.posture := by
  constructor
  · intro h
    obtain ⟨evaluationTime, htime, h⟩ := Fallible.bind_eq_ok.mp h
    obtain ⟨evaluation, hevaluation, h⟩ := Fallible.bind_eq_ok.mp h
    obtain ⟨posture, hposture, h⟩ := Fallible.bind_eq_ok.mp h
    obtain ⟨identity, hidentity, h⟩ := Fallible.bind_eq_ok.mp h
    obtain ⟨rfl, hpreflight, hbatch, hfindings, hchecks, rfl⟩ :=
      buildDocument_eq_ok.mp (through_eq_ok.mp h)
    rw [hfindings, hchecks]
    exact ⟨hbatch, hpreflight, through_eq_ok.mp hidentity, evaluationTime, htime,
      through_eq_ok.mp hevaluation, through_eq_ok.mp hposture⟩
  · rintro ⟨hbatch, hpreflight, hidentity, evaluationTime, htime, hevaluation, hposture⟩
    refine Fallible.bind_eq_ok.mpr ⟨evaluationTime, htime, ?_⟩
    refine Fallible.bind_eq_ok.mpr ⟨_, through_eq_ok.mpr hevaluation, ?_⟩
    refine Fallible.bind_eq_ok.mpr ⟨document.posture, through_eq_ok.mpr hposture, ?_⟩
    refine Fallible.bind_eq_ok.mpr ⟨document.runIdentity, through_eq_ok.mpr hidentity, ?_⟩
    exact through_eq_ok.mpr (buildDocument_eq_ok.mpr ⟨rfl, hpreflight, hbatch, rfl, rfl, rfl⟩)

end Analysis
end SecureMail
