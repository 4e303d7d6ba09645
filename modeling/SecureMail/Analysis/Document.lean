import SecureMail.Analysis.Interleaving
import SecureMail.Normalize.Emission
import SecureMail.Normalize.Visibility
import SecureMail.Policy.Identifiers

/-!
# Every document is consistent

The parts of a document are made by functions that know of each other by uids and keys alone. Zeek
names a connection once in `conn.log` and once in `ssl.log`; where it keeps to that, the normalizers
keep the records of a document apart, so that the judgement of one record can be told from that of
another. What the policy engine and the score promise of such evidence, they promise of every
document.

The assumption is on the logs and is stated of them: a uid occurs in one row of each of the two
logs. Under it each normalizer keys its records apart, and `Consistent` puts the parts together.
Without it the document is still made, but two records of one key are judged as the later one, and
its clauses on uids fail first. The engine and the score are used through what they promise of any
batch, so nothing of how they work is needed here.
-/

namespace SecureMail
namespace Analysis

open Fallible (bind_eq_ok pure_eq_ok)
open Normalize (Record)
open Policy (EvidenceBatch)

/-- No two rows of the log are of one connection. Zeek keeps to it for a connection it has not lost
sight of. -/
def OncePerConnection (logs : Record) (name : String) : Prop :=
  ((Normalize.Flows.rowsOf logs name).filterMap fun row =>
    Normalize.Flows.asStr (row.get "uid") Normalize.Flows.maxUidLen).Nodup

instance (logs : Record) (name : String) : Decidable (OncePerConnection logs name) :=
  inferInstanceAs (Decidable (List.Nodup _))

/-- What holds between the parts of a document. The clauses are what a reader of a document relies
on when following a key from one section to another. -/
structure Consistent (tools : Tools) (document : EvidenceDocument) : Prop where
  flow_uids : (document.flows.map (·.uid)).Nodup
  session_uids : (document.sessions.map (·.uid)).Nodup
  handshake_uids : (document.handshakes.map (·.uid)).Nodup
  certificate_keys : (document.certificates.map Normalize.Certificates.recordKey).Nodup
  certificates_le : document.certificates.length ≤ Normalize.Certificates.maxCertificatesPerRun
  /-- A session is of a connection that has a flow. -/
  session_flow : ∀ session ∈ document.sessions, ∃ flow ∈ document.flows, flow.uid = session.uid
  /-- A certificate is of a connection that has a handshake. -/
  certificate_handshake : ∀ certificate ∈ document.certificates,
    ∃ handshake ∈ document.handshakes, handshake.uid = certificate.uid
  /-- The findings and checks are those of the pack on this evidence, and they agree. -/
  agreement : ∃ instant, Policy.Agreement (tools.evaluationRun document.runIdentity.captureSha256)
    document.batch instant ⟨document.findings, document.policyChecks⟩
  /-- The posture is told from them, and its score has its law. -/
  headline : ∃ request : Findings.ScoreRequest, request.findings = document.findings ∧
    request.policyChecks = document.policyChecks ∧
    Findings.scoreFindings tools.sha256Text request = .ok document.posture ∧
    Findings.HeadlineLaw request document.posture

/-! ## Records are told apart -/

theorem nodup_map_of_filter {α κ : Type} [DecidableEq κ] {f : α → κ} {l : List α}
    (h : ∀ k, (l.filter (f · = k)).length ≤ 1) : (l.map f).Nodup := by
  rw [List.nodup_iff_count_le_one]
  intro k
  rw [List.count_eq_countP, List.countP_map, List.countP_eq_length_filter]
  exact h k

theorem OncePerConnection.length_le {logs : Record} {name : String}
    (h : OncePerConnection logs name) (uid : String) :
    ((Normalize.Flows.rowsOf logs name).filter (Normalize.Flows.rowIsOf uid)).length ≤ 1 := by
  have hcount := List.nodup_iff_count_le_one.mp h uid
  rw [List.count_eq_countP, List.countP_filterMap] at hcount
  rw [← List.countP_eq_length_filter]
  refine le_of_eq_of_le (List.countP_congr fun row _ => ?_) hcount
  unfold Normalize.Flows.rowIsOf
  cases Normalize.Flows.asStr (row.get "uid") Normalize.Flows.maxUidLen with
  | none => simp
  | some owner => simp

theorem nodup_flows {logs : Record} {preflight : CapturePreflight} {flows : List Flow}
    (hconn : OncePerConnection logs "conn.log")
    (h : Normalize.Flows.normalizeFlows logs preflight = .ok flows) :
    (flows.map (·.uid)).Nodup := by
  obtain ⟨gaps, -, h⟩ := bind_eq_ok.mp h
  obtain ⟨made, hmade, h⟩ := bind_eq_ok.mp h
  obtain rfl := pure_eq_ok.mp h
  rw [((List.perm_insertionSort _ made).map _).nodup_iff]
  obtain ⟨flows, hflows, hmade⟩ := Normalize.Flows.forall₂_connStep hmade
  rw [List.nil_append] at hmade
  subst hmade
  refine nodup_map_of_filter fun uid => ?_
  rw [← (Normalize.Flows.forall₂_filter hflows uid).length_eq, Normalize.Flows.filter_filter_comm]
  exact (List.length_filter_le _ _).trans (hconn.length_le uid)

theorem length_share_le {flowByUid : Py.Dict String Flow} {index : Tls.TlsParameterIndex}
    {framesByUid : Py.Dict String (List Record)} {rows : List Record} {made made' : List TlsHandshake}
    (h : rows.foldlM (Normalize.Handshakes.rowStep flowByUid index framesByUid) made = .ok made')
    (uid : String) :
    (Normalize.Handshakes.share uid made').length ≤ (Normalize.Handshakes.share uid made).length +
      (rows.filter (Normalize.Handshakes.rowIsOf uid)).length := by
  induction rows generalizing made with
  | nil =>
    obtain rfl := pure_eq_ok.mp h
    exact Nat.le_refl _
  | cons row rest ih =>
    obtain ⟨next, hstep, hrest⟩ := Fallible.foldlM_cons_eq_ok.mp h
    refine (ih hrest).trans ?_
    by_cases hown : Normalize.Handshakes.rowIsOf uid row = true
    · obtain ⟨one, -, rfl, -⟩ := Normalize.Handshakes.rowStep_cases hstep
      have hone : (Normalize.Handshakes.share uid one.toList).length ≤ 1 :=
        (List.length_filter_le _ _).trans (by cases one <;> simp)
      rw [List.filter_cons_of_pos hown, Normalize.Handshakes.share, List.filter_append,
        List.length_append, List.length_cons]
      unfold Normalize.Handshakes.share at hone ⊢
      omega
    · rw [List.filter_cons_of_neg hown, Normalize.Handshakes.spares_rowStep _ _ _ uid _ _ row
        (by simpa using hown) hstep]

theorem nodup_handshakes {logs : Record} {flows : List Flow} {index : Tls.TlsParameterIndex}
    {frames : Option (List Py.Val)} {handshakes : List TlsHandshake}
    (hssl : OncePerConnection logs "ssl.log")
    (h : Normalize.Handshakes.normalizeHandshakes logs flows index frames = .ok handshakes) :
    (handshakes.map (·.uid)).Nodup := by
  obtain ⟨framesByUid, -, h⟩ := bind_eq_ok.mp h
  obtain ⟨made, hmade, h⟩ := bind_eq_ok.mp h
  obtain rfl := pure_eq_ok.mp h
  rw [((List.perm_insertionSort _ made).map _).nodup_iff]
  refine nodup_map_of_filter fun uid => (length_share_le hmade uid).trans ?_
  rw [Normalize.Handshakes.share, List.filter_nil, List.length_nil, Nat.zero_add]
  exact hssl.length_le uid

theorem sessions_of_flows {logs : Record} {flows : List Flow} {frames : Option (List Py.Val)}
    {sessions : List EmailSession}
    (h : Normalize.Sessions.normalizeSessions logs flows frames = .ok sessions) :
    (sessions.map (·.uid)).Nodup ∧ ∀ session ∈ sessions, ∃ flow ∈ flows, flow.uid = session.uid := by
  obtain ⟨t, ht, rfl⟩ := Normalize.Sessions.normalizeSessions_eq_ok.mp h
  obtain ⟨hflows, -⟩ := Normalize.Sessions.readTables_eq_ok.mp ht
  refine ⟨Normalize.Sessions.nodup_session_uids t, ?_⟩
  intro session hsession
  obtain ⟨flow, hflow, -⟩ := Normalize.Sessions.Tables.sessionFor_eq_some.mp
    (Normalize.Sessions.Tables.mem_sessions.mp hsession).2
  rw [hflows] at hflow
  exact Normalize.Sessions.flowsByUid_isSome.mp (by rw [hflow]; rfl)

theorem certificates_of_handshakes {env : Normalize.Certificates.Environment} {logs : Record}
    {flows : List Flow} {index : Tls.TlsParameterIndex} {frames : Option (List Py.Val)}
    {extracted : List Normalize.Certificates.ExtractedCertificate} {handshakes : List TlsHandshake}
    {certificates : List CertificateEvidence}
    (hhandshakes : Normalize.Handshakes.normalizeHandshakes logs flows index frames = .ok handshakes)
    (h : env.normalizeCertificates logs extracted handshakes = .ok certificates) :
    ∀ certificate ∈ certificates, ∃ handshake ∈ handshakes, handshake.uid = certificate.uid := by
  intro certificate hcertificate
  obtain ⟨row, hrow, huid, -⟩ :=
    (Normalize.Certificates.normalizeCertificates_spec h).2 certificate hcertificate
  obtain ⟨handshake, hmem, hsame, -⟩ := Normalize.Certificates.exists_get?_of_row hhandshakes hrow
    (Option.eq_some_of_filter_eq_some huid)
  exact ⟨handshake, hmem, hsame⟩

/-- Certificates that are told apart have different keys. -/
theorem nodup_certificate_keys {certificates : List CertificateEvidence}
    (h : (certificates.map Normalize.Certificates.recordKey).Nodup) :
    (certificates.map fun c => Policy.recordKey (.certificate c)).Nodup := by
  have hinj : ∀ c c', Policy.recordKey (.certificate c) = Policy.recordKey (.certificate c') →
      Normalize.Certificates.recordKey c = Normalize.Certificates.recordKey c' := by
    intro c c' hkey
    obtain ⟨huid, hrole, hindex, hdigest⟩ := Policy.recordKey_certificate_inj hkey
    unfold Normalize.Certificates.recordKey
    rw [huid, hrole, hindex, hdigest]
  rw [List.Nodup, List.pairwise_map] at h ⊢
  exact h.imp fun hne hkey => hne (hinj _ _ hkey)

/-- What the normalizers make of logs with one row for a connection. -/
theorem distinctKeys_of_evidence {tlsParameters : Tls.TlsParameterIndex}
    {env : Normalize.Certificates.Environment} {preflight : CapturePreflight} {zeek : ZeekRunResult}
    {tshark : Option (Except AnalyzerError (List Py.Val))} {batch : EvidenceBatch}
    (hconn : OncePerConnection zeek.logs "conn.log") (hssl : OncePerConnection zeek.logs "ssl.log")
    (h : normalizeEvidence tlsParameters env preflight zeek tshark = .ok batch) :
    Policy.DistinctKeys batch := by
  obtain ⟨first, frames, hflows, -, -, hsessions, hhandshakes, hcertificates⟩ :=
    normalizeEvidence_eq_ok.mp h
  intro target
  cases target with
  | handshake =>
    show ((batch.handshakes.map Policy.PolicyRecord.handshake).map Policy.recordKey).Nodup
    rw [List.map_map]
    exact nodup_handshakes hssl hhandshakes
  | session =>
    show ((batch.sessions.map Policy.PolicyRecord.session).map Policy.recordKey).Nodup
    rw [List.map_map]
    exact (sessions_of_flows hsessions).1
  | certificate =>
    show ((batch.certificates.map Policy.PolicyRecord.certificate).map Policy.recordKey).Nodup
    rw [List.map_map]
    exact nodup_certificate_keys
      (Normalize.Certificates.normalizeCertificates_spec hcertificates).1.nodup
  | flow =>
    show ((batch.flows.map Policy.PolicyRecord.flow).map Policy.recordKey).Nodup
    rw [List.map_map]
    exact nodup_flows hconn hflows

/-! ## The document -/

theorem captureSha256_of_runIdentity {tools : Tools} {request : AnalyzeRequest}
    {analysisTime : Py.Datetime} {captureSha256 : Sha256Hex} {analyzerBundleDigest : String}
    {identity : AnalysisRun}
    (h : runIdentity tools request analysisTime captureSha256 analyzerBundleDigest = .ok identity) :
    identity.captureSha256 = captureSha256 := by
  obtain ⟨bundle, -, h⟩ := bind_eq_ok.mp h
  obtain ⟨pack, -, h⟩ := bind_eq_ok.mp h
  obtain rfl := pure_eq_ok.mp h
  rfl

theorem headline_of_scoreEvaluation {sha256 : String → Sha256Hex}
    {evaluation : Policy.PolicyEvaluation} {posture : Findings.PostureAssessment}
    (h : scoreEvaluation sha256 evaluation = .ok posture) :
    ∃ request : Findings.ScoreRequest, request.findings = evaluation.findings ∧
      request.policyChecks = evaluation.checks ∧
      Findings.scoreFindings sha256 request = .ok posture ∧ Findings.HeadlineLaw request posture := by
  unfold scoreEvaluation at h
  split at h
  · split at h
    · obtain ⟨posture', hposture', hlaw⟩ := Findings.headlineLaw_of_comparableTimes sha256
        (Findings.comparableTimes_of_scoreFindings h)
      obtain rfl := Except.ok.inj (hposture'.symm.trans h)
      exact ⟨_, rfl, rfl, h, hlaw⟩
    · cases h
  · cases h

/-- **Every document of an analysis is consistent**, whatever the capture, the analyzers' answers and
the pack are, if Zeek wrote no more than one row for a connection into `conn.log` and `ssl.log`. -/
theorem consistent_of_runAnalysis {tools : Tools} {request : AnalyzeRequest}
    {capture : Option (List UInt8)} {analyzers : Analyzers} {document : EvidenceDocument}
    (hconn : ∀ zeek, analyzers.zeek = .ok zeek → OncePerConnection zeek.logs "conn.log")
    (hssl : ∀ zeek, analyzers.zeek = .ok zeek → OncePerConnection zeek.logs "ssl.log")
    (h : runAnalysis tools request capture analyzers = .ok document) :
    Consistent tools document := by
  obtain ⟨stages, hconclude⟩ := runAnalysis_eq_ok.mp h
  obtain ⟨hbatch, -, hidentity, evaluationTime, -, hevaluation, hposture⟩ :=
    concludeAnalysis_eq_ok.mp hconclude
  obtain ⟨first, frames, hflows, -, -, hsessions, hhandshakes, hcertificates⟩ :=
    normalizeEvidence_eq_ok.mp stages.evidence
  have hzeekConn := hconn stages.zeek stages.zeek_ok
  have hzeekSsl := hssl stages.zeek stages.zeek_ok
  have hkeys := distinctKeys_of_evidence hzeekConn hzeekSsl stages.evidence
  have hkept := (Normalize.Certificates.normalizeCertificates_spec hcertificates).1
  obtain ⟨instant, -, ⟨journal⟩⟩ := Policy.evaluatePolicyBatch_eq_ok hevaluation
  have hagreement := journal.agreement hkeys
  rw [← hbatch] at hflows hsessions hhandshakes hcertificates hkept hagreement
  rw [← captureSha256_of_runIdentity hidentity] at hagreement
  exact
    { flow_uids := nodup_flows hzeekConn hflows
      session_uids := (sessions_of_flows hsessions).1
      handshake_uids := nodup_handshakes hzeekSsl hhandshakes
      certificate_keys := hkept.nodup
      certificates_le := hkept.length_le
      session_flow := (sessions_of_flows hsessions).2
      certificate_handshake := certificates_of_handshakes hhandshakes hcertificates
      agreement := ⟨instant, hagreement⟩
      headline := headline_of_scoreEvaluation hposture }

/-- The two mail connections, the first with the certificate file in its chain. -/
def certificateZeek : ZeekRunResult where
  logs :=
    [("conn.log", .list [mailRow "C1" "192.0.2.10", mailRow "C2" "192.0.2.11"]),
     ("sm_email.log", .list (apart.map Py.Val.dict)),
     ("ssl.log", .list [.dict [("uid", .str "C1"), ("version", .str "TLSv12"),
       ("ssl_history", .str "Csx"), ("established", .bool true),
       ("cert_chain_fps", .list [.str Normalize.Certificates.emptySequenceSha256.val])]])]
  extractedCertificates := [Normalize.Certificates.emptySequenceFile]
  analyzerBundleDigest := emptyDigest

theorem consistent_apart :
    ∃ document, twoMailRun certificateZeek = .ok document ∧
      document.certificates.map (·.uid) = ["C1"] ∧ Consistent twoMailTools document := by
  have hparts : (twoMailRun certificateZeek).toOption.map
      (fun document => document.certificates.map (·.uid)) = some ["C1"] := by decide +kernel
  have hconn : OncePerConnection certificateZeek.logs "conn.log" := by decide +kernel
  have hssl : OncePerConnection certificateZeek.logs "ssl.log" := by decide +kernel
  cases hrun : twoMailRun certificateZeek with
  | error e =>
    rw [hrun] at hparts
    cases hparts
  | ok document =>
    rw [hrun] at hparts
    refine ⟨document, rfl, Option.some.inj hparts, consistent_of_runAnalysis ?_ ?_ hrun⟩
    · intro zeek hzeek
      obtain rfl := Except.ok.inj hzeek
      exact hconn
    · intro zeek hzeek
      obtain rfl := Except.ok.inj hzeek
      exact hssl

end Analysis
end SecureMail
