import SecureMail.Evidence.Document
import SecureMail.Findings.References
import SecureMail.Policy.Identifiers

/-!
# The lineage of a finding

The HTML report draws each prioritized finding back to its flow, its session and its handshake. It
looks them up under the key of the finding's first reference, as it stands. Deduplication reads the
connection of an occurrence from the key instead: the key of a certificate is cut at the colon. So
the two name the same connection where no contributing record is a certificate, and where one is,
the row looks up a key that no connection has (`lineage_agrees_iff`).

The condition is on the document, as it is when the row is drawn. It does not mention the row, or
the key that is looked up, but the types of the contributing records and the one session the
references begin with. The documents are those of the pipeline (`Evaluated`), as a finding from
elsewhere could name anything; and the uids have no colon, which is what Zeek gives.
-/

namespace SecureMail
namespace Reports

open Findings (ScoredEndpointFinding sessionUids)

/-! ## `_lineage_rows` -/

def flowByUid (document : EvidenceDocument) : Py.Dict String Flow :=
  Py.Dict.ofList Flow.uid id document.flows

def sessionByUid (document : EvidenceDocument) : Py.Dict String EmailSession :=
  Py.Dict.ofList EmailSession.uid id document.sessions

def handshakeByUid (document : EvidenceDocument) : Py.Dict String TlsHandshake :=
  Py.Dict.ofList TlsHandshake.uid id document.handshakes

/-- The certificates of each connection, in the order of their chain. -/
def certsByUid (document : EvidenceDocument) : Py.Dict String (List CertificateEvidence) :=
  Py.Dict.groupBy CertificateEvidence.uid document.certificates

def chainOf (document : EvidenceDocument) (uid : String) : List CertificateEvidence :=
  (((certsByUid document).get? uid).getD []).insertionSort fun a b => a.chainIndex ≤ b.chainIndex

/-- The types of record whose key is taken for a connection. -/
def lineageTypes : List EvidenceRecordType := [.session, .handshake, .flow, .certificate]

/-- The key of the first reference that has one. -/
def lineageUid (finding : ScoredEndpointFinding) : Option String :=
  finding.evidenceReferences.val.findSome? fun ref =>
    if ref.recordType ∈ lineageTypes ∧ ref.recordKey.val ≠ "" then some ref.recordKey.val else none

structure LineageRow where
  code : String
  endpoint : String
  basisState : EvidenceState
  capture : String
  flow : Option String
  flowQuality : Option ReconstructionQuality
  sessionProtocol : Option MailProtocol
  sessionState : Option EvidenceState
  tlsVersion : Option String
  certState : Option EvidenceState
  certCount : Nat

/-- The row of a finding. Each column is a lookup of its own under one key, and a lookup that finds
nothing leaves its column empty. -/
def lineageRow (document : EvidenceDocument) (finding : ScoredEndpointFinding) : LineageRow :=
  let uid := lineageUid finding
  let session := uid.bind (sessionByUid document).get?
  let flow := uid.bind (flowByUid document).get?
  let handshake := uid.bind (handshakeByUid document).get?
  { code := finding.code.val
    endpoint := finding.affectedEndpoint.val
    basisState := finding.basisState
    capture := String.ofList (document.runIdentity.captureSha256.val.toList.take 12)
    flow := flow.map (·.uid)
    flowQuality := flow.map (·.reconstructionQuality)
    sessionProtocol := session.bind (·.protocol)
    sessionState := session.map (·.evidenceState)
    tlsVersion := handshake.bind (·.version.selected)
    certState := handshake.map (·.serverCertificateState)
    certCount := ((uid.map (chainOf document)).getD []).length }

/-- `_lineage_rows`. -/
def lineageRows (document : EvidenceDocument) : List LineageRow :=
  document.posture.prioritizedFindings.val.map (lineageRow document)

/-! ## What a row is to show -/

/-- The row looks up a connection of the finding, and shows its flow and its session if they exist. -/
def LineageAgrees (document : EvidenceDocument) (finding : ScoredEndpointFinding) : Prop :=
  ∃ uid, lineageUid finding = some uid ∧
    uid ∈ sessionUids finding.toEndpointFindingCluster ∧
    ((∃ flow ∈ document.flows, flow.uid = uid) →
      (lineageRow document finding).flow.isSome = true ∧
        (lineageRow document finding).flowQuality.isSome = true) ∧
    ((∃ session ∈ document.sessions, session.uid = uid) →
      (lineageRow document finding).sessionProtocol.isSome = true ∧
        (lineageRow document finding).sessionState.isSome = true)

/-- No contributing record is a certificate, and the session of the record that the references begin
with, if there is one, has a protocol. A certificate spoils the row of a finding even where most of
its records are none: references to certificates are sorted to the front, and the row only reads the
first. -/
def Linkable (document : EvidenceDocument) (finding : ScoredEndpointFinding) : Prop :=
  (∀ occurrence ∈ finding.contributingOccurrences.val, occurrence.recordType ≠ .certificate) ∧
    ∀ ref ∈ finding.evidenceReferences.val.head?, ∀ session,
      document.batch.sessionOf ref.recordKey.val = some session → session.protocol.isSome = true

/-! ## The findings of the engine -/

/-- The key of a record begins with its connection, and for all but certificates it is nothing
else. -/
theorem ofConnection_of_about {finding : Finding} {rule : Policy.PolicyRule}
    {record : Policy.PolicyRecord} {batch : Policy.EvidenceBatch} (h : finding.About rule record)
    (hrecord : record ∈ batch.recordsForTarget rule.target) :
    finding.OfConnection rule.target.recordType record.uid := by
  obtain ⟨-, hne, hall⟩ := h
  have hkey : (rule.target ≠ .certificate → Policy.recordKey record = record.uid) ∧
      (rule.target = .certificate →
        ∃ rest, Policy.recordKey record = record.uid ++ ":" ++ rest) := by
    cases htarget : rule.target with
    | certificate =>
      rw [htarget] at hrecord
      obtain ⟨c, -, rfl⟩ := List.mem_map.mp hrecord
      refine ⟨fun hne => absurd rfl hne, fun _ => ?_⟩
      refine ⟨c.role.value ++ ":" ++ toString c.chainIndex ++ ":" ++ c.derSha256.val, ?_⟩
      simp only [Policy.recordKey, Policy.PolicyRecord.uid, String.append_assoc]
    | handshake =>
      rw [htarget] at hrecord
      obtain ⟨r, -, rfl⟩ := List.mem_map.mp hrecord
      exact ⟨fun _ => rfl, fun hcertificate => by cases hcertificate⟩
    | session =>
      rw [htarget] at hrecord
      obtain ⟨r, -, rfl⟩ := List.mem_map.mp hrecord
      exact ⟨fun _ => rfl, fun hcertificate => by cases hcertificate⟩
    | flow =>
      rw [htarget] at hrecord
      obtain ⟨r, -, rfl⟩ := List.mem_map.mp hrecord
      exact ⟨fun _ => rfl, fun hcertificate => by cases hcertificate⟩
  have htype : rule.target.recordType = .certificate ↔ rule.target = .certificate := by
    cases rule.target <;> decide
  refine ⟨hne, fun ref href => (hall ref href).1, ?_, ?_⟩
  · intro ref href hother
    rw [(hall ref href).2]
    exact hkey.1 (mt htype.mpr hother)
  · intro ref href hcertificate
    rw [(hall ref href).2]
    exact hkey.2 (htype.mp hcertificate)

/-- No connection of the evidence has a colon in its name. Without it the part of a key before its
first colon need not be the connection. -/
def PlainUids (document : EvidenceDocument) : Prop :=
  ∀ target, ∀ record ∈ document.batch.recordsForTarget target, ':' ∉ record.uid.toList

section

variable {document : EvidenceDocument} {run : Policy.EvaluationRun} {evaluationTime : Py.Datetime}

theorem exists_connection (h : document.Evaluated run evaluationTime) (huids : PlainUids document)
    {finding : Finding} (hfinding : finding ∈ document.findings) :
    ∃ type uid, finding.OfConnection type uid ∧ ':' ∉ uid.toList := by
  obtain ⟨instant, -, ⟨journal⟩⟩ := Policy.evaluatePolicyBatch_eq_ok h.evaluation
  obtain ⟨e, he, hemitted⟩ := List.mem_filterMap.mp (journal.findings.mem_iff.mp hfinding)
  obtain ⟨-, -, hrecord⟩ := journal.mem_work he
  have habout : finding.About e.1.1 e.1.2 := by
    have hcases := journal.cases he
    cases hcase : e.2 with
    | mk check emitted =>
      rw [hcase] at hcases hemitted
      obtain rfl : emitted = some finding := hemitted
      cases hcases with
      | undecided check finding _ hfinding => exact hfinding
      | failed check finding _ hfinding => exact hfinding
  exact ⟨_, _, ofConnection_of_about habout hrecord, huids _ _ hrecord⟩

/-- The cluster of a prioritized finding is made of findings of the document. -/
theorem exists_members (h : document.Evaluated run evaluationTime)
    {finding : ScoredEndpointFinding}
    (hfinding : finding ∈ document.posture.prioritizedFindings.val) :
    ∃ members, members ≠ [] ∧ (∀ f ∈ members, f ∈ document.findings) ∧
      Findings.clusterFromOrdered run.sha256 members =
        .ok finding.toEndpointFindingCluster := by
  obtain ⟨request, hfindings, -, hscore⟩ := h.posture
  obtain ⟨clusters, hclusters, hposture⟩ := Fallible.bind_eq_ok.mp hscore
  rw [Findings.prioritizedFindings_of_buildPosture hposture] at hfinding
  obtain ⟨cluster, hcluster, rfl⟩ := List.mem_map.mp ((List.mem_insertionSort _).mp hfinding)
  obtain ⟨unsorted, hunsorted, rfl⟩ := Findings.dedupFindings_eq_ok.mp hclusters
  obtain ⟨key, hkey, hmade⟩ :=
    Fallible.exists_of_mem_mapM hunsorted ((List.mem_insertionSort _).mp hcluster)
  refine ⟨Findings.orderedMembers (Findings.membersOf request.findings key), ?_, ?_, hmade⟩
  · obtain ⟨f, hf, hfkey⟩ := Findings.mem_keysOf_iff.mp hkey
    exact List.ne_nil_of_mem
      (Findings.mem_orderedMembers.mpr (Findings.mem_membersOf.mpr ⟨hf, hfkey⟩))
  · intro f hf
    rw [← hfindings]
    exact (Findings.mem_membersOf.mp (Findings.mem_orderedMembers.mp hf)).1

/-- The row looks up the key of the first reference. -/
theorem lineageUid_eq {finding : ScoredEndpointFinding} {first : EvidenceReference}
    {rest : List EvidenceReference} (h : finding.evidenceReferences.val = first :: rest) :
    lineageUid finding = some first.recordKey.val := by
  have htype : first.recordType ∈ lineageTypes := by
    cases first.recordType <;> decide
  have hkey : first.recordKey.val ≠ "" := by
    intro hempty
    have hlength := first.recordKey.property.1
    rw [hempty] at hlength
    exact absurd hlength (by decide)
  simp [lineageUid, h, htype, hkey]

/-- The flow of a connection that exists is shown. -/
theorem flow_shown {finding : ScoredEndpointFinding} {uid : String}
    (huid : lineageUid finding = some uid) (hflow : ∃ flow ∈ document.flows, flow.uid = uid) :
    (lineageRow document finding).flow.isSome = true ∧
      (lineageRow document finding).flowQuality.isSome = true := by
  obtain ⟨flow, hmem, rfl⟩ := hflow
  obtain ⟨shown, -, -, hget⟩ := Py.Dict.exists_get?_ofList Flow.uid hmem
  have hlookup : (flowByUid document).get? flow.uid = some shown := hget
  simp [lineageRow, huid, hlookup]

/-- So is its session, and the protocol if the session has one. -/
theorem session_shown_iff {finding : ScoredEndpointFinding} {uid : String}
    (huid : lineageUid finding = some uid) :
    ((∃ session ∈ document.sessions, session.uid = uid) →
      (lineageRow document finding).sessionProtocol.isSome = true ∧
        (lineageRow document finding).sessionState.isSome = true) ↔
    ∀ session, document.batch.sessionOf uid = some session → session.protocol.isSome = true := by
  have hrow : ∀ session, document.batch.sessionOf uid = some session →
      (lineageRow document finding).sessionProtocol = session.protocol ∧
        (lineageRow document finding).sessionState = some session.evidenceState := by
    intro session hsession
    have hlookup : (sessionByUid document).get? uid = some session := hsession
    simp [lineageRow, huid, hlookup]
  constructor
  · intro h session hsession
    obtain ⟨session', hmem, hkey, -⟩ := Py.Dict.mem_of_get?_ofList hsession
    have hshown := (h ⟨session', hmem, hkey⟩).1
    rwa [(hrow session hsession).1] at hshown
  · rintro h ⟨session, hmem, rfl⟩
    obtain ⟨shown, -, -, hget⟩ := Py.Dict.exists_get?_ofList EmailSession.uid hmem
    obtain ⟨hprotocol, hstate⟩ := hrow shown hget
    rw [hprotocol, hstate]
    exact ⟨h shown hget, rfl⟩

/-- **The row of a finding is that of a connection of the finding exactly when the finding has no
certificate and the session found has a protocol.** -/
theorem lineage_agrees_iff (h : document.Evaluated run evaluationTime)
    (huids : PlainUids document) {finding : ScoredEndpointFinding}
    (hfinding : finding ∈ document.posture.prioritizedFindings.val) :
    LineageAgrees document finding ↔ Linkable document finding := by
  obtain ⟨members, hne, hmembers, hcluster⟩ := exists_members h hfinding
  have hconnections : ∀ f ∈ members, ∃ type uid, f.OfConnection type uid ∧ ':' ∉ uid.toList :=
    fun f hf => exists_connection h huids (hmembers f hf)
  obtain ⟨first, rest, hrefs, hmem⟩ :=
    Findings.firstKey_mem_sessionUids_iff hne hconnections hcluster
  have huid := lineageUid_eq hrefs
  have hsession := @session_shown_iff document _ _ huid
  have hhead : finding.evidenceReferences.val.head? = some first := by
    rw [hrefs]
    rfl
  constructor
  · rintro ⟨uid, huid', hrecorded, -, hshown⟩
    obtain rfl : first.recordKey.val = uid := Option.some.inj (huid.symm.trans huid')
    refine ⟨hmem.mp hrecorded, ?_⟩
    intro ref href
    obtain rfl : first = ref := Option.some.inj (hhead.symm.trans href)
    exact hsession.mp hshown
  · rintro ⟨hnone, hprotocol⟩
    exact ⟨first.recordKey.val, huid, hmem.mpr hnone, flow_shown huid,
      hsession.mpr (hprotocol first hhead)⟩

end

/-! ## A handshake and a certificate of one connection -/

/-- `CERT_RSA_KEY_LT2048`, from the first of November 2022. -/
def rsaKeyRule : Policy.PolicyRule :=
  { id := ⟨"CERT_RSA_KEY_LT2048", by decide⟩
    target := .certificate
    effectiveFrom := 738459
    «where» :=
      [{ path := "certificate.role", operator := .eq, value := .str "server" },
       { path := "certificate.chain_index", operator := .eq, value := .int 0 },
       { path := "certificate.public_key_algorithm", operator := .eq, value := .str "RSA" }]
    assertion :=
      [{ path := "certificate.public_key_size", operator := .gte, value := .int 2048 }]
    severity := { negative := .high }
    title := ⟨"RSA authentication key shorter than 2048 bits", by decide⟩
    rationale :=
      ⟨"RSA certificates used to authenticate TLS MUST use a modulus of at least 2048 bits.",
        by decide +kernel⟩
    standards := ["RFC 9325 §4.5"]
    remediationId := ⟨"pki.rsa_2048", by decide⟩ }

/-- The digest that a certificate of the connection below is stored under. -/
def shortKeyDigest : Sha256Hex :=
  ⟨"0000000000000000000000000000000000000000000000000000000000000000", by decide +kernel⟩

/-- The SHA-256 of the id texts of the two rules and of their clusters, which differ in length. -/
def lineageSha256 (text : String) : Sha256Hex :=
  match text.length with
  | 183 => ⟨"b4b932e8736870992f8a2f5945181a0264f931b5662eed92fe22ccaa701e895d", by decide +kernel⟩
  | 184 => ⟨"9d089ca30a6ef7fe8e0cbbc45234ff6480d81163aef2df2aa9bd5af43a24f1be", by decide +kernel⟩
  | 260 => ⟨"5bca5bd3373aec2fd8d00161e3fbfba80f53a8025bb97b0b4831f383f9634570", by decide +kernel⟩
  | 256 => ⟨"8572f2cf95db0f51af459ccd2d55eee0dedea43aa306b08e072a8fef945b4482", by decide +kernel⟩
  | 185 => Policy.negativeDigest
  | _ => Policy.failDigest

theorem lineageRules_roles_known : ∀ rule ∈ [Policy.tls10Rule, rsaKeyRule], ∀ role ∈ rule.roles,
    role ∈ Policy.tls10Pack.roles.map fun r => r.id.val := by
  simp [Policy.tls10Rule, rsaKeyRule]

def lineageRun : Policy.EvaluationRun :=
  { Policy.tls10Run with
    sha256 := lineageSha256
    pack := { Policy.tls10Pack with
      rules := [Policy.tls10Rule, rsaKeyRule]
      rules_bounds := by decide
      unique_rules := by decide
      known_roles := lineageRules_roles_known } }

/-- TLS 1.0 to a mail server with a short key. -/
def lineageBatch : Policy.EvidenceBatch where
  flows := [Flow.toPort "C1" 25]
  sessions := [{ uid := "C1", protocol := some .smtp, portHint := .smtp, payloadEvidence := .smtp,
                 evidenceState := .observed }]
  handshakes := [Policy.negotiated "TLSv10" .observed]
  certificates := [{ derSha256 := shortKeyDigest, uid := "C1", chainIndex := 0, role := .server,
                     syntaxValid := true, publicKeyAlgorithm := some "RSA",
                     publicKeySize := some 1024, evidenceState := .observed }]

@[irreducible] def lineageEvaluation : Policy.PolicyEvaluation :=
  (lineageRun.evaluatePolicyBatch Policy.analysisTime lineageBatch).toOption.getD {}

theorem lengths_lineageEvaluation :
    (lineageRun.evaluatePolicyBatch Policy.analysisTime lineageBatch).toOption.map
      (fun evaluation => (evaluation.findings.length, evaluation.checks.length)) = some (2, 2) := by
  decide +kernel

theorem lineageEvaluation_eq :
    lineageRun.evaluatePolicyBatch Policy.analysisTime lineageBatch = .ok lineageEvaluation ∧
      lineageEvaluation.findings.length = 2 ∧ lineageEvaluation.checks.length = 2 := by
  have hlengths := lengths_lineageEvaluation
  unfold lineageEvaluation
  cases hrun : lineageRun.evaluatePolicyBatch Policy.analysisTime lineageBatch with
  | error e =>
    rw [hrun] at hlengths
    cases hlengths
  | ok evaluation =>
    rw [hrun] at hlengths
    have hpair := Option.some.inj hlengths
    exact ⟨rfl, congrArg Prod.fst hpair, congrArg Prod.snd hpair⟩

def lineageRequest : Findings.ScoreRequest where
  findings := lineageEvaluation.findings
  findings_le := by rw [lineageEvaluation_eq.2.1]; decide
  policyChecks := lineageEvaluation.checks
  policyChecks_le := by rw [lineageEvaluation_eq.2.2]; decide
  assetContext_le := Findings.noAssetContext_le

@[irreducible] def lineagePosture : Findings.PostureAssessment :=
  (Findings.scoreFindings lineageSha256 lineageRequest).toOption.getD
    Findings.emptyPostureAssessment

def lineageDocument : EvidenceDocument where
  runIdentity := {
    captureSha256 := shortKeyDigest, analyzerBundleDigest := shortKeyDigest,
    configurationDigest := shortKeyDigest, analysisTime := Policy.analysisTime,
    policyProfile := .ietfCurrent, policyPackVersion := shortKeyDigest }
  capturePreflight := { truncatedPacketsPresent := false }
  flows := lineageBatch.flows
  sessions := lineageBatch.sessions
  handshakes := lineageBatch.handshakes
  certificates := lineageBatch.certificates
  findings := lineageEvaluation.findings
  policyChecks := lineageEvaluation.checks
  policyChecks_le := by rw [lineageEvaluation_eq.2.2]; decide
  posture := lineagePosture

/-- What the two rows are made of: the rule, the types of the occurrences, the key that is looked up
and the connections recorded. -/
def linkage (finding : ScoredEndpointFinding) :
    String × List EvidenceRecordType × Option String × List String :=
  (finding.code.val, finding.contributingOccurrences.val.map (·.recordType), lineageUid finding,
    sessionUids finding.toEndpointFindingCluster)

theorem linkages_of_score :
    (Findings.scoreFindings lineageSha256 lineageRequest).toOption.map
        (fun posture => posture.prioritizedFindings.val.map linkage) =
      some [("CERT_RSA_KEY_LT2048", [.certificate],
          some "C1:server:0:0000000000000000000000000000000000000000000000000000000000000000",
          ["C1"]),
        ("TLS_NEGOTIATED_TLS10", [.handshake], some "C1", ["C1"])] := by
  decide +kernel

theorem lineagePosture_eq :
    Findings.scoreFindings lineageSha256 lineageRequest = .ok lineagePosture ∧
      lineagePosture.prioritizedFindings.val.map linkage =
        [("CERT_RSA_KEY_LT2048", [.certificate],
          some "C1:server:0:0000000000000000000000000000000000000000000000000000000000000000",
          ["C1"]),
        ("TLS_NEGOTIATED_TLS10", [.handshake], some "C1", ["C1"])] := by
  have hlinkages := linkages_of_score
  unfold lineagePosture
  cases hrun : Findings.scoreFindings lineageSha256 lineageRequest with
  | error e =>
    rw [hrun] at hlinkages
    cases hlinkages
  | ok posture =>
    rw [hrun] at hlinkages
    exact ⟨rfl, Option.some.inj hlinkages⟩

theorem evaluated_lineageDocument :
    lineageDocument.Evaluated lineageRun Policy.analysisTime where
  evaluation := lineageEvaluation_eq.1
  posture := ⟨lineageRequest, rfl, rfl, lineagePosture_eq.1⟩

theorem plainUids_lineageDocument : PlainUids lineageDocument := by
  intro target
  cases target <;> decide

/-- The row of the handshake agrees. -/
theorem lineage_agrees_tls10 :
    ∃ finding ∈ lineageDocument.posture.prioritizedFindings.val,
      finding.code.val = "TLS_NEGOTIATED_TLS10" ∧ LineageAgrees lineageDocument finding := by
  have hmem : ("TLS_NEGOTIATED_TLS10", [EvidenceRecordType.handshake], some "C1", ["C1"]) ∈
      lineagePosture.prioritizedFindings.val.map linkage := by
    rw [lineagePosture_eq.2]
    exact List.mem_cons_of_mem _ List.mem_cons_self
  obtain ⟨finding, hfinding, hlinkage⟩ := List.mem_map.mp hmem
  obtain ⟨hcode, hlinkage⟩ := Prod.mk.inj hlinkage
  obtain ⟨htypes, -⟩ := Prod.mk.inj hlinkage
  refine ⟨finding, hfinding, hcode,
    (lineage_agrees_iff evaluated_lineageDocument plainUids_lineageDocument hfinding).mpr
      ⟨?_, ?_⟩⟩
  · intro occurrence hoccurrence hcertificate
    have htype : occurrence.recordType ∈ finding.contributingOccurrences.val.map (·.recordType) :=
      List.mem_map_of_mem hoccurrence
    rw [htypes, hcertificate, List.mem_singleton] at htype
    cases htype
  · intro ref _ session hsession
    obtain ⟨session', hmem, -, rfl⟩ := Py.Dict.mem_of_get?_ofList hsession
    obtain rfl := List.mem_singleton.mp hmem
    rfl

/-- The row of the certificate looks up a connection that the finding does not have. -/
theorem lineage_differs_short_key :
    ∃ finding ∈ lineageDocument.posture.prioritizedFindings.val,
      finding.code.val = "CERT_RSA_KEY_LT2048" ∧
      sessionUids finding.toEndpointFindingCluster = ["C1"] ∧
      (∃ flow ∈ lineageDocument.flows, flow.uid = "C1") ∧
      (lineageRow lineageDocument finding).flow = none ∧
      ¬ LineageAgrees lineageDocument finding := by
  have hmem : ("CERT_RSA_KEY_LT2048", [EvidenceRecordType.certificate],
      some "C1:server:0:0000000000000000000000000000000000000000000000000000000000000000",
      ["C1"]) ∈ lineagePosture.prioritizedFindings.val.map linkage := by
    rw [lineagePosture_eq.2]
    exact List.mem_cons_self
  obtain ⟨finding, hfinding, hlinkage⟩ := List.mem_map.mp hmem
  obtain ⟨hcode, hlinkage⟩ := Prod.mk.inj hlinkage
  obtain ⟨-, hlinkage⟩ := Prod.mk.inj hlinkage
  obtain ⟨huid, hrecorded⟩ := Prod.mk.inj hlinkage
  refine ⟨finding, hfinding, hcode, hrecorded, ⟨Flow.toPort "C1" 25, List.mem_cons_self, rfl⟩,
    ?_, ?_⟩
  · simp only [lineageRow, huid, Option.bind_some]
    decide +kernel
  · rintro ⟨uid, huid', hrecordedUid, -⟩
    rw [hrecorded, List.mem_singleton] at hrecordedUid
    rw [huid', hrecordedUid] at huid
    exact absurd (Option.some.inj huid) (by decide)

end Reports
end SecureMail
