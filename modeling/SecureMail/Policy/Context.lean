import SecureMail.Policy.Predicate
import SecureMail.Evidence.Session
import SecureMail.Tls.ForwardSecrecy
import SecureMail.Py.Dict
import Mathlib.Data.List.Sort

/-!
# The context of a record

Whatever its target, a rule sees a record together with everything else of its connection. The
record itself stands in the tree where the target is a handshake or a certificate. A flow or a
session is looked up again by its uid, so of two with one uid both are judged by the later one.

A record is dumped with the fields a path can reach. Dumping a certificate can fail, because its
validity dates are brought to UTC on the way.

The order of the keys in a dump does not matter, since a path names them one by one, and fields that
no allowed path reaches are left out of it. The derived facts are computed here as in the source:
the role of the service, the verdict on forward secrecy, whether the transport is encrypted, and the
commands of the session. They are the only part of the tree that is not a record, and the only part
in which a path finds a list.
-/

namespace SecureMail
namespace Policy

open Py (Val Dict upper)
open Tls (assessForwardSecrecy)

/-- The four sequences one evaluation is about. -/
structure EvidenceBatch where
  flows : List Flow := []
  sessions : List EmailSession := []
  handshakes : List TlsHandshake := []
  certificates : List CertificateEvidence := []

inductive PolicyRecord where
  | flow (record : Flow)
  | session (record : EmailSession)
  | handshake (record : TlsHandshake)
  | certificate (record : CertificateEvidence)

def PolicyRecord.uid : PolicyRecord → String
  | .flow record => record.uid
  | .session record => record.uid
  | .handshake record => record.uid
  | .certificate record => record.uid

/-- The record's own evidence state. -/
def PolicyRecord.evidenceState : PolicyRecord → EvidenceState
  | .flow record => record.evidenceState
  | .session record => record.evidenceState
  | .handshake record => record.evidenceState
  | .certificate record => record.evidenceState

/-- `_records_for_target`. -/
def EvidenceBatch.recordsForTarget (batch : EvidenceBatch) : PolicyTarget → List PolicyRecord
  | .handshake => batch.handshakes.map .handshake
  | .session => batch.sessions.map .session
  | .certificate => batch.certificates.map .certificate
  | .flow => batch.flows.map .flow

/-! ## `model_dump(mode="json")` -/

/-- The dump of an optional field. -/
def dumpOption {α : Type} (dump : α → Val) : Option α → Val
  | none => .none
  | some a => dump a

def dumpState (state : EvidenceState) : String × Val := ("evidence_state", .str state.value)

def dumpEndpoint (endpoint : FlowEndpoint) : Val :=
  .dict [("host", .str endpoint.host), ("port", .int endpoint.port.val)]

def dumpFlow (flow : Flow) : Val :=
  .dict [("uid", .str flow.uid), ("orig", dumpEndpoint flow.orig), ("resp", dumpEndpoint flow.resp),
    dumpState flow.evidenceState]

def dumpSession (session : EmailSession) : Val :=
  .dict [("uid", .str session.uid),
    ("protocol", dumpOption (fun p : MailProtocol => .str p.value) session.protocol),
    dumpState session.evidenceState,
    ("explicit_upgrade", dumpOption (fun upgrade : ExplicitUpgrade =>
      .dict [("state", dumpOption (fun s : UpgradeState => .str s.value) upgrade.state),
        dumpState upgrade.evidenceState]) session.explicitUpgrade),
    ("implicit_tls", dumpOption (fun tls : ImplicitTls =>
      .dict [("correlated_protocol",
          dumpOption (fun p : MailProtocol => .str p.value) tls.correlatedProtocol),
        dumpState tls.evidenceState]) session.implicitTls)]

def dumpHandshake (handshake : TlsHandshake) : Val :=
  .dict [("uid", .str handshake.uid), ("established", .bool handshake.established),
    ("resumed", .bool handshake.resumed), ("visibility", .str handshake.visibility.value),
    ("version", .dict [("selected", dumpOption .str handshake.version.selected),
      dumpState handshake.version.evidenceState]),
    ("cipher_suite", .dict [("name", dumpOption .str handshake.cipherSuite.name),
      ("code", dumpOption .str handshake.cipherSuite.code),
      dumpState handshake.cipherSuite.evidenceState]),
    ("key_exchange", .dict [("mechanism", dumpOption .str handshake.keyExchange.mechanism),
      dumpState handshake.keyExchange.evidenceState,
      ("dh_param_size", dumpOption (fun n : Nat => .int n) handshake.keyExchange.dhParamSize)]),
    ("certificate_verify_signature",
      .dict [("algorithm", dumpOption .str handshake.certificateVerifySignature.algorithm),
        dumpState handshake.certificateVerifySignature.evidenceState]),
    dumpState handshake.evidenceState]

/-- The field serializer of a date, which raises where its UTC is out of range. -/
def serializable (date : Option Py.Datetime) : Bool := date.all fun t => t.asUtc?.isSome

def dumpValidation (validation : CertificateValidation) : Val :=
  .dict [("path_valid_at_capture_time", dumpOption .bool validation.pathValidAtCaptureTime),
    ("path_valid_at_analysis_time", dumpOption .bool validation.pathValidAtAnalysisTime),
    ("identity_match", dumpOption .bool validation.identityMatch)]

def dumpCertificate (certificate : CertificateEvidence) : Result Val :=
  if serializable certificate.notBefore && serializable certificate.notAfter then
    pure (.dict [("der_sha256", .str certificate.derSha256.val), ("uid", .str certificate.uid),
      ("chain_index", .int certificate.chainIndex), ("role", .str certificate.role.value),
      ("valid_at_capture_time", dumpOption .bool certificate.validAtCaptureTime),
      ("valid_at_analysis_time", dumpOption .bool certificate.validAtAnalysisTime),
      ("public_key_algorithm", dumpOption .str certificate.publicKeyAlgorithm),
      ("public_key_size", dumpOption .int certificate.publicKeySize),
      ("public_key_curve", dumpOption .str certificate.publicKeyCurve),
      ("effective_strength_bits", dumpOption .int certificate.effectiveStrengthBits),
      ("signature_algorithm", dumpOption .str certificate.signatureAlgorithm),
      dumpState certificate.evidenceState,
      ("validation", dumpOption dumpValidation certificate.validation)])
  else throw .valueError

/-! ## Derived facts -/

/-- `_service_role`. The roles are those of the pack, and each is a list of predicates over the flow
and the session alone. -/
def serviceRole (pack : PolicyPack) (flow : Option Flow) (session : Option EmailSession) :
    Result String :=
  match session, flow with
  | some session, some flow => do
      let context : Context :=
        [("flow", dumpFlow flow), ("session", dumpSession session), ("handshake", .none),
         ("certificate", .none), ("derived", .dict [])]
      let matched ← pack.roles.filterM fun role => do
        pure ((← evalPredicates role.all context) = .pass)
      match matched with
      | [] => pure "unclassified"
      | [role] => pure role.id.val
      | _ => pure "indeterminate"
  | _, _ => pure "unclassified"

/-- The commands of a session, in upper case. -/
def observedCommands (session : EmailSession) : List String :=
  (session.events.filterMap (·.command)).filter Py.truthy |>.map upper

/-- `transport_tls_established`. -/
def transportTlsEstablished (session : Option EmailSession) (handshake : Option TlsHandshake) :
    Bool :=
  handshake.any (·.established) ||
    (session.bind (·.explicitUpgrade)).any fun upgrade => upgrade.state = some .tlsEstablished

/-- `_derived`. They are computed for each record anew, of what the context has of its connection.
-/
def derived (pack : PolicyPack) (flow : Option Flow) (session : Option EmailSession)
    (handshake : Option TlsHandshake) : Result Val := do
  let role ← serviceRole pack flow session
  pure (.dict [("service_role", .str role),
    ("forward_secrecy", dumpOption (fun h : TlsHandshake =>
      let fs := assessForwardSecrecy h
      .dict [("outcome", .str fs.outcome.value), dumpState fs.evidenceState]) handshake),
    ("observed_commands", .list ((session.map observedCommands).getD [] |>.map .str)),
    ("transport_tls_established", .bool (transportTlsEstablished session handshake))])

/-! ## The tables of a batch -/

/-- `_leaf_certificate`: of the server's leaves the one with the least digest. -/
def leafCertificate (certificates : List CertificateEvidence) : Option CertificateEvidence :=
  ((certificates.filter fun c => c.chainIndex = 0 ∧ c.role = .server).insertionSort
    fun a b => a.derSha256.val ≤ b.derSha256.val).head?

/-- The later of two flows with one uid. -/
def EvidenceBatch.flowOf (batch : EvidenceBatch) (uid : String) : Option Flow :=
  (Dict.ofList Flow.uid id batch.flows).get? uid

def EvidenceBatch.sessionOf (batch : EvidenceBatch) (uid : String) : Option EmailSession :=
  (Dict.ofList EmailSession.uid id batch.sessions).get? uid

/-- The first of two handshakes with one uid: the table is filled by `setdefault`. -/
def EvidenceBatch.handshakeOf (batch : EvidenceBatch) (uid : String) : Option TlsHandshake :=
  batch.handshakes.find? (·.uid = uid)

def EvidenceBatch.leafOf (batch : EvidenceBatch) (uid : String) : Option CertificateEvidence :=
  leafCertificate (batch.certificates.filter (·.uid = uid))

/-- `_build_context`. Where the target is neither a handshake nor a certificate, these too are
looked up by the connection. -/
def buildContext (pack : PolicyPack) (batch : EvidenceBatch) (record : PolicyRecord) :
    Result Context := do
  let uid := record.uid
  let flow := batch.flowOf uid
  let session := batch.sessionOf uid
  let handshake :=
    match record with
    | .handshake handshake => some handshake
    | _ => batch.handshakeOf uid
  let certificate :=
    match record with
    | .certificate certificate => some certificate
    | _ => batch.leafOf uid
  let derivedFacts ← derived pack flow session handshake
  let certificateFacts ← certificate.mapM dumpCertificate
  pure [("flow", dumpOption dumpFlow flow), ("session", dumpOption dumpSession session),
    ("handshake", dumpOption dumpHandshake handshake), ("certificate", certificateFacts.getD .none),
    ("derived", derivedFacts)]

end Policy
end SecureMail
