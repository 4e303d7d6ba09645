import SecureMail.Jobs.Identifier
import SecureMail.Ml.Baselines
import SecureMail.Policy.Context

/-!
# The advisory pipeline

A capture becomes one window per responder. The windows are scored together with the stored history,
on the day after the last day of the history, and what is above the threshold on that day is listed
in the advisory section of the report.

Nothing in it judges: the section names windows and their scores and leaves the findings alone. The
days matter, because they are what the past-only rule is about. A capture has no date of its own
here, only its turn, so the day of its windows is one after the last of the history, and all windows
of one capture share it. The store, the scorers and the hash are parameters.
-/

namespace SecureMail
namespace Ml

open Py Policy
open Tls (assessForwardSecrecy)

variable {F : Type} [FloatOps F]

/-! ## Windows of a capture -/

/-- `_role_for`. The port comes before the protocol here, and so a role is no identification of the
protocol. -/
def roleFor (session : EmailSession) (flow : Option Flow) : ProtocolRole :=
  match flow.map (·.resp.port.val) with
  | some 25 => .smtpMx
  | some 465 | some 587 => .smtpSubmission
  | some 143 | some 993 => .imapAccess
  | some 110 | some 995 => .pop3Access
  | _ =>
    match session.protocol with
    | some .smtp => .smtpMx
    | some .imap => .imapAccess
    | some .pop3 => .pop3Access
    | none => .smtpMx

/-- `_opaque_issuer`. -/
def opaqueIssuer (sha256 : String → Jobs.Digest) (raw : Option String) : String :=
  match raw with
  | none => "iss_unknown"
  | some raw => if raw = "" then "iss_unknown" else "iss_" ++ takeChars 12 (sha256 raw).text

/-- `_mean` of `marked` ones among `total` values. -/
def meanOf (marked total : Nat) : F :=
  let values : List F := List.replicate marked 1.0 ++ List.replicate (total - marked) 0.0
  if values.isEmpty then 0.0 else FloatOps.sum values / FloatOps.ofNat values.length

/-- A session with the flow and the handshake of its connection. -/
abbrev Row := EmailSession × Option Flow × Option TlsHandshake

/-- The name of the window a session belongs to. -/
def endpointOf (session : EmailSession) (flow : Option Flow) : String :=
  match flow with
  | some flow => s!"{flow.resp.host}:{flow.resp.port.val}"
  | none => s!"session:{session.uid}"

/-- The sessions of a capture by endpoint, in order of the endpoints' names. -/
def groupedRows (document : EvidenceBatch) : List (String × List Row) :=
  let flows := Dict.ofList (·.uid) id document.flows
  let handshakes := Dict.ofList (·.uid) id document.handshakes
  let rows := document.sessions.map fun session =>
    (session, flows.get? session.uid, handshakes.get? session.uid)
  (Dict.groupBy (fun row : Row => endpointOf row.1 row.2.1) rows).entries.insertionSort
    (SortKey.Before (compareOn (·.1)))

/-- The issuers of the leaf certificates that the servers of the rows sent. -/
def issuersOf (sha256 : String → Jobs.Digest) (document : EvidenceBatch) (rows : List Row) :
    List String :=
  let certificates := Dict.groupBy (·.uid) document.certificates
  (rows.filter (·.2.2.isSome)).filterMap fun row =>
    let leaves := ((certificates.get? row.1.uid).getD []).filter fun cert =>
      cert.chainIndex = 0 && cert.role = .server
    leaves.head?.map fun leaf => opaqueIssuer sha256 leaf.issuer

/-- A rate is a number from 0 to 1. -/
def isRate (x : F) : Bool := FloatOps.le 0.0 x && FloatOps.le x 1.0

def rateFields (window : EndpointWindow F) : List (String × F) :=
  NumericFeature.all.map fun feature => (feature.name, window.numeric feature)

/-- The checks of `EndpointWindow`. -/
def EndpointWindow.validate (window : EndpointWindow F) : Except AdvisoryError (EndpointWindow F) :=
  if window.endpointId.length = 0 ∨ 160 < window.endpointId.length then
    .error (.validation "EndpointWindow" "endpoint_id")
  else if window.siteId.length = 0 ∨ 64 < window.siteId.length then
    .error (.validation "EndpointWindow" "site_id")
  else
    match (rateFields window).find? fun rate => !isRate rate.2 with
    | some rate => .error (.validation "EndpointWindow" rate.1)
    | none =>
      if window.dominantTlsVersion.length = 0 ∨ 32 < window.dominantTlsVersion.length then
        .error (.validation "EndpointWindow" "dominant_tls_version")
      else if window.issuerId.length = 0 ∨ 64 < window.issuerId.length then
        .error (.validation "EndpointWindow" "issuer_id")
      else .ok window

/-- The window of one endpoint: the body of the loop of `extract_endpoint_windows`. -/
def windowOf (sha256 : String → Jobs.Digest) (document : EvidenceBatch) (endpointId : String)
    (rows : List Row) : EndpointWindow F :=
  let flows := rows.filterMap (·.2.1)
  let upgrades := rows.filterMap fun row => row.1.explicitUpgrade.bind (·.state)
  let handshakes := rows.filterMap (·.2.2)
  let versions := (handshakes.filterMap (·.version.selected)).filter truthy
  let tls13 := versions.countP (· = "TLSv13")
  let tls12 := versions.countP (· = "TLSv12")
  let tls10 := versions.countP fun version => ["TLSv10", "TLSv11", "SSLv3"].contains version
  let issuers := issuersOf sha256 document rows
  let incomplete := flows.countP (·.reconstructionQuality = .incomplete)
  let incompleteRate : F := meanOf incomplete flows.length
  let ofHandshakes := fun (p : TlsHandshake → Bool) => (meanOf (handshakes.countP p) handshakes.length : F)
  { endpointId := endpointId
    siteId := "capture"
    protocolRole := (rows.getLast?.map fun row => roleFor row.1 row.2.1).getD .smtpMx
    dayIndex := 0
    sessionCount := rows.length
    tls13Share := meanOf tls13 versions.length
    tls12Share := meanOf tls12 versions.length
    tls10Share := meanOf tls10 versions.length
    handshakeFailureRate := ofHandshakes fun handshake => !handshake.established
    alertRate := ofHandshakes fun handshake => (handshake.lastAlert.map truthy).getD false
    starttlsSuccessRate := meanOf
      (upgrades.countP fun state => state = .tlsEstablished || state = .accepted) upgrades.length
    starttlsFallbackRate := meanOf (upgrades.countP (· = .plaintextFallback)) upgrades.length
    forwardSecrecyPresentRate := ofHandshakes fun handshake =>
      (assessForwardSecrecy handshake).outcome = .present
    certificateChurnRate := if issuers.dedup.length ≤ 1 then 0.0 else 1.0
    incompleteReconstructionRate := incompleteRate
    notObservableRate := ofHandshakes fun handshake =>
      handshake.serverCertificateState = .notObservable
    dominantTlsVersion :=
      if versions.length = 0 then "TLSv13"
      else if tls13 ≤ tls10 && tls12 ≤ tls10 then "TLSv10"
      else if tls13 < tls12 then "TLSv12"
      else "TLSv13"
    issuerId := issuers.headD "iss_unknown"
    inMaintenance := false
    isNewEndpoint := true
    captureQualityOk := FloatOps.le incompleteRate incompleteRateGate }

/-- `extract_endpoint_windows`. -/
def extractEndpointWindows (sha256 : String → Jobs.Digest) (document : EvidenceBatch) :
    Except AdvisoryError (List (EndpointWindow F)) :=
  (groupedRows document).mapM fun group => (windowOf sha256 document group.1 group.2).validate

/-- `_assign_day_index`. -/
def assignDayIndex (windows : List (EndpointWindow F)) (dayIndex : Nat) : List (EndpointWindow F) :=
  windows.map fun window =>
    { window with dayIndex := dayIndex, siteId := "local", isNewEndpoint := dayIndex == 0 }

/-! ## The advisory section -/

structure AdvisoryItem where
  code : String
  reason : String
deriving DecidableEq, Repr

/-- `AdvisorySection`, with what its validator checks. -/
structure AdvisorySection where
  present : Bool
  items : List AdvisoryItem
  items_of_present : present = !items.isEmpty
  bounded : items.length ≤ 256
deriving DecidableEq

/-- A section that lists up to 256 items, of which there is one. -/
def AdvisorySection.listing (items : List AdvisoryItem) (h : items ≠ []) : AdvisorySection where
  present := true
  items := items.take 256
  items_of_present := by
    cases items with
    | nil => exact absurd rfl h
    | cons item rest => rfl
  bounded := by
    rw [List.length_take]
    exact Nat.min_le_left _ _

/-- `_CODE_FOR_FEATURE`. -/
def codeForFeature : String → Option String
  | "tls10_share" | "tls12_share" | "tls13_share" | "dominant_tls_version" =>
    some "ADVISORY_TLS_VERSION_SHIFT"
  | "handshake_failure_rate" => some "ADVISORY_HANDSHAKE_FAILURE_RATE"
  | "alert_rate" => some "ADVISORY_ALERT_RATE"
  | "starttls_fallback_rate" | "starttls_success_rate" => some "ADVISORY_STARTTLS_FALLBACK_RATE"
  | "forward_secrecy_present_rate" => some "ADVISORY_FORWARD_SECRECY_RATE"
  | "issuer_id" | "certificate_churn_rate" => some "ADVISORY_CERTIFICATE_ISSUER"
  | _ => none

/-- `_code_for`. A deviation of several features at once has a code of its own, for the one detector
that can see it. -/
def codeFor (score : WindowScore F) : String :=
  match score.contributions with
  | [] => "ADVISORY_MULTIVARIATE_DEVIATION"
  | first :: rest =>
    if score.detector = "isolation_forest" && !rest.isEmpty then "ADVISORY_MULTIVARIATE_DEVIATION"
    else (codeForFeature first.feature).getD "ADVISORY_MULTIVARIATE_DEVIATION"

/-- `(-item.score, item.endpoint_id, item.day_index)` comes strictly first. -/
def scoreBefore (a b : WindowScore F) : Bool :=
  if FloatOps.beq (-a.score) (-b.score) then
    if a.endpointId = b.endpointId then decide (a.dayIndex < b.dayIndex)
    else decide (a.endpointId < b.endpointId)
  else FloatOps.lt (-a.score) (-b.score)

/-- `anomalies_from_scores`, up to the item that the section lists for each anomaly: of the scores of
one endpoint and detector the highest. -/
def anomaliesFromScores (scores : List (WindowScore F)) : List AdvisoryItem :=
  let flagged := scores.filter fun item =>
    item.aboveThreshold && !item.suppressed && item.skipReason.isNone
  let ordered := flagged.insertionSort fun a b => scoreBefore b a = false
  let first := Dict.groupBy (fun item => s!"{item.endpointId}:{item.detector}") ordered
  first.entries.filterMap fun group => group.2.head?.map fun item => ⟨codeFor item, item.reason⟩

def advisoryNone : AdvisoryItem where
  code := "ADVISORY_NONE"
  reason := "Advisory scoring ran; no endpoint-window deviation met the review threshold. " ++
    "Deterministic findings are unchanged. field session.uid."

def isolationForestMinTrainWindows : Nat := 40

def insufficientHistory (historyCount : Nat) : AdvisoryItem where
  code := "ADVISORY_INSUFFICIENT_HISTORY"
  reason := s!"Local ML history has {historyCount} endpoint-windows; baseline needs " ++
    s!"{minHistoryWindows} and Isolation Forest needs {isolationForestMinTrainWindows}. " ++
    "Deterministic findings are unchanged. field session.uid."

def forestWarming (historyCount : Nat) : AdvisoryItem where
  code := "ADVISORY_INSUFFICIENT_HISTORY"
  reason := s!"Isolation Forest needs {isolationForestMinTrainWindows} training windows; " ++
    s!"{historyCount} are stored. Baseline scoring ran. Deterministic findings are unchanged. " ++
    "field session.uid."

/-- `advisory_section_for_history`. A section with no anomaly still has an item, which says that
there was none. -/
def advisorySectionForHistory (historyCount : Nat) (currentScores : List (WindowScore F)) :
    AdvisorySection :=
  if historyCount < minHistoryWindows then .listing [insufficientHistory historyCount] (by simp)
  else
    let warming := if historyCount < isolationForestMinTrainWindows then [forestWarming historyCount] else []
    let items := warming ++ anomaliesFromScores currentScores
    if h : items = [] then .listing [advisoryNone] (by simp) else .listing items h

/-! ## The pipeline -/

/-- `score_windows`: the scores of all scorers, one after the other. -/
def scoreWindows (windows : List (EndpointWindow F)) (scorers : List (AnomalyScorer F)) :
    Except AdvisoryError (List (WindowScore F)) := do
  let scores ← scorers.mapM fun scorer => scorer windows
  return scores.flatten

/-- The day of a new capture. -/
def nextDay (history : List (EndpointWindow F)) : Nat :=
  match (history.map (·.dayIndex)).max? with
  | none => 0
  | some last => last + 1

/-- `attach_advisories_with_history`: the section, and the windows to append to the history. -/
def attachAdvisoriesWithHistory (sha256 : String → Jobs.Digest) (scorers : List (AnomalyScorer F))
    (history : List (EndpointWindow F)) (document : EvidenceBatch) :
    Except AdvisoryError (AdvisorySection × List (EndpointWindow F)) := do
  let extracted ← extractEndpointWindows sha256 document
  let current := assignDayIndex extracted (nextDay history)
  let scores ← scoreWindows (history ++ current) scorers
  let currentScores := scores.filter (·.dayIndex = nextDay history)
  return (advisorySectionForHistory history.length currentScores, current)

end Ml
end SecureMail
