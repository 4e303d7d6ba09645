import Mathlib.Algebra.Order.Ring.Abs
import Mathlib.Algebra.Order.Ring.Rat
import Mathlib.Data.List.Sort
import Mathlib.Data.Rat.Defs
import SecureMail.Evidence.Run

/-!
# Endpoint windows

An endpoint and a day: rates of what its sessions did, and two categories. The rates are floats, and
nothing in this development depends on how floats are added or divided, so the arithmetic is a
parameter: the operations of `FloatOps`, whatever they are.

The parameter is a class, so that the expressions of the source keep their form. An instance need
not satisfy any law. The doubles of Python are one, with sums that depend on the order of the
addends, and so are the rational numbers, which the examples of this development compute with. The
names of the features are an enumeration, since the source reads a field of a window by the name of
a feature.
-/

namespace SecureMail
namespace Ml

/-- The operations on `float` that the scorers use. `sum` and `repr` are the built-ins, `log` is
`math.log` and `fixed4` is the format `.4f`. -/
class FloatOps (F : Type) extends Add F, Sub F, Mul F, Div F, Neg F, OfScientific F where
  ofNat : Nat → F
  abs : F → F
  log : F → F
  lt : F → F → Bool
  beq : F → F → Bool
  sum : List F → F
  repr : F → String
  fixed4 : F → String

namespace FloatOps

variable {F : Type} [FloatOps F]

def le (a b : F) : Bool := lt a b || beq a b

/-- `max(a, b)`. -/
def max (a b : F) : F := if lt a b then b else a

/-- `min(a, b)`. -/
def min (a b : F) : F := if lt b a then b else a

end FloatOps

/-- Exact arithmetic, for windows that are not scored: it takes no logarithms. -/
instance : FloatOps Rat where
  ofNat n := n
  abs x := |x|
  log x := x
  lt a b := decide (a < b)
  beq a b := decide (a = b)
  sum := List.sum
  repr x := toString x
  fixed4 x := toString x

inductive ProtocolRole
  | smtpMx | smtpSubmission | imapAccess | pop3Access
deriving DecidableEq, Repr

def ProtocolRole.value : ProtocolRole → String
  | .smtpMx => "smtp_mx"
  | .smtpSubmission => "smtp_submission"
  | .imapAccess => "imap_access"
  | .pop3Access => "pop3_access"

structure EndpointWindow (F : Type) where
  endpointId : String
  siteId : String
  protocolRole : ProtocolRole
  dayIndex : Nat
  sessionCount : Nat
  tls13Share : F
  tls12Share : F
  tls10Share : F
  handshakeFailureRate : F
  alertRate : F
  starttlsSuccessRate : F
  starttlsFallbackRate : F
  forwardSecrecyPresentRate : F
  certificateChurnRate : F
  incompleteReconstructionRate : F
  notObservableRate : F
  dominantTlsVersion : String
  issuerId : String
  inMaintenance : Bool := false
  isNewEndpoint : Bool := false
  captureQualityOk : Bool := true
deriving DecidableEq

def featureSchemaVersion : String := "securemail.advisory_features/v1"

/-! ## Features -/

/-- `NUMERIC_FEATURE_NAMES`. -/
inductive NumericFeature
  | tls13Share | tls12Share | tls10Share
  | handshakeFailureRate | alertRate
  | starttlsSuccessRate | starttlsFallbackRate
  | forwardSecrecyPresentRate
  | certificateChurnRate | incompleteReconstructionRate | notObservableRate
deriving DecidableEq, Repr

/-- `CATEGORICAL_FEATURE_NAMES`. -/
inductive CategoricalFeature
  | dominantTlsVersion | issuerId | protocolRole
deriving DecidableEq, Repr

namespace NumericFeature

def all : List NumericFeature :=
  [.tls13Share, .tls12Share, .tls10Share, .handshakeFailureRate, .alertRate, .starttlsSuccessRate,
    .starttlsFallbackRate, .forwardSecrecyPresentRate, .certificateChurnRate,
    .incompleteReconstructionRate, .notObservableRate]

/-- `MAD_FEATURE_NAMES`. -/
def mad : List NumericFeature :=
  [.tls13Share, .tls12Share, .tls10Share, .handshakeFailureRate, .alertRate, .starttlsSuccessRate,
    .starttlsFallbackRate, .forwardSecrecyPresentRate]

def name : NumericFeature → String
  | .tls13Share => "tls13_share"
  | .tls12Share => "tls12_share"
  | .tls10Share => "tls10_share"
  | .handshakeFailureRate => "handshake_failure_rate"
  | .alertRate => "alert_rate"
  | .starttlsSuccessRate => "starttls_success_rate"
  | .starttlsFallbackRate => "starttls_fallback_rate"
  | .forwardSecrecyPresentRate => "forward_secrecy_present_rate"
  | .certificateChurnRate => "certificate_churn_rate"
  | .incompleteReconstructionRate => "incomplete_reconstruction_rate"
  | .notObservableRate => "not_observable_rate"

/-- `EVIDENCE_FIELD_FOR_FEATURE`. -/
def evidenceField : NumericFeature → String
  | .tls13Share | .tls12Share | .tls10Share => "handshake.version.selected"
  | .handshakeFailureRate => "handshake.established"
  | .alertRate => "handshake.last_alert"
  | .starttlsSuccessRate | .starttlsFallbackRate => "session.explicit_upgrade.state"
  | .forwardSecrecyPresentRate => "handshake.key_exchange.mechanism"
  | .certificateChurnRate => "certificate.issuer"
  | .incompleteReconstructionRate => "flow.reconstruction_quality"
  | .notObservableRate => "handshake.server_certificate_state"

end NumericFeature

namespace CategoricalFeature

/-- `RARITY_FEATURES`. -/
def rarity : List CategoricalFeature := [.issuerId, .dominantTlsVersion]

def name : CategoricalFeature → String
  | .dominantTlsVersion => "dominant_tls_version"
  | .issuerId => "issuer_id"
  | .protocolRole => "protocol_role"

/-- `EVIDENCE_FIELD_FOR_FEATURE`. -/
def evidenceField : CategoricalFeature → String
  | .dominantTlsVersion => "handshake.version.selected"
  | .issuerId => "certificate.issuer"
  | .protocolRole => "session.protocol"

end CategoricalFeature

namespace EndpointWindow

variable {F : Type}

/-- `numeric_value`. -/
def numeric (window : EndpointWindow F) : NumericFeature → F
  | .tls13Share => window.tls13Share
  | .tls12Share => window.tls12Share
  | .tls10Share => window.tls10Share
  | .handshakeFailureRate => window.handshakeFailureRate
  | .alertRate => window.alertRate
  | .starttlsSuccessRate => window.starttlsSuccessRate
  | .starttlsFallbackRate => window.starttlsFallbackRate
  | .forwardSecrecyPresentRate => window.forwardSecrecyPresentRate
  | .certificateChurnRate => window.certificateChurnRate
  | .incompleteReconstructionRate => window.incompleteReconstructionRate
  | .notObservableRate => window.notObservableRate

/-- `categorical_value`. -/
def categorical (window : EndpointWindow F) : CategoricalFeature → String
  | .dominantTlsVersion => window.dominantTlsVersion
  | .issuerId => window.issuerId
  | .protocolRole => window.protocolRole.value

end EndpointWindow

/-! ## Scores -/

/-- A number or a text. -/
inductive FeatureValue (F : Type)
  | number (x : F)
  | text (s : String)
deriving DecidableEq

structure FeatureContribution (F : Type) where
  feature : String
  evidenceField : String
  value : FeatureValue F
  reference : FeatureValue F
  score : F
deriving DecidableEq

structure WindowScore (F : Type) where
  endpointId : String
  dayIndex : Nat
  detector : String
  score : F
  threshold : F
  aboveThreshold : Bool
  suppressed : Bool := false
  skipReason : Option String := none
  percentile : Option F := none
  contributions : List (FeatureContribution F)
  reason : String
  modelDigest : String
  featureSchemaVersion : String := Ml.featureSchemaVersion
deriving DecidableEq

/-- `MlDependencyError`, `AdvisoryPipelineError` and pydantic's `ValidationError`. -/
inductive AdvisoryError
  | missingDependency
  | validation (model field : String)
deriving DecidableEq, Repr

/-- `AnomalyScorer.score_windows`. -/
abbrev AnomalyScorer (F : Type) := List (EndpointWindow F) → Except AdvisoryError (List (WindowScore F))

end Ml
end SecureMail
