import SecureMail.Evidence.Run
import SecureMail.Py.Datetime

/-!
# Certificate evidence

What a run records of one certificate in one handshake, and what validation later adds to it. A
record is named by four things together, the uid of its connection, the role, the place in the chain
and the digest of the bytes; the type does not make them a key, that no two records share all four
is a theorem about the normalizer (`nodup_certificate_keys`).

A digest is a string of sixty-four lower-case hexadecimal digits, by type: every model of the
evidence document declares that pattern, and with the pattern in the type neither the engine nor the
report has a branch for a digest that is none.

The answers of validation have three values. `none` says that a question was not put, for want of a
trust store, of a reference identity or of bytes that parse, and a policy reads it as something it
cannot judge; `false` is an answer.
-/

namespace SecureMail

/-- The pattern `^[0-9a-f]{64}$`, on code points, so that it can be decided of a concrete text and
taken apart where a length is needed. -/
def IsSha256Hex (s : String) : Prop :=
  s.length = 64 ∧ ∀ c ∈ s.toList, 48 ≤ c.toNat ∧ c.toNat ≤ 57 ∨ 97 ≤ c.toNat ∧ c.toNat ≤ 102

-- Named, because with more imported the search finds the instance that tries every `Char`.
instance (s : String) : Decidable (IsSha256Hex s) :=
  @instDecidableAnd _ _ _ (List.decidableBAll _ _)

abbrev Sha256Hex := { s : String // IsSha256Hex s }

inductive CertificateRole where
  | server
  | client
  deriving DecidableEq, Repr

def CertificateRole.value : CertificateRole → String
  | .server => "server"
  | .client => "client"

inductive RevocationStatus where
  | good
  | revoked
  | unknown
  | stale
  deriving DecidableEq, Repr

inductive ReferenceIdentitySource where
  | sni
  | configured
  deriving DecidableEq, Repr

structure CertificateValidation where
  certificateObserved : Bool
  syntaxValid : Option Bool := none
  pathValidAtCaptureTime : Option Bool := none
  pathValidAtAnalysisTime : Option Bool := none
  pathInvalidReasonsAtCaptureTime : List String := []
  pathInvalidReasonsAtAnalysisTime : List String := []
  identityMatch : Option Bool := none
  identityMismatchReasons : List String := []
  referenceIdentity : Option String := none
  referenceIdentitySource : Option ReferenceIdentitySource := none
  revocationStatus : RevocationStatus
  trustProfileId : String
  trustStoreDigest : Sha256Hex
  indeterminateReasons : List String := []
  deriving DecidableEq

/-- One certificate of one handshake. The bytes are not here, only their digest: two records of one
certificate, on two connections, are two pieces of evidence. -/
structure CertificateEvidence where
  derSha256 : Sha256Hex
  uid : String
  chainIndex : Nat
  role : CertificateRole
  sourceFrames : List Nat := []
  syntaxValid : Bool
  syntaxError : Option String := none
  subject : Option String := none
  issuer : Option String := none
  serialNumber : Option String := none
  notBefore : Option Py.Datetime := none
  notAfter : Option Py.Datetime := none
  validAtCaptureTime : Option Bool := none
  validAtAnalysisTime : Option Bool := none
  expiresWithinWarningWindow : Option Bool := none
  publicKeyAlgorithm : Option String := none
  publicKeySize : Option Int := none
  publicKeyCurve : Option String := none
  effectiveStrengthBits : Option Int := none
  signatureAlgorithm : Option String := none
  evidenceState : EvidenceState
  validation : Option CertificateValidation := none
  deriving DecidableEq

end SecureMail
