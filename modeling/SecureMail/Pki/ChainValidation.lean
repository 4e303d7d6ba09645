import SecureMail.Pki.X509
import SecureMail.Py.Str

/-!
# `validate_certificate_path`

The path of a leaf at one instant. The package verifies; what is decided here is the one reason a
refused path is given, from the wording of the refusal first and from the names of the certificate
where the wording says nothing.

The wording belongs to the package, so a change of its messages would change the reason that is
given and nothing else; whether a path is accepted is the answer of the package. The length of the
chain is looked at first and needs no package. The instant is an argument, and the callers give the
time of the capture and not that of the analysis, so that an old capture has the result it always
had.
-/

namespace SecureMail
namespace Pki

open Py (isIn lower)

def maxChainDepth : Nat := 16

inductive PathReasonCode where
  | selfSigned
  | missingIntermediate
  | untrustedIssuer
  | expiredAtVerificationTime
  | notYetValidAtVerificationTime
  | signatureVerificationFailed
  | maxChainDepthExceeded
  | invalidExtensions
  | syntaxInvalidLeaf
  | certificateNotObserved
  | captureTimeUnavailable
  deriving DecidableEq, Repr

def PathReasonCode.value : PathReasonCode → String
  | .selfSigned => "self_signed"
  | .missingIntermediate => "missing_intermediate"
  | .untrustedIssuer => "untrusted_issuer"
  | .expiredAtVerificationTime => "expired_at_verification_time"
  | .notYetValidAtVerificationTime => "not_yet_valid_at_verification_time"
  | .signatureVerificationFailed => "signature_verification_failed"
  | .maxChainDepthExceeded => "max_chain_depth_exceeded"
  | .invalidExtensions => "invalid_extensions"
  | .syntaxInvalidLeaf => "syntax_invalid_leaf"
  | .certificateNotObserved => "certificate_not_observed"
  | .captureTimeUnavailable => "capture_time_unavailable"

/-- Pinned offline anchors. -/
structure TrustStoreSnapshot (lib : X509Library) where
  profileId : String
  digest : Sha256Hex
  anchors : List lib.Certificate

structure ChainValidationResult where
  valid : Option Bool
  reasonCodes : List PathReasonCode
  deriving DecidableEq

section

variable {lib : X509Library}

/-- `_is_self_signed`. -/
def isSelfSigned (certificate : lib.Certificate) : Result Bool := do
  let subject ← lib.subject certificate
  let issuer ← lib.issuer certificate
  pure (@decide (subject = issuer) (lib.nameEq subject issuer))

/-- `_anchor_subjects`. -/
def anchorSubjects (snapshot : TrustStoreSnapshot lib) : Result (List lib.Name) :=
  snapshot.anchors.mapM lib.subject

/-- A name is the subject of an anchor. -/
def isAnchor (snapshot : TrustStoreSnapshot lib) (name : lib.Name) : Result Bool := do
  let subjects ← anchorSubjects snapshot
  pure (subjects.any fun subject => @decide (subject = name) (lib.nameEq subject name))

/-- `_map_verification_failure`. The tests are in this order, and a message that fits two of them
has the first reason. -/
def mapVerificationFailure (leaf : lib.Certificate) (intermediates : List lib.Certificate)
    (snapshot : TrustStoreSnapshot lib) (instant : Py.Datetime) (error : String) :
    Result PathReasonCode := do
  let message := lower error
  if isIn "not valid at validation time" message then
    if (lib.notValidAfter leaf).instant < instant.instant then pure .expiredAtVerificationTime
    else if instant.instant < (lib.notValidBefore leaf).instant then
      pure .notYetValidAtVerificationTime
    else pure .expiredAtVerificationTime
  else if isIn "signature" message then pure .signatureVerificationFailed
  else if isIn "extension" message || isIn "eku" message || isIn "basic constraints" message then
    pure .invalidExtensions
  else if isIn "path length" message || isIn "chain depth" message || isIn "maximum" message then
    pure .maxChainDepthExceeded
  else
    let selfSigned ← isSelfSigned leaf
    let lone ←
      if selfSigned then do pure !(← isAnchor snapshot (← lib.subject leaf)) else pure false
    if lone then pure .selfSigned
    else
      let orphan ←
        if intermediates.isEmpty then do pure !(← isAnchor snapshot (← lib.issuer leaf))
        else pure false
      pure (if orphan then .missingIntermediate else .untrustedIssuer)

/-- `validate_certificate_path`. Whether they are needed is for the package to say; how many there
may be is not. -/
def validateCertificatePath (leaf : lib.Certificate) (intermediates : List lib.Certificate)
    (trustStore : TrustStoreSnapshot lib) (verificationTime : Py.Datetime) :
    Result ChainValidationResult := do
  if maxChainDepth < 1 + intermediates.length then pure ⟨some false, [.maxChainDepthExceeded]⟩
  else
    let instant ← asUtc verificationTime
    match ← lib.verify trustStore.anchors instant leaf intermediates with
    | none => pure ⟨some true, []⟩
    | some error => do
        let reason ← mapVerificationFailure leaf intermediates trustStore instant error
        pure ⟨some false, [reason]⟩

end

end Pki
end SecureMail
