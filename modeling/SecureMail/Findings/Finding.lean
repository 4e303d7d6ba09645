import SecureMail.Evidence.Certificate

/-!
# Findings and policy checks

What one evaluation of a policy pack emits. A finding is a negative or an indeterminate judgment; a
check is what the coverage is counted from, and is there for a pass as well.

The documents bound every text they carry. A bounded text is a subtype here, so a title that a pack
was loaded with needs no second look on its way into a finding. The texts that are put together
later, a record key and an endpoint, are validated where the document is built.

The identifiers of both are hashes, and a hash is only ever compared. A finding names its record in
each of its references and nowhere else, and a check names it in its own fields; the two ways have
to be kept apart here, since agreement between findings and checks is a statement about just that.
-/

namespace SecureMail

/-- `Field(min_length=1, max_length=n)`. -/
abbrev Text (n : Nat) := { s : String // 1 ≤ s.length ∧ s.length ≤ n }

/-- The validation of such a field. -/
def Text.validate (n : Nat) (model field s : String) : Result (Text n) :=
  if h : 1 ≤ s.length ∧ s.length ≤ n then pure ⟨s, h⟩ else throw (.validation model field)

theorem Text.validate_eq_ok {n : Nat} {model field s : String} {t : Text n}
    (h : Text.validate n model field s = .ok t) : t.val = s := by
  unfold Text.validate at h
  split at h
  · cases h
    rfl
  · cases h

/-- The validation of a field with the pattern of a digest. -/
def Sha256Hex.validate (model field s : String) : Result Sha256Hex :=
  if h : IsSha256Hex s then pure ⟨s, h⟩ else throw (.validation model field)

/-! ## Vocabulary -/

/-- A pass is never a finding. -/
inductive FindingOutcome where
  | negative
  | indeterminate
  deriving DecidableEq, Repr

def FindingOutcome.value : FindingOutcome → String
  | .negative => "negative"
  | .indeterminate => "indeterminate"

inductive FindingSeverity where
  | high
  | medium
  | low
  | informational
  deriving DecidableEq, Repr

inductive EvidenceRecordType where
  | flow
  | session
  | handshake
  | certificate
  deriving DecidableEq, Repr

def EvidenceRecordType.value : EvidenceRecordType → String
  | .flow => "flow"
  | .session => "session"
  | .handshake => "handshake"
  | .certificate => "certificate"

inductive CheckCategory where
  | transport
  | mailProtocol
  | tlsHandshake
  | certificate
  deriving DecidableEq, Repr

def CheckCategory.value : CheckCategory → String
  | .transport => "transport"
  | .mailProtocol => "mail_protocol"
  | .tlsHandshake => "tls_handshake"
  | .certificate => "certificate"

inductive CoverageProtocol where
  | smtp
  | imap
  | pop3
  | unclassified
  deriving DecidableEq, Repr

def CoverageProtocol.value : CoverageProtocol → String
  | .smtp => "smtp"
  | .imap => "imap"
  | .pop3 => "pop3"
  | .unclassified => "unclassified"

inductive PolicyCheckOutcome where
  | pass
  | fail
  | unknown
  | notObservable
  deriving DecidableEq, Repr

def PolicyCheckOutcome.value : PolicyCheckOutcome → String
  | .pass => "pass"
  | .fail => "fail"
  | .unknown => "unknown"
  | .notObservable => "not_observable"

/-! ## Documents -/

structure EvidenceReference where
  recordType : EvidenceRecordType
  recordKey : Text 160
  fieldPath : Text 160
  evidenceState : EvidenceState
  frameNumber : Option { n : Nat // 1 ≤ n } := none
  deriving DecidableEq

structure Finding where
  findingId : Sha256Hex
  code : Text 64
  outcome : FindingOutcome
  title : Text 160
  rationale : Text 1000
  standards : List String
  standards_le : standards.length ≤ 8
  remediationId : Text 64
  severity : FindingSeverity
  evaluationState : EvidenceState
  basisState : EvidenceState
  policyProfile : Text 64
  policyPackVersion : Sha256Hex
  ruleEffectiveFrom : Py.Date
  ruleEffectiveUntil : Option Py.Date
  policyEvaluationTime : Py.Datetime
  affectedEndpoint : Text 300
  evidenceReferences : List EvidenceReference
  evidenceReferences_le : evidenceReferences.length ≤ 32
  deriving DecidableEq

structure PolicyCheck where
  checkId : Sha256Hex
  code : Text 64
  category : CheckCategory
  protocol : CoverageProtocol
  affectedEndpoint : Text 300
  recordType : EvidenceRecordType
  recordKey : Text 160
  outcome : PolicyCheckOutcome
  evidenceState : EvidenceState
  title : Text 160
  deriving DecidableEq

end SecureMail
