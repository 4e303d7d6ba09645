import SecureMail.Evidence.Flow
import SecureMail.Py.Str
import Mathlib.Data.PNat.Defs
import Mathlib.Data.Rat.Defs
import Mathlib.Tactic.NormNum

/-!
# Session evidence

The identity of a mail session, its redacted events, and the two assessments of how it came to be
encrypted, by a command in the session (`ExplicitUpgrade`) or from the first byte (`ImplicitTls`).

The events are what the two analyzers reported, merged into one order. An event has few fields that
are always there, and each consumer reads the others through the same two expressions, the command
and the text, empty if absent, in upper case; they are `upperCommand` and `upperText` here, so that
a statement about what a machine reads does not speak of the case of the letters on the wire.

A frame number is a positive number and a confidence lies in the unit interval, by type. The
one confidence the source ever gives is a constant, and no arithmetic is done on it, which is why it
can be a rational.
-/

namespace SecureMail

inductive MailProtocol where
  | smtp
  | imap
  | pop3
  deriving DecidableEq, Repr

def MailProtocol.value : MailProtocol → String
  | .smtp => "smtp"
  | .imap => "imap"
  | .pop3 => "pop3"

inductive PortHint where
  | smtp
  | imap
  | pop3
  | none
  deriving DecidableEq, Repr

inductive PayloadEvidence where
  | smtp
  | imap
  | pop3
  | indeterminate
  | none
  deriving DecidableEq, Repr

/-- `PayloadEvidence(protocol.value)`. -/
def PayloadEvidence.ofProtocol : MailProtocol → PayloadEvidence
  | .smtp => .smtp
  | .imap => .imap
  | .pop3 => .pop3

inductive SessionEventKind where
  | request
  | reply
  | capability
  | starttls
  | confirmation
  | ambiguousBanner
  | unexpected
  deriving DecidableEq, Repr

inductive EventSource where
  | zeek
  | tshark
  | ssl
  deriving DecidableEq, Repr

inductive UpgradeState where
  | advertised
  | requested
  | accepted
  | tlsEstablished
  | plaintextFallback
  | violation
  deriving DecidableEq, Repr

def UpgradeState.value : UpgradeState → String
  | .advertised => "advertised"
  | .requested => "requested"
  | .accepted => "accepted"
  | .tlsEstablished => "tls_established"
  | .plaintextFallback => "plaintext_fallback"
  | .violation => "violation"

structure ProtocolEvent where
  direction : StreamDirection
  kind : SessionEventKind
  command : Option String := none
  argument : Option String := none
  replyCode : Option Nat := none
  text : Option String := none
  frameNumber : Option ℕ+ := none
  source : Option EventSource := none
  tag : Option String := none
  deriving DecidableEq

/-- `(event.command or "").upper()`: how every consumer reads a command. -/
def ProtocolEvent.upperCommand (e : ProtocolEvent) : String := Py.upper (e.command.getD "")

/-- `(event.text or "").upper()`. The upper case is that of the whole of Unicode, so a text may get
longer by it. -/
def ProtocolEvent.upperText (e : ProtocolEvent) : String := Py.upper (e.text.getD "")

structure ExplicitUpgrade where
  state : Option UpgradeState := none
  evidenceState : EvidenceState
  evidenceFrames : List Nat := []
  downgradeConsistent : Bool := false
  deriving DecidableEq, Repr

inductive ImplicitTlsSource where
  | alpn
  | none
  deriving DecidableEq, Repr

structure ImplicitTls where
  correlatedProtocol : Option MailProtocol := none
  evidenceState : EvidenceState
  source : Option ImplicitTlsSource := none
  evidenceFrames : List Nat := []
  deriving DecidableEq, Repr

inductive Corroboration where
  | zeek
  | zeekTshark
  deriving DecidableEq, Repr

/-- A confidence, within the bounds its field declares. -/
abbrev Confidence := { q : ℚ // 0 ≤ q ∧ q ≤ 1 }

/-- The `0.5` of two analyzers that disagree. -/
def Confidence.half : Confidence := ⟨1 / 2, by norm_num⟩

structure EmailSession where
  uid : String
  protocol : Option MailProtocol := none
  portHint : PortHint
  payloadEvidence : PayloadEvidence
  evidenceState : EvidenceState
  identificationConfidence : Option Confidence := none
  corroboration : Corroboration := .zeek
  events : List ProtocolEvent := []
  explicitUpgrade : Option ExplicitUpgrade := none
  implicitTls : Option ImplicitTls := none
  deriving DecidableEq

end SecureMail
