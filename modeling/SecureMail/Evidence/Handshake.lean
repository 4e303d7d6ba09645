import SecureMail.Evidence.Flow
import Mathlib.Data.PNat.Defs

/-!
# Handshake evidence

What can be said of one TLS handshake without its keys: which messages were seen and in which order,
the version, the cipher suite, the key exchange and the signature of the handshake itself. Each of
these carries an evidence state of its own, since a capture can show the ServerHello in full and
nothing after it.

`HandshakeMessageKind` lists the letters of Zeek's `ssl_history`, an upper-case letter for the
client and a lower-case one for the server, with the flip of direction as a letter too. A message
keeps its letter beside its kind, so that the history can be read back off the messages, and it has
a frame number only where TShark saw the message as well.
-/

namespace SecureMail

inductive HandshakeVisibility where
  | full
  | partly
  | notObservable
  deriving DecidableEq, Repr

def HandshakeVisibility.value : HandshakeVisibility → String
  | .full => "full"
  | .partly => "partial"
  | .notObservable => "not_observable"

inductive VersionSource where
  | supportedVersions
  | legacyRecord
  deriving DecidableEq, Repr

inductive HandshakeMessageKind where
  | directionFlip
  | helloRequest
  | clientHello
  | serverHello
  | helloRetryRequest
  | helloVerifyRequest
  | newSessionTicket
  | endOfEarlyData
  | encryptedExtensions
  | certificate
  | serverKeyExchange
  | certificateRequest
  | serverHelloDone
  | certificateVerify
  | clientKeyExchange
  | finished
  | certificateUrl
  | certificateStatus
  | supplementalData
  | keyUpdate
  | messageHash
  | changeCipherSpec
  | alert
  | heartbeat
  | unknown
  deriving DecidableEq, Repr

/-- One letter of the history, attributed. The number of its frame is not known from the history and
is filled in from the frames, if at all. -/
structure HandshakeMessage where
  kind : HandshakeMessageKind
  direction : StreamDirection
  historyLetter : Char
  frameNumber : Option ℕ+ := none
  evidenceState : EvidenceState
  deriving DecidableEq

structure TlsVersionEvidence where
  selected : Option String := none
  source : Option VersionSource := none
  evidenceState : EvidenceState
  legacyRecordVersion : Option String := none
  serverSupportedVersion : Option String := none
  clientSupportedVersions : List String := []
  deriving DecidableEq, Repr

structure CipherSuiteEvidence where
  name : Option String := none
  code : Option String := none
  evidenceState : EvidenceState
  deriving DecidableEq, Repr

structure KeyExchangeEvidence where
  mechanism : Option String := none
  evidenceState : EvidenceState
  sourceFields : List String := []
  selectedGroup : Option String := none
  selectedGroupCode : Option (Fin 65536) := none
  dhParamSize : Option Nat := none
  pskKeyExchangeModes : List String := []
  deriving DecidableEq, Repr

/-- The algorithm of the handshake's CertificateVerify, not of a certificate. -/
structure HandshakeSignatureEvidence where
  algorithm : Option String := none
  evidenceState : EvidenceState
  deriving DecidableEq, Repr

/-- One handshake. It is recorded for a row of `ssl.log`, whether or not the handshake came to an end,
and `established` says if it did. -/
structure TlsHandshake where
  uid : String
  sslHistory : String
  established : Bool
  resumed : Bool
  helloRetryRequest : Bool
  lastAlert : Option String := none
  visibility : HandshakeVisibility
  version : TlsVersionEvidence
  cipherSuite : CipherSuiteEvidence
  keyExchange : KeyExchangeEvidence
  messages : List HandshakeMessage := []
  serverCertificateState : EvidenceState
  certificateVerifyState : EvidenceState
  certificateVerifySignature : HandshakeSignatureEvidence
  evidenceState : EvidenceState
  deriving DecidableEq

end SecureMail
