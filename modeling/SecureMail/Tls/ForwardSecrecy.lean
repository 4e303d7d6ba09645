import SecureMail.Evidence.Handshake

/-!
# Forward secrecy

An assessment of the normalized handshake alone. What cannot be judged is `indeterminate`, with the
reason and the fields it was judged by, so that `absent` is always a statement about the key exchange
and never about the capture.

The tests come in the order in which evidence can fail: the handshake as a whole, then the version,
then the mechanism, and last the mechanism against the table of its version. TLS 1.3 has no entry
that is absent. A resumption by pre-shared key alone has no forward secrecy of its own, but what it
takes over from the session before is not to be seen, and it is indeterminate.
-/

namespace SecureMail
namespace Tls

inductive ForwardSecrecyOutcome where
  | present
  | absent
  | indeterminate
  deriving DecidableEq, Repr

def ForwardSecrecyOutcome.value : ForwardSecrecyOutcome → String
  | .present => "present"
  | .absent => "absent"
  | .indeterminate => "indeterminate"

structure ForwardSecrecyAssessment where
  outcome : ForwardSecrecyOutcome
  evidenceState : EvidenceState
  reasonCode : String
  sourceFields : List String
  deriving DecidableEq, Repr

def usableStates : List EvidenceState := [.observed, .verified, .inferred]
def tls12Present : List String := ["ECDHE", "DHE"]
def tls12Absent : List String := ["RSA", "DH", "ECDH"]
def tls13Present : List String := ["ECDHE", "DHE", "(EC)DHE", "PSK-(EC)DHE"]
def tls13Indeterminate : List String := ["PSK"]

/-- TLS 1.2 and older. -/
def olderVersions : List String := ["TLSv12", "TLSv11", "TLSv10", "SSLv3"]

/-- `_indeterminate`. -/
def indeterminate (reason : String) (sourceFields : List String) : ForwardSecrecyAssessment :=
  ⟨.indeterminate, .indeterminate, reason, sourceFields⟩

/-- `assess_forward_secrecy`. The lists of mechanisms are compared as words, so one that the
classifier did not produce falls through to an outcome of its own. -/
def assessForwardSecrecy (handshake : TlsHandshake) : ForwardSecrecyAssessment :=
  let versionState := handshake.version.evidenceState
  let kxState := handshake.keyExchange.evidenceState
  let judged := ["handshake.version.selected", "handshake.key_exchange.mechanism"]
  if [.incomplete, .conflicting].contains handshake.evidenceState then
    indeterminate "handshake_incomplete" ["handshake.evidence_state"]
  else match handshake.version.selected with
    | none => indeterminate "version_unusable"
        ["handshake.version.selected", "handshake.version.evidence_state"]
    | some version =>
        if !usableStates.contains versionState then
          indeterminate "version_unusable"
            ["handshake.version.selected", "handshake.version.evidence_state"]
        else if [.incomplete, .conflicting, .notObservable].contains kxState then
          indeterminate "key_exchange_unusable"
            ["handshake.key_exchange.mechanism", "handshake.key_exchange.evidence_state"]
        else match handshake.keyExchange.mechanism with
          | none => indeterminate "key_exchange_missing" ["handshake.key_exchange.mechanism"]
          | some mechanism =>
              if version = "TLSv13" then
                if tls13Present.contains mechanism && usableStates.contains kxState then
                  ⟨.present, kxState, "tls13_ephemeral", judged⟩
                else if tls13Indeterminate.contains mechanism then
                  indeterminate "tls13_psk_only" (judged ++ ["handshake.resumed"])
                else indeterminate "tls13_unknown_mechanism" judged
              else if olderVersions.contains version then
                if tls12Present.contains mechanism && usableStates.contains kxState then
                  ⟨.present, kxState, "tls12_ephemeral", judged⟩
                else if tls12Absent.contains mechanism && usableStates.contains kxState then
                  ⟨.absent, kxState, "static_key_exchange", judged⟩
                else if kxState = .indeterminate then
                  indeterminate "key_exchange_indeterminate"
                    ["handshake.key_exchange.mechanism",
                     "handshake.key_exchange.evidence_state"]
                else indeterminate "tls12_unknown_mechanism" judged
              else indeterminate "unsupported_version" ["handshake.version.selected"]

end Tls
end SecureMail
