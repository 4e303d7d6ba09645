import SecureMail.Evidence.Session
import Mathlib.Data.List.Sort

/-!
# Implicit TLS

A mail protocol spoken inside TLS from the first byte leaves one trace of its name, the protocol the
server selected by ALPN. The well-known ports say that TLS is expected, never which protocol it was:
a port alone gives no protocol, and an ALPN selection gives one on any port.

The selection is the server's answer and not the client's list, and it is compared in lower case
without the blanks around it. A text that is no mail protocol is as good as none.
-/

namespace SecureMail
namespace Starttls

def implicitTlsPorts : List Nat := [465, 993, 995]

def alpnToProtocol : List (String × MailProtocol) :=
  [("smtp", .smtp), ("imap", .imap), ("pop3", .pop3)]

/-- `protocol_from_alpn`: the selected identifier, never an offered one. -/
def protocolFromAlpn (negotiatedAlpn : Option String) : Option MailProtocol :=
  negotiatedAlpn.bind fun alpn => alpnToProtocol.lookup (Py.lower (Py.strip alpn))

/-- `correlate_implicit_tls`. The frames that showed the selection are cited in order, once each,
and zero, which is no frame, is left out. -/
def correlateImplicitTls (responderPort : Nat) (tlsOnConnection : Bool)
    (negotiatedAlpn : Option String) (alpnFrames : List Nat) : ImplicitTls :=
  let frames := ((alpnFrames.filter (1 ≤ ·)).dedup).insertionSort (· ≤ ·)
  let onPort := implicitTlsPorts.contains responderPort
  match protocolFromAlpn negotiatedAlpn, tlsOnConnection with
  | some selected, true =>
      { correlatedProtocol := some selected, evidenceState := .observed, source := some .alpn,
        evidenceFrames := frames }
  | _, _ =>
      if onPort && tlsOnConnection then
        { evidenceState := .indeterminate, source := some .none, evidenceFrames := frames }
      else if onPort then { evidenceState := .indeterminate, source := some .none }
      else { evidenceState := .notObservable, source := none }

end Starttls
end SecureMail
