import SecureMail.Evidence.Handshake
import SecureMail.Py.Dict
import SecureMail.Py.Str

/-!
# Key-exchange classification

TLS 1.3 is classified from the key share, the groups and the PSK modes, and never from the name of
the cipher suite, which says nothing of the key exchange there; TLS 1.2 and older from the name, in
which it is the words after `TLS_`. A name of a TLS 1.3 suite under an older version is a
contradiction of the evidence and gives no mechanism.

The IANA snapshot is data the caller passes in, three tables that may contain anything. So nothing
here can rely on a suite having a code or a group having a name, and the statements about the
classifier are for every index.

The table of prefixes is searched from the top, and the order of its entries is part of the code.
That the order is the right one is proved in `Tls.LongestMatch`.
-/

namespace SecureMail
namespace Tls

open Py (Dict lower upper isIn startsWith truthy)

/-- The checked-in IANA registry: suite names and the two directions of the group table. -/
structure TlsParameterIndex where
  cipherNameToCode : Dict String String
  groupCodeToName : Dict Int String
  groupNameToCode : Dict String Int

namespace TlsParameterIndex

variable (index : TlsParameterIndex)

/-- The index of the unit tests. -/
def empty : TlsParameterIndex := ⟨∅, ∅, ∅⟩

def cipherCode (name : String) : Option String :=
  ((index.cipherNameToCode.get? name).filter truthy).or (index.cipherNameToCode.get? (upper name))

def groupName (code : Option Int) : Option String := code.bind index.groupCodeToName.get?

def groupCode (name : String) : Option Int :=
  (index.groupNameToCode.get? name).or
    ((index.groupNameToCode.entries.find? fun entry => lower entry.1 = lower name).map (·.2))

end TlsParameterIndex

structure KeyExchangeClassification where
  mechanism : Option String
  evidenceState : EvidenceState
  sourceFields : List String
  deriving DecidableEq, Repr

def pskKe : Int := 0
def pskDheKe : Int := 1

def pskModeName (mode : Int) : Option String :=
  [(pskKe, "psk_ke"), (pskDheKe, "psk_dhe_ke")].lookup mode

/-- The key-exchange prefixes of TLS 1.2 suite names, the longer before the shorter. -/
def tls12KxPrefixes : List (String × String) :=
  [("ECDHE_PSK", "ECDHE-PSK"), ("DHE_PSK", "DHE-PSK"), ("RSA_PSK", "RSA-PSK"), ("ECDHE", "ECDHE"),
   ("DHE", "DHE"), ("ECDH", "ECDH"), ("DH", "DH"), ("PSK", "PSK"), ("RSA", "RSA"),
   ("SRP_SHA", "SRP"), ("ECCPWD", "ECCPWD"), ("KRB5", "KRB5"), ("GOSTR341112_256", "GOST"),
   ("GOSTR341094", "GOST"), ("GOSTR341001", "GOST")]

/-- `_is_tls13`. -/
def isTls13 (version : String) : Bool :=
  ["tlsv13", "tls13", "tlsv1.3"].contains
    (Py.removeChar '.' (Py.removeChar ' ' (lower version)))

/-- `_group_family`. The name decides where there is one, and the ranges of the registry where there
is only a code. -/
def groupFamily (groupName : Option String) (groupCode : Option Int) (curve : Option String) :
    Option String :=
  let label := lower (((groupName.filter truthy).or curve).getD "")
  if isIn "mlkem" label || isIn "ml-kem" label then some "(EC)DHE"
  else if startsWith label "ffdhe" || isIn "ffdhe" label then some "DHE"
  else if truthy label then some "ECDHE"
  else match groupCode with
    | none => none
    | some code =>
        if 256 ≤ code ∧ code ≤ 260 then some "DHE"
        else if 4585 ≤ code then some "(EC)DHE"
        else some "ECDHE"

/-- `_classify_tls13`. The name of a suite says nothing of the key exchange in this version, and so
it is not an argument. -/
def classifyTls13 (serverKeyShareGroup : Option Int) (clientKeyShareGroups : List Nat)
    (pskKeyExchangeModes : List Nat) (curve : Option String) (resumed : Bool)
    (groupName : Option String) : KeyExchangeClassification :=
  let offersKe := (pskKeyExchangeModes.map Int.ofNat).contains pskKe
  let offersDhePsk := (pskKeyExchangeModes.map Int.ofNat).contains pskDheKe
  let hasKeyShare := serverKeyShareGroup.isSome || curve.any truthy
  let shareSource :=
    if serverKeyShareGroup.isSome then ["server_key_share_group"]
    else if curve.any truthy then ["curve"]
    else []
  let sources := shareSource ++
    (if pskKeyExchangeModes.isEmpty then [] else ["psk_key_exchange_modes"]) ++
    (if resumed then ["resumed"] else [])
  if resumed && hasKeyShare then ⟨some "PSK-(EC)DHE", .observed, sources⟩
  else if resumed then
    if (offersKe && !offersDhePsk) || !offersDhePsk then ⟨some "PSK", .inferred, sources⟩
    else ⟨some "PSK", .indeterminate, sources⟩
  else if hasKeyShare then
    match groupFamily groupName serverKeyShareGroup curve with
    | none => ⟨some "(EC)DHE", .observed, sources⟩
    | some family => ⟨some family, .observed, sources⟩
  else if !clientKeyShareGroups.isEmpty then ⟨none, .incomplete, ["client_key_share_groups"]⟩
  else ⟨none, .indeterminate, sources⟩

/-- `_looks_like_tls13_suite`. -/
def looksLikeTls13Suite (name : String) : Bool :=
  if isIn "_WITH_" name then false
  else startsWith name "TLS_AES_" || startsWith name "TLS_CHACHA20_" ||
    startsWith name "TLS_AEGIS_"

/-- The prefix is the text, or ends in it at an underscore. -/
def matchesPrefix (text kx : String) : Bool := text == kx || startsWith text (kx ++ "_")

/-- `_tls12_mechanism_from_name`. -/
def tls12MechanismFromName (name : String) : Option String :=
  if startsWith name "TLS_" then
    (tls12KxPrefixes.find? fun entry => matchesPrefix (Py.dropChars 4 name) entry.1).map (·.2)
  else none

/-- `_classify_tls12`. The name of the suite is all there is, so the answer is an inference. -/
def classifyTls12 (cipherSuite : Option String) (dhParamSize : Option Nat) (curve : Option String) :
    KeyExchangeClassification :=
  match cipherSuite with
  | none => ⟨none, .incomplete, []⟩
  | some suite =>
      if looksLikeTls13Suite suite then ⟨none, .indeterminate, ["cipher"]⟩
      else match tls12MechanismFromName suite with
        | none => ⟨none, .indeterminate, ["cipher"]⟩
        | some mechanism =>
            ⟨some mechanism, .inferred,
              ["cipher"] ++
                (if ["ECDHE", "ECDH"].contains mechanism && curve.any truthy then ["curve"]
                  else []) ++
                (if ["DHE", "DH"].contains mechanism && dhParamSize.isSome then ["dh_param_size"]
                  else [])⟩

/-- `classify_key_exchange`. Without a version nothing is classified, whatever else was logged. -/
def classifyKeyExchange (negotiatedVersion cipherSuite : Option String)
    (serverKeyShareGroup : Option Int) (clientKeyShareGroups : List Nat)
    (dhParamSize : Option Nat) (pskKeyExchangeModes : List Nat) (curve : Option String)
    (resumed : Bool) (groupName : Option String) : KeyExchangeClassification :=
  match negotiatedVersion with
  | none => ⟨none, .incomplete, []⟩
  | some version =>
      if isTls13 version then
        classifyTls13 serverKeyShareGroup clientKeyShareGroups pskKeyExchangeModes curve resumed
          groupName
      else classifyTls12 cipherSuite dhParamSize curve

end Tls
end SecureMail
