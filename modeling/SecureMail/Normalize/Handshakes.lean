import SecureMail.Normalize.Coerce
import SecureMail.Evidence.Handshake
import SecureMail.Tls.KeyExchange
import SecureMail.Lib.Fallible
import Mathlib.Data.List.Sort

/-!
# `normalize_handshakes`

One `TlsHandshake` for each row of `ssl.log`. The letters of the row's history say which messages
were seen and from whom, and everything the server chose is kept only where the history has a letter
for a ServerHello. The frames of the connection give the messages their numbers, one frame to a
message, in the order both were seen.

This normalizer has readers of its own. Its `_as_str` takes strings only, and its `_as_int_list`
takes the comma-joined text TShark prints for a field that occurs more than once.

What is read of a frame and what is read of a row are kept apart, as in the source: the row decides
whether there is a record and what its values are, the frames only add numbers and a group. The
messages of a record are its history, letter by letter, so a message that was seen by TShark alone
is not in it. The attachment of the frames has state, the queues of messages that wait, and it is a
fold over the frames of the connection.
-/

namespace SecureMail
namespace Normalize
namespace Handshakes

open Py (Val Dict lower strip isIn startsWith)
open Tls (TlsParameterIndex)

def maxUidLen : Nat := 64
def maxHistoryLen : Nat := 100
def maxNameLen : Nat := 128
def maxAlertLen : Nat := 64
def maxFrames : Nat := 10000
def maxHostLen : Nat := 253

def tlsVersions : List (Nat × String) :=
  [(768, "SSLv3"), (769, "TLSv10"), (770, "TLSv11"), (771, "TLSv12"), (772, "TLSv13")]

/-- The spellings of a version, in lower case and without blanks and dots. -/
def versionAliases : List (String × String) :=
  [("tlsv10", "TLSv10"), ("tls10", "TLSv10"), ("tlsv1", "TLSv10"), ("tlsv11", "TLSv11"),
   ("tls11", "TLSv11"), ("tlsv12", "TLSv12"), ("tls12", "TLSv12"), ("tlsv13", "TLSv13"),
   ("tls13", "TLSv13"), ("sslv3", "SSLv3"), ("ssl3", "SSLv3")]

/-- The letters of Zeek's `ssl_history`; the case of a letter is the side that sent it. -/
def historyKind : List (Char × HandshakeMessageKind) :=
  [('^', .directionFlip), ('h', .helloRequest), ('c', .clientHello), ('s', .serverHello),
   ('j', .helloRetryRequest), ('v', .helloVerifyRequest), ('t', .newSessionTicket),
   ('e', .endOfEarlyData), ('o', .encryptedExtensions), ('x', .certificate),
   ('k', .serverKeyExchange), ('r', .certificateRequest), ('n', .serverHelloDone),
   ('y', .certificateVerify), ('g', .clientKeyExchange), ('f', .finished), ('w', .certificateUrl),
   ('u', .certificateStatus), ('a', .supplementalData), ('p', .keyUpdate), ('m', .messageHash),
   ('i', .changeCipherSpec), ('l', .alert), ('b', .heartbeat), ('z', .unknown)]

def tsharkTypeToKind : List (Nat × HandshakeMessageKind) :=
  [(1, .clientHello), (2, .serverHello), (4, .newSessionTicket), (5, .endOfEarlyData),
   (8, .encryptedExtensions), (11, .certificate), (12, .serverKeyExchange),
   (13, .certificateRequest), (14, .serverHelloDone), (15, .certificateVerify),
   (16, .clientKeyExchange), (20, .finished), (24, .keyUpdate)]

def signatureSchemes : List (Int × String) :=
  [(0x0101, "rsa_pkcs1_md5"), (0x0201, "rsa_pkcs1_sha1"), (0x0202, "dsa_sha1"),
   (0x0203, "ecdsa_sha1"), (0x0401, "rsa_pkcs1_sha256"), (0x0501, "rsa_pkcs1_sha384"),
   (0x0601, "rsa_pkcs1_sha512"), (0x0403, "ecdsa_secp256r1_sha256"),
   (0x0503, "ecdsa_secp384r1_sha384"), (0x0603, "ecdsa_secp521r1_sha512"),
   (0x0804, "rsa_pss_rsae_sha256"), (0x0805, "rsa_pss_rsae_sha384"),
   (0x0806, "rsa_pss_rsae_sha512"), (0x0807, "ed25519"), (0x0808, "ed448")]

/-! ## Readers -/

/-- `_as_str`. -/
def asStr (value : Val) (maxLen : Nat) : Option String :=
  match value with
  | .str s => if s = "" ∨ maxLen < s.length then none else some s
  | _ => none

/-- `_as_int_list`. -/
def asIntList (value : Val) (limit : Nat) : Result (List Nat) :=
  match value with
  | .int n => pure (if 0 ≤ n then [n.toNat] else [])
  | .str s =>
      let parts := ((Py.splitOnChar ',' s).map strip).filter (· ≠ "")
      (parts.take limit).filterMapM fun part => asInt (.str part)
  | .list items => (items.take limit).filterMapM asInt
  | _ => pure []

/-- `_TLS_VERSIONS.get(code)`. -/
def versionOfCode (code : Nat) : Option String := tlsVersions.lookup code

/-- `decode_tls_version`. -/
def decodeTlsVersion (value : Val) : Result (Option String) :=
  match value with
  | .str raw =>
      let text := strip raw
      if text = "" ∨ 16 < text.length then pure none
      else
        match versionAliases.lookup (Py.removeChar '.' (Py.removeChar ' ' (lower text))) with
        | some version => pure (some version)
        | none =>
            if (tlsVersions.map (·.2)).contains text then pure (some text)
            else do pure ((← asInt (.str text)).bind versionOfCode)
  | _ => do pure ((← asInt value).bind versionOfCode)

/-! ## The history -/

/-- The message a letter stands for. The case of a letter is the direction, and a flip has none of
its own. -/
def messageOf (letter : Char) : HandshakeMessage :=
  if letter = '^' then
    { kind := .directionFlip, direction := .orig, historyLetter := letter,
      evidenceState := .observed }
  else
    { kind :=
        match Py.lowerChar letter with
        | [c] => (historyKind.lookup c).getD .unknown
        | _ => .unknown
      direction := if Py.isUpperChar letter then .orig else .resp
      historyLetter := letter
      evidenceState := .inferred }

/-- `messages_from_ssl_history`. -/
def messagesFromSslHistory (sslHistory : String) : List HandshakeMessage :=
  (sslHistory.toList.take maxHistoryLen).map messageOf

/-- `_has_server_hello`. -/
def hasServerHello (sslHistory : String) : Bool := isIn "s" sslHistory || isIn "j" sslHistory

/-- `resolve_selected_version`. A version is selected only where a server answered; what the client
lists is kept beside it. -/
def resolveSelectedVersion (row : Record) (sslHistory : String) : Result TlsVersionEvidence := do
  let clientVersions ← asIntList (row.get "client_supported_versions") 64
  let serverSupported ← decodeTlsVersion (row.get "server_supported_version")
  let serverVersion ← decodeTlsVersion (row.get "server_version")
  let zeekVersion ← decodeTlsVersion (row.get "version")
  let hasServer := hasServerHello sslHistory
  let legacy := serverVersion.or (if hasServer then zeekVersion else none)
  let unselected : TlsVersionEvidence :=
    { evidenceState := if isIn "C" sslHistory then .incomplete else .notObservable
      legacyRecordVersion := legacy
      serverSupportedVersion := serverSupported
      clientSupportedVersions := clientVersions.filterMap versionOfCode }
  if serverSupported.isSome && hasServer then
    pure { unselected with
      selected := serverSupported, source := some .supportedVersions, evidenceState := .observed }
  else if hasServer && (legacy.isSome || zeekVersion.isSome) then
    pure { unselected with
      selected := legacy.or zeekVersion, source := some .legacyRecord, evidenceState := .observed
      legacyRecordVersion := legacy.or zeekVersion }
  else pure unselected

/-! ## Frames -/

/-- `_match_frame_uid`. -/
def matchFrameUid (frame : Record) (flows : List Flow) : Result (Option String) :=
  Normalize.matchFrameUid (asStr · maxHostLen) frame flows

/-- `_tshark_handshake_types`. -/
def tsharkHandshakeTypes (frame : Record) : Result (List Nat) :=
  asIntList (frame.get "tls.handshake.type") 16

/-- `_tshark_selected_group`. The field has two names, and its value may be in hexadecimal. -/
def tsharkSelectedGroup (frame : Record) : Result (Option Int) := do
  let raw :=
    match frame.get "tls.handshake.extensions_key_share_selected_group" with
    | .none => frame.get "tls.handshake.extensions.key_share.selected_group"
    | value => value
  match ← asInt raw with
  | some n => pure (some n)
  | none =>
      match raw with
      | .str s => pure (if startsWith (lower s) "0x" then Py.parseHex s else none)
      | _ => pure none

/-- The messages of each kind that no frame has been given to, and the messages so far. -/
structure Attachment where
  pending : Dict HandshakeMessageKind (List Nat)
  updated : List HandshakeMessage

/-- The positions of the messages, by kind. A flip of the direction is in the history and is no
message, so no frame goes to it. -/
def pendingOf (messages : List HandshakeMessage) : Dict HandshakeMessageKind (List Nat) :=
  messages.zipIdx.foldl
    (fun pending entry =>
      if entry.1.kind = .directionFlip then pending
      else pending.update entry.1.kind [] (· ++ [entry.2]))
    ∅

/-- The kind a handshake type stands for: a ServerHello that selects a group is a retry request. -/
def kindOfType (handshakeType : Nat) (selectedGroup : Option Int) : Option HandshakeMessageKind :=
  if handshakeType = 2 ∧ selectedGroup.isSome then some .helloRetryRequest
  else tsharkTypeToKind.lookup handshakeType

/-- The first message still waiting: of the kind itself, or for a retry request a ServerHello. -/
def waiting (pending : Dict HandshakeMessageKind (List Nat)) (kind : HandshakeMessageKind) :
    Option (HandshakeMessageKind × Nat × List Nat) :=
  match pending.get? kind with
  | some (i :: rest) => some (kind, i, rest)
  | _ =>
      if kind = .helloRetryRequest then
        match pending.get? .serverHello with
        | some (i :: rest) => some (.serverHello, i, rest)
        | _ => none
      else none

/-- One handshake type of a frame. A type that no message waits for is passed over, without a trace.
-/
def Attachment.attach (frameNumber : ℕ+) (selectedGroup : Option Int) (s : Attachment)
    (handshakeType : Nat) : Attachment :=
  match kindOfType handshakeType selectedGroup with
  | none => s
  | some kind =>
      match waiting s.pending kind with
      | none => s
      | some (list, target, rest) =>
          { pending := s.pending.set list rest
            updated := s.updated.modify target fun current =>
              { current with
                kind := kind, frameNumber := some frameNumber, evidenceState := .observed } }

/-- One frame. A frame without a number is not looked into, as there is nothing that could be cited.
-/
def attachFrame (s : Attachment) (frame : Record) : Result Attachment := do
  match ← asInt (frame.get "frame.number") with
  | none => pure s
  | some n =>
      if h : 0 < n then do
        let types ← tsharkHandshakeTypes frame
        let selectedGroup ← tsharkSelectedGroup frame
        pure (types.foldl (Attachment.attach ⟨n, h⟩ selectedGroup) s)
      else pure s

/-- `_attach_frames`. -/
def attachFrames (messages : List HandshakeMessage) (frames : List Record) :
    Result (List HandshakeMessage) := do
  let s ← frames.foldlM attachFrame { pending := pendingOf messages, updated := messages }
  pure s.updated

/-! ## The parts of a handshake -/

/-- `_visibility`. In TLS 1.3 the certificate is encrypted, and a handshake is in full view only if
it was decrypted. -/
def visibilityOf (sslHistory : String) (selectedVersion : Option String) (established : Bool)
    (serverCertificateState certificateVerifyState : EvidenceState) : HandshakeVisibility :=
  if sslHistory = "" then .notObservable
  else if selectedVersion = some "TLSv13" then
    if serverCertificateState = .observed ∧ certificateVerifyState = .observed then .full
    else .partly
  else if established && hasServerHello sslHistory && (isIn "x" sslHistory || isIn "n" sslHistory)
    then .full
  else .partly

/-- The reasons that leave the handshake itself in doubt. -/
def truncatedReasons : List ReconstructionReasonCode :=
  [.snaplenTruncation, .segmentGap, .captureLoss, .midstreamStart]

/-- `_handshake_evidence_state`. The state of the flow comes first, as nothing that was read of a
conflicting stream can be trusted. -/
def handshakeEvidenceState (flow : Option Flow) (version : TlsVersionEvidence)
    (established : Bool) : EvidenceState :=
  if flow.any (·.reconstructionQuality = .conflicting) then .conflicting
  else
    let truncated := flow.any fun f => f.reconstructionQuality = .incomplete &&
      f.reasonCode.any truncatedReasons.contains
    if truncated && !established then .incomplete
    else if version.evidenceState = .incomplete then .incomplete
    else if version.selected.isSome then .observed
    else version.evidenceState

/-- One half of `_certificate_states`, which has the same body for every version. -/
def letterState (letter sslHistory : String) : EvidenceState :=
  if isIn letter sslHistory then .observed else .notObservable

/-- `f"0x{n:04x}"`. -/
def hexText (n : Nat) : String :=
  let digits := Nat.toDigits 16 n
  "0x" ++ String.ofList (List.replicate (4 - digits.length) '0' ++ digits)

/-- `decode_signature_scheme`. A number without a name is kept as its text, so that an unknown
scheme can be told from none. -/
def decodeSignatureScheme (value : Val) : Result (Option String) :=
  match value with
  | .str raw =>
      let text := strip raw
      if text = "" ∨ maxNameLen < text.length then pure none
      else
        let lowered := Py.replaceChar '-' '_' (lower text)
        -- A number without a name keeps its text.
        if startsWith lowered "0x" then
          match Py.parseHex lowered with
          | none => pure (some lowered)
          | some n => pure (some ((signatureSchemes.lookup n).getD lowered))
        else if Py.isDigit lowered then
          match Py.parseInt lowered with
          | none => throw .valueError
          | some n => pure (some ((signatureSchemes.lookup n).getD lowered))
        else pure (some lowered)
  | _ => do
      pure ((← asInt value).map fun n : Nat =>
        (signatureSchemes.lookup (n : Int)).getD (hexText n))

/-- The signature algorithm field of a frame: of several, the last. -/
def signatureField (frame : Record) : Val :=
  let raw :=
    match frame.get "tls.handshake.sig_hash_alg" with
    | .none => frame.get "tls.handshake.signature_scheme"
    | value => value
  match raw with
  | .str s => .str (if isIn "," s then strip ((Py.splitOnChar ',' s).getLastD "") else s)
  | value => value

/-- The first algorithm a frame with a CertificateVerify names. -/
def verifyAlgorithm : List Record → Result (Option String)
  | [] => pure none
  | frame :: rest => do
      if !(← tsharkHandshakeTypes frame).contains 15 then verifyAlgorithm rest
      else match ← decodeSignatureScheme (signatureField frame) with
        | some algorithm => pure (some algorithm)
        | none => verifyAlgorithm rest

/-- `_certificate_verify_signature`. A message that was seen without its algorithm is incomplete
evidence, and one that was not seen is none. -/
def certificateVerifySignature (sslHistory : String) (frames : List Record) :
    Result HandshakeSignatureEvidence :=
  if !isIn "y" sslHistory && !isIn "Y" sslHistory then
    pure { evidenceState := .notObservable }
  else do
    match ← verifyAlgorithm frames with
    | some algorithm => pure { algorithm := some algorithm, evidenceState := .observed }
    | none => pure { evidenceState := .incomplete }

/-- `_cipher_evidence`. The name is only read where a server answered, and without a code it is an
inference. -/
def cipherEvidence (row : Record) (index : TlsParameterIndex) (serverHello : Bool) :
    CipherSuiteEvidence :=
  if !serverHello then { evidenceState := .incomplete }
  else match asStr (row.get "cipher") maxNameLen with
    | none => { evidenceState := .notObservable }
    | some name =>
        match index.cipherCode name with
        | none => { name := some name, evidenceState := .inferred }
        | some code => { name := some name, code := some code, evidenceState := .observed }

/-- The bounds of `KeyExchangeEvidence.selected_group_code`. -/
def validGroupCode : Option Int → Result (Option (Fin 65536))
  | none => pure none
  | some n =>
      if h : n.toNat < 65536 ∧ 0 ≤ n then pure (some ⟨n.toNat, h.1⟩)
      else throw (.validation "KeyExchangeEvidence" "selected_group_code")

/-- `_key_exchange_evidence`. The values are those of the row, and what is made of them depends on
the version that was selected. -/
def keyExchangeEvidence (row : Record) (version : TlsVersionEvidence) (index : TlsParameterIndex)
    (resumed : Bool) : Result KeyExchangeEvidence := do
  let loggedGroup ← asInt (row.get "server_key_share_group")
  let clientGroups ← asIntList (row.get "client_key_share_groups") 64
  let dhParamSize ← asInt (row.get "dh_param_size")
  let pskModes ← asIntList (row.get "psk_key_exchange_modes") 64
  let curve := asStr (row.get "curve") maxNameLen
  let logged : Option Int := loggedGroup.map Int.ofNat
  let named := index.groupName logged
  -- A curve stands in for the group where the registry has no name for it.
  let groupName := named.or curve
  let serverGroup := if named.isNone then logged.or (curve.bind index.groupCode) else logged
  let classified := Tls.classifyKeyExchange version.selected
    (asStr (row.get "cipher") maxNameLen) serverGroup clientGroups dhParamSize pskModes curve
    resumed groupName
  let code ← validGroupCode serverGroup
  pure
    { mechanism := classified.mechanism
      evidenceState := classified.evidenceState
      sourceFields := classified.sourceFields
      selectedGroup := groupName
      selectedGroupCode := code
      dhParamSize := dhParamSize
      pskKeyExchangeModes := pskModes.filterMap fun mode => Tls.pskModeName mode }

/-- The history of a row, as it is read. -/
def historyOf (row : Record) : String := (asStr (row.get "ssl_history") maxHistoryLen).getD ""

/-- `_handshake_from_row`. A row without a uid is passed over; one with a uid is a record whatever
else it has. -/
def handshakeFromRow (row : Record) (flow : Option Flow) (index : TlsParameterIndex)
    (frames : List Record) : Result (Option TlsHandshake) :=
  match asStr (row.get "uid") maxUidLen with
  | none => pure none
  | some uid => do
      let history := historyOf row
      let established := asBool (row.get "established") == some true
      let resumed := asBool (row.get "resumed") == some true
      let version ← resolveSelectedVersion row history
      let messages ← attachFrames (messagesFromSslHistory history) frames
      let keyExchange ← keyExchangeEvidence row version index resumed
      let signature ← certificateVerifySignature history frames
      pure (some
        { uid := uid
          sslHistory := history
          established := established
          resumed := resumed
          helloRetryRequest := messages.any (·.kind = .helloRetryRequest) || isIn "j" history
          lastAlert := asStr (row.get "last_alert") maxAlertLen
          visibility := visibilityOf history version.selected established
            (letterState "x" history) (letterState "y" history)
          version := version
          cipherSuite := cipherEvidence row index (hasServerHello history)
          keyExchange := keyExchange
          messages := messages
          serverCertificateState := letterState "x" history
          certificateVerifyState := letterState "y" history
          certificateVerifySignature := signature
          evidenceState := handshakeEvidenceState flow version established })

/-! ## The passes -/

/-- One frame: kept under its connection if it carries a handshake message. -/
def frameStep (flows : List Flow) (framesByUid : Dict String (List Record)) (frame : Record) :
    Result (Dict String (List Record)) := do
  if (← tsharkHandshakeTypes frame).isEmpty then pure framesByUid
  else match ← matchFrameUid frame flows with
    | none => pure framesByUid
    | some uid => pure (framesByUid.update uid [] (· ++ [frame]))

/-- One row: at most one more handshake. Rows of one connection make one record each, and the sort
at the end puts them side by side. -/
def rowStep (flowByUid : Dict String Flow) (index : TlsParameterIndex)
    (framesByUid : Dict String (List Record)) (handshakes : List TlsHandshake) (row : Record) :
    Result (List TlsHandshake) := do
  let uid := asStr (row.get "uid") maxUidLen
  match ← handshakeFromRow row (uid.bind flowByUid.get?) index
      ((framesByUid.get? (uid.getD "")).getD []) with
  | none => pure handshakes
  | some handshake => pure (handshakes ++ [handshake])

/-- `(a.uid, a.ssl_history) <= (b.uid, b.ssl_history)`. -/
def uidHistoryLe (a b : TlsHandshake) : Bool :=
  if a.uid ≠ b.uid then a.uid < b.uid else a.sslHistory ≤ b.sslHistory

/-- `normalize_handshakes`. The frames are grouped first, so that each row finds those of its
connection together. -/
def normalizeHandshakes (logs : Record) (flows : List Flow) (tlsParameters : TlsParameterIndex)
    (tsharkFrames : Option (List Val)) : Result (List TlsHandshake) := do
  let framesByUid ← (boundedRecords (.list (tsharkFrames.getD [])) maxFrames).foldlM
    (frameStep flows) ∅
  let handshakes ← (boundedRecords (getLog logs "ssl.log") maxRecords).foldlM
    (rowStep (Dict.ofList (·.uid) id flows) tlsParameters framesByUid) []
  pure (handshakes.insertionSort fun a b => uidHistoryLe a b = true)

/-! ## What the reader of strings reads -/

/-- A string of the limit's length or less is read as itself, a longer one not at all. -/
theorem asStr_str (s : String) (maxLen : Nat) :
    asStr (.str s) maxLen = if s = "" ∨ maxLen < s.length then none else some s := rfl

theorem eq_str_of_asStr {value : Val} {maxLen : Nat} {s : String}
    (h : asStr value maxLen = some s) : value = .str s := by
  cases value with
  | str raw =>
    rw [asStr_str] at h
    split at h
    · cases h
    · rw [Option.some.inj h]
  | _ => cases h

/-! ## What a handshake is made of -/

/-- The fields of the handshake a row yields, each with the function that computed it. A result
about one field cites that field's equation, and no proof takes the normalizer apart for it. -/
structure MadeFrom (row : Record) (flow : Option Flow) (index : TlsParameterIndex)
    (handshake : TlsHandshake) : Prop where
  uid : asStr (row.get "uid") maxUidLen = some handshake.uid
  sslHistory : handshake.sslHistory = historyOf row
  version : resolveSelectedVersion row (historyOf row) = .ok handshake.version
  cipherSuite : handshake.cipherSuite = cipherEvidence row index (hasServerHello (historyOf row))
  keyExchange :
    keyExchangeEvidence row handshake.version index handshake.resumed = .ok handshake.keyExchange
  evidenceState :
    handshake.evidenceState = handshakeEvidenceState flow handshake.version handshake.established

theorem handshakeFromRow_eq_ok {row : Record} {flow : Option Flow} {index : TlsParameterIndex}
    {frames : List Record} {made : Option TlsHandshake}
    (h : handshakeFromRow row flow index frames = .ok made) :
    match asStr (row.get "uid") maxUidLen with
    | none => made = none
    | some _ => ∃ handshake, made = some handshake ∧ MadeFrom row flow index handshake := by
  unfold handshakeFromRow at h
  cases huid : asStr (row.get "uid") maxUidLen with
  | none =>
    rw [huid] at h
    exact (Fallible.pure_eq_ok.mp h).symm
  | some uid =>
    rw [huid] at h
    obtain ⟨version, hversion, h⟩ := Fallible.bind_eq_ok.mp h
    obtain ⟨messages, _, h⟩ := Fallible.bind_eq_ok.mp h
    obtain ⟨keyExchange, hkeyExchange, h⟩ := Fallible.bind_eq_ok.mp h
    obtain ⟨signature, _, h⟩ := Fallible.bind_eq_ok.mp h
    exact ⟨_, (Fallible.pure_eq_ok.mp h).symm, huid, rfl, hversion, rfl, hkeyExchange, rfl⟩

theorem madeFrom_of_eq_ok {row : Record} {flow : Option Flow} {index : TlsParameterIndex}
    {frames : List Record} {handshake : TlsHandshake}
    (h : handshakeFromRow row flow index frames = .ok (some handshake)) :
    MadeFrom row flow index handshake := by
  have hspec := handshakeFromRow_eq_ok h
  cases huid : asStr (row.get "uid") maxUidLen with
  | none =>
    rw [huid] at hspec
    cases hspec
  | some uid =>
    rw [huid] at hspec
    obtain ⟨made, hsome, hmade⟩ := hspec
    cases hsome
    exact hmade

end Handshakes
end Normalize
end SecureMail
