import SecureMail.Normalize.Coerce
import SecureMail.Evidence.Handshake
import SecureMail.Pki.ChainValidation
import SecureMail.Pki.Der
import SecureMail.Pki.Identity
import SecureMail.Pki.KeyStrength
import SecureMail.Py.Dict
import Mathlib.Data.List.Sort

/-!
# `normalize_certificates`

Certificate records from the files Zeek extracted. A row of `ssl.log` names the files of its
connection by their fingerprints, one record for each, and where it names none but its history shows
a certificate the file logs are searched for the connection instead. Server leaves are then
validated against the trust store.

The certificate package, the two hashes and the store are parameters. The store is content
addressed, so what `get` answers is taken to be what the run has put.

Errors of the package while a certificate is read are caught and become states of the evidence, and
the model follows each handler: a file that is no certificate, one that is nested too deep, one
whose key or dates cannot be read. A record is kept once for its key, in the order of the rows, and
once there are 256 no more are kept.
-/

namespace SecureMail
namespace Normalize
namespace Certificates

open Py (Val Dict lower strip isIn)
open Pki (X509Library PublicKey TrustStoreSnapshot IdentityCodec PathReasonCode IdentityReasonCode
  ChainValidationResult maxChainDepth maxAsn1Depth asUtc)

def maxUidLen : Nat := 64
def maxFuidLen : Nat := 64
def maxFpLen : Nat := 64
def maxNameLen : Nat := 512
def maxErrorLen : Nat := 128
def maxSerialLen : Nat := 128
def maxServerName : Nat := 253
def maxCertificateDerBytes : Nat := 65536
def maxCertificatesPerRun : Nat := 256

/-- `_SIGNATURE_ALGORITHM_NAMES`, by the dotted object identifier. -/
def signatureAlgorithmNames : List (String × String) :=
  [("1.2.840.113549.1.1.5", "sha1WithRSAEncryption"),
   ("1.2.840.113549.1.1.14", "sha224WithRSAEncryption"),
   ("1.2.840.113549.1.1.11", "sha256WithRSAEncryption"),
   ("1.2.840.113549.1.1.12", "sha384WithRSAEncryption"),
   ("1.2.840.113549.1.1.13", "sha512WithRSAEncryption"),
   ("1.2.840.113549.1.1.10", "rsassaPss"), ("1.2.840.10045.4.1", "ecdsa-with-SHA1"),
   ("1.2.840.10045.4.3.1", "ecdsa-with-SHA224"), ("1.2.840.10045.4.3.2", "ecdsa-with-SHA256"),
   ("1.2.840.10045.4.3.3", "ecdsa-with-SHA384"), ("1.2.840.10045.4.3.4", "ecdsa-with-SHA512"),
   ("1.2.840.10040.4.3", "dsaWithSHA1"), ("2.16.840.1.101.3.4.3.1", "dsa-with-SHA224"),
   ("2.16.840.1.101.3.4.3.2", "dsa-with-SHA256"), ("1.3.101.112", "Ed25519"),
   ("1.3.101.113", "Ed448")]

/-- A file Zeek extracted. -/
structure ExtractedCertificate where
  sha256 : Sha256Hex
  fuid : Option String := none
  payload : List UInt8
  deriving DecidableEq

/-- The store: `get` is `none` where it raises `KeyError`. -/
structure ArtifactStore where
  put : List UInt8 → Result Sha256Hex
  get : Sha256Hex → Result (Option (List UInt8))

/-- What one run of the normalizer is given besides the logs. -/
structure Environment where
  lib : X509Library
  codec : IdentityCodec
  sha1 : List UInt8 → String
  store : ArtifactStore
  analysisTime : Py.Datetime
  expiryWarning : Int
  trustSnapshot : Option (TrustStoreSnapshot lib) := none
  expectedHostname : Option String := none

/-! ## Readers -/

/-- `_as_str`. -/
def asStr (value : Val) (maxLen : Nat) : Option String :=
  match value with
  | .str s => if s = "" ∨ maxLen < s.length then none else some s
  | _ => none

/-- `_as_str_list`. The limit counts entries before any is left out, so a list of junk at the front
hides what is behind it. -/
def asStrList (value : Val) (maxLen limit : Nat) : List String :=
  match value with
  | .str s =>
      let parts := ((Py.splitOnChar ',' s).map strip).filter (· ≠ "")
      ((parts.take limit).filter fun part => part.length ≤ maxLen).map lower
  | .list items => ((items.take limit).filterMap (asStr · maxLen)).map lower
  | _ => []

/-- `_bound_text`. -/
def boundText (value : String) (maxLen : Nat) : String :=
  if value.length ≤ maxLen then value else Py.takeChars maxLen value

/-- `_fingerprint`. -/
def fingerprint (value : String) : String := lower (strip (Py.removeChar ':' value))

/-- The error a time stamp out of range is. -/
def timestampError : Py.TimestampError → Error
  | .value => .valueError
  | .overflow => .overflowError
  | .os => .osError

/-- `datetime.fromtimestamp(x, tz=UTC)`. -/
def fromTimestamp (x : Py.Float) : Result Py.Datetime :=
  match Py.Datetime.fromTimestamp x with
  | .ok t => pure t
  | .error e => throw (timestampError e)

/-- `_epoch_to_datetime`: only a string's `ValueError` is caught. -/
def epochToDatetime (value : Val) : Result (Option Py.Datetime) :=
  match value with
  | .int n =>
      if n < 0 then pure none
      else match Py.Float.ofInt? n with
        | none => throw .overflowError
        | some x => some <$> fromTimestamp x
  | .float x => if x.lt (.ofNat 0) then pure none else some <$> fromTimestamp x
  | .str s =>
      match Py.parseFloat s with
      | none => pure none
      | some x =>
          match Py.Datetime.fromTimestamp x with
          | .ok t => pure (some t)
          | .error .value => pure none
          | .error e => throw (timestampError e)
  | _ => pure none

/-! ## One certificate -/

structure ParsedCertificate where
  syntaxValid : Bool
  syntaxError : Option String := none
  subject : Option String := none
  issuer : Option String := none
  serialNumber : Option String := none
  notBefore : Option Py.Datetime := none
  notAfter : Option Py.Datetime := none
  publicKeyAlgorithm : Option String := none
  publicKeySize : Option Int := none
  publicKeyCurve : Option String := none
  effectiveStrengthBits : Option Int := none
  signatureAlgorithm : Option String := none

/-- `_public_key_facts`. -/
def publicKeyFacts : PublicKey → Option String × Option Int × Option String
  | .rsa size => (some "RSA", some size, none)
  | .dsa size => (some "DSA", some size, none)
  | .ec size curve => (some "ECDSA", some size, some curve)
  | .ed25519 => (some "Ed25519", some 256, some "ed25519")
  | .ed448 => (some "Ed448", some 456, some "ed448")
  | .other className => (some (Py.removeSuffix className "PublicKey") |>.filter (· ≠ ""), none, none)

/-- `format(n, "x")`. -/
def hexSerial (n : Int) : String :=
  (if n < 0 then "-" else "") ++ String.ofList (Nat.toDigits 16 n.natAbs)

namespace Environment

variable (env : Environment)

/-- The facts of a certificate the package has parsed. -/
def factsOf (certificate : env.lib.Certificate) : Result ParsedCertificate := do
  let (algorithm, size, curve) := publicKeyFacts (← env.lib.publicKey certificate)
  let subject ← env.lib.rfc4514 (← env.lib.subject certificate)
  let issuer ← env.lib.rfc4514 (← env.lib.issuer certificate)
  let notBefore ← asUtc (env.lib.notValidBefore certificate)
  let notAfter ← asUtc (env.lib.notValidAfter certificate)
  let oid := env.lib.signatureAlgorithmOid certificate
  pure
    { syntaxValid := true
      subject := some (boundText subject maxNameLen)
      issuer := some (boundText issuer maxNameLen)
      serialNumber := some (boundText (hexSerial (env.lib.serialNumber certificate)) maxSerialLen)
      notBefore := some notBefore
      notAfter := some notAfter
      publicKeyAlgorithm := algorithm
      publicKeySize := size
      publicKeyCurve := curve
      effectiveStrengthBits := Pki.effectiveStrengthBits algorithm size curve
      signatureAlgorithm := some ((signatureAlgorithmNames.lookup oid).getD oid) }

/-- `parse_certificate_der`. -/
def parseCertificateDer (payload : List UInt8) : Result ParsedCertificate := do
  if maxCertificateDerBytes < payload.length then
    pure { syntaxValid := false, syntaxError := some "certificate_exceeds_size_limit" }
  else if maxAsn1Depth < (← Pki.derNestingDepth payload) then
    pure { syntaxValid := false, syntaxError := some "certificate_asn1_nesting_exceeds_limit" }
  else match env.lib.loadDer payload with
    | .error .valueError =>
        pure { syntaxValid := false, syntaxError := some "certificate_der_invalid" }
    | .error (.other _) =>
        pure { syntaxValid := false, syntaxError := some "certificate_parse_failed" }
    | .ok certificate => env.factsOf certificate

end Environment

/-- `a <= b`; a naive and an aware reading do not compare. -/
def timeLe (a b : Py.Datetime) : Result Bool :=
  match b.lt? a with
  | some later => pure !later
  | none => throw .typeError

/-- `validity_at`. -/
def validityAt (instant notBefore notAfter : Py.Datetime) : Result Bool := do
  if ← timeLe notBefore instant then timeLe instant notAfter else pure false

/-- `expires_within_warning`. -/
def expiresWithinWarning (instant notAfter : Py.Datetime) (window : Int) : Result Bool := do
  if ← timeLe instant notAfter then pure (notAfter.instant - instant.instant ≤ window)
  else pure false

/-- The frames a handshake's Certificate messages came in, each once. -/
def certificateFrames (handshake : Option TlsHandshake) : List Nat :=
  let numbers := (handshake.map (·.messages)).getD [] |>.filterMap fun message =>
    if message.kind = .certificate then message.frameNumber.map (·.val) else none
  Dict.fromKeys numbers

/-- Where a record comes from. -/
structure Sighting where
  uid : String
  chainIndex : Nat
  role : CertificateRole
  sourceFrames : List Nat
  captureTime : Option Py.Datetime
  truncated : Bool

/-- `_to_evidence`. -/
def Environment.toEvidence (env : Environment) (payload : List UInt8) (digest : Sha256Hex)
    (sighting : Sighting) : Result CertificateEvidence := do
  let parsed ← env.parseCertificateDer payload
  let syntaxValid := parsed.syntaxValid && !sighting.truncated
  -- A file that was cut is not valid any more here, so the text for it is never given.
  let cut := sighting.truncated && syntaxValid
  let syntaxError := if cut then some "certificate_extract_truncated" else parsed.syntaxError
  let (validCapture, validAnalysis, warning) ←
    match parsed.notBefore, parsed.notAfter with
    | some notBefore, some notAfter => do
        let capture ← sighting.captureTime.mapM fun time => validityAt time notBefore notAfter
        let analysis ← validityAt env.analysisTime notBefore notAfter
        let warning ← expiresWithinWarning env.analysisTime notAfter env.expiryWarning
        pure (capture, some analysis, some warning)
    | _, _ => pure (none, none, none)
  if !(syntaxValid && !cut) then
    pure
      { derSha256 := digest
        uid := sighting.uid
        chainIndex := sighting.chainIndex
        role := sighting.role
        sourceFrames := sighting.sourceFrames
        syntaxValid := false
        syntaxError := syntaxError.map (boundText · maxErrorLen)
        evidenceState := if sighting.truncated then .incomplete else .observed }
  else
    pure
      { derSha256 := digest
        uid := sighting.uid
        chainIndex := sighting.chainIndex
        role := sighting.role
        sourceFrames := sighting.sourceFrames
        syntaxValid := true
        subject := parsed.subject
        issuer := parsed.issuer
        serialNumber := parsed.serialNumber
        notBefore := parsed.notBefore
        notAfter := parsed.notAfter
        validAtCaptureTime := validCapture
        validAtAnalysisTime := validAnalysis
        expiresWithinWarningWindow := warning
        publicKeyAlgorithm := parsed.publicKeyAlgorithm
        publicKeySize := parsed.publicKeySize
        publicKeyCurve := parsed.publicKeyCurve
        effectiveStrengthBits := parsed.effectiveStrengthBits
        signatureAlgorithm := parsed.signatureAlgorithm
        evidenceState := .observed }

/-! ## The extracted files -/

/-- The files by digest and by file id. -/
structure FileIndex where
  bySha256 : Dict String ExtractedCertificate := ∅
  bySha1 : Dict String ExtractedCertificate := ∅
  byFuid : Dict String ExtractedCertificate := ∅

/-- One file. -/
def Environment.indexStep (env : Environment) (index : FileIndex) (item : ExtractedCertificate) :
    FileIndex where
  bySha256 := index.bySha256.set item.sha256.val item
  bySha1 := index.bySha1.set (env.sha1 item.payload) item
  byFuid :=
    match item.fuid.filter (· ≠ "") with
    | some fuid => index.byFuid.set fuid item
    | none => index.byFuid

/-- `_index_extracted`. -/
def Environment.indexExtracted (env : Environment) (extracted : List ExtractedCertificate) :
    FileIndex :=
  (extracted.take maxCertificatesPerRun).foldl env.indexStep {}

namespace FileIndex

variable (index : FileIndex)

/-- `_match_fingerprint`. -/
def matchFingerprint (value : String) : Option ExtractedCertificate :=
  let token := fingerprint value
  if token.length = 64 then index.bySha256.get? token
  else if token.length = 40 then index.bySha1.get? token
  else none

/-- The file a row of a file log is about. -/
def fileOf (row : Record) : Option ExtractedCertificate :=
  ((asStr (row.get "sha256") 64).bind fun sha256 => index.bySha256.get? (lower sha256)).or <|
    ((asStr (row.get "sha1") 40).bind fun sha1 => index.bySha1.get? (lower sha1)).or <|
      (asStr (row.get "fuid") maxFuidLen).bind index.byFuid.get?

end FileIndex

/-- The row is about the connection: by its own uid, or among the connections of its file. -/
def aboutUid (row : Record) (uid : String) : Bool :=
  match asStr (row.get "uid") maxUidLen with
  | some rowUid => rowUid == uid
  | none => (asStrList (row.get "conn_uids") maxUidLen 8).contains uid

/-- A row of `files.log` counts when it was extracted from TLS, or does not say. -/
def fromSsl (row : Record) : Bool :=
  match asStr (row.get "source") 16 with
  | none => true
  | some source => source == "SSL"

/-- The files a row adds to those found so far. -/
def fileStep (index : FileIndex) (found : List ExtractedCertificate) (row : Record) :
    List ExtractedCertificate :=
  match index.fileOf row with
  | none => found
  | some file =>
      if found.any fun other => other.sha256 = file.sha256 then found else found ++ [file]

/-- The rows of a log. -/
def rowsOf (logs : Record) (name : String) : List Record :=
  boundedRecords (getLog logs name) maxRecords

/-- `_files_for_uid`. -/
def filesForUid (logs : Record) (uid : String) (index : FileIndex) : List ExtractedCertificate :=
  ((rowsOf logs "sm_cert.log").filter (aboutUid · uid) ++
    (rowsOf logs "files.log").filter fun row => aboutUid row uid && fromSsl row).foldl
      (fileStep index) []

/-- The file ids of the files that were cut. -/
def truncatedFuids (logs : Record) : List (Option String) :=
  ((rowsOf logs "sm_cert.log").filter fun row => asBool (row.get "truncated") = some true).map
    fun row => asStr (row.get "fuid") maxFuidLen

/-! ## The rows of `ssl.log` -/

/-- `item` is already there. -/
def sameRecord (item other : CertificateEvidence) : Bool :=
  other.uid = item.uid && other.chainIndex = item.chainIndex && other.role = item.role &&
    other.derSha256 = item.derSha256

/-- `add_record`. -/
def addRecord (records : List CertificateEvidence) (item : CertificateEvidence) :
    List CertificateEvidence :=
  if maxCertificatesPerRun ≤ records.length then records
  else if records.any (sameRecord item) then records
  else records ++ [item]

/-- A file that was seen becomes a record. -/
def Environment.sightStep (env : Environment) (records : List CertificateEvidence)
    (seen : ExtractedCertificate × Sighting) : Result (List CertificateEvidence) := do
  let digest ← env.store.put seen.1.payload
  let item ← env.toEvidence seen.1.payload digest seen.2
  pure (addRecord records item)

/-- The certificates of the connection were not visible, and its history shows none. -/
def hiddenBy (handshake : TlsHandshake) : Bool :=
  handshake.serverCertificateState = .notObservable && !isIn "x" handshake.sslHistory &&
    !isIn "X" handshake.sslHistory

/-- What a row of `ssl.log` says of its certificates. -/
structure SslRow where
  uid : String
  frames : List Nat
  captureTime : Option Py.Datetime
  serverFps : List String
  clientFps : List String
  history : String

/-- The connection a row is read for, with its handshake. -/
def rowUid (handshakeByUid : Dict String TlsHandshake) (row : Record) : Option String :=
  (asStr (row.get "uid") maxUidLen).filter fun uid => !(handshakeByUid.get? uid).any hiddenBy

/-- The sightings of a list of fingerprints: the index is the place in the list. -/
def SslRow.sightingsOf (row : SslRow) (index : FileIndex) (role : CertificateRole)
    (fingerprints : List String) : List (ExtractedCertificate × Sighting) :=
  fingerprints.zipIdx.filterMap fun entry =>
    (index.matchFingerprint entry.1).map fun file =>
      (file,
        { uid := row.uid, chainIndex := entry.2, role := role, sourceFrames := row.frames,
          captureTime := row.captureTime, truncated := false })

/-- The sightings in the file logs, for a row that names no server certificate. -/
def SslRow.fallback (row : SslRow) (logs : Record) (index : FileIndex) :
    List (ExtractedCertificate × Sighting) :=
  if !row.serverFps.isEmpty || !(isIn "x" row.history || isIn "X" row.history) then []
  else
    (filesForUid logs row.uid index).zipIdx.map fun entry =>
      (entry.1,
        { uid := row.uid, chainIndex := entry.2, role := .server, sourceFrames := row.frames,
          captureTime := row.captureTime
          truncated := (truncatedFuids logs).contains entry.1.fuid })

/-- The certificates a row shows, in order. -/
def SslRow.sightings (row : SslRow) (logs : Record) (index : FileIndex) :
    List (ExtractedCertificate × Sighting) :=
  row.sightingsOf index .server row.serverFps ++ row.sightingsOf index .client row.clientFps ++
    row.fallback logs index

/-- The fields of a row. -/
def sslRowOf (handshakeByUid : Dict String TlsHandshake) (row : Record) (uid : String) :
    Result SslRow := do
  let captureTime ← epochToDatetime (row.get "ts")
  pure
    { uid := uid
      frames := certificateFrames (handshakeByUid.get? uid)
      captureTime := captureTime
      serverFps := asStrList (row.get "cert_chain_fps") maxFpLen maxChainDepth
      clientFps := asStrList (row.get "client_cert_chain_fps") maxFpLen maxChainDepth
      history := (asStr (row.get "ssl_history") 100).getD "" }

/-- One row of `ssl.log`. -/
def Environment.rowStep (env : Environment) (logs : Record) (index : FileIndex)
    (handshakeByUid : Dict String TlsHandshake) (records : List CertificateEvidence)
    (row : Record) : Result (List CertificateEvidence) :=
  match rowUid handshakeByUid row with
  | none => pure records
  | some uid => do
      let sslRow ← sslRowOf handshakeByUid row uid
      (sslRow.sightings logs index).foldlM env.sightStep records

/-! ## Validation -/

/-- One row of `ssl.log`, for `_ssl_identity_by_uid`. -/
def identityStep (identities : Dict String (Option Py.Datetime × Option String)) (row : Record) :
    Result (Dict String (Option Py.Datetime × Option String)) :=
  match asStr (row.get "uid") maxUidLen with
  | none => pure identities
  | some uid => do
      let captureTime ← epochToDatetime (row.get "ts")
      pure (identities.set uid (captureTime, asStr (row.get "server_name") maxServerName))

/-- `_ssl_identity_by_uid`. -/
def sslIdentityByUid (logs : Record) : Result (Dict String (Option Py.Datetime × Option String)) :=
  (rowsOf logs "ssl.log").foldlM identityStep ∅

/-- `_reference_identity`. -/
def referenceIdentity (expectedHostname serverName : Option String) :
    Option String × Option ReferenceIdentitySource :=
  match expectedHostname.filter (· ≠ "") with
  | some hostname => (some hostname, some .configured)
  | none =>
      match serverName.filter (· ≠ "") with
      | some name => (some name, some .sni)
      | none => (none, none)

namespace Environment

variable (env : Environment)

/-- `_load_x509`. Only `ValueError` is caught. -/
def loadX509 (digest : Sha256Hex) : Result (Option env.lib.Certificate) := do
  match ← env.store.get digest with
  | none => pure none
  | some payload =>
      match env.lib.loadDer payload with
      | .ok certificate => pure (some certificate)
      | .error .valueError => pure none
      | .error (.other e) => throw e

/-- The intermediates of a chain. -/
def intermediatesOf (chain : List CertificateEvidence) : Result (List env.lib.Certificate) :=
  (chain.filter fun item => item.chainIndex ≠ 0 && item.syntaxValid).filterMapM fun item =>
    env.loadX509 item.derSha256

/-- A validation that says no more than whose certificate it is. -/
def unvalidated (snapshot : TrustStoreSnapshot env.lib)
    (reference : Option String × Option ReferenceIdentitySource) (reasons : List String) :
    CertificateValidation where
  certificateObserved := true
  syntaxValid := some false
  revocationStatus := .unknown
  trustProfileId := snapshot.profileId
  trustStoreDigest := snapshot.digest
  referenceIdentity := reference.1
  referenceIdentitySource := reference.2
  indeterminateReasons := reasons

/-- `_validate_server_leaf`. -/
def validateServerLeaf (snapshot : TrustStoreSnapshot env.lib) (leaf : CertificateEvidence)
    (chain : List CertificateEvidence) (captureTime : Option Py.Datetime)
    (serverName : Option String) (expectedHostname : Option String) :
    Result CertificateValidation := do
  let reference := referenceIdentity expectedHostname serverName
  if !leaf.syntaxValid then
    let reasons := [PathReasonCode.syntaxInvalidLeaf.value] ++
      (if reference.1.isNone then [IdentityReasonCode.referenceIdentityUnavailable.value] else [])
    pure (env.unvalidated snapshot reference reasons)
  else
    match ← env.loadX509 leaf.derSha256 with
    | none => pure (env.unvalidated snapshot reference [PathReasonCode.syntaxInvalidLeaf.value])
    | some parsedLeaf => do
        let intermediates ← env.intermediatesOf chain
        let capture ← captureTime.mapM fun time =>
          Pki.validateCertificatePath parsedLeaf intermediates snapshot time
        let analysis ←
          Pki.validateCertificatePath parsedLeaf intermediates snapshot env.analysisTime
        let entries ← env.codec.extractSanEntries parsedLeaf
        let identity := env.codec.matchServiceIdentity reference.1 entries
        pure
          { certificateObserved := true
            syntaxValid := some true
            pathValidAtCaptureTime := capture.bind (·.valid)
            pathValidAtAnalysisTime := analysis.valid
            pathInvalidReasonsAtCaptureTime :=
              (capture.map (·.reasonCodes)).getD [] |>.map (·.value)
            pathInvalidReasonsAtAnalysisTime := analysis.reasonCodes.map (·.value)
            identityMatch := identity.match
            identityMismatchReasons :=
              if identity.match = some false then identity.reasonCodes.map (·.value) else []
            referenceIdentity := reference.1
            referenceIdentitySource := reference.2
            revocationStatus := .unknown
            trustProfileId := snapshot.profileId
            trustStoreDigest := snapshot.digest
            indeterminateReasons :=
              (if captureTime.isNone then [PathReasonCode.captureTimeUnavailable.value] else []) ++
                (if identity.match.isNone then identity.reasonCodes.map (·.value) else []) }

/-- One record: a server leaf is validated. -/
def attachStep (snapshot : TrustStoreSnapshot env.lib) (records : List CertificateEvidence)
    (identities : Dict String (Option Py.Datetime × Option String))
    (expectedHostname : Option String) (item : CertificateEvidence) :
    Result CertificateEvidence := do
  if item.role ≠ .server ∨ item.chainIndex ≠ 0 then pure item
  else
    let chain := records.filter fun candidate => candidate.uid = item.uid && candidate.role = .server
    let (captureTime, serverName) := (identities.get? item.uid).getD (none, none)
    let validation ←
      env.validateServerLeaf snapshot item chain captureTime serverName expectedHostname
    pure { item with validation := some validation }

/-- `_attach_validations`. -/
def attachValidations (snapshot : TrustStoreSnapshot env.lib) (records : List CertificateEvidence)
    (logs : Record) (expectedHostname : Option String) : Result (List CertificateEvidence) := do
  let identities ← sslIdentityByUid logs
  records.mapM (env.attachStep snapshot records identities expectedHostname)

end Environment

/-- The order of emission. -/
def certificateOrdering (a b : CertificateEvidence) : Ordering :=
  (Ord.compare a.uid b.uid).then <|
    (Ord.compare a.role.value b.role.value).then <|
      (Ord.compare a.chainIndex b.chainIndex).then (Ord.compare a.derSha256.val b.derSha256.val)

/-- The records of the rows, in order. -/
def Environment.collect (env : Environment) (logs : Record)
    (extracted : List ExtractedCertificate) (handshakes : List TlsHandshake) :
    Result (List CertificateEvidence) := do
  let records ← (rowsOf logs "ssl.log").foldlM
    (env.rowStep logs (env.indexExtracted extracted) (Dict.ofList (·.uid) id handshakes)) []
  pure (records.insertionSort fun a b => (certificateOrdering a b).isLE = true)

/-- `normalize_certificates`. -/
def Environment.normalizeCertificates (env : Environment) (logs : Record)
    (extracted : List ExtractedCertificate) (handshakes : List TlsHandshake) :
    Result (List CertificateEvidence) := do
  let records ← env.collect logs extracted handshakes
  match env.trustSnapshot with
  | none => pure records
  | some snapshot =>
      env.attachValidations snapshot records logs
        ((env.expectedHostname.map strip).filter (· ≠ ""))

end Certificates
end Normalize
end SecureMail
