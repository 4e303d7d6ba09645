import SecureMail.Normalize.Readable
import SecureMail.Normalize.Visibility
import SecureMail.Pki.Nesting

/-!
# Logs `normalize_certificates` can read

Of a row of `ssl.log` one value is converted in a way that can fail, its time stamp: it is read once
the row passes the gate, and, where there is a trust store, once more for every row with a uid.

What else is asked, is asked of the certificate package and of the store about the files that were
extracted. `Answers` is what the run relies on there.

The assumptions on the package are those its documentation makes: a certificate that was loaded
answers the questions about its fields or raises what the code catches. The store is asked for what
was put into it in the same run. With these the condition on the logs is exact, and it is the
weakest of the four normalizers, since the file logs are read by conversions that cannot fail.
-/

namespace SecureMail
namespace Normalize
namespace Certificates

open Py (Val Dict)
open Pki (TrustStoreSnapshot asUtc)
open Fallible (Returns returns_pure returns_bind returns_bind_pure returns_ite
  returns_mapM_iff returns_filterMapM_iff returns_mapM_option_iff
  returns_foldlM_iff_forall)

/-! ## What the package and the store are relied on for -/

/-- The run asks about the anchors, and about every file that loads. -/
def Asked (env : Environment) (extracted : List ExtractedCertificate)
    (certificate : env.lib.Certificate) : Prop :=
  (∃ file ∈ extracted, env.lib.loadDer file.payload = .ok certificate) ∨
    ∃ snapshot ∈ env.trustSnapshot, certificate ∈ snapshot.anchors

/-- The package answers about a certificate: its key, its two names and their texts, its validity
in UTC, its alternative names, and whether it verifies. -/
structure Describable (env : Environment) (certificate : env.lib.Certificate) : Prop where
  publicKey : Returns (env.lib.publicKey certificate)
  subject : Returns (env.lib.subject certificate)
  issuer : Returns (env.lib.issuer certificate)
  subjectText : ∀ name, env.lib.subject certificate = .ok name → Returns (env.lib.rfc4514 name)
  issuerText : ∀ name, env.lib.issuer certificate = .ok name → Returns (env.lib.rfc4514 name)
  notValidBefore : (env.lib.notValidBefore certificate).offset = some 0
  notValidAfter : (env.lib.notValidAfter certificate).offset = some 0
  subjectAltNames : Returns (env.lib.subjectAltNames certificate)
  verify : ∀ anchors instant intermediates,
    Returns (env.lib.verify anchors instant certificate intermediates)

/-- The store takes every file and gives back what it took, the package answers what it is asked,
and the instant of the analysis is in UTC. -/
structure Answers (env : Environment) (extracted : List ExtractedCertificate) : Prop where
  put : ∀ file ∈ extracted, Returns (env.store.put file.payload)
  get : ∀ file ∈ extracted, ∀ digest, env.store.put file.payload = .ok digest →
    env.store.get digest = .ok (some file.payload)
  describable : ∀ certificate, Asked env extracted certificate → Describable env certificate
  analysisTime : env.analysisTime.offset = some 0

/-! ## Instants in UTC -/

theorem asUtc_of_utc {t : Py.Datetime} (h : t.offset = some 0) : asUtc t = .ok t := by
  obtain ⟨micros, offset, hrange⟩ := t
  obtain rfl : offset = some 0 := h
  unfold Pki.asUtc Py.Datetime.asUtc?
  simp only [Int.sub_zero]
  rw [dif_pos hrange]
  rfl

theorem returns_timeLe {a b : Py.Datetime} (ha : a.offset = some 0) (hb : b.offset = some 0) :
    Returns (timeLe a b) := by
  unfold timeLe
  have hsome : (b.lt? a).isSome = true := by rw [Py.Datetime.lt?_isSome, ha, hb]
  obtain ⟨later, hlater⟩ := Option.isSome_iff_exists.mp hsome
  rw [hlater]
  exact returns_pure _

theorem returns_validityAt {instant notBefore notAfter : Py.Datetime}
    (hinstant : instant.offset = some 0) (hbefore : notBefore.offset = some 0)
    (hafter : notAfter.offset = some 0) : Returns (validityAt instant notBefore notAfter) := by
  unfold validityAt
  refine returns_bind.mpr ⟨returns_timeLe hbefore hinstant, fun started _ => ?_⟩
  exact returns_ite (returns_timeLe hinstant hafter) (returns_pure _)

theorem returns_expiresWithinWarning {instant notAfter : Py.Datetime} (window : Int)
    (hinstant : instant.offset = some 0) (hafter : notAfter.offset = some 0) :
    Returns (expiresWithinWarning instant notAfter window) := by
  unfold expiresWithinWarning
  refine returns_bind.mpr ⟨returns_timeLe hinstant hafter, fun valid _ => ?_⟩
  exact returns_ite (returns_pure _) (returns_pure _)

/-! ## One certificate -/

section

variable {env : Environment} {extracted : List ExtractedCertificate}

theorem returns_factsOf (h : Answers env extracted) {certificate : env.lib.Certificate}
    (hasked : Asked env extracted certificate) : Returns (env.factsOf certificate) := by
  have hd := h.describable certificate hasked
  unfold Environment.factsOf
  rw [asUtc_of_utc hd.notValidBefore, asUtc_of_utc hd.notValidAfter]
  refine returns_bind.mpr ⟨hd.publicKey, fun key _ => ?_⟩
  refine returns_bind.mpr ⟨hd.subject, fun subject hsubject => ?_⟩
  refine returns_bind.mpr ⟨hd.subjectText subject hsubject, fun subjectText _ => ?_⟩
  refine returns_bind.mpr ⟨hd.issuer, fun issuer hissuer => ?_⟩
  exact returns_bind.mpr ⟨hd.issuerText issuer hissuer, fun issuerText _ => returns_pure _⟩

/-- The validity of what was parsed is in UTC. -/
theorem factsOf_utc (h : Answers env extracted) {certificate : env.lib.Certificate}
    (hasked : Asked env extracted certificate) {parsed : ParsedCertificate}
    (hparsed : env.factsOf certificate = .ok parsed) :
    (∀ t ∈ parsed.notBefore, t.offset = some 0) ∧ ∀ t ∈ parsed.notAfter, t.offset = some 0 := by
  have hd := h.describable certificate hasked
  unfold Environment.factsOf at hparsed
  rw [asUtc_of_utc hd.notValidBefore, asUtc_of_utc hd.notValidAfter] at hparsed
  obtain ⟨key, -, hparsed⟩ := Fallible.bind_eq_ok.mp hparsed
  obtain ⟨subject, -, hparsed⟩ := Fallible.bind_eq_ok.mp hparsed
  obtain ⟨subjectText, -, hparsed⟩ := Fallible.bind_eq_ok.mp hparsed
  obtain ⟨issuer, -, hparsed⟩ := Fallible.bind_eq_ok.mp hparsed
  obtain ⟨issuerText, -, hparsed⟩ := Fallible.bind_eq_ok.mp hparsed
  obtain rfl := Fallible.pure_eq_ok.mp hparsed
  refine ⟨?_, ?_⟩
  · rintro t ⟨⟩
    exact hd.notValidBefore
  · rintro t ⟨⟩
    exact hd.notValidAfter

/-- What parsing a file leaves: a validity in UTC, and a certificate behind what is valid. -/
structure ParsedFrom (env : Environment) (payload : List UInt8) (parsed : ParsedCertificate) :
    Prop where
  notBefore : ∀ t ∈ parsed.notBefore, t.offset = some 0
  notAfter : ∀ t ∈ parsed.notAfter, t.offset = some 0
  loads : parsed.syntaxValid = true → ∃ certificate, env.lib.loadDer payload = .ok certificate

theorem parsedFrom_refused (env : Environment) (payload : List UInt8) (error : Option String) :
    ParsedFrom env payload { syntaxValid := false, syntaxError := error } where
  notBefore := by simp
  notAfter := by simp
  loads := by simp

/-- **An extracted file is always parsed.** A file that is no certificate is parsed as well, into
evidence that says so. -/
theorem parseCertificateDer_spec (h : Answers env extracted) {file : ExtractedCertificate}
    (hfile : file ∈ extracted) :
    ∃ parsed, env.parseCertificateDer file.payload = .ok parsed ∧
      ParsedFrom env file.payload parsed := by
  unfold Environment.parseCertificateDer
  split
  · exact ⟨_, rfl, parsedFrom_refused env file.payload _⟩
  obtain ⟨depth, hdepth, -⟩ := Pki.derNestingDepth_exact file.payload Pki.maxAsn1Depth
  rw [hdepth]
  show ∃ parsed, (if Pki.maxAsn1Depth < depth then _ else _) = _ ∧ _
  split
  · exact ⟨_, rfl, parsedFrom_refused env file.payload _⟩
  cases hload : env.lib.loadDer file.payload with
  | error failure =>
    cases failure with
    | valueError => exact ⟨_, rfl, parsedFrom_refused env file.payload _⟩
    | other e => exact ⟨_, rfl, parsedFrom_refused env file.payload _⟩
  | ok certificate =>
    have hasked : Asked env extracted certificate := Or.inl ⟨file, hfile, hload⟩
    obtain ⟨parsed, hparsed⟩ := returns_factsOf h hasked
    obtain ⟨hbefore, hafter⟩ := factsOf_utc h hasked hparsed
    exact ⟨parsed, hparsed, ⟨hbefore, hafter, fun _ => ⟨certificate, hload⟩⟩⟩

/-- The file behind a record: it was put under the record's digest, and loads if the record is
valid. -/
def BackedBy (env : Environment) (extracted : List ExtractedCertificate)
    (item : CertificateEvidence) : Prop :=
  ∃ file ∈ extracted, env.store.put file.payload = .ok item.derSha256 ∧
    (item.syntaxValid = true → ∃ certificate, env.lib.loadDer file.payload = .ok certificate)

/-- **A file that was sighted becomes a record**, at whatever time it was captured. The times of a
certificate are in range by then, or it was refused. -/
theorem returns_toEvidence (h : Answers env extracted) {file : ExtractedCertificate}
    (hfile : file ∈ extracted) {digest : Sha256Hex} {sighting : Sighting}
    (hcapture : ∀ t ∈ sighting.captureTime, t.offset = some 0) :
    Returns (env.toEvidence file.payload digest sighting) := by
  obtain ⟨parsed, hparsed, hfrom⟩ := parseCertificateDer_spec h hfile
  unfold Environment.toEvidence
  refine returns_bind.mpr ⟨⟨parsed, hparsed⟩, ?_⟩
  intro parsed' hparsed'
  obtain rfl := Except.ok.inj (hparsed.symm.trans hparsed')
  dsimp only
  split
  · rename_i notBefore notAfter hnotBefore hnotAfter
    have hbefore := hfrom.notBefore notBefore hnotBefore
    have hafter := hfrom.notAfter notAfter hnotAfter
    refine returns_bind.mpr ⟨returns_mapM_option_iff.mpr fun time htime =>
      returns_validityAt (hcapture time htime) hbefore hafter, fun capture _ => ?_⟩
    refine returns_bind.mpr ⟨returns_validityAt h.analysisTime hbefore hafter, fun analysis _ => ?_⟩
    refine returns_bind.mpr ⟨returns_expiresWithinWarning _ h.analysisTime hafter,
      fun warning _ => ?_⟩
    exact returns_ite (returns_pure _) (returns_pure _)
  · exact returns_ite (returns_pure _) (returns_pure _)

theorem backedBy_of_toEvidence (h : Answers env extracted) {file : ExtractedCertificate}
    (hfile : file ∈ extracted) {digest : Sha256Hex}
    (hput : env.store.put file.payload = .ok digest) {sighting : Sighting}
    {item : CertificateEvidence} (hitem : env.toEvidence file.payload digest sighting = .ok item) :
    BackedBy env extracted item := by
  obtain ⟨parsed, hparsed, hfrom⟩ := parseCertificateDer_spec h hfile
  unfold Environment.toEvidence at hitem
  rw [hparsed] at hitem
  have hrecord : ∀ made : CertificateEvidence, made.derSha256 = digest →
      (made.syntaxValid = true → parsed.syntaxValid = true) → BackedBy env extracted made := by
    rintro made rfl hvalid
    exact ⟨file, hfile, hput, fun hmade => hfrom.loads (hvalid hmade)⟩
  obtain ⟨parsed', hparsed', hitem⟩ := Fallible.bind_eq_ok.mp hitem
  obtain rfl := Except.ok.inj hparsed'
  dsimp only at hitem
  split at hitem
  case' h_1 =>
    obtain ⟨capture, -, hitem⟩ := Fallible.bind_eq_ok.mp hitem
    obtain ⟨analysis, -, hitem⟩ := Fallible.bind_eq_ok.mp hitem
    obtain ⟨warning, -, hitem⟩ := Fallible.bind_eq_ok.mp hitem
  all_goals
    obtain ⟨validity, -, hitem⟩ := Fallible.bind_eq_ok.mp hitem
    split at hitem
    · obtain rfl := Fallible.pure_eq_ok.mp hitem
      exact hrecord _ rfl (by simp)
    · rename_i hvalid
      obtain rfl := Fallible.pure_eq_ok.mp hitem
      refine hrecord _ rfl fun _ => ?_
      cases hreparsed : parsed.syntaxValid with
      | true => rfl
      | false => simp [hreparsed] at hvalid

/-! ## The files of a row -/

/-- The index holds extracted files only. -/
structure Within (index : FileIndex) (extracted : List ExtractedCertificate) : Prop where
  bySha256 : ∀ key file, index.bySha256.get? key = some file → file ∈ extracted
  bySha1 : ∀ key file, index.bySha1.get? key = some file → file ∈ extracted
  byFuid : ∀ key file, index.byFuid.get? key = some file → file ∈ extracted

/-- What is in a table after an entry is made was there before, or is what was entered. -/
theorem mem_of_get?_set {table : Dict String ExtractedCertificate} {entered : String}
    {file : ExtractedCertificate}
    (htable : ∀ key file, table.get? key = some file → file ∈ extracted) (hfile : file ∈ extracted) :
    ∀ key found, (table.set entered file).get? key = some found → found ∈ extracted := by
  intro key found hfound
  rw [Dict.get?_set] at hfound
  split at hfound
  · obtain rfl := Option.some.inj hfound
    exact hfile
  · exact htable key found hfound

theorem Within.indexStep {index : FileIndex} (h : Within index extracted)
    {file : ExtractedCertificate} (hfile : file ∈ extracted) :
    Within (env.indexStep index file) extracted where
  bySha256 := mem_of_get?_set h.bySha256 hfile
  bySha1 := mem_of_get?_set h.bySha1 hfile
  byFuid := by
    unfold Environment.indexStep
    dsimp only
    split
    · exact mem_of_get?_set h.byFuid hfile
    · exact h.byFuid

theorem within_foldl_indexStep {files : List ExtractedCertificate} {index : FileIndex}
    (hfiles : ∀ file ∈ files, file ∈ extracted) (h : Within index extracted) :
    Within (files.foldl env.indexStep index) extracted := by
  induction files generalizing index with
  | nil => exact h
  | cons file rest ih =>
    rw [List.foldl_cons]
    exact ih (fun other hother => hfiles other (List.mem_cons_of_mem file hother))
      (h.indexStep (hfiles file List.mem_cons_self))

theorem within_indexExtracted : Within (env.indexExtracted extracted) extracted :=
  within_foldl_indexStep (fun _ hfile => List.mem_of_mem_take hfile)
    ⟨by simp, by simp, by simp⟩

namespace Within

variable {index : FileIndex} (h : Within index extracted)
include h

theorem matchFingerprint {value : String} {file : ExtractedCertificate}
    (hfile : index.matchFingerprint value = some file) : file ∈ extracted := by
  unfold FileIndex.matchFingerprint at hfile
  dsimp only at hfile
  split at hfile
  · exact h.bySha256 _ file hfile
  split at hfile
  · exact h.bySha1 _ file hfile
  · cases hfile

theorem fileOf {row : Record} {file : ExtractedCertificate} (hfile : index.fileOf row = some file) :
    file ∈ extracted := by
  rw [FileIndex.fileOf, Option.or_eq_some_iff, Option.or_eq_some_iff] at hfile
  rcases hfile with hsha256 | ⟨-, hsha1 | ⟨-, hfuid⟩⟩
  · obtain ⟨_, -, hget⟩ := Option.bind_eq_some_iff.mp hsha256
    exact h.bySha256 _ file hget
  · obtain ⟨_, -, hget⟩ := Option.bind_eq_some_iff.mp hsha1
    exact h.bySha1 _ file hget
  · obtain ⟨_, -, hget⟩ := Option.bind_eq_some_iff.mp hfuid
    exact h.byFuid _ file hget

theorem fileStep {found : List ExtractedCertificate} {row : Record}
    (hfound : ∀ file ∈ found, file ∈ extracted) :
    ∀ file ∈ fileStep index found row, file ∈ extracted := by
  unfold Certificates.fileStep
  cases hfile : index.fileOf row with
  | none => exact hfound
  | some file =>
    dsimp only
    split
    · exact hfound
    · intro other hother
      rcases List.mem_append.mp hother with hother | hother
      · exact hfound other hother
      · obtain rfl := List.mem_singleton.mp hother
        exact h.fileOf hfile

theorem foldl_fileStep {rows : List Record} {found : List ExtractedCertificate}
    (hfound : ∀ file ∈ found, file ∈ extracted) :
    ∀ file ∈ rows.foldl (Certificates.fileStep index) found, file ∈ extracted := by
  induction rows generalizing found with
  | nil => exact hfound
  | cons row rest ih => exact ih (h.fileStep hfound)

/-- **Every sighting is of an extracted file**, at the time of the row. The index of files has no
other entries, so a fingerprint cannot lead anywhere else. -/
theorem sightings {row : SslRow} {logs : Record} {seen : ExtractedCertificate × Sighting}
    (hseen : seen ∈ row.sightings logs index) :
    seen.1 ∈ extracted ∧ seen.2.captureTime = row.captureTime := by
  have hlisted : ∀ role fingerprints, seen ∈ row.sightingsOf index role fingerprints →
      seen.1 ∈ extracted ∧ seen.2.captureTime = row.captureTime := by
    intro role fingerprints hmem
    obtain ⟨entry, -, hmade⟩ := List.mem_filterMap.mp hmem
    obtain ⟨file, hfile, rfl⟩ := Option.map_eq_some_iff.mp hmade
    exact ⟨h.matchFingerprint hfile, rfl⟩
  rw [SslRow.sightings, List.mem_append, List.mem_append] at hseen
  rcases hseen with (hserver | hclient) | hfallback
  · exact hlisted .server row.serverFps hserver
  · exact hlisted .client row.clientFps hclient
  · unfold SslRow.fallback at hfallback
    split at hfallback
    · exact absurd hfallback List.not_mem_nil
    · obtain ⟨entry, hentry, rfl⟩ := List.mem_map.mp hfallback
      refine ⟨?_, rfl⟩
      have hmem : entry.1 ∈ filesForUid logs row.uid index := List.fst_mem_of_mem_zipIdx hentry
      exact h.foldl_fileStep (by simp) entry.1 hmem

end Within

/-! ## The rows -/

theorem captureTime_of_sslRow {handshakeByUid : Dict String TlsHandshake} {row : Record}
    {uid : String} {sslRow : SslRow} (hrow : sslRowOf handshakeByUid row uid = .ok sslRow) :
    ∀ t ∈ sslRow.captureTime, t.offset = some 0 := by
  obtain ⟨captureTime, htime, hrow⟩ := Fallible.bind_eq_ok.mp hrow
  obtain rfl := Fallible.pure_eq_ok.mp hrow
  intro t ht
  obtain rfl : captureTime = some t := ht
  exact epochToDatetime_offset htime

/-- A row is read to the end once its time stamp is. -/
theorem returns_rowStep_iff (h : Answers env extracted) {logs : Record} {index : FileIndex}
    (hindex : Within index extracted) {handshakeByUid : Dict String TlsHandshake}
    {records : List CertificateEvidence} {row : Record} :
    Returns (env.rowStep logs index handshakeByUid records row) ↔
      ((rowUid handshakeByUid row).isSome = true → TimeReadable (row.get "ts")) := by
  unfold Environment.rowStep
  cases rowUid handshakeByUid row with
  | none => simp [returns_pure]
  | some uid =>
    rw [returns_bind, ← returns_epochToDatetime_iff]
    have hfields : Returns (sslRowOf handshakeByUid row uid) ↔
        Returns (epochToDatetime (row.get "ts")) := returns_bind_pure
    rw [hfields]
    simp only [Option.isSome_some, true_implies]
    refine and_iff_left fun sslRow hsslRow => ?_
    refine (returns_foldlM_iff_forall (P := fun _ => True) ?_).mpr fun _ _ => trivial
    intro made seen hseen
    obtain ⟨hfile, htime⟩ := hindex.sightings hseen
    refine iff_true_intro (returns_bind.mpr ⟨h.put seen.1 hfile, fun digest _ => ?_⟩)
    refine returns_bind_pure.mpr (returns_toEvidence h hfile ?_)
    rw [htime]
    exact captureTime_of_sslRow hsslRow

/-- Every record of the rows has its file. -/
theorem backedBy_of_collect (h : Answers env extracted) {logs : Record}
    {handshakes : List TlsHandshake} {records : List CertificateEvidence}
    (hrecords : env.collect logs extracted handshakes = .ok records) :
    ∀ item ∈ records, BackedBy env extracted item := by
  obtain ⟨made, hmade, hrecords⟩ := Fallible.bind_eq_ok.mp hrecords
  obtain rfl := Fallible.pure_eq_ok.mp hrecords
  intro item hitem
  rw [(List.perm_insertionSort _ _).mem_iff] at hitem
  revert item
  refine Fallible.foldlM_invariant (P := fun made : List CertificateEvidence => ∀ item ∈ made,
    BackedBy env extracted item) hmade (by simp) ?_
  intro made made' row _ hstep ih
  unfold Environment.rowStep at hstep
  cases huid : rowUid (Dict.ofList (·.uid) id handshakes) row with
  | none =>
    rw [huid] at hstep
    obtain rfl := Fallible.pure_eq_ok.mp hstep
    exact ih
  | some uid =>
    rw [huid] at hstep
    obtain ⟨sslRow, -, hstep⟩ := Fallible.bind_eq_ok.mp hstep
    refine Fallible.foldlM_invariant (P := fun made : List CertificateEvidence => ∀ item ∈ made,
      BackedBy env extracted item) hstep ih ?_
    intro before after seen hseen hsight ih
    obtain ⟨digest, hput, hsight⟩ := Fallible.bind_eq_ok.mp hsight
    obtain ⟨item, hitem, hsight⟩ := Fallible.bind_eq_ok.mp hsight
    obtain rfl := Fallible.pure_eq_ok.mp hsight
    intro other hother
    rcases mem_addRecord hother with hother | rfl
    · exact ih other hother
    · exact backedBy_of_toEvidence h (within_indexExtracted.sightings hseen).1 hput hitem

/-! ## Validation -/

/-- A record that is valid is loaded again, from what the store took. -/
theorem loadX509_of_backedBy (h : Answers env extracted) {item : CertificateEvidence}
    (hitem : BackedBy env extracted item) (hvalid : item.syntaxValid = true) :
    ∃ certificate, env.loadX509 item.derSha256 = .ok (some certificate) ∧
      Asked env extracted certificate := by
  obtain ⟨file, hfile, hput, hloads⟩ := hitem
  obtain ⟨certificate, hload⟩ := hloads hvalid
  refine ⟨certificate, ?_, Or.inl ⟨file, hfile, hload⟩⟩
  refine Fallible.bind_eq_ok.mpr ⟨_, h.get file hfile item.derSha256 hput, ?_⟩
  dsimp only
  rw [hload]
  rfl

theorem returns_isAnchor (h : Answers env extracted) {snapshot : TrustStoreSnapshot env.lib}
    (hsnapshot : env.trustSnapshot = some snapshot) (name : env.lib.Name) :
    Returns (Pki.isAnchor snapshot name) := by
  unfold Pki.isAnchor Pki.anchorSubjects
  rw [returns_bind_pure, returns_mapM_iff]
  intro anchor hanchor
  exact (h.describable anchor (Or.inr ⟨snapshot, hsnapshot, hanchor⟩)).subject

theorem returns_mapVerificationFailure (h : Answers env extracted)
    {snapshot : TrustStoreSnapshot env.lib} (hsnapshot : env.trustSnapshot = some snapshot)
    {leaf : env.lib.Certificate} (hleaf : Asked env extracted leaf)
    (intermediates : List env.lib.Certificate) (instant : Py.Datetime) (error : String) :
    Returns (Pki.mapVerificationFailure leaf intermediates snapshot instant error) := by
  have hd := h.describable leaf hleaf
  have hself : Returns (Pki.isSelfSigned leaf) := by
    refine returns_bind.mpr ⟨hd.subject, fun subject _ => ?_⟩
    exact returns_bind_pure.mpr hd.issuer
  have horphan : Returns (if intermediates.isEmpty = true then do
        let issuer ← env.lib.issuer leaf
        let anchored ← Pki.isAnchor snapshot issuer
        pure (if (!anchored) = true then Pki.PathReasonCode.missingIntermediate
          else Pki.PathReasonCode.untrustedIssuer)
      else pure (if false = true then Pki.PathReasonCode.missingIntermediate
        else Pki.PathReasonCode.untrustedIssuer)) :=
    returns_ite (returns_bind.mpr ⟨hd.issuer, fun issuer _ =>
      returns_bind_pure.mpr (returns_isAnchor h hsnapshot issuer)⟩) (returns_pure _)
  unfold Pki.mapVerificationFailure
  simp only [pure_bind]
  split
  · exact returns_ite (returns_pure _) (returns_ite (returns_pure _) (returns_pure _))
  refine returns_ite (returns_pure _) (returns_ite (returns_pure _) (returns_ite (returns_pure _) ?_))
  refine returns_bind.mpr ⟨hself, fun selfSigned _ => ?_⟩
  split
  · refine returns_bind.mpr ⟨hd.subject, fun subject _ => ?_⟩
    refine returns_bind.mpr ⟨returns_isAnchor h hsnapshot subject, fun anchored _ => ?_⟩
    exact returns_ite (returns_pure _) horphan
  · exact returns_ite (returns_pure _) horphan

theorem returns_validateCertificatePath (h : Answers env extracted)
    {snapshot : TrustStoreSnapshot env.lib} (hsnapshot : env.trustSnapshot = some snapshot)
    {leaf : env.lib.Certificate} (hleaf : Asked env extracted leaf)
    (intermediates : List env.lib.Certificate) {time : Py.Datetime} (htime : time.offset = some 0) :
    Returns (Pki.validateCertificatePath leaf intermediates snapshot time) := by
  unfold Pki.validateCertificatePath
  refine returns_ite (returns_pure _) ?_
  refine returns_bind.mpr ⟨⟨time, asUtc_of_utc htime⟩, fun instant _ => ?_⟩
  have hverify := (h.describable leaf hleaf).verify snapshot.anchors instant intermediates
  refine returns_bind.mpr ⟨hverify, fun answer _ => ?_⟩
  cases answer with
  | none => exact returns_pure _
  | some error =>
    exact returns_bind_pure.mpr (returns_mapVerificationFailure h hsnapshot hleaf _ _ _)

theorem returns_extractSanEntries (h : Answers env extracted) {leaf : env.lib.Certificate}
    (hleaf : Asked env extracted leaf) : Returns (env.codec.extractSanEntries leaf) := by
  unfold Pki.IdentityCodec.extractSanEntries
  refine returns_bind.mpr ⟨(h.describable leaf hleaf).subjectAltNames, fun names _ => ?_⟩
  cases names with
  | none => exact returns_pure _
  | some names => exact returns_pure _

/-- **A server leaf is validated**, whatever its chain holds. A refusal of the package is a reason
in the evidence and no exception. -/
theorem returns_validateServerLeaf (h : Answers env extracted)
    {snapshot : TrustStoreSnapshot env.lib} (hsnapshot : env.trustSnapshot = some snapshot)
    {leaf : CertificateEvidence} {chain : List CertificateEvidence}
    (hleaf : BackedBy env extracted leaf) (hchain : ∀ item ∈ chain, BackedBy env extracted item)
    {captureTime : Option Py.Datetime} (hcapture : ∀ t ∈ captureTime, t.offset = some 0)
    (serverName expectedHostname : Option String) :
    Returns (env.validateServerLeaf snapshot leaf chain captureTime serverName expectedHostname) := by
  unfold Environment.validateServerLeaf
  dsimp only
  split
  · exact returns_pure _
  rename_i hvalid
  have hvalid : leaf.syntaxValid = true := by simpa using hvalid
  obtain ⟨parsedLeaf, hload, hasked⟩ := loadX509_of_backedBy h hleaf hvalid
  have hintermediates : Returns (env.intermediatesOf chain) := by
    refine returns_filterMapM_iff.mpr fun item hitem => ?_
    obtain ⟨hmem, hkept⟩ := List.mem_filter.mp hitem
    have hreparsed : item.syntaxValid = true := (Bool.and_eq_true_iff.mp hkept).2
    obtain ⟨certificate, hcertificate, -⟩ := loadX509_of_backedBy h (hchain item hmem) hreparsed
    exact ⟨_, hcertificate⟩
  refine returns_bind.mpr ⟨⟨_, hload⟩, ?_⟩
  intro loaded hloaded
  obtain rfl := Except.ok.inj (hload.symm.trans hloaded)
  refine returns_bind.mpr ⟨hintermediates, fun intermediates _ => ?_⟩
  refine returns_bind.mpr ⟨returns_mapM_option_iff.mpr fun time htime =>
    returns_validateCertificatePath h hsnapshot hasked intermediates (hcapture time htime),
    fun capture _ => ?_⟩
  refine returns_bind.mpr ⟨returns_validateCertificatePath h hsnapshot hasked intermediates
    h.analysisTime, fun analysis _ => ?_⟩
  exact returns_bind_pure.mpr (returns_extractSanEntries h hasked)

theorem returns_attachStep (h : Answers env extracted)
    {snapshot : TrustStoreSnapshot env.lib} (hsnapshot : env.trustSnapshot = some snapshot)
    {records : List CertificateEvidence} (hrecords : ∀ item ∈ records, BackedBy env extracted item)
    {identities : Dict String (Option Py.Datetime × Option String)}
    (hidentities : ∀ uid identity, identities.get? uid = some identity →
      ∀ t ∈ identity.1, t.offset = some 0)
    (expectedHostname : Option String) {item : CertificateEvidence} (hitem : item ∈ records) :
    Returns (env.attachStep snapshot records identities expectedHostname item) := by
  unfold Environment.attachStep
  refine returns_ite (returns_pure _) (returns_bind_pure.mpr ?_)
  refine returns_validateServerLeaf h hsnapshot (hrecords item hitem)
    (fun other hother => hrecords other (List.mem_filter.mp hother).1) ?_ _ _
  intro t ht
  cases hget : identities.get? item.uid with
  | none =>
    rw [hget] at ht
    cases ht
  | some identity =>
    rw [hget] at ht
    exact hidentities item.uid identity hget t ht

/-- The identities are read once the time stamps are, of every row with a uid. -/
theorem returns_sslIdentityByUid_iff {logs : Record} :
    Returns (sslIdentityByUid logs) ↔ ∀ row ∈ rowsOf logs "ssl.log",
      (asStr (row.get "uid") maxUidLen).isSome = true → TimeReadable (row.get "ts") := by
  refine returns_foldlM_iff_forall fun identities row _ => ?_
  unfold identityStep
  cases asStr (row.get "uid") maxUidLen with
  | none => simp [returns_pure]
  | some uid =>
    simp only [Option.isSome_some, true_implies]
    rw [returns_bind_pure, returns_epochToDatetime_iff]

theorem captureTime_of_sslIdentityByUid {logs : Record}
    {identities : Dict String (Option Py.Datetime × Option String)}
    (hrun : sslIdentityByUid logs = .ok identities) :
    ∀ uid identity, identities.get? uid = some identity →
      ∀ t ∈ identity.1, t.offset = some 0 := by
  refine Fallible.foldlM_invariant (P := fun table : Dict String (Option Py.Datetime × Option String)
    => ∀ uid identity, table.get? uid = some identity → ∀ t ∈ identity.1, t.offset = some 0)
    hrun (by simp) ?_
  intro before after row _ hstep ih uid identity hget t ht
  unfold identityStep at hstep
  cases huid : asStr (row.get "uid") maxUidLen with
  | none =>
    rw [huid] at hstep
    obtain rfl := Fallible.pure_eq_ok.mp hstep
    exact ih uid identity hget t ht
  | some owner =>
    rw [huid] at hstep
    obtain ⟨captureTime, htime, hstep⟩ := Fallible.bind_eq_ok.mp hstep
    obtain rfl := Fallible.pure_eq_ok.mp hstep
    rw [Dict.get?_set] at hget
    split at hget
    · obtain rfl := Option.some.inj hget
      obtain rfl : captureTime = some t := ht
      exact epochToDatetime_offset htime
    · exact ih uid identity hget t ht

/-! ## The whole run -/

/-- The time stamps of `ssl.log` that are read: of the rows that pass the gate, and with a trust
store of every row with a uid. -/
structure LogsReadable (env : Environment) (logs : Record) (handshakes : List TlsHandshake) :
    Prop where
  rows : ∀ row ∈ rowsOf logs "ssl.log",
    (rowUid (Dict.ofList (·.uid) id handshakes) row).isSome = true → TimeReadable (row.get "ts")
  identities : env.trustSnapshot.isSome = true → ∀ row ∈ rowsOf logs "ssl.log",
    (asStr (row.get "uid") maxUidLen).isSome = true → TimeReadable (row.get "ts")

theorem returns_collect_iff (h : Answers env extracted) {logs : Record}
    {handshakes : List TlsHandshake} :
    Returns (env.collect logs extracted handshakes) ↔ ∀ row ∈ rowsOf logs "ssl.log",
      (rowUid (Dict.ofList (·.uid) id handshakes) row).isSome = true →
        TimeReadable (row.get "ts") := by
  unfold Environment.collect
  rw [returns_bind_pure]
  exact returns_foldlM_iff_forall fun _ _ _ => returns_rowStep_iff h within_indexExtracted

/-- **`normalize_certificates` returns on the logs it can read, and on no others.** The assumptions
on the package and on the store stand in `Answers`. -/
theorem returns_normalizeCertificates_iff (h : Answers env extracted) {logs : Record}
    {handshakes : List TlsHandshake} :
    Returns (env.normalizeCertificates logs extracted handshakes) ↔
      LogsReadable env logs handshakes := by
  unfold Environment.normalizeCertificates
  rw [returns_bind, returns_collect_iff h]
  constructor
  · rintro ⟨hrows, hattach⟩
    refine ⟨hrows, ?_⟩
    intro hsnapshot
    obtain ⟨snapshot, hsnapshot⟩ := Option.isSome_iff_exists.mp hsnapshot
    obtain ⟨records, hrecords⟩ := (returns_collect_iff h).mpr hrows
    have hrun := hattach records hrecords
    rw [hsnapshot] at hrun
    exact returns_sslIdentityByUid_iff.mp (returns_bind.mp hrun).1
  · intro hreadable
    refine ⟨hreadable.rows, ?_⟩
    intro records hrecords
    have hbacked := backedBy_of_collect h hrecords
    cases hsnapshot : env.trustSnapshot with
    | none => exact returns_pure _
    | some snapshot =>
      have hsome : env.trustSnapshot.isSome = true := by
        rw [hsnapshot]
        rfl
      refine returns_bind.mpr ⟨returns_sslIdentityByUid_iff.mpr (hreadable.identities hsome), ?_⟩
      intro identities hidentities
      refine returns_mapM_iff.mpr fun item hitem => ?_
      exact returns_attachStep h hsnapshot hbacked
        (captureTime_of_sslIdentityByUid hidentities) _ hitem

end

end Certificates
end Normalize
end SecureMail
