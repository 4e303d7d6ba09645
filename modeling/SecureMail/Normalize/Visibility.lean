import SecureMail.Lib.Fallible
import SecureMail.Normalize.Certificates
import SecureMail.Normalize.Handshakes

/-!
# Certificates that were not sent

A file log can name a connection whose handshake carried no certificate, and so can a list of
fingerprints. The normalizer lets neither in: where the history of a connection shows no Certificate
message, its rows are passed over. The gate is on the handshake and the handshake is made from a row
with the same uid, so a connection passes it only by the history of one of its own rows.

What passes is kept once for each connection, index, role and digest, and no more than 256 in all.

The records of a run are followed from the row that made them: a record that is in the result was
made by a row that passed the gate and is one of that row's files (`collect_spec`). The validation
of the leaves afterwards changes records and makes none, which is why the origin of a record is said
of its key and not of the record as a whole.
-/

namespace SecureMail
namespace Normalize
namespace Certificates

open Py (Val Dict isIn)

/-! ## The handshakes of a connection -/

/-- The history has the letter of a Certificate message, the server's or the client's. -/
def showsCertificate (history : String) : Bool := isIn "x" history || isIn "X" history

/-- The history of a row of `ssl.log`, if it is one of at most a hundred characters. -/
def rowHistory (row : Record) : String := (asStr (row.get "ssl_history") 100).getD ""

/-- One row makes at most one handshake, of its connection and with its history. -/
theorem exists_rowStep_iff {flowByUid : Dict String Flow} {index : Tls.TlsParameterIndex}
    {framesByUid : Dict String (List Record)} {made made' : List TlsHandshake} {row : Record}
    (p : String → String → Prop)
    (h : Handshakes.rowStep flowByUid index framesByUid made row = .ok made') :
    (∃ x ∈ made', p x.uid x.sslHistory) ↔
      (∃ x ∈ made, p x.uid x.sslHistory) ∨
        ∃ uid, asStr (row.get "uid") maxUidLen = some uid ∧ p uid (rowHistory row) := by
  obtain ⟨one, hone, h⟩ := Fallible.bind_eq_ok.mp h
  have hspec := Handshakes.handshakeFromRow_eq_ok hone
  cases huid : Handshakes.asStr (row.get "uid") Handshakes.maxUidLen with
  | none =>
    rw [huid] at hspec
    rw [hspec] at h
    obtain rfl := Fallible.pure_eq_ok.mp h
    have hread : asStr (row.get "uid") maxUidLen = none := huid
    simp [hread]
  | some owner =>
    rw [huid] at hspec
    obtain ⟨handshake, rfl, hmade⟩ := hspec
    obtain rfl := Fallible.pure_eq_ok.mp h
    obtain rfl : owner = handshake.uid := Option.some.inj (huid.symm.trans hmade.uid)
    have hread : asStr (row.get "uid") maxUidLen = some handshake.uid := huid
    have hhistory : handshake.sslHistory = rowHistory row := hmade.sslHistory
    simp [hread, hhistory, or_and_right, exists_or]

theorem exists_handshake_iff {logs : Record} {flows : List Flow} {index : Tls.TlsParameterIndex}
    {frames : Option (List Val)} {handshakes : List TlsHandshake}
    (h : Handshakes.normalizeHandshakes logs flows index frames = .ok handshakes)
    (p : String → String → Prop) :
    (∃ x ∈ handshakes, p x.uid x.sslHistory) ↔
      ∃ row ∈ rowsOf logs "ssl.log", ∃ uid,
        asStr (row.get "uid") maxUidLen = some uid ∧ p uid (rowHistory row) := by
  obtain ⟨framesByUid, -, h⟩ := Fallible.bind_eq_ok.mp h
  obtain ⟨made, hmade, h⟩ := Fallible.bind_eq_ok.mp h
  obtain rfl := Fallible.pure_eq_ok.mp h
  have hcollect := Fallible.foldlM_collect
    (P := fun made => ∃ x ∈ made, p x.uid x.sslHistory)
    (Q := fun row : Record =>
      ∃ uid, asStr (row.get "uid") maxUidLen = some uid ∧ p uid (rowHistory row))
    (fun _ _ _ hstep => exists_rowStep_iff p hstep) hmade
  simp only [(List.perm_insertionSort _ _).mem_iff]
  rw [hcollect]
  simp [rowsOf]

/-- The state of the server's certificate is read off the history. -/
theorem serverCertificateState_of_row {row : Record} {flow : Option Flow}
    {index : Tls.TlsParameterIndex} {frames : List Record} {handshake : TlsHandshake}
    (h : Handshakes.handshakeFromRow row flow index frames = .ok (some handshake)) :
    handshake.serverCertificateState = Handshakes.letterState "x" handshake.sslHistory := by
  unfold Handshakes.handshakeFromRow at h
  cases huid : Handshakes.asStr (row.get "uid") Handshakes.maxUidLen with
  | none =>
    rw [huid] at h
    cases h
  | some uid =>
    rw [huid] at h
    obtain ⟨version, -, h⟩ := Fallible.bind_eq_ok.mp h
    obtain ⟨messages, -, h⟩ := Fallible.bind_eq_ok.mp h
    obtain ⟨keyExchange, -, h⟩ := Fallible.bind_eq_ok.mp h
    obtain ⟨signature, -, h⟩ := Fallible.bind_eq_ok.mp h
    obtain rfl := Option.some.inj (Fallible.pure_eq_ok.mp h)
    rfl

theorem serverCertificateState_of_mem {logs : Record} {flows : List Flow}
    {index : Tls.TlsParameterIndex} {frames : Option (List Val)} {handshakes : List TlsHandshake}
    (h : Handshakes.normalizeHandshakes logs flows index frames = .ok handshakes) :
    ∀ x ∈ handshakes, x.serverCertificateState = Handshakes.letterState "x" x.sslHistory := by
  obtain ⟨framesByUid, -, h⟩ := Fallible.bind_eq_ok.mp h
  obtain ⟨made, hmade, h⟩ := Fallible.bind_eq_ok.mp h
  obtain rfl := Fallible.pure_eq_ok.mp h
  intro x hx
  rw [(List.perm_insertionSort _ _).mem_iff] at hx
  revert x
  refine Fallible.foldlM_invariant (P := fun made : List TlsHandshake => ∀ x ∈ made,
    x.serverCertificateState = Handshakes.letterState "x" x.sslHistory) hmade (by simp) ?_
  intro made made' row _ hstep ih x hx
  obtain ⟨one, hone, hstep⟩ := Fallible.bind_eq_ok.mp hstep
  cases one with
  | none =>
    obtain rfl := Fallible.pure_eq_ok.mp hstep
    exact ih x hx
  | some handshake =>
    obtain rfl := Fallible.pure_eq_ok.mp hstep
    rcases List.mem_append.mp hx with hx | hx
    · exact ih x hx
    · obtain rfl := List.mem_singleton.mp hx
      exact serverCertificateState_of_row hone

/-! ## The gate -/

/-- A handshake hides its certificates where its history shows none. -/
theorem hiddenBy_eq {handshake : TlsHandshake}
    (h : handshake.serverCertificateState = Handshakes.letterState "x" handshake.sslHistory) :
    hiddenBy handshake = !showsCertificate handshake.sslHistory := by
  unfold hiddenBy showsCertificate
  rw [h, Handshakes.letterState]
  cases hx : isIn "x" handshake.sslHistory <;> simp

/-- A row made a handshake, so the table has one of its connection. -/
theorem exists_get?_of_row {logs : Record} {flows : List Flow} {index : Tls.TlsParameterIndex}
    {frames : Option (List Val)} {handshakes : List TlsHandshake} {row : Record} {uid : String}
    (h : Handshakes.normalizeHandshakes logs flows index frames = .ok handshakes)
    (hmem : row ∈ rowsOf logs "ssl.log") (hread : asStr (row.get "uid") maxUidLen = some uid) :
    ∃ x ∈ handshakes, x.uid = uid ∧ (Dict.ofList (·.uid) id handshakes).get? uid = some x := by
  have hmade : ∃ x ∈ handshakes, x.uid = uid :=
    (exists_handshake_iff h fun owner _ => owner = uid).mpr ⟨row, hmem, uid, hread, rfl⟩
  obtain ⟨x, hx, rfl⟩ := hmade
  exact Dict.exists_get?_ofList (·.uid) hx

/-- **A row passes the gate by the history of a row of its connection.** The handshake that the gate
asks has the uid of the row, and was itself made from a row. -/
theorem shown_of_rowUid {logs : Record} {flows : List Flow} {index : Tls.TlsParameterIndex}
    {frames : Option (List Val)} {handshakes : List TlsHandshake} {row : Record} {uid : String}
    (h : Handshakes.normalizeHandshakes logs flows index frames = .ok handshakes)
    (hmem : row ∈ rowsOf logs "ssl.log")
    (hrow : rowUid (Dict.ofList (·.uid) id handshakes) row = some uid) :
    ∃ shown ∈ rowsOf logs "ssl.log", asStr (shown.get "uid") maxUidLen = some uid ∧
      showsCertificate (rowHistory shown) = true := by
  obtain ⟨hread, hgate⟩ := Option.filter_eq_some_iff.mp hrow
  obtain ⟨y, hy, huid, hget⟩ := exists_get?_of_row h hmem hread
  have hshows : showsCertificate y.sslHistory = true := by
    rw [hget, Option.any_some, hiddenBy_eq (serverCertificateState_of_mem h y hy)] at hgate
    simpa using hgate
  obtain ⟨shown, hshown, owner, howner, heq, hhistory⟩ :=
    (exists_handshake_iff h fun owner history =>
      owner = uid ∧ showsCertificate history = true).mp ⟨y, hy, huid, hshows⟩
  exact ⟨shown, hshown, heq ▸ howner, hhistory⟩

/-! ## The records -/

/-- What a record is kept once for. -/
def recordKey (item : CertificateEvidence) : String × Nat × CertificateRole × Sha256Hex :=
  (item.uid, item.chainIndex, item.role, item.derSha256)

theorem sameRecord_iff {item other : CertificateEvidence} :
    sameRecord item other = true ↔ recordKey other = recordKey item := by
  simp [sameRecord, recordKey, and_assoc]

/-- No two records with one key, and no more than the limit. It is the invariant of the loop over
the rows, whatever these are. -/
structure Kept (records : List CertificateEvidence) : Prop where
  nodup : (records.map recordKey).Nodup
  length_le : records.length ≤ maxCertificatesPerRun

theorem Kept.addRecord {records : List CertificateEvidence} (h : Kept records)
    (item : CertificateEvidence) : Kept (addRecord records item) := by
  unfold Certificates.addRecord
  split
  · exact h
  · rename_i hroom
    split
    · exact h
    · rename_i hnew
      refine ⟨?_, ?_⟩
      · rw [List.map_append, List.map_singleton, List.nodup_append]
        refine ⟨h.nodup, List.nodup_singleton _, ?_⟩
        intro key hkey other hother heq
        obtain ⟨kept, hmem, rfl⟩ := List.mem_map.mp hkey
        rw [List.mem_singleton.mp hother] at heq
        exact hnew (List.any_eq_true.mpr ⟨kept, hmem, sameRecord_iff.mpr heq⟩)
      · rw [List.length_append, List.length_singleton]
        omega

theorem mem_addRecord {records : List CertificateEvidence} {item x : CertificateEvidence}
    (hx : x ∈ addRecord records item) : x ∈ records ∨ x = item := by
  unfold addRecord at hx
  split at hx
  · exact Or.inl hx
  · split at hx
    · exact Or.inl hx
    · simpa using hx

/-- A record is about what the file was sighted as. -/
theorem sighted_of_toEvidence {env : Environment} {payload : List UInt8} {digest : Sha256Hex}
    {sighting : Sighting} {item : CertificateEvidence}
    (h : env.toEvidence payload digest sighting = .ok item) :
    (item.uid = sighting.uid ∧ item.role = sighting.role ∧
      item.sourceFrames = sighting.sourceFrames) ∧
    item.chainIndex = sighting.chainIndex ∧ item.derSha256 = digest := by
  unfold Environment.toEvidence at h
  obtain ⟨parsed, -, h⟩ := Fallible.bind_eq_ok.mp h
  dsimp only at h
  split at h
  case' h_1 =>
    obtain ⟨capture, -, h⟩ := Fallible.bind_eq_ok.mp h
    obtain ⟨analysis, -, h⟩ := Fallible.bind_eq_ok.mp h
    obtain ⟨warning, -, h⟩ := Fallible.bind_eq_ok.mp h
  -- With a validity or without one, the two records carry what was sighted.
  all_goals
    obtain ⟨validity, -, h⟩ := Fallible.bind_eq_ok.mp h
    split at h
    · obtain rfl := Fallible.pure_eq_ok.mp h
      exact ⟨⟨rfl, rfl, rfl⟩, rfl, rfl⟩
    · obtain rfl := Fallible.pure_eq_ok.mp h
      exact ⟨⟨rfl, rfl, rfl⟩, rfl, rfl⟩

theorem toEvidence_eq_ok {env : Environment} {payload : List UInt8} {digest : Sha256Hex}
    {sighting : Sighting} {item : CertificateEvidence}
    (h : env.toEvidence payload digest sighting = .ok item) :
    item.uid = sighting.uid ∧ item.role = sighting.role ∧
      item.sourceFrames = sighting.sourceFrames := (sighted_of_toEvidence h).1

/-- Every sighting of a row is of its connection, and cites the row's frames. -/
theorem sighting_of_row {row : SslRow} {logs : Record} {index : FileIndex}
    {seen : ExtractedCertificate × Sighting} (h : seen ∈ row.sightings logs index) :
    seen.2.uid = row.uid ∧ seen.2.sourceFrames = row.frames := by
  have hlisted : ∀ role fingerprints, seen ∈ row.sightingsOf index role fingerprints →
      seen.2.uid = row.uid ∧ seen.2.sourceFrames = row.frames := by
    intro role fingerprints hseen
    obtain ⟨entry, -, hmade⟩ := List.mem_filterMap.mp hseen
    obtain ⟨file, -, rfl⟩ := Option.map_eq_some_iff.mp hmade
    exact ⟨rfl, rfl⟩
  rw [SslRow.sightings, List.mem_append, List.mem_append] at h
  rcases h with (hserver | hclient) | hfallback
  · exact hlisted .server row.serverFps hserver
  · exact hlisted .client row.clientFps hclient
  · unfold SslRow.fallback at hfallback
    split at hfallback
    · exact absurd hfallback List.not_mem_nil
    · obtain ⟨entry, -, rfl⟩ := List.mem_map.mp hfallback
      exact ⟨rfl, rfl⟩

/-- The record is of a connection whose row passed the gate, and cites the frames of its handshake. -/
def ComesFrom (rows : List Record) (handshakeByUid : Dict String TlsHandshake)
    (item : CertificateEvidence) : Prop :=
  ∃ row ∈ rows, rowUid handshakeByUid row = some item.uid ∧
    item.sourceFrames = certificateFrames (handshakeByUid.get? item.uid)

/-- A row keeps the records apart and adds records of its connection only. -/
theorem rowStep_spec {env : Environment} {logs : Record} {index : FileIndex}
    {handshakeByUid : Dict String TlsHandshake} {records records' : List CertificateEvidence}
    {row : Record} (h : env.rowStep logs index handshakeByUid records row = .ok records')
    (hkept : Kept records) :
    Kept records' ∧ ∀ item ∈ records', item ∈ records ∨ ComesFrom [row] handshakeByUid item := by
  unfold Environment.rowStep at h
  cases huid : rowUid handshakeByUid row with
  | none =>
    rw [huid] at h
    obtain rfl := Fallible.pure_eq_ok.mp h
    exact ⟨hkept, fun item hitem => Or.inl hitem⟩
  | some uid =>
    rw [huid] at h
    obtain ⟨sslRow, hsslRow, h⟩ := Fallible.bind_eq_ok.mp h
    obtain ⟨captureTime, -, hsslRow⟩ := Fallible.bind_eq_ok.mp hsslRow
    obtain rfl := Fallible.pure_eq_ok.mp hsslRow
    refine Fallible.foldlM_invariant
      (P := fun made => Kept made ∧ ∀ item ∈ made,
        item ∈ records ∨ ComesFrom [row] handshakeByUid item) h
      ⟨hkept, fun item hitem => Or.inl hitem⟩ ?_
    intro made made' seen hseen hstep ih
    obtain ⟨digest, -, hstep⟩ := Fallible.bind_eq_ok.mp hstep
    obtain ⟨item, hitem, hstep⟩ := Fallible.bind_eq_ok.mp hstep
    obtain rfl := Fallible.pure_eq_ok.mp hstep
    refine ⟨ih.1.addRecord item, ?_⟩
    intro x hx
    rcases mem_addRecord hx with hx | rfl
    · exact ih.2 x hx
    · obtain ⟨huidOf, -, hframesOf⟩ := toEvidence_eq_ok hitem
      obtain ⟨hseenUid, hseenFrames⟩ := sighting_of_row hseen
      have howner : x.uid = uid := huidOf.trans hseenUid
      refine Or.inr ⟨row, List.mem_singleton_self row, howner ▸ huid, ?_⟩
      rw [hframesOf, hseenFrames, howner]

theorem collect_spec {env : Environment} {logs : Record} {extracted : List ExtractedCertificate}
    {handshakes : List TlsHandshake} {records : List CertificateEvidence}
    (h : env.collect logs extracted handshakes = .ok records) :
    Kept records ∧ ∀ item ∈ records,
      ComesFrom (rowsOf logs "ssl.log") (Dict.ofList (·.uid) id handshakes) item := by
  obtain ⟨made, hmade, h⟩ := Fallible.bind_eq_ok.mp h
  obtain rfl := Fallible.pure_eq_ok.mp h
  have hrun := Fallible.foldlM_invariant
    (P := fun made => Kept made ∧ ∀ item ∈ made,
      ComesFrom (rowsOf logs "ssl.log") (Dict.ofList (·.uid) id handshakes) item) hmade
    ⟨⟨List.nodup_nil, Nat.zero_le _⟩, by simp⟩ ?_
  · have hperm := List.perm_insertionSort
      (fun a b => (certificateOrdering a b).isLE = true) made
    refine ⟨⟨(hperm.map recordKey).nodup_iff.mpr hrun.1.nodup, ?_⟩, ?_⟩
    · rw [hperm.length_eq]
      exact hrun.1.length_le
    · intro item hitem
      exact hrun.2 item (hperm.mem_iff.mp hitem)
  · intro made made' row hrow hstep ih
    obtain ⟨hkept, hnew⟩ := rowStep_spec hstep ih.1
    refine ⟨hkept, ?_⟩
    intro item hitem
    rcases hnew item hitem with hold | ⟨source, hsource, huid, hframes⟩
    · exact ih.2 item hold
    · obtain rfl := List.mem_singleton.mp hsource
      exact ⟨source, hrow, huid, hframes⟩

/-! ## Validation -/

/-- A record without its validation. -/
def origin (item : CertificateEvidence) : CertificateEvidence := { item with validation := none }

theorem attachStep_origin {env : Environment} {snapshot : Pki.TrustStoreSnapshot env.lib}
    {records : List CertificateEvidence}
    {identities : Dict String (Option Py.Datetime × Option String)} {expected : Option String}
    {item item' : CertificateEvidence}
    (h : env.attachStep snapshot records identities expected item = .ok item') :
    origin item' = origin item := by
  unfold Environment.attachStep at h
  split at h
  · rw [Fallible.pure_eq_ok.mp h]
  · obtain ⟨validation, -, h⟩ := Fallible.bind_eq_ok.mp h
    obtain rfl := Fallible.pure_eq_ok.mp h
    rfl

/-- Validation changes nothing else of a record. -/
theorem attachValidations_origin {env : Environment} {snapshot : Pki.TrustStoreSnapshot env.lib}
    {records attached : List CertificateEvidence} {logs : Record} {expected : Option String}
    (h : env.attachValidations snapshot records logs expected = .ok attached) :
    attached.map origin = records.map origin := by
  obtain ⟨identities, -, h⟩ := Fallible.bind_eq_ok.mp h
  exact Fallible.map_of_mapM (fun _ _ _ hstep => attachStep_origin hstep) h

/-- The records of a run come from rows that passed the gate, each once. -/
theorem normalizeCertificates_spec {env : Environment} {logs : Record}
    {extracted : List ExtractedCertificate} {handshakes : List TlsHandshake}
    {records : List CertificateEvidence}
    (h : env.normalizeCertificates logs extracted handshakes = .ok records) :
    Kept records ∧ ∀ item ∈ records,
      ComesFrom (rowsOf logs "ssl.log") (Dict.ofList (·.uid) id handshakes) item := by
  obtain ⟨collected, hcollected, h⟩ := Fallible.bind_eq_ok.mp h
  obtain ⟨hkept, hrows⟩ := collect_spec hcollected
  cases hsnapshot : env.trustSnapshot with
  | none =>
    rw [hsnapshot] at h
    obtain rfl := Fallible.pure_eq_ok.mp h
    exact ⟨hkept, hrows⟩
  | some snapshot =>
    rw [hsnapshot] at h
    have horigin := attachValidations_origin h
    have hkeys : records.map recordKey = collected.map recordKey := by
      have hmap := congrArg (List.map recordKey) horigin
      rwa [List.map_map, List.map_map] at hmap
    have hlength : records.length = collected.length := by
      simpa using congrArg List.length horigin
    refine ⟨⟨hkeys ▸ hkept.nodup, hlength ▸ hkept.length_le⟩, ?_⟩
    intro item hitem
    have hmem : origin item ∈ collected.map origin := horigin ▸ List.mem_map_of_mem hitem
    obtain ⟨source, hsource, heq⟩ := List.mem_map.mp hmem
    have huid : (origin source).uid = (origin item).uid := by rw [heq]
    have hframes : (origin source).sourceFrames = (origin item).sourceFrames := by rw [heq]
    obtain ⟨row, hrow, hgate, hcited⟩ := hrows source hsource
    exact ⟨row, hrow, huid ▸ hgate, huid ▸ hframes ▸ hcited⟩

/-- **No fabricated certificates.** A connection none of whose histories shows a Certificate message has
no record; no two records agree in connection, index, role and digest; and there are at most 256. -/
theorem certificates_not_fabricated {env : Environment} {logs : Record} {flows : List Flow}
    {index : Tls.TlsParameterIndex} {frames : Option (List Val)} {handshakes : List TlsHandshake}
    {extracted : List ExtractedCertificate} {records : List CertificateEvidence}
    (hhandshakes : Handshakes.normalizeHandshakes logs flows index frames = .ok handshakes)
    (hrecords : env.normalizeCertificates logs extracted handshakes = .ok records) :
    (∀ uid, (∀ row ∈ rowsOf logs "ssl.log", asStr (row.get "uid") maxUidLen = some uid →
        showsCertificate (rowHistory row) = false) → ∀ item ∈ records, item.uid ≠ uid) ∧
      (records.map fun item => (item.uid, item.chainIndex, item.role, item.derSha256)).Nodup ∧
      records.length ≤ 256 := by
  obtain ⟨hkept, hrows⟩ := normalizeCertificates_spec hrecords
  refine ⟨?_, hkept.nodup, hkept.length_le⟩
  rintro uid hnone item hitem rfl
  obtain ⟨row, hmem, hrow, -⟩ := hrows item hitem
  obtain ⟨shown, hshown, huid, hshows⟩ := shown_of_rowUid hhandshakes hmem hrow
  rw [hnone shown hshown huid] at hshows
  exact absurd hshows (by simp)

/-! ## A file that is no certificate -/

/-- The bytes of an empty SEQUENCE. -/
def emptySequence : List UInt8 := [0x30, 0x00]

def emptySequenceSha256 : Sha256Hex :=
  ⟨"e4f60d0aa6d7f3d3b6a6494b1c861b99f649c6f9ec51abaf201b20f297327c95", by decide +kernel⟩

/-- A run that was given this file alone: the package refuses it. -/
def emptySequenceRun : Environment where
  lib :=
    { Certificate := Unit
      Name := Unit
      nameEq := inferInstance
      loadDer := fun _ => .error .valueError
      publicKey := fun _ => throw .valueError
      serialNumber := fun _ => 0
      subject := fun _ => throw .valueError
      issuer := fun _ => throw .valueError
      rfc4514 := fun _ => throw .valueError
      notValidBefore := fun _ => ⟨0, some 0, by decide⟩
      notValidAfter := fun _ => ⟨0, some 0, by decide⟩
      signatureAlgorithmOid := fun _ => ""
      subjectAltNames := fun _ => pure none
      verify := fun _ _ _ _ => throw .valueError }
  codec := { ipAddress := fun _ => none, idna := some }
  sha1 := fun _ => "f944dcd635f9801f7ac90a407fbc479964dec024"
  store :=
    { put := fun _ => pure emptySequenceSha256
      get := fun _ => pure (some emptySequence) }
  analysisTime := ⟨0, some 0, by decide⟩
  expiryWarning := 0

def emptySequenceFile : ExtractedCertificate where
  sha256 := emptySequenceSha256
  payload := emptySequence

/-- Two connections that name the file; only the first one's history shows a certificate. -/
def twoConnections : Record :=
  let fingerprint := Val.str emptySequenceSha256.val
  [("ssl.log", .list [
    .dict [("uid", .str "C1"), ("ssl_history", .str "Csx"), ("cert_chain_fps", fingerprint)],
    .dict [("uid", .str "C2"), ("ssl_history", .str "Cs"), ("cert_chain_fps", fingerprint)]])]

def twoHandshakes : List TlsHandshake :=
  (Handshakes.normalizeHandshakes twoConnections [] .empty none).toOption.getD []

def twoConnectionsRecords : List CertificateEvidence :=
  (emptySequenceRun.normalizeCertificates twoConnections [emptySequenceFile]
    twoHandshakes).toOption.getD []

/-- The second connection has no record, and the first has one. -/
theorem second_connection_not_fabricated :
    twoConnectionsRecords.map (·.uid) = ["C1"] ∧
      (∀ item ∈ twoConnectionsRecords, item.uid ≠ "C2") ∧ twoConnectionsRecords.length ≤ 256 := by
  have hhandshakes :
      Handshakes.normalizeHandshakes twoConnections [] .empty none = .ok twoHandshakes := by
    decide +kernel
  have hrecords : emptySequenceRun.normalizeCertificates twoConnections [emptySequenceFile]
      twoHandshakes = .ok twoConnectionsRecords := by
    decide +kernel
  have hspec := certificates_not_fabricated hhandshakes hrecords
  exact ⟨by decide +kernel, hspec.1 "C2" (by decide +kernel), hspec.2.2⟩

end Certificates
end Normalize
end SecureMail
