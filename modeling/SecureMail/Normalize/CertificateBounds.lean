import SecureMail.Normalize.Visibility

/-!
# What a certificate record can hold

The record of a certificate is dumped when a policy is evaluated, with its dates brought to UTC, and
is known to the findings by a key of its connection, its role, its place in the chain and its
digest. Neither can go wrong on a record the normalizer made: the dates are in UTC already, and the
place is one of at most sixteen fingerprints of a row, or one of the files that at most ten thousand
rows of each file log name.

Both facts are needed where a policy is evaluated, and that evaluation knows nothing of logs. So
they are stated of the list of records a run returns, with the limits that the normalizer itself
reads by, and no other module looks at how a place was counted.
-/

namespace SecureMail
namespace Normalize
namespace Certificates

open Py (Val Dict)
open Fallible (bind_eq_ok pure_eq_ok)

/-! ## Dates -/

theorem offset_of_asUtc {t t' : Py.Datetime} (h : Pki.asUtc t = .ok t') : t'.offset = some 0 := by
  unfold Pki.asUtc at h
  cases hutc : t.asUtc? with
  | none =>
    rw [hutc] at h
    cases h
  | some instant =>
    rw [hutc] at h
    obtain rfl := pure_eq_ok.mp h
    unfold Py.Datetime.asUtc? at hutc
    split at hutc
    · obtain rfl := Option.some.inj hutc
      rfl
    · split at hutc
      · obtain rfl := Option.some.inj hutc
        rfl
      · cases hutc

/-- Two dates in UTC, where there are any. -/
structure InUtc (notBefore notAfter : Option Py.Datetime) : Prop where
  notBefore : ∀ t ∈ notBefore, t.offset = some 0
  notAfter : ∀ t ∈ notAfter, t.offset = some 0

theorem InUtc.none : InUtc none none := ⟨by simp, by simp⟩

theorem inUtc_of_factsOf {env : Environment} {certificate : env.lib.Certificate}
    {parsed : ParsedCertificate} (h : env.factsOf certificate = .ok parsed) :
    InUtc parsed.notBefore parsed.notAfter := by
  unfold Environment.factsOf at h
  obtain ⟨key, -, h⟩ := bind_eq_ok.mp h
  obtain ⟨subject, -, h⟩ := bind_eq_ok.mp h
  obtain ⟨subjectText, -, h⟩ := bind_eq_ok.mp h
  obtain ⟨issuer, -, h⟩ := bind_eq_ok.mp h
  obtain ⟨issuerText, -, h⟩ := bind_eq_ok.mp h
  obtain ⟨notBefore, hbefore, h⟩ := bind_eq_ok.mp h
  obtain ⟨notAfter, hafter, h⟩ := bind_eq_ok.mp h
  obtain rfl := pure_eq_ok.mp h
  constructor
  · rintro t ⟨⟩
    exact offset_of_asUtc hbefore
  · rintro t ⟨⟩
    exact offset_of_asUtc hafter

/-- A file the package refuses has no dates. -/
theorem inUtc_of_parse {env : Environment} {payload : List UInt8} {parsed : ParsedCertificate}
    (h : env.parseCertificateDer payload = .ok parsed) :
    InUtc parsed.notBefore parsed.notAfter := by
  unfold Environment.parseCertificateDer at h
  split at h
  · obtain rfl := pure_eq_ok.mp h
    exact .none
  obtain ⟨depth, -, h⟩ := bind_eq_ok.mp h
  split at h
  · obtain rfl := pure_eq_ok.mp h
    exact .none
  split at h
  · obtain rfl := pure_eq_ok.mp h
    exact .none
  · obtain rfl := pure_eq_ok.mp h
    exact .none
  · exact inUtc_of_factsOf h

theorem inUtc_of_toEvidence {env : Environment} {payload : List UInt8} {digest : Sha256Hex}
    {sighting : Sighting} {item : CertificateEvidence}
    (h : env.toEvidence payload digest sighting = .ok item) :
    InUtc item.notBefore item.notAfter := by
  unfold Environment.toEvidence at h
  obtain ⟨parsed, hparsed, h⟩ := bind_eq_ok.mp h
  have hutc := inUtc_of_parse hparsed
  dsimp only at h
  split at h
  case' h_1 =>
    obtain ⟨capture, -, h⟩ := bind_eq_ok.mp h
    obtain ⟨analysis, -, h⟩ := bind_eq_ok.mp h
    obtain ⟨warning, -, h⟩ := bind_eq_ok.mp h
  -- Only a record that is valid takes the dates over.
  all_goals
    obtain ⟨validity, -, h⟩ := bind_eq_ok.mp h
    split at h
    · obtain rfl := pure_eq_ok.mp h
      exact .none
    · obtain rfl := pure_eq_ok.mp h
      exact hutc

/-! ## Places -/

theorem length_asStrList_le (value : Val) (maxLen limit : Nat) :
    (asStrList value maxLen limit).length ≤ limit := by
  unfold asStrList
  split
  · rw [List.length_map]
    exact (List.length_filter_le _ _).trans (List.length_take_le _ _)
  · rw [List.length_map]
    exact (List.length_filterMap_le _ _).trans (List.length_take_le _ _)
  · exact Nat.zero_le _

theorem length_rowsOf_le (logs : Record) (name : String) : (rowsOf logs name).length ≤ maxRecords := by
  unfold rowsOf boundedRecords
  split
  · exact (List.length_filterMap_le _ _).trans (List.length_take_le _ _)
  · exact Nat.zero_le _

theorem length_foldl_fileStep_le {index : FileIndex} {rows : List Record}
    {found : List ExtractedCertificate} :
    (rows.foldl (fileStep index) found).length ≤ found.length + rows.length := by
  induction rows generalizing found with
  | nil => exact Nat.le_refl _
  | cons row rest ih =>
    have hstep : (fileStep index found row).length ≤ found.length + 1 := by
      unfold fileStep
      split
      · exact Nat.le_succ _
      · split
        · exact Nat.le_succ _
        · rw [List.length_append, List.length_singleton]
    rw [List.foldl_cons, List.length_cons]
    exact ih.trans (by omega)

theorem length_filesForUid_le (logs : Record) (uid : String) (index : FileIndex) :
    (filesForUid logs uid index).length ≤ 2 * maxRecords := by
  have hcert := (List.length_filter_le (aboutUid · uid) _).trans (length_rowsOf_le logs "sm_cert.log")
  have hfiles := (List.length_filter_le (fun row => aboutUid row uid && fromSsl row) _).trans
    (length_rowsOf_le logs "files.log")
  refine length_foldl_fileStep_le.trans ?_
  rw [List.length_nil, List.length_append]
  omega

/-- A place of at most five digits. -/
theorem chainIndex_of_sighting {handshakeByUid : Dict String TlsHandshake} {row : Record}
    {uid : String} {sslRow : SslRow} (hrow : sslRowOf handshakeByUid row uid = .ok sslRow)
    {logs : Record} {index : FileIndex} {seen : ExtractedCertificate × Sighting}
    (h : seen ∈ sslRow.sightings logs index) : seen.2.chainIndex < 10 ^ 5 := by
  obtain ⟨captureTime, -, hrow⟩ := bind_eq_ok.mp hrow
  obtain rfl := pure_eq_ok.mp hrow
  have hlisted : ∀ (sslRow : SslRow) role (value : Val), seen ∈ sslRow.sightingsOf index role
      (asStrList value maxFpLen Pki.maxChainDepth) → seen.2.chainIndex < 10 ^ 5 := by
    intro sslRow role value hseen
    obtain ⟨entry, hentry, hmade⟩ := List.mem_filterMap.mp hseen
    obtain ⟨file, -, rfl⟩ := Option.map_eq_some_iff.mp hmade
    have hplace := List.snd_lt_of_mem_zipIdx hentry
    have hlength := length_asStrList_le value maxFpLen Pki.maxChainDepth
    unfold Pki.maxChainDepth at hplace hlength
    dsimp only
    omega
  rw [SslRow.sightings, List.mem_append, List.mem_append] at h
  rcases h with (hserver | hclient) | hfallback
  · exact hlisted _ .server _ hserver
  · exact hlisted _ .client _ hclient
  · unfold SslRow.fallback at hfallback
    split at hfallback
    · exact absurd hfallback List.not_mem_nil
    · obtain ⟨entry, hentry, rfl⟩ := List.mem_map.mp hfallback
      have hplace := List.snd_lt_of_mem_zipIdx hentry
      have hlength := length_filesForUid_le logs uid index
      unfold maxRecords at hlength
      dsimp only at hplace ⊢
      omega

/-! ## The records of a run -/

/-- A record whose key fits its field and whose dates are in range. The two are what the evaluation
of a policy asks of a certificate before it can speak of it. -/
structure Bounded (item : CertificateEvidence) : Prop where
  chainIndex : item.chainIndex < 10 ^ 5
  dates : InUtc item.notBefore item.notAfter

theorem bounded_rowStep {env : Environment} {logs : Record} {index : FileIndex}
    {handshakeByUid : Dict String TlsHandshake} {records records' : List CertificateEvidence}
    {row : Record} (h : env.rowStep logs index handshakeByUid records row = .ok records')
    (hrecords : ∀ item ∈ records, Bounded item) : ∀ item ∈ records', Bounded item := by
  unfold Environment.rowStep at h
  cases huid : rowUid handshakeByUid row with
  | none =>
    rw [huid] at h
    obtain rfl := pure_eq_ok.mp h
    exact hrecords
  | some uid =>
    rw [huid] at h
    obtain ⟨sslRow, hsslRow, h⟩ := bind_eq_ok.mp h
    refine Fallible.foldlM_invariant (P := fun made => ∀ item ∈ made, Bounded item) h hrecords ?_
    intro made made' seen hseen hstep hmade item hitem
    obtain ⟨digest, -, hstep⟩ := bind_eq_ok.mp hstep
    obtain ⟨new, hnew, hstep⟩ := bind_eq_ok.mp hstep
    obtain rfl := pure_eq_ok.mp hstep
    rcases mem_addRecord hitem with hold | rfl
    · exact hmade item hold
    · refine ⟨?_, inUtc_of_toEvidence hnew⟩
      rw [(sighted_of_toEvidence hnew).2.1]
      exact chainIndex_of_sighting hsslRow hseen

/-- **Every record of a run is bounded.** It needs no assumption on the logs, as the limits are
those of the readers. -/
theorem bounded_of_normalizeCertificates {env : Environment} {logs : Record}
    {extracted : List ExtractedCertificate} {handshakes : List TlsHandshake}
    {records : List CertificateEvidence}
    (h : env.normalizeCertificates logs extracted handshakes = .ok records) :
    ∀ item ∈ records, Bounded item := by
  obtain ⟨collected, hcollected, h⟩ := bind_eq_ok.mp h
  obtain ⟨made, hmade, hsorted⟩ := bind_eq_ok.mp hcollected
  obtain rfl := pure_eq_ok.mp hsorted
  have hbounded : ∀ item ∈ made, Bounded item :=
    Fallible.foldlM_invariant (P := fun made => ∀ item ∈ made, Bounded item) hmade (by simp)
      fun _ _ _ _ hstep => bounded_rowStep hstep
  cases hsnapshot : env.trustSnapshot with
  | none =>
    rw [hsnapshot] at h
    obtain rfl := pure_eq_ok.mp h
    exact fun item hitem => hbounded item ((List.mem_insertionSort _).mp hitem)
  | some snapshot =>
    rw [hsnapshot] at h
    have horigin := attachValidations_origin h
    intro item hitem
    -- A validation changes neither the place nor the dates.
    have hmem : origin item ∈ List.map origin _ := horigin ▸ List.mem_map_of_mem hitem
    obtain ⟨source, hsource, heq⟩ := List.mem_map.mp hmem
    have hsourceBounded := hbounded source ((List.mem_insertionSort _).mp hsource)
    have hplace : (origin source).chainIndex = (origin item).chainIndex := by rw [heq]
    have hbefore : (origin source).notBefore = (origin item).notBefore := by rw [heq]
    have hafter : (origin source).notAfter = (origin item).notAfter := by rw [heq]
    exact ⟨hplace ▸ hsourceBounded.chainIndex, hbefore ▸ hafter ▸ hsourceBounded.dates⟩

end Certificates
end Normalize
end SecureMail
