import SecureMail.Lib.Bounded
import SecureMail.Normalize.Interleaving
import SecureMail.Normalize.ReadableCertificates

/-!
# Interleaved certificates

The records of a run are those its rows make, one row after another, each record once and 256 at
most. A record is kept once for its connection, so below that limit the records of a connection are
decided by the rows of the connection. At the limit they are not: then the rows of other connections
take the place of its own.

The limit is on the run, and the fingerprints, the file logs and the validation against the store
are on the connection or on the row. So a run is taken apart as the items its rows make, in the
order of the rows, put through one filter for repetitions and one cut. The cut is what is assumed
not to bite. The filter is on a key that the connection is a part of, so it commutes with taking the
items of one connection (`filter_keepRecord`).
-/

namespace SecureMail
namespace Normalize
namespace Certificates

open Fallible (bind_eq_ok pure_eq_ok)
open Interleaving (Interleaved)
open Flows (allRows)
open Py (Dict)

/-! ## What a row makes -/

/-- The record of a file that was seen. -/
def Environment.built (env : Environment) (seen : ExtractedCertificate × Sighting) :
    Result CertificateEvidence := do
  let digest ← env.store.put seen.1.payload
  env.toEvidence seen.1.payload digest seen.2

/-- The records of a row, before any is left out. -/
def Environment.rowItems (env : Environment) (logs : Record) (index : FileIndex)
    (handshakeByUid : Dict String TlsHandshake) (row : Record) :
    Result (List CertificateEvidence) :=
  match rowUid handshakeByUid row with
  | none => pure []
  | some uid => do
      let sslRow ← sslRowOf handshakeByUid row uid
      (sslRow.sightings logs index).mapM env.built

/-- `add_record` without the limit. -/
def keepRecord (records : List CertificateEvidence) (item : CertificateEvidence) :
    List CertificateEvidence :=
  if records.any (sameRecord item) then records else records ++ [item]

variable {env : Environment} {logs logs' : Record} {index : FileIndex}
  {handshakeByUid : Dict String TlsHandshake} {extracted : List ExtractedCertificate}
  {handshakes : List TlsHandshake} {uid : String} {row : Record}

theorem sightStep_eq (env : Environment) :
    env.sightStep = fun records seen => (do pure (addRecord records (← env.built seen))) := by
  funext records seen
  simp [Environment.sightStep, Environment.built]

theorem rowStep_eq (env : Environment) (logs : Record) (index : FileIndex)
    (handshakeByUid : Dict String TlsHandshake) :
    env.rowStep logs index handshakeByUid = fun records row => (do
      pure ((← env.rowItems logs index handshakeByUid row).foldl addRecord records)) := by
  funext records row
  unfold Environment.rowStep Environment.rowItems
  cases huid : rowUid handshakeByUid row with
  | none => rfl
  | some uid =>
    simp only [sightStep_eq, Fallible.foldlM_eq_mapM, bind_assoc, map_eq_pure_bind]

/-- **The records of a run**: what the rows make, each once and up to the limit, in order. -/
theorem collect_eq_ok {records : List CertificateEvidence} :
    env.collect logs extracted handshakes = .ok records ↔
      ∃ made, (rowsOf logs "ssl.log").mapM (env.rowItems logs (env.indexExtracted extracted)
          (Dict.ofList (·.uid) id handshakes)) = .ok made ∧
        records = (made.flatten.foldl addRecord []).insertionSort
          (SortKey.Before certificateOrdering) := by
  unfold Environment.collect
  rw [rowStep_eq, Fallible.foldlM_eq_mapM, map_eq_pure_bind, bind_eq_ok]
  constructor
  · rintro ⟨unsorted, hrun, hrecords⟩
    obtain ⟨made, hmade, hrun⟩ := bind_eq_ok.mp hrun
    obtain rfl := pure_eq_ok.mp hrun
    refine ⟨made, hmade, ?_⟩
    rw [List.foldl_flatten]
    exact (pure_eq_ok.mp hrecords).symm
  · rintro ⟨made, hmade, rfl⟩
    refine ⟨made.flatten.foldl addRecord [], ?_, rfl⟩
    rw [hmade, List.foldl_flatten]
    rfl

/-! ## Below the limit -/

theorem length_addRecord (records : List CertificateEvidence) (item : CertificateEvidence) :
    records.length ≤ (addRecord records item).length := by
  unfold addRecord
  split_ifs <;> simp

theorem length_keepRecord (records : List CertificateEvidence) (item : CertificateEvidence) :
    records.length ≤ (keepRecord records item).length := by
  unfold keepRecord
  split_ifs <;> simp

theorem keepRecord_of_room {records : List CertificateEvidence} {item : CertificateEvidence}
    (h : records.length < maxCertificatesPerRun) : addRecord records item = keepRecord records item :=
  if_neg (Nat.not_le.mpr h)

/-- A run that ends below the limit left nothing out for it. -/
theorem foldl_keepRecord {items : List CertificateEvidence}
    (h : (items.foldl addRecord []).length < maxCertificatesPerRun) :
    items.foldl keepRecord [] = items.foldl addRecord [] := by
  refine Bounded.foldl_below (m := List.length) length_addRecord ?_ (Nat.le_pred_of_lt h)
  intro records item hle
  have hroom : records.length < maxCertificatesPerRun :=
    Nat.lt_of_le_of_lt ((length_addRecord records item).trans hle) (by decide)
  exact (keepRecord_of_room hroom).symm

theorem foldl_addRecord {items : List CertificateEvidence}
    (h : (items.foldl keepRecord []).length < maxCertificatesPerRun) :
    items.foldl addRecord [] = items.foldl keepRecord [] := by
  refine Bounded.foldl_below (m := List.length) length_keepRecord ?_ (Nat.le_pred_of_lt h)
  intro records item hle
  exact keepRecord_of_room
    (Nat.lt_of_le_of_lt ((length_keepRecord records item).trans hle) (by decide))

theorem filter_keepRecord (uid : String) (records : List CertificateEvidence)
    (item : CertificateEvidence) :
    (keepRecord records item).filter (·.uid = uid) =
      if item.uid = uid then keepRecord (records.filter (·.uid = uid)) item
      else records.filter (·.uid = uid) := by
  by_cases huid : item.uid = uid
  · -- What is the same record is of the same connection.
    have hany : records.any (sameRecord item) =
        (records.filter (·.uid = uid)).any (sameRecord item) := by
      rw [List.any_filter]
      refine List.any_congr rfl fun other => ?_
      cases hsame : sameRecord item other with
      | false => simp
      | true =>
        have hkey := congrArg Prod.fst (sameRecord_iff.mp hsame)
        have hother : other.uid = uid := hkey.trans huid
        simp [hother]
    rw [if_pos huid]
    unfold keepRecord
    rw [← hany]
    split_ifs
    · rfl
    · rw [List.filter_append]
      simp [huid]
  · rw [if_neg huid]
    unfold keepRecord
    split_ifs
    · rfl
    · rw [List.filter_append]
      simp [huid]

/-- **Without the limit a connection has the records of its own items.** A repetition is one of the
same connection, so what is kept of one does not depend on the others. -/
theorem filter_foldl_keepRecord (uid : String) (items records : List CertificateEvidence) :
    (items.foldl keepRecord records).filter (·.uid = uid) =
      (items.filter (·.uid = uid)).foldl keepRecord (records.filter (·.uid = uid)) := by
  induction items generalizing records with
  | nil => rfl
  | cons item rest ih =>
    rw [List.foldl_cons, ih, filter_keepRecord, List.filter_cons]
    by_cases huid : item.uid = uid
    · rw [if_pos huid, if_pos (by simpa using huid), List.foldl_cons]
    · rw [if_neg huid, if_neg (by simpa using huid)]

/-! ## The rows of two interleavings -/

/-- The row is of this connection. -/
def rowIsOf (uid : String) (row : Record) : Bool := asStr (row.get "uid") maxUidLen = some uid

theorem rowIsOf_sessions (h : rowIsOf uid row = true) : Sessions.rowIsOf uid row = true := by
  unfold rowIsOf at h
  rw [decide_eq_true_iff] at h
  exact decide_eq_true (sessions_asStr h)

theorem fallback_reinterleaved (h : Reinterleaved logs logs') (hlimits : WithinLimits logs)
    (hlimits' : WithinLimits logs') (sslRow : SslRow) (index : FileIndex) :
    sslRow.fallback logs index = sslRow.fallback logs' index := by
  have hcert := h.files "sm_cert.log" (by decide)
  have hfiles := h.files "files.log" (by decide)
  have hfound : filesForUid logs sslRow.uid index = filesForUid logs' sslRow.uid index := by
    unfold filesForUid rowsOf
    rw [hlimits.bounded (by decide), hlimits'.bounded (by decide), hlimits.bounded (by decide),
      hlimits'.bounded (by decide), hcert.own sslRow.uid,
      Interleaved.filter_eq_of_imp (hfiles.own sslRow.uid) fun row hrow => (Bool.and_eq_true_iff.mp hrow).1]
  have hcut : ∀ fuid, (truncatedFuids logs).contains fuid = (truncatedFuids logs').contains fuid := by
    intro fuid
    unfold truncatedFuids rowsOf
    rw [hlimits.bounded (by decide), hlimits'.bounded (by decide)]
    exact ((hcert.perm.filter _).map _).contains_eq
  unfold SslRow.fallback
  simp only [hfound, hcut]

theorem rowItems_reinterleaved (h : Reinterleaved logs logs') (hlimits : WithinLimits logs)
    (hlimits' : WithinLimits logs') (env : Environment) (index : FileIndex)
    (handshakeByUid : Dict String TlsHandshake) :
    env.rowItems logs index handshakeByUid = env.rowItems logs' index handshakeByUid := by
  funext row
  unfold Environment.rowItems SslRow.sightings
  simp only [fallback_reinterleaved h hlimits hlimits']

/-- The items of a row are of its connection. -/
theorem uid_of_rowItems {items : List CertificateEvidence}
    (h : env.rowItems logs index handshakeByUid row = .ok items) :
    ∀ item ∈ items, rowIsOf item.uid row = true := by
  unfold Environment.rowItems at h
  cases hrow : rowUid handshakeByUid row with
  | none =>
    rw [hrow] at h
    obtain rfl := pure_eq_ok.mp h
    exact fun item hitem => absurd hitem List.not_mem_nil
  | some owner =>
    rw [hrow] at h
    obtain ⟨sslRow, hsslRow, hitems⟩ := bind_eq_ok.mp h
    obtain ⟨captureTime, -, hsslRow⟩ := bind_eq_ok.mp hsslRow
    obtain rfl := pure_eq_ok.mp hsslRow
    intro item hitem
    obtain ⟨seen, hseen, hbuilt⟩ := Fallible.exists_of_mem_mapM hitems hitem
    obtain ⟨digest, -, hbuilt⟩ := bind_eq_ok.mp hbuilt
    have huid : item.uid = owner := (toEvidence_eq_ok hbuilt).1.trans (sighting_of_row hseen).1
    rw [huid]
    exact decide_eq_true (Option.eq_some_of_filter_eq_some hrow)

instance : Std.TransCmp certificateOrdering :=
  inferInstanceAs (Std.TransCmp
    (compareLex (compareOn fun c : CertificateEvidence => c.uid)
      (compareLex (compareOn fun c => c.role.value)
        (compareLex (compareOn fun c => c.chainIndex) (compareOn fun c => c.derSha256.val)))))

theorem uid_of_before {a b : CertificateEvidence} (hab : SortKey.Before certificateOrdering a b)
    (hba : SortKey.Before certificateOrdering b a) : a.uid = b.uid := by
  have heq := Std.OrientedCmp.isLE_antisymm hab hba
  unfold certificateOrdering at heq
  simp only [Ordering.then_eq_eq, Std.LawfulEqCmp.compare_eq_iff_eq] at heq
  exact heq.1

/-- **Below the limit the records do not depend on the interleaving.** The order of the records
changes with the rows, and each connection keeps its own. -/
theorem collect_reinterleaved (h : Reinterleaved logs logs') (hlimits : WithinLimits logs)
    (hlimits' : WithinLimits logs') {records : List CertificateEvidence}
    (hroom : records.length < maxCertificatesPerRun)
    (hrun : env.collect logs extracted handshakes = .ok records) :
    env.collect logs' extracted handshakes = .ok records := by
  have hssl := h.connections "ssl.log" (by decide)
  have hown : Interleaved rowIsOf (allRows logs "ssl.log") (allRows logs' "ssl.log") :=
    hssl.of_imp fun _ _ => rowIsOf_sessions
  obtain ⟨made, hmade, rfl⟩ := collect_eq_ok.mp hrun
  unfold rowsOf at hmade
  rw [hlimits.bounded (by decide), rowItems_reinterleaved h hlimits hlimits'] at hmade
  obtain ⟨made', hmade'⟩ := Fallible.exists_mapM_eq_ok_iff.mpr fun row hrow =>
    Fallible.exists_mapM_eq_ok_iff.mp ⟨made, hmade⟩ row (hown.perm.mem_iff.mpr hrow)
  have hkept : made.flatten.foldl keepRecord [] = made.flatten.foldl addRecord [] :=
    foldl_keepRecord (by rwa [List.length_insertionSort] at hroom)
  have hitems : ∀ uid, made.flatten.filter (·.uid = uid) = made'.flatten.filter (·.uid = uid) := by
    intro uid
    rw [Fallible.eq_map_of_mapM [] hmade, Fallible.eq_map_of_mapM [] hmade',
      ← List.flatMap_def, ← List.flatMap_def]
    refine hown.filter_flatMap _ _ uid fun row hother => ?_
    rw [List.filter_eq_nil_iff]
    intro item hitem
    cases hrow : env.rowItems logs' (env.indexExtracted extracted)
        (Dict.ofList (·.uid) id handshakes) row with
    | error e =>
      rw [hrow] at hitem
      exact absurd hitem List.not_mem_nil
    | ok items =>
      rw [hrow] at hitem
      have huid := uid_of_rowItems hrow item hitem
      simp only [decide_eq_true_eq]
      rintro rfl
      rw [huid] at hother
      cases hother
  have hsorted : (made.flatten.foldl keepRecord []).insertionSort (SortKey.Before certificateOrdering) =
      (made'.flatten.foldl keepRecord []).insertionSort (SortKey.Before certificateOrdering) := by
    refine Interleaving.eq_of_pairwise (f := CertificateEvidence.uid) (fun _ _ => uid_of_before)
      (SortKey.pairwise_insertionSort _) (SortKey.pairwise_insertionSort _) fun uid => ?_
    rw [SortKey.filter_insertionSort, SortKey.filter_insertionSort, filter_foldl_keepRecord,
      filter_foldl_keepRecord, hitems]
  have hlength : (made'.flatten.foldl keepRecord []).length < maxCertificatesPerRun := by
    have hsame := congrArg List.length hsorted
    rw [List.length_insertionSort, List.length_insertionSort, hkept] at hsame
    rw [← hsame]
    rwa [List.length_insertionSort] at hroom
  refine collect_eq_ok.mpr ⟨made', ?_, ?_⟩
  · unfold rowsOf
    rw [hlimits'.bounded (by decide)]
    exact hmade'
  · rw [foldl_addRecord hlength, ← hsorted, hkept]

/-! ## Validation -/

theorem spares_identityStep (uid : String) :
    Isolation.Spares identityStep (fun identities => identities.get? uid) (rowIsOf uid) := by
  intro identities identities' row hother hstep
  unfold identityStep at hstep
  cases huid : asStr (row.get "uid") maxUidLen with
  | none =>
    rw [huid] at hstep
    obtain rfl := pure_eq_ok.mp hstep
    rfl
  | some owner =>
    rw [huid] at hstep
    obtain ⟨captureTime, -, hstep⟩ := bind_eq_ok.mp hstep
    obtain rfl := pure_eq_ok.mp hstep
    have hne : uid ≠ owner := by
      rintro rfl
      rw [rowIsOf, huid] at hother
      simp at hother
    show (identities.set owner _).get? uid = identities.get? uid
    rw [Dict.get?_set, if_neg hne]

/-- What is known of the identity of a connection is said by its rows. -/
theorem sslIdentityByUid_reinterleaved (h : Reinterleaved logs logs') (hlimits : WithinLimits logs)
    (hlimits' : WithinLimits logs')
    {identities : Dict String (Option Py.Datetime × Option String)}
    (hrun : sslIdentityByUid logs = .ok identities) :
    ∃ identities', sslIdentityByUid logs' = .ok identities' ∧
      ∀ uid, identities'.get? uid = identities.get? uid := by
  have hown : Interleaved rowIsOf (allRows logs "ssl.log") (allRows logs' "ssl.log") :=
    (h.connections "ssl.log" (by decide)).of_imp fun _ _ => rowIsOf_sessions
  have hread := returns_sslIdentityByUid_iff.mp ⟨identities, hrun⟩
  unfold rowsOf at hread
  rw [hlimits.bounded (by decide)] at hread
  have hreturns : Fallible.Returns (sslIdentityByUid logs') := by
    refine returns_sslIdentityByUid_iff.mpr ?_
    unfold rowsOf
    rw [hlimits'.bounded (by decide)]
    exact fun row hrow => hread row (hown.perm.mem_iff.mpr hrow)
  obtain ⟨identities', hrun'⟩ := hreturns
  refine ⟨identities', hrun', fun uid => ?_⟩
  unfold sslIdentityByUid rowsOf at hrun hrun'
  rw [hlimits.bounded (by decide)] at hrun
  rw [hlimits'.bounded (by decide)] at hrun'
  refine Isolation.share_eq_of_filter_eq (spares_identityStep uid) (spares_identityStep uid)
    (hown.own uid).symm ?_ rfl hrun' hrun
  intro row _ hrow s s' t t' _ hs ht
  unfold rowIsOf at hrow
  rw [decide_eq_true_iff] at hrow
  unfold identityStep at hs ht
  rw [hrow] at hs ht
  obtain ⟨captureTime, htime, hs⟩ := bind_eq_ok.mp hs
  obtain ⟨captureTime', htime', ht⟩ := bind_eq_ok.mp ht
  obtain rfl := Except.ok.inj (htime.symm.trans htime')
  obtain rfl := pure_eq_ok.mp hs
  obtain rfl := pure_eq_ok.mp ht
  simp

theorem attachStep_congr {snapshot : Pki.TrustStoreSnapshot env.lib}
    {records : List CertificateEvidence}
    {identities identities' : Dict String (Option Py.Datetime × Option String)}
    (h : ∀ uid, identities'.get? uid = identities.get? uid) (expected : Option String) :
    env.attachStep snapshot records identities' expected =
      env.attachStep snapshot records identities expected := by
  funext item
  unfold Environment.attachStep
  rw [h]

/-- The validation keeps the number of records. -/
theorem length_normalizeCertificates {records collected : List CertificateEvidence}
    (hcollected : env.collect logs extracted handshakes = .ok collected)
    (hrun : env.normalizeCertificates logs extracted handshakes = .ok records) :
    records.length = collected.length := by
  obtain ⟨collected', hcollected', hrun⟩ := bind_eq_ok.mp hrun
  obtain rfl := Except.ok.inj (hcollected.symm.trans hcollected')
  cases hsnapshot : env.trustSnapshot with
  | none =>
    rw [hsnapshot] at hrun
    rw [pure_eq_ok.mp hrun]
  | some snapshot =>
    rw [hsnapshot] at hrun
    simpa using congrArg List.length (attachValidations_origin hrun)

theorem normalizeCertificates_reinterleaved (h : Reinterleaved logs logs')
    (hlimits : WithinLimits logs) (hlimits' : WithinLimits logs')
    {records : List CertificateEvidence} (hroom : records.length < maxCertificatesPerRun)
    (hrun : env.normalizeCertificates logs extracted handshakes = .ok records) :
    env.normalizeCertificates logs' extracted handshakes = .ok records := by
  obtain ⟨collected, hcollected, hattach⟩ := bind_eq_ok.mp hrun
  have hcollected' := collect_reinterleaved h hlimits hlimits'
    (length_normalizeCertificates hcollected hrun ▸ hroom) hcollected
  refine bind_eq_ok.mpr ⟨collected, hcollected', ?_⟩
  cases hsnapshot : env.trustSnapshot with
  | none =>
    rw [hsnapshot] at hattach
    exact hattach
  | some snapshot =>
    rw [hsnapshot] at hattach
    obtain ⟨identities, hidentities, hrecords⟩ := bind_eq_ok.mp hattach
    obtain ⟨identities', hidentities', hsame⟩ :=
      sslIdentityByUid_reinterleaved h hlimits hlimits' hidentities
    refine bind_eq_ok.mpr ⟨identities', hidentities', ?_⟩
    rw [attachStep_congr hsame]
    exact hrecords

end Certificates
end Normalize
end SecureMail
