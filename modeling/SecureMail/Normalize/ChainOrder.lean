import SecureMail.Lib.Shift
import SecureMail.Normalize.Visibility

/-!
# The places of a certificate chain

A row of `ssl.log` lists the fingerprints of a chain with the leaf first, and the index of a record
is meant to be the place of its fingerprint in that list. The list is read before it is numbered:
parts that are empty, values that are no strings and texts that are too long are left out, and what
stands behind one of them moves up. So an index is a place of the list as long as nothing that is
left out stands before a fingerprint of an extracted file (`chain_places_iff`).

Two lists are compared: what the row lists, place by place, with `none` for an entry that is left
out (`loggedEntries`), and what the reader makes of it. The reader drops the entries that are
`none`, so the two have one numbering up to the first of these. The condition is about the first
list and the index of extracted files and not about the records, and an entry behind the last that
names a file may be anything.
-/

namespace SecureMail
namespace Normalize
namespace Certificates

open Py (Val Dict lower strip splitOnChar)
open Pki (maxChainDepth)
open Fallible (Returns returns_bind exists_step_of_mem)

/-! ## The list as it was logged -/

/-- The field that lists the fingerprints of a role. -/
def chainField : CertificateRole → String
  | .server => "cert_chain_fps"
  | .client => "client_cert_chain_fps"

/-- The entries of the field, each with its text, and with `none` for one that is not read. -/
def loggedEntries (value : Val) : List (Option String) :=
  match value with
  | .str s => (splitOnChar ',' s).map fun part => (asStr (.str (strip part)) maxFpLen).map lower
  | .list items => items.map fun item => (asStr item maxFpLen).map lower
  | _ => []

/-- How far a list has to be read for `k` elements of a kind. -/
def reach {α : Type} (p : α → Bool) : List α → Nat → Nat
  | [], _ => 0
  | _ :: _, 0 => 0
  | a :: rest, k + 1 => (if p a then reach p rest k else reach p rest (k + 1)) + 1

/-- The number of entries that are looked at: blank parts of a text do not count for the limit. -/
def examined (value : Val) : Nat :=
  match value with
  | .str s => reach (fun part => strip part ≠ "") (splitOnChar ',' s) maxChainDepth
  | _ => maxChainDepth

theorem take_filter_eq {α : Type} (p : α → Bool) (l : List α) (k : Nat) :
    (l.filter p).take k = (l.take (reach p l k)).filter p := by
  induction l generalizing k with
  | nil => simp [reach]
  | cons a rest ih =>
    cases k with
    | zero => simp [reach]
    | succ k =>
      cases hp : p a with
      | true => simp [reach, hp, ih]
      | false => simp [reach, hp, ih]

theorem read_map {α : Type} (f : α → Option String) (l : List α) :
    Shift.read (l.map f) = l.filterMap f := by
  rw [Shift.read, List.filterMap_map]
  rfl

/-- The parts of a text: those that are blank and those that are too long are left out. -/
theorem parts_eq (parts : List String) :
    (((parts.filter (strip · ≠ "")).map strip).filter fun part => part.length ≤ maxFpLen).map lower =
      parts.filterMap fun part => (asStr (.str (strip part)) maxFpLen).map lower := by
  induction parts with
  | nil => rfl
  | cons part rest ih =>
    by_cases hblank : strip part = ""
    · simpa [hblank, asStr] using ih
    · by_cases hlong : maxFpLen < (strip part).length
      · simpa [hblank, asStr, hlong, Nat.not_le.mpr hlong] using ih
      · simpa [hblank, asStr, hlong, Nat.le_of_not_lt hlong] using ih

/-- **The reader keeps what can be read of the entries it looks at.** It gives the reader a meaning
place by place, which its own filters do not have. -/
theorem asStrList_eq (value : Val) :
    asStrList value maxFpLen maxChainDepth =
      Shift.read ((loggedEntries value).take (examined value)) := by
  cases value with
  | str s =>
    show ((((((splitOnChar ',' s).map strip).filter (· ≠ "")).take maxChainDepth).filter
      fun part => part.length ≤ maxFpLen).map lower) = _
    rw [List.filter_map, ← List.map_take]
    show (((((splitOnChar ',' s).filter (strip · ≠ "")).take maxChainDepth).map strip).filter
      fun part => part.length ≤ maxFpLen).map lower = _
    rw [take_filter_eq, parts_eq, loggedEntries, ← List.map_take, read_map]
    rfl
  | list items =>
    show ((items.take maxChainDepth).filterMap (asStr · maxFpLen)).map lower = _
    rw [List.map_filterMap, loggedEntries, ← List.map_take, read_map]
    rfl
  | _ => rfl

/-! ## The records of a row -/

/-- The fingerprints of a role. -/
def SslRow.fpsOf (row : SslRow) : CertificateRole → List String
  | .server => row.serverFps
  | .client => row.clientFps

/-- The record is made from the fingerprints that the row lists for the role. -/
def Environment.BuildsFrom (env : Environment) (index : FileIndex)
    (handshakeByUid : Dict String TlsHandshake) (row : Record) (role : CertificateRole)
    (record : CertificateEvidence) : Prop :=
  ∃ uid sslRow seen digest, rowUid handshakeByUid row = some uid ∧
    sslRowOf handshakeByUid row uid = .ok sslRow ∧
    seen ∈ sslRow.sightingsOf index role (sslRow.fpsOf role) ∧
    env.store.put seen.1.payload = .ok digest ∧
    env.toEvidence seen.1.payload digest seen.2 = .ok record

/-- The entry of the field at the record's index names the file of the record. It is what the
documentation says of one record: the index can be used as a subscript of the logged list. -/
def Environment.InPlace (env : Environment) (index : FileIndex) (row : Record)
    (role : CertificateRole) (record : CertificateEvidence) : Prop :=
  ∃ text file, (loggedEntries (row.get (chainField role)))[record.chainIndex]? = some (some text) ∧
    index.matchFingerprint text = some file ∧ env.store.put file.payload = .ok record.derSha256

/-- No entry that is left out stands before one that names a file, among those looked at. An entry
is left out if it is empty, too long or no string; a place that names no file makes no record, so
that it does not matter what is before it. -/
def Unshifted (index : FileIndex) (value : Val) : Prop :=
  ∀ place < examined value, ∀ text, (loggedEntries value)[place]? = some (some text) →
    (index.matchFingerprint text).isSome = true →
      ∀ before < place, (loggedEntries value)[before]? ≠ some none

theorem fpsOf_sslRowOf {handshakeByUid : Dict String TlsHandshake} {row : Record} {uid : String}
    {sslRow : SslRow} (h : sslRowOf handshakeByUid row uid = .ok sslRow) (role : CertificateRole) :
    sslRow.fpsOf role = asStrList (row.get (chainField role)) maxFpLen maxChainDepth := by
  obtain ⟨captureTime, -, h⟩ := Fallible.bind_eq_ok.mp h
  obtain rfl := Fallible.pure_eq_ok.mp h
  cases role <;> rfl

theorem mem_sightingsOf {row : SslRow} {index : FileIndex} {role : CertificateRole}
    {fps : List String} {seen : ExtractedCertificate × Sighting} :
    seen ∈ row.sightingsOf index role fps ↔
      ∃ place text, fps[place]? = some text ∧ index.matchFingerprint text = some seen.1 ∧
        seen.2 = { uid := row.uid, chainIndex := place, role := role, sourceFrames := row.frames,
                   captureTime := row.captureTime, truncated := false } := by
  rw [SslRow.sightingsOf, List.mem_filterMap]
  constructor
  · rintro ⟨⟨text, place⟩, hentry, hseen⟩
    obtain ⟨file, hfile, rfl⟩ := Option.map_eq_some_iff.mp hseen
    exact ⟨place, text, List.mem_zipIdx_iff_getElem?.mp hentry, hfile, rfl⟩
  · rintro ⟨place, text, htext, hfile, hsighting⟩
    refine ⟨(text, place), List.mem_zipIdx_iff_getElem?.mpr htext, ?_⟩
    rw [hfile, Option.map_some, ← hsighting]

theorem sightings_of_role {row : SslRow} {logs : Record} {index : FileIndex}
    (role : CertificateRole) {seen : ExtractedCertificate × Sighting}
    (h : seen ∈ row.sightingsOf index role (row.fpsOf role)) : seen ∈ row.sightings logs index := by
  rw [SslRow.sightings, List.mem_append, List.mem_append]
  cases role with
  | server => exact Or.inl (Or.inl h)
  | client => exact Or.inl (Or.inr h)

/-- A run that returns has made a record of every sighting. -/
theorem made_of_normalizeCertificates {env : Environment} {logs : Record}
    {extracted : List ExtractedCertificate} {handshakes : List TlsHandshake}
    {records : List CertificateEvidence} {row : Record} {uid : String}
    (h : env.normalizeCertificates logs extracted handshakes = .ok records)
    (hrow : row ∈ rowsOf logs "ssl.log")
    (huid : rowUid (Dict.ofList (·.uid) id handshakes) row = some uid) :
    ∃ sslRow, sslRowOf (Dict.ofList (·.uid) id handshakes) row uid = .ok sslRow ∧
      ∀ seen ∈ sslRow.sightings logs (env.indexExtracted extracted), ∃ digest record,
        env.store.put seen.1.payload = .ok digest ∧
          env.toEvidence seen.1.payload digest seen.2 = .ok record := by
  obtain ⟨collected, hcollect, -⟩ := Fallible.bind_eq_ok.mp h
  obtain ⟨made, hmade, -⟩ := Fallible.bind_eq_ok.mp hcollect
  obtain ⟨before, after, hstep⟩ := exists_step_of_mem hmade hrow
  unfold Environment.rowStep at hstep
  rw [huid] at hstep
  obtain ⟨sslRow, hsslRow, hsightings⟩ := Fallible.bind_eq_ok.mp hstep
  refine ⟨sslRow, hsslRow, fun seen hseen => ?_⟩
  obtain ⟨records', records'', hsight⟩ := exists_step_of_mem hsightings hseen
  obtain ⟨digest, hdigest, hsight⟩ := Fallible.bind_eq_ok.mp hsight
  obtain ⟨record, hrecord, -⟩ := Fallible.bind_eq_ok.mp hsight
  exact ⟨digest, record, hdigest, hrecord⟩

/-- **The index of a record is its place in the list exactly when nothing shifts the list.** -/
theorem chain_places_iff {env : Environment} {logs : Record}
    {extracted : List ExtractedCertificate} {handshakes : List TlsHandshake}
    {records : List CertificateEvidence} {row : Record} {uid : String} {role : CertificateRole}
    (h : env.normalizeCertificates logs extracted handshakes = .ok records)
    (hrow : row ∈ rowsOf logs "ssl.log")
    (huid : rowUid (Dict.ofList (·.uid) id handshakes) row = some uid) :
    (∀ record, env.BuildsFrom (env.indexExtracted extracted)
        (Dict.ofList (·.uid) id handshakes) row role record →
      env.InPlace (env.indexExtracted extracted) row role record) ↔
    Unshifted (env.indexExtracted extracted) (row.get (chainField role)) := by
  obtain ⟨sslRow, hsslRow, hmade⟩ := made_of_normalizeCertificates h hrow huid
  have hfps := fpsOf_sslRowOf hsslRow role
  rw [asStrList_eq] at hfps
  -- Two files stand for one another when the store has one digest for them.
  have hplaces := @Shift.numbered_iff _ _ (loggedEntries (row.get (chainField role)))
    (env.indexExtracted extracted).matchFingerprint
    (fun file file' => env.store.put file.payload = env.store.put file'.payload) (fun _ => rfl)
    (examined (row.get (chainField role)))
  refine Iff.trans ?_ hplaces
  constructor
  · intro hall place text file htext hfile
    let seen : ExtractedCertificate × Sighting :=
      (file, { uid := sslRow.uid, chainIndex := place, role := role,
               sourceFrames := sslRow.frames, captureTime := sslRow.captureTime,
               truncated := false })
    have hseen : seen ∈ sslRow.sightingsOf (env.indexExtracted extracted) role
        (sslRow.fpsOf role) :=
      mem_sightingsOf.mpr ⟨place, text, by rw [hfps]; exact htext, hfile, rfl⟩
    obtain ⟨digest, record, hput, hrecord⟩ := hmade seen (sightings_of_role role hseen)
    obtain ⟨-, hindex, hdigest⟩ := sighted_of_toEvidence hrecord
    obtain ⟨text', file', htext', hfile', hput'⟩ :=
      hall record ⟨uid, sslRow, seen, digest, huid, hsslRow, hseen, hput, hrecord⟩
    rw [hindex] at htext'
    rw [hdigest] at hput'
    exact ⟨text', file', htext', hfile', hput'.trans hput.symm⟩
  · rintro hall record ⟨uid', sslRow', seen, digest, huid', hsslRow', hseen, hput, hrecord⟩
    obtain rfl : uid = uid' := Option.some.inj (huid.symm.trans huid')
    obtain rfl : sslRow = sslRow' := Except.ok.inj (hsslRow.symm.trans hsslRow')
    obtain ⟨place, text, htext, hfile, hsighting⟩ := mem_sightingsOf.mp hseen
    rw [hfps] at htext
    obtain ⟨text', file', htext', hfile', hsame⟩ := hall place text seen.1 htext hfile
    obtain ⟨-, hindex, hdigest⟩ := sighted_of_toEvidence hrecord
    rw [hsighting] at hindex
    refine ⟨text', file', ?_, hfile', ?_⟩
    · rw [hindex]
      exact htext'
    · rw [hsame, hput, hdigest]

/-! ## A leaf in the notation with colons -/

/-- A row of one connection with the chain. -/
def chainRow (chain : Val) : Record :=
  [("uid", .str "C1"), ("ssl_history", .str "Csx"), ("cert_chain_fps", chain)]

def chainLogs (chain : Val) : Record := [("ssl.log", .list [.dict (chainRow chain)])]

/-- The digest of no file, with a colon after each byte and without. -/
def coloredFingerprint : String :=
  "E3:B0:C4:42:98:FC:1C:14:9A:FB:F4:C8:99:6F:B9:24:" ++
    "27:AE:41:E4:64:9B:93:4C:A4:95:99:1B:78:52:B8:55"

def plainFingerprint : String :=
  "e3b0c44298fc1c149afbf4c8996fb92427ae41e4649b934ca495991b7852b855"

/-- The file, then an issuer whose file was not extracted, and last a fingerprint that is too long. -/
def plainChain : Val :=
  .list [.str emptySequenceSha256.val, .str plainFingerprint, .str coloredFingerprint]

/-- The file behind a leaf whose fingerprint is too long. -/
def coloredChain : Val := .list [.str coloredFingerprint, .str emptySequenceSha256.val]

def chainRecords (chain : Val) : List CertificateEvidence :=
  (emptySequenceRun.normalizeCertificates (chainLogs chain) [emptySequenceFile]
    []).toOption.getD []

/-- What is left out behind the file shifts nothing. -/
theorem chain_places_of_plainChain :
    loggedEntries ((chainRow plainChain).get (chainField .server)) =
        [some emptySequenceSha256.val, some plainFingerprint, none] ∧
      (chainRecords plainChain).map (fun record => (record.chainIndex, record.derSha256)) =
        [(0, emptySequenceSha256)] ∧
      ∀ record, emptySequenceRun.BuildsFrom (emptySequenceRun.indexExtracted [emptySequenceFile])
          (Dict.ofList (·.uid) id []) (chainRow plainChain) .server record →
        emptySequenceRun.InPlace (emptySequenceRun.indexExtracted [emptySequenceFile])
          (chainRow plainChain) .server record := by
  have hlogged : loggedEntries ((chainRow plainChain).get (chainField .server)) =
      [some emptySequenceSha256.val, some plainFingerprint, none] := by
    decide +kernel
  have hrun : emptySequenceRun.normalizeCertificates (chainLogs plainChain) [emptySequenceFile]
      [] = .ok (chainRecords plainChain) := by
    decide +kernel
  have hrow : chainRow plainChain ∈ rowsOf (chainLogs plainChain) "ssl.log" := List.mem_cons_self
  have huid : rowUid (Dict.ofList (·.uid) id []) (chainRow plainChain) = some "C1" := by
    decide +kernel
  have hnoFile : (emptySequenceRun.indexExtracted [emptySequenceFile]).matchFingerprint
      plainFingerprint = none := by
    decide +kernel
  refine ⟨hlogged, by decide +kernel, (chain_places_iff hrun hrow huid).mpr ?_⟩
  rw [Unshifted, hlogged]
  intro place _ text htext hfile before hbefore
  -- Only the first of the three places names a file, and nothing is before it.
  match place with
  | 0 => exact absurd hbefore (Nat.not_lt_zero before)
  | 1 =>
    obtain rfl := Option.some.inj (Option.some.inj htext)
    rw [hnoFile] at hfile
    cases hfile
  | 2 => cases htext
  | place + 3 => cases htext

/-- The file of the second entry has the first index. -/
theorem long_leaf_shifts_chain :
    (chainRecords coloredChain).map (fun record => (record.chainIndex, record.derSha256)) =
      [(0, emptySequenceSha256)] ∧
    loggedEntries ((chainRow coloredChain).get (chainField .server)) =
      [none, some emptySequenceSha256.val] ∧
    ∃ record, emptySequenceRun.BuildsFrom (emptySequenceRun.indexExtracted [emptySequenceFile])
        (Dict.ofList (·.uid) id []) (chainRow coloredChain) .server record ∧
      ¬ emptySequenceRun.InPlace (emptySequenceRun.indexExtracted [emptySequenceFile])
        (chainRow coloredChain) .server record := by
  have hlogged : loggedEntries ((chainRow coloredChain).get (chainField .server)) =
      [none, some emptySequenceSha256.val] := by
    decide +kernel
  have hrun : emptySequenceRun.normalizeCertificates (chainLogs coloredChain) [emptySequenceFile]
      [] = .ok (chainRecords coloredChain) := by
    decide +kernel
  have hrow : chainRow coloredChain ∈ rowsOf (chainLogs coloredChain) "ssl.log" :=
    List.mem_cons_self
  have huid : rowUid (Dict.ofList (·.uid) id []) (chainRow coloredChain) = some "C1" := by
    decide +kernel
  have hread : asStrList ((chainRow coloredChain).get (chainField .server)) maxFpLen
      maxChainDepth = [emptySequenceSha256.val] := by
    decide +kernel
  have hfile : (emptySequenceRun.indexExtracted [emptySequenceFile]).matchFingerprint
      emptySequenceSha256.val = some emptySequenceFile := by
    decide +kernel
  refine ⟨by decide +kernel, hlogged, ?_⟩
  obtain ⟨sslRow, hsslRow, hmade⟩ := made_of_normalizeCertificates hrun hrow huid
  let seen : ExtractedCertificate × Sighting :=
    (emptySequenceFile, { uid := sslRow.uid, chainIndex := 0, role := .server,
                          sourceFrames := sslRow.frames, captureTime := sslRow.captureTime,
                          truncated := false })
  have hseen : seen ∈ sslRow.sightingsOf (emptySequenceRun.indexExtracted [emptySequenceFile])
      .server (sslRow.fpsOf .server) := by
    rw [fpsOf_sslRowOf hsslRow, hread]
    exact mem_sightingsOf.mpr ⟨0, emptySequenceSha256.val, rfl, hfile, rfl⟩
  obtain ⟨digest, record, hput, hrecord⟩ := hmade seen (sightings_of_role .server hseen)
  refine ⟨record, ⟨"C1", sslRow, seen, digest, huid, hsslRow, hseen, hput, hrecord⟩, ?_⟩
  rintro ⟨text, file, htext, -, -⟩
  obtain ⟨-, hindex, -⟩ := sighted_of_toEvidence hrecord
  rw [hindex, hlogged] at htext
  exact Option.some_ne_none _ (Option.some.inj htext).symm

end Certificates
end Normalize
end SecureMail
