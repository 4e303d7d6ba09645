import SecureMail.Findings.Partition
import SecureMail.Py.Delimited

/-!
# The references and the occurrences of a cluster

A finding of the policy engine is about one record of one connection, and each of its references
names that record: by the connection, or for a certificate by the connection and more behind a colon.
Deduplication reads the connection back from the references and records it with the occurrence; the
references are merged and sorted, those of certificates first.

The reference that comes first decides a lot: the occurrence of a finding is named by it, and the
lineage of the report starts at it. So what can stand first is settled here once, for findings as
the policy engine makes them (`OfConnection`). An identifier of a connection has no colon, which is
assumed where it is used, so the part of a key before its colon is a connection in either case.
-/

namespace SecureMail

/-- All references are to one record of the type, of the connection. -/
structure Finding.OfConnection (finding : Finding) (type : EvidenceRecordType) (uid : String) :
    Prop where
  refs_ne_nil : finding.evidenceReferences ≠ []
  types : ∀ ref ∈ finding.evidenceReferences, ref.recordType = type
  keys : ∀ ref ∈ finding.evidenceReferences, type ≠ .certificate → ref.recordKey.val = uid
  certificateKeys : ∀ ref ∈ finding.evidenceReferences, type = .certificate →
    ∃ rest, ref.recordKey.val = uid ++ ":" ++ rest

namespace Findings

/-! ## What an occurrence records -/

theorem beforeColon_append {uid : String} (h : ':' ∉ uid.toList) (rest : String) :
    beforeColon (uid ++ ":" ++ rest) = uid := by
  have hcolon : ":".toList = [':'] := rfl
  have hall : ∀ c ∈ uid.toList, decide (c ≠ ':') = true := by
    intro c hc
    rw [decide_eq_true_eq]
    rintro rfl
    exact h hc
  rw [beforeColon, String.toList_append, String.toList_append, hcolon, List.append_assoc,
    List.takeWhile_append_of_pos hall]
  simp

variable {finding : Finding} {type : EvidenceRecordType} {uid : String}

/-- **Deduplication reads the connection from the references.** It holds for each type of record, as
what stands before the colon is the connection in every key. -/
theorem sessionUidForFinding_eq (h : finding.OfConnection type uid) (huid : ':' ∉ uid.toList) :
    (sessionUidForFinding finding).map (·.val) = some uid := by
  obtain ⟨ref, rest, hrefs⟩ := List.exists_cons_of_ne_nil h.refs_ne_nil
  have href : ref ∈ finding.evidenceReferences := by
    rw [hrefs]
    exact List.mem_cons_self
  have htype := h.types ref href
  by_cases hsession : type = .session
  · have hkey := h.keys ref href (by rw [hsession]; decide)
    simp [sessionUidForFinding, hrefs, htype, hsession, hkey]
  have hnone : finding.evidenceReferences.find? (·.recordType = .session) = none := by
    rw [List.find?_eq_none]
    intro other hother
    rw [h.types other hother]
    simpa using hsession
  rw [sessionUidForFinding, hnone]
  simp only [hrefs, List.findSome?_cons, htype]
  cases type with
  | session => exact absurd rfl hsession
  | certificate =>
    obtain ⟨more, hkey⟩ := h.certificateKeys ref href rfl
    simp [hkey, beforeColon_append huid]
  | handshake => simp [h.keys ref href (by decide)]
  | flow => simp [h.keys ref href (by decide)]

theorem occurrenceRef_eq (h : finding.OfConnection type uid) (huid : ':' ∉ uid.toList)
    {occurrence : OccurrenceRef} (hmade : occurrenceRef finding = .ok occurrence) :
    occurrence.recordType = type ∧ occurrence.sessionUid.map (·.val) = some uid := by
  obtain ⟨ref, rest, hrefs⟩ := List.exists_cons_of_ne_nil h.refs_ne_nil
  have htype := h.types ref (by rw [hrefs]; exact List.mem_cons_self)
  unfold occurrenceRef at hmade
  rw [hrefs] at hmade
  obtain rfl := Fallible.pure_eq_ok.mp hmade
  exact ⟨htype, sessionUidForFinding_eq h huid⟩

/-- The connections recorded with the occurrences of a cluster. -/
def sessionUids (cluster : EndpointFindingCluster) : List String :=
  cluster.contributingOccurrences.val.filterMap fun occurrence => occurrence.sessionUid.map (·.val)

/-- The occurrences are those of the members, and the references are the members' merged. -/
theorem occurrences_of_clusterFromOrdered {sha256 : String → Sha256Hex} {ordered : List Finding}
    {cluster : EndpointFindingCluster} (h : clusterFromOrdered sha256 ordered = .ok cluster) :
    (∀ occurrence, occurrence ∈ cluster.contributingOccurrences.val ↔
      ∃ f ∈ ordered, occurrenceRef f = .ok occurrence) ∧
    cluster.evidenceReferences.val = mergeReferences ordered := by
  unfold clusterFromOrdered at h
  obtain ⟨representative, -, h⟩ := Fallible.bind_eq_ok.mp h
  obtain ⟨occurrences, hoccurrences, h⟩ := Fallible.bind_eq_ok.mp h
  obtain ⟨severest, -, h⟩ := Fallible.bind_eq_ok.mp h
  obtain ⟨weakest, -, h⟩ := Fallible.bind_eq_ok.mp h
  obtain ⟨effectiveFrom, -, h⟩ := Fallible.bind_eq_ok.mp h
  obtain ⟨evaluationTime, -, h⟩ := Fallible.bind_eq_ok.mp h
  obtain ⟨recurrence, -, h⟩ := Fallible.bind_eq_ok.mp h
  obtain ⟨unique, -, h⟩ := Fallible.bind_eq_ok.mp h
  obtain ⟨ids, -, h⟩ := Fallible.bind_eq_ok.mp h
  obtain ⟨refs, hrefs, h⟩ := Fallible.bind_eq_ok.mp h
  obtain rfl := Fallible.pure_eq_ok.mp h
  refine ⟨?_, rfl⟩
  intro occurrence
  show occurrence ∈ refs.val ↔ _
  rw [Contributing.val_of_validate hrefs, List.mem_insertionSort]
  constructor
  · exact Fallible.exists_of_mem_mapM hoccurrences
  · rintro ⟨f, hf, hmade⟩
    have hmem : some occurrence ∈ ordered.map fun f => (occurrenceRef f).toOption :=
      List.mem_map.mpr ⟨f, hf, by rw [hmade]; rfl⟩
    rw [← Fallible.map_some_of_mapM hoccurrences] at hmem
    exact (List.mem_map_of_injective (Option.some_injective _)).mp hmem

/-! ## Merged references -/

instance : Std.TransCmp referenceOrdering :=
  inferInstanceAs (Std.TransCmp
    (compareLex (compareOn fun ref : EvidenceReference => ref.recordType.value)
      (compareLex (compareOn fun ref => ref.recordKey.val)
        (compareLex (compareOn fun ref => ref.fieldPath.val)
          (compareLex (compareOn fun ref => ref.evidenceState.value)
            (compareOn fun ref => (ref.frameNumber.map (·.val)).getD 0))))))

/-- The references are sorted by their types first. -/
theorem recordType_before {a b : EvidenceReference} (h : SortKey.Before referenceOrdering a b) :
    (Ord.compare a.recordType.value b.recordType.value).isLE = true := by
  have hle : (referenceOrdering a b).isLE = true := h
  unfold referenceOrdering at hle
  cases htype : Ord.compare a.recordType.value b.recordType.value with
  | lt => rfl
  | eq => rfl
  | gt =>
    rw [htype] at hle
    exact absurd hle (by simp)

/-- `certificate` is the first of the types. -/
theorem certificate_of_before {type : EvidenceRecordType}
    (h : (Ord.compare type.value EvidenceRecordType.certificate.value).isLE = true) :
    type = .certificate := by
  cases type with
  | certificate => rfl
  | flow => exact absurd h (by decide)
  | session => exact absurd h (by decide)
  | handshake => exact absurd h (by decide)

/-! ### What is kept of the references -/

section

variable {κ ν : Type} [DecidableEq κ] {key : ν → κ}

/-- The first value of each key stays. -/
theorem get?_foldl_setDefault {k : κ} {l : List ν} {d : Py.Dict κ ν} :
    (l.foldl (fun d a => d.setDefault (key a) a) d).get? k =
      (d.get? k).or (l.find? (key · = k)) := by
  induction l generalizing d with
  | nil => simp
  | cons a rest ih =>
    rw [List.foldl_cons, ih]
    have hset : (d.setDefault (key a) a).get? k =
        (d.get? k).or (if key a = k then some a else none) := by
      unfold Py.Dict.setDefault
      cases hget : d.get? (key a) with
      | some b =>
        by_cases hk : key a = k
        · simp [← hk, hget]
        · simp [hk]
      | none =>
        rw [Py.Dict.get?_set]
        by_cases hk : key a = k
        · simp [← hk, hget]
        · simp [hk, Ne.symm hk]
    rw [hset, Option.or_assoc]
    by_cases hk : key a = k
    · simp [hk]
    · simp [hk]

/-- The values kept are values of the list, one for each key. -/
theorem mem_kept_iff {l : List ν} {a : ν} :
    a ∈ (l.foldl (fun d a => d.setDefault (key a) a) (∅ : Py.Dict κ ν)).entries.map (·.2) ↔
      ∃ k, l.find? (key · = k) = some a := by
  rw [List.mem_map]
  constructor
  · rintro ⟨⟨k, b⟩, hentry, rfl⟩
    have hget := Py.Dict.mem_entries_iff.mp hentry
    rw [get?_foldl_setDefault] at hget
    exact ⟨k, by simpa using hget⟩
  · rintro ⟨k, hfind⟩
    refine ⟨(k, a), Py.Dict.mem_entries_iff.mpr ?_, rfl⟩
    rw [get?_foldl_setDefault]
    simpa using hfind

end

/-- The references of the members, of each key the first. -/
def keptReferences (members : List Finding) : List EvidenceReference :=
  ((members.flatMap (·.evidenceReferences)).foldl
    (fun unique ref => unique.setDefault (referenceKey ref) ref)
    (∅ : Py.Dict (String × String × String × String × Option Nat) EvidenceReference)).entries.map
      (·.2)

theorem mergeReferences_eq (members : List Finding) : mergeReferences members =
    ((keptReferences members).insertionSort (SortKey.Before referenceOrdering)).take
      maxMergedRefs := rfl

theorem of_mem_keptReferences {members : List Finding} {ref : EvidenceReference}
    (h : ref ∈ keptReferences members) : ∃ f ∈ members, ref ∈ f.evidenceReferences := by
  obtain ⟨k, hfind⟩ := mem_kept_iff.mp h
  exact List.mem_flatMap.mp (List.mem_of_find?_eq_some hfind)

/-- A reference of a member has one with its key among those that are kept. -/
theorem exists_mem_keptReferences {members : List Finding} {f : Finding} (hf : f ∈ members)
    {ref : EvidenceReference} (href : ref ∈ f.evidenceReferences) :
    ∃ a ∈ keptReferences members, referenceKey a = referenceKey ref := by
  have hmem : ref ∈ members.flatMap (·.evidenceReferences) := List.mem_flatMap.mpr ⟨f, hf, href⟩
  have hfound : ((members.flatMap (·.evidenceReferences)).find?
      (referenceKey · = referenceKey ref)).isSome = true :=
    List.find?_isSome.mpr ⟨ref, hmem, by simp⟩
  obtain ⟨a, ha⟩ := Option.isSome_iff_exists.mp hfound
  exact ⟨a, mem_kept_iff.mpr ⟨_, ha⟩, by simpa using List.find?_some ha⟩

/-- **The first of the merged references**: one of a member's, and of a certificate if any is. -/
theorem mergeReferences_eq_cons {members : List Finding}
    (h : ∃ f ∈ members, f.evidenceReferences ≠ []) :
    ∃ first rest, mergeReferences members = first :: rest ∧
      (∃ f ∈ members, first ∈ f.evidenceReferences) ∧
      ((∃ f ∈ members, ∃ ref ∈ f.evidenceReferences, ref.recordType = .certificate) →
        first.recordType = .certificate) := by
  obtain ⟨f, hf, hne⟩ := h
  obtain ⟨ref, href⟩ := List.exists_mem_of_ne_nil _ hne
  obtain ⟨a, ha, -⟩ := exists_mem_keptReferences hf href
  have hsorted : a ∈ (keptReferences members).insertionSort (SortKey.Before referenceOrdering) :=
    (List.mem_insertionSort _).mpr ha
  obtain ⟨first, rest, hordered⟩ := List.exists_cons_of_ne_nil (List.ne_nil_of_mem hsorted)
  have hfirst : first ∈ keptReferences members := by
    refine (List.mem_insertionSort (SortKey.Before referenceOrdering)).mp ?_
    rw [hordered]
    exact List.mem_cons_self
  refine ⟨first, rest.take (maxMergedRefs - 1), ?_, of_mem_keptReferences hfirst, ?_⟩
  · rw [mergeReferences_eq, hordered]
    rfl
  · rintro ⟨f, hf, ref, href, hcertificate⟩
    obtain ⟨b, hb, hkey⟩ := exists_mem_keptReferences hf href
    have htype : b.recordType.value = EvidenceRecordType.certificate.value := by
      rw [← hcertificate]
      exact congrArg Prod.fst hkey
    have hbefore := recordType_before (SortKey.le_of_head referenceOrdering hordered b hb)
    rw [htype] at hbefore
    exact certificate_of_before hbefore

/-! ## The key the references begin with -/

/-- **The first key is a connection of the cluster exactly when no occurrence is a certificate.** -/
theorem firstKey_mem_sessionUids_iff {sha256 : String → Sha256Hex} {ordered : List Finding}
    {cluster : EndpointFindingCluster} (hne : ordered ≠ [])
    (hconnections : ∀ f ∈ ordered, ∃ type uid, f.OfConnection type uid ∧ ':' ∉ uid.toList)
    (h : clusterFromOrdered sha256 ordered = .ok cluster) :
    ∃ first rest, cluster.evidenceReferences.val = first :: rest ∧
      (first.recordKey.val ∈ sessionUids cluster ↔
        ∀ occurrence ∈ cluster.contributingOccurrences.val,
          occurrence.recordType ≠ .certificate) := by
  obtain ⟨hoccurrences, hrefs⟩ := occurrences_of_clusterFromOrdered h
  obtain ⟨f, hf⟩ := List.exists_mem_of_ne_nil _ hne
  obtain ⟨type, uid, hconnection, -⟩ := hconnections f hf
  obtain ⟨first, rest, hmerged, ⟨g, hg, hfirst⟩, hcertificate⟩ :=
    mergeReferences_eq_cons ⟨f, hf, hconnection.refs_ne_nil⟩
  refine ⟨first, rest, hrefs.trans hmerged, ?_⟩
  obtain ⟨gtype, guid, hgconnection, hgcolon⟩ := hconnections g hg
  constructor
  · intro hmem occurrence hoccurrence htype
    -- The key of a certificate has a colon, and no connection has.
    obtain ⟨f', hf', hmade'⟩ := (hoccurrences occurrence).mp hoccurrence
    obtain ⟨type', uid', hconnection', huid'⟩ := hconnections f' hf'
    have htype' := (occurrenceRef_eq hconnection' huid' hmade').1
    obtain ⟨ref, href⟩ := List.exists_mem_of_ne_nil _ hconnection'.refs_ne_nil
    have hfirstType := hcertificate
      ⟨f', hf', ref, href, (hconnection'.types ref href).trans (htype'.symm.trans htype)⟩
    have hgtype := (hgconnection.types first hfirst).symm.trans hfirstType
    obtain ⟨more, hkey⟩ := hgconnection.certificateKeys first hfirst hgtype
    obtain ⟨recorded, hrecorded, hsome⟩ := List.mem_filterMap.mp hmem
    obtain ⟨f'', hf'', hmade''⟩ := (hoccurrences recorded).mp hrecorded
    obtain ⟨type'', uid'', hconnection'', huid''⟩ := hconnections f'' hf''
    have hrecordedUid := (occurrenceRef_eq hconnection'' huid'' hmade'').2
    rw [hrecordedUid, hkey] at hsome
    obtain rfl := Option.some.inj hsome
    exact huid'' (by simp)
  · intro hall
    obtain ⟨occurrence, hmade⟩ := exists_occurrenceRef g
    obtain ⟨htype, hrecorded⟩ := occurrenceRef_eq hgconnection hgcolon hmade
    have hoccurrence := (hoccurrences occurrence).mpr ⟨g, hg, hmade⟩
    have hother : gtype ≠ .certificate := htype ▸ hall occurrence hoccurrence
    rw [hgconnection.keys first hfirst hother]
    exact List.mem_filterMap.mpr ⟨occurrence, hoccurrence, hrecorded⟩

end Findings
end SecureMail
