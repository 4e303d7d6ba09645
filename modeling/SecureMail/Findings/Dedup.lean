import Mathlib.Data.List.Dedup
import Mathlib.Data.List.Sort
import SecureMail.Findings.Finding
import SecureMail.Py.Dict
import SecureMail.Py.Select
import SecureMail.Py.Str
import SecureMail.Lib.Fallible

/-!
# One finding for an endpoint

Findings of one code, endpoint and policy are one cluster, whose judgment comes from the negative
members if there are any, and which keeps a reference to every member. Grouping is by a dictionary,
so a group is a sublist of the input; a cluster is what `_cluster_from_group` makes of it.

That function can fail in one place. The evaluation time of a cluster is the latest of its members',
and a naive and an aware `datetime` do not compare.

The bounds of the model's fields are subtypes, and a constructor that can refuse a value is a
`validate`. What is proved about a cluster is then proved under the assumption that it was built,
and what can keep it from being built is a lemma of its own (`clusterFromOrdered_eq_ok_iff`). The
members are put in the order of their ids first, as in the source; every field of the cluster is
read off that list, so that the order of the findings does not matter from there on.
-/

namespace SecureMail
namespace Findings

def maxContributors : Nat := 4096
def maxMergedRefs : Nat := 1024

structure OccurrenceRef where
  findingId : Sha256Hex
  recordType : EvidenceRecordType
  recordKey : Text 160
  sessionUid : Option { s : String // s.length ≤ 160 }
  deriving DecidableEq

/-- `Field(ge=1, le=_MAX_CONTRIBUTORS)`. -/
abbrev Contributors := { n : Nat // 1 ≤ n ∧ n ≤ maxContributors }

/-- `Field(min_length=1, max_length=_MAX_CONTRIBUTORS)`. -/
abbrev Contributing (α : Type) := { l : List α // 1 ≤ l.length ∧ l.length ≤ maxContributors }

@[ext] structure EndpointFindingCluster where
  findingId : Sha256Hex
  code : Text 64
  outcome : FindingOutcome
  title : Text 160
  rationale : Text 1000
  standards : List String
  standards_le : standards.length ≤ 8
  remediationId : Text 64
  severity : FindingSeverity
  evaluationState : EvidenceState
  basisState : EvidenceState
  policyProfile : Text 64
  policyPackVersion : Sha256Hex
  ruleEffectiveFrom : Py.Date
  ruleEffectiveUntil : Option Py.Date
  policyEvaluationTime : Py.Datetime
  affectedEndpoint : Text 300
  recurrenceCount : Contributors
  uniqueOccurrences : Contributors
  contributingFindingIds : Contributing Sha256Hex
  contributingOccurrences : Contributing OccurrenceRef
  evidenceReferences : { refs : List EvidenceReference // refs.length ≤ maxMergedRefs }

instance : DecidableEq EndpointFindingCluster := fun _ _ =>
  decidable_of_iff _ EndpointFindingCluster.ext_iff.symm

/-! ## Occurrences -/

/-- `key.split(":", 1)[0]` -/
def beforeColon (key : String) : String := String.ofList (key.toList.takeWhile (· ≠ ':'))

theorem length_beforeColon_le (key : String) : (beforeColon key).length ≤ key.length := by
  unfold beforeColon
  rw [String.length_ofList, ← String.length_toList]
  exact (List.takeWhile_sublist _).length_le

/-- `session_uid_for_finding`: the first session; without one, the connection of the first
reference. -/
def sessionUidForFinding (finding : Finding) : Option { s : String // s.length ≤ 160 } :=
  match finding.evidenceReferences.find? (·.recordType = .session) with
  | some ref => some ⟨ref.recordKey.val, ref.recordKey.property.2⟩
  | none =>
    finding.evidenceReferences.findSome? fun ref =>
      match ref.recordType with
      | .handshake | .flow => some ⟨ref.recordKey.val, ref.recordKey.property.2⟩
      | .certificate =>
        some ⟨beforeColon ref.recordKey.val,
          (length_beforeColon_le _).trans ref.recordKey.property.2⟩
      | .session => none

/-- `_occurrence_key`. -/
def occurrenceKey (finding : Finding) : String :=
  match finding.evidenceReferences with
  | [] => "finding:" ++ finding.findingId.val
  | ref :: _ => ref.recordType.value ++ ":" ++ ref.recordKey.val

/-- `_occurrence_ref`. A finding without references stands for itself, under its own id as a key. -/
def occurrenceRef (finding : Finding) : Result OccurrenceRef :=
  match finding.evidenceReferences with
  | [] => do
    let recordKey ← Text.validate 160 "OccurrenceRef" "record_key" finding.findingId.val
    pure ⟨finding.findingId, .session, recordKey, sessionUidForFinding finding⟩
  | ref :: _ =>
    pure ⟨finding.findingId, ref.recordType, ref.recordKey, sessionUidForFinding finding⟩

/-! ## Clusters -/

/-- `_group_key`. -/
def groupKey (finding : Finding) : String × String × String × String :=
  (finding.code.val, finding.affectedEndpoint.val, finding.policyProfile.val,
    finding.policyPackVersion.val)

/-- `_SEVERITY_RANK`. -/
def severityRank : FindingSeverity → Nat
  | .high => 3
  | .medium => 2
  | .low => 1
  | .informational => 0

/-- `_STATE_RANK`. The lower rank is the weaker basis, and a cluster has the weakest one of its
primary members. -/
def stateRank : EvidenceState → Nat
  | .conflicting => 0
  | .incomplete => 1
  | .indeterminate => 2
  | .notObservable => 3
  | .inferred => 4
  | .observed => 5
  | .verified => 6

/-- `_aggregate_id`, on the members in the order of their ids. -/
def aggregateId (sha256 : String → Sha256Hex) (first : Finding) (members : List Finding) :
    Sha256Hex :=
  sha256 (Py.join "|" (["endpoint", first.code.val, first.affectedEndpoint.val,
    first.policyProfile.val, first.policyPackVersion.val] ++
      (members.map (·.findingId.val)).insertionSort (· ≤ ·)))

/-- `_pick_primary`. -/
def pickPrimary (members : List Finding) : List Finding :=
  let negatives := members.filter (·.outcome = .negative)
  if negatives.isEmpty then members else negatives

/-- The key under which `_merge_references` keeps one reference. -/
def referenceKey (ref : EvidenceReference) : String × String × String × String × Option Nat :=
  (ref.recordType.value, ref.recordKey.val, ref.fieldPath.val, ref.evidenceState.value,
    ref.frameNumber.map (·.val))

def referenceOrdering (a b : EvidenceReference) : Ordering :=
  (Ord.compare a.recordType.value b.recordType.value).then <|
    (Ord.compare a.recordKey.val b.recordKey.val).then <|
      (Ord.compare a.fieldPath.val b.fieldPath.val).then <|
        (Ord.compare a.evidenceState.value b.evidenceState.value).then <|
          Ord.compare ((a.frameNumber.map (·.val)).getD 0) ((b.frameNumber.map (·.val)).getD 0)

/-- `_merge_references`. The first reference of a key stays, the rest is sorted, and what is past
the limit is cut off. -/
def mergeReferences (members : List Finding) : List EvidenceReference :=
  let unique := (members.flatMap (·.evidenceReferences)).foldl
    (fun unique ref => unique.setDefault (referenceKey ref) ref)
    (∅ : Py.Dict (String × String × String × String × Option Nat) EvidenceReference)
  ((unique.entries.map (·.2)).insertionSort fun a b => (referenceOrdering a b).isLE = true).take
    maxMergedRefs

/-- One comparison of `max(times)`. -/
def laterOf (best t : Py.Datetime) : Result Py.Datetime :=
  match best.lt? t with
  | some later => pure (if later then t else best)
  | none => throw .typeError

/-- `max(times)`. -/
def latest : List Py.Datetime → Result Py.Datetime
  | [] => throw .valueError
  | first :: rest => rest.foldlM laterOf first

/-- `min` and `max` of a list that has to have an element. -/
def selected {α : Type} : Option α → Result α
  | some a => pure a
  | none => throw .valueError

/-- The validation of a number of contributors. -/
def Contributors.validate (field : String) (n : Nat) : Result Contributors :=
  if h : 1 ≤ n ∧ n ≤ maxContributors then pure ⟨n, h⟩
  else throw (.validation "EndpointFindingCluster" field)

/-- The validation of a list of contributors. -/
def Contributing.validate {α : Type} (field : String) (l : List α) : Result (Contributing α) :=
  if h : 1 ≤ l.length ∧ l.length ≤ maxContributors then pure ⟨l, h⟩
  else throw (.validation "EndpointFindingCluster" field)

/-- The cluster of a group whose members are in the order of their ids. -/
def clusterFromOrdered (sha256 : String → Sha256Hex) (ordered : List Finding) :
    Result EndpointFindingCluster := do
  let primary := pickPrimary ordered
  let representative ← selected (Py.minBy (·.findingId.val) primary)
  let outcome : FindingOutcome :=
    if ordered.any (·.outcome = .negative) then .negative else .indeterminate
  let occurrences ← ordered.mapM occurrenceRef
  let severest ← selected (Py.maxBy (fun f : Finding => severityRank f.severity) primary)
  let weakest ← selected (Py.minBy (fun f : Finding => stateRank f.basisState) primary)
  let effectiveFrom ← selected (Py.minBy id (ordered.map (·.ruleEffectiveFrom)))
  let evaluationTime ← latest (ordered.map (·.policyEvaluationTime))
  let recurrenceCount ← Contributors.validate "recurrence_count" ordered.length
  let uniqueOccurrences ←
    Contributors.validate "unique_occurrences" (ordered.map occurrenceKey).dedup.length
  let ids ← Contributing.validate "contributing_finding_ids" (ordered.map (·.findingId))
  let refs ← Contributing.validate "contributing_occurrences"
    (occurrences.insertionSort fun a b => a.findingId.val ≤ b.findingId.val)
  pure
    { findingId := aggregateId sha256 (ordered.headD representative) ordered
      code := representative.code
      outcome := outcome
      title := representative.title
      rationale := representative.rationale
      standards := representative.standards
      standards_le := representative.standards_le
      remediationId := representative.remediationId
      severity := severest.severity
      evaluationState := if outcome = .negative then .verified else .indeterminate
      basisState := weakest.basisState
      policyProfile := representative.policyProfile
      policyPackVersion := representative.policyPackVersion
      ruleEffectiveFrom := effectiveFrom
      ruleEffectiveUntil := representative.ruleEffectiveUntil
      policyEvaluationTime := evaluationTime
      affectedEndpoint := representative.affectedEndpoint
      recurrenceCount := recurrenceCount
      uniqueOccurrences := uniqueOccurrences
      contributingFindingIds := ids
      contributingOccurrences := refs
      evidenceReferences := ⟨mergeReferences ordered, List.length_take_le _ _⟩ }

/-- `_cluster_from_group`. -/
def clusterFromGroup (sha256 : String → Sha256Hex) (members : List Finding) :
    Result EndpointFindingCluster :=
  clusterFromOrdered sha256 (members.insertionSort fun a b => a.findingId.val ≤ b.findingId.val)

def clusterOrdering (a b : EndpointFindingCluster) : Ordering :=
  (Ord.compare a.code.val b.code.val).then <|
    (Ord.compare a.affectedEndpoint.val b.affectedEndpoint.val).then <|
      (Ord.compare a.policyProfile.val b.policyProfile.val).then
        (Ord.compare a.findingId.val b.findingId.val)

/-- The groups, in the order of their first members. -/
def groups (findings : List Finding) : List (List Finding) :=
  (Py.Dict.groupBy groupKey findings).entries.map (·.2)

/-- `dedup_findings`. -/
def dedupFindings (sha256 : String → Sha256Hex) (findings : List Finding) :
    Result (List EndpointFindingCluster) := do
  let clusters ← (groups findings).mapM (clusterFromGroup sha256)
  pure (clusters.insertionSort fun a b => (clusterOrdering a b).isLE = true)

/-! ## When a group is a cluster -/

/-- All evaluation times are naive, or all are aware. Python compares two of one kind and raises on
two of different kinds. -/
def Comparable (members : List Finding) : Prop :=
  ∀ f ∈ members, ∀ g ∈ members,
    f.policyEvaluationTime.offset.isSome = g.policyEvaluationTime.offset.isSome

theorem mem_groups_iff {findings members : List Finding} : members ∈ groups findings ↔
    ∃ key, members = findings.filter (groupKey · = key) ∧ members ≠ [] := by
  unfold groups
  rw [List.mem_map]
  constructor
  · rintro ⟨⟨key, members⟩, hentry, rfl⟩
    exact ⟨key, Py.Dict.mem_groupBy_iff.mp hentry⟩
  · rintro ⟨key, hmembers⟩
    exact ⟨(key, members), Py.Dict.mem_groupBy_iff.mpr hmembers, rfl⟩

theorem laterOf_of_comparable {best t : Py.Datetime}
    (h : t.offset.isSome = best.offset.isSome) :
    ∃ u, laterOf best t = .ok u ∧ u.offset.isSome = best.offset.isSome := by
  have hlt : best.lt? t = some (decide (best.instant < t.instant)) := by
    unfold Py.Datetime.lt?
    rw [if_pos h.symm]
  unfold laterOf
  rw [hlt]
  refine ⟨_, rfl, ?_⟩
  by_cases hlater : best.instant < t.instant
  · simpa [hlater] using h
  · simp [hlater]

theorem laterOf_eq_ok {best t u : Py.Datetime} (h : laterOf best t = .ok u) :
    t.offset.isSome = best.offset.isSome := by
  unfold laterOf at h
  cases hlt : best.lt? t with
  | none =>
    rw [hlt] at h
    cases h
  | some later => exact (Py.Datetime.lt?_isSome.mp (by rw [hlt]; rfl)).symm

/-- `max` returns iff every time is of the kind of the first. -/
theorem foldlM_laterOf_eq_ok_iff {rest : List Py.Datetime} {first : Py.Datetime} :
    (∃ t, rest.foldlM laterOf first = .ok t) ↔
      ∀ t ∈ rest, t.offset.isSome = first.offset.isSome := by
  induction rest generalizing first with
  | nil => exact ⟨fun _ => by simp, fun _ => ⟨first, rfl⟩⟩
  | cons t rest ih =>
    rw [List.forall_mem_cons]
    constructor
    · rintro ⟨latest, hrun⟩
      obtain ⟨u, hu, hrest⟩ := Fallible.foldlM_cons_eq_ok.mp hrun
      have ht := laterOf_eq_ok hu
      obtain ⟨u', hu', hkind⟩ := laterOf_of_comparable ht
      obtain rfl : u' = u := Except.ok.inj (hu'.symm.trans hu)
      exact ⟨ht, fun v hv => (ih.mp ⟨latest, hrest⟩ v hv).trans hkind⟩
    · rintro ⟨ht, hall⟩
      obtain ⟨u, hu, hkind⟩ := laterOf_of_comparable ht
      obtain ⟨latest, hrest⟩ := ih.mpr fun v hv => (hall v hv).trans hkind.symm
      exact ⟨latest, Fallible.foldlM_cons_eq_ok.mpr ⟨u, hu, hrest⟩⟩

theorem latest_eq_ok_iff {members : List Finding} (hne : members ≠ []) :
    (∃ t, latest (members.map (·.policyEvaluationTime)) = .ok t) ↔ Comparable members := by
  cases members with
  | nil => exact absurd rfl hne
  | cons first rest =>
    rw [List.map_cons, latest, foldlM_laterOf_eq_ok_iff, List.forall_mem_map]
    constructor
    · intro h
      have hall : ∀ f ∈ first :: rest,
          f.policyEvaluationTime.offset.isSome = first.policyEvaluationTime.offset.isSome := by
        intro f hf
        rcases List.mem_cons.mp hf with rfl | hf
        · rfl
        · exact h f hf
      intro f hf g hg
      exact (hall f hf).trans (hall g hg).symm
    · intro h f hf
      exact h f (List.mem_cons_of_mem _ hf) first List.mem_cons_self

theorem selected_eq_ok {α : Type} {o : Option α} {a : α} :
    selected o = .ok a ↔ o = some a := by
  cases o with
  | none => simp [selected, throw, throwThe, MonadExceptOf.throw]
  | some b => simp [selected]

theorem exists_minBy {α κ : Type} [LT κ] [DecidableLT κ] (key : α → κ) {l : List α}
    (h : l ≠ []) : ∃ a, selected (Py.minBy key l) = .ok a := by
  obtain ⟨a, ha⟩ := Option.isSome_iff_exists.mp (Py.select_isSome.mpr h)
  exact ⟨a, selected_eq_ok.mpr ha⟩

theorem exists_maxBy {α κ : Type} [LT κ] [DecidableLT κ] (key : α → κ) {l : List α}
    (h : l ≠ []) : ∃ a, selected (Py.maxBy key l) = .ok a := by
  obtain ⟨a, ha⟩ := Option.isSome_iff_exists.mp (Py.select_isSome.mpr h)
  exact ⟨a, selected_eq_ok.mpr ha⟩

theorem pickPrimary_ne_nil {members : List Finding} (h : members ≠ []) :
    pickPrimary members ≠ [] := by
  unfold pickPrimary
  by_cases hnegatives : members.filter (·.outcome = .negative) = []
  · simpa [hnegatives] using h
  · simp [List.isEmpty_iff, hnegatives]

theorem exists_occurrenceRef (finding : Finding) : ∃ ref, occurrenceRef finding = .ok ref := by
  unfold occurrenceRef
  cases finding.evidenceReferences with
  | nil =>
    have hlength : 1 ≤ finding.findingId.val.length ∧ finding.findingId.val.length ≤ 160 := by
      have h := finding.findingId.property.1
      omega
    refine ⟨⟨finding.findingId, .session, ⟨_, hlength⟩, sessionUidForFinding finding⟩, ?_⟩
    simp only [Text.validate, dif_pos hlength]
    rfl
  | cons ref rest => exact ⟨_, rfl⟩

theorem exists_mapM_occurrenceRef (members : List Finding) :
    ∃ refs, members.mapM occurrenceRef = .ok refs ∧ refs.length = members.length := by
  induction members with
  | nil => exact ⟨[], rfl, rfl⟩
  | cons f rest ih =>
    obtain ⟨ref, href⟩ := exists_occurrenceRef f
    obtain ⟨refs, hrefs, hlength⟩ := ih
    exact ⟨ref :: refs, Fallible.mapM_cons_eq_ok.mpr ⟨ref, refs, href, hrefs, rfl⟩,
      by rw [List.length_cons, List.length_cons, hlength]⟩

theorem Contributors.validate_eq_ok {field : String} {n : Nat} (h : 1 ≤ n ∧ n ≤ maxContributors) :
    Contributors.validate field n = .ok ⟨n, h⟩ := by
  unfold Contributors.validate
  rw [dif_pos h]
  rfl

theorem Contributing.validate_eq_ok {α : Type} {field : String} {l : List α}
    (h : 1 ≤ l.length ∧ l.length ≤ maxContributors) :
    Contributing.validate field l = .ok ⟨l, h⟩ := by
  unfold Contributing.validate
  rw [dif_pos h]
  rfl

theorem Contributors.val_of_validate {field : String} {n : Nat} {c : Contributors}
    (h : Contributors.validate field n = .ok c) : c.val = n := by
  unfold Contributors.validate at h
  split at h
  · rw [← Fallible.pure_eq_ok.mp h]
  · cases h

theorem Contributing.val_of_validate {α : Type} {field : String} {l : List α}
    {c : Contributing α} (h : Contributing.validate field l = .ok c) : c.val = l := by
  unfold Contributing.validate at h
  split at h
  · rw [← Fallible.pure_eq_ok.mp h]
  · cases h

/-- The one thing that keeps the members of a group from being a cluster. -/
theorem clusterFromOrdered_eq_ok_iff {sha256 : String → Sha256Hex} {ordered : List Finding}
    (hne : ordered ≠ []) (hlength : ordered.length ≤ maxContributors) :
    (∃ cluster, clusterFromOrdered sha256 ordered = .ok cluster) ↔ Comparable ordered := by
  have hbounds : 1 ≤ ordered.length ∧ ordered.length ≤ maxContributors :=
    ⟨List.length_pos_iff.mpr hne, hlength⟩
  obtain ⟨representative, hrepresentative⟩ :=
    exists_minBy (fun f : Finding => f.findingId.val) (pickPrimary_ne_nil hne)
  rw [← latest_eq_ok_iff hne]
  unfold clusterFromOrdered
  constructor
  · rintro ⟨cluster, h⟩
    obtain ⟨representative', hrepresentative', h⟩ := Fallible.bind_eq_ok.mp h
    obtain rfl : representative' = representative :=
      Except.ok.inj (hrepresentative'.symm.trans hrepresentative)
    obtain ⟨_, _, h⟩ := Fallible.bind_eq_ok.mp h
    obtain ⟨_, _, h⟩ := Fallible.bind_eq_ok.mp h
    obtain ⟨_, _, h⟩ := Fallible.bind_eq_ok.mp h
    obtain ⟨_, _, h⟩ := Fallible.bind_eq_ok.mp h
    obtain ⟨t, ht, -⟩ := Fallible.bind_eq_ok.mp h
    exact ⟨t, ht⟩
  · rintro ⟨t, ht⟩
    obtain ⟨refs, hrefs, hrefsLength⟩ := exists_mapM_occurrenceRef ordered
    obtain ⟨severest, hseverest⟩ :=
      exists_maxBy (fun f : Finding => severityRank f.severity) (pickPrimary_ne_nil hne)
    obtain ⟨weakest, hweakest⟩ :=
      exists_minBy (fun f : Finding => stateRank f.basisState) (pickPrimary_ne_nil hne)
    obtain ⟨effectiveFrom, heffectiveFrom⟩ :=
      exists_minBy (id : Py.Date → Py.Date)
        (l := ordered.map (·.ruleEffectiveFrom)) (by simpa using hne)
    have hunique : 1 ≤ (ordered.map occurrenceKey).dedup.length ∧
        (ordered.map occurrenceKey).dedup.length ≤ maxContributors := by
      constructor
      · refine List.length_pos_iff.mpr ?_
        rw [ne_eq, List.dedup_eq_nil, List.map_eq_nil_iff]
        exact hne
      · have hle := (List.dedup_sublist (ordered.map occurrenceKey)).length_le
        rw [List.length_map] at hle
        exact hle.trans hlength
    have hids : 1 ≤ (ordered.map (·.findingId)).length ∧
        (ordered.map (·.findingId)).length ≤ maxContributors := by
      rwa [List.length_map]
    have hsorted : 1 ≤ (refs.insertionSort fun a b => a.findingId.val ≤ b.findingId.val).length ∧
        (refs.insertionSort fun a b => a.findingId.val ≤ b.findingId.val).length ≤
          maxContributors := by
      rwa [List.length_insertionSort, hrefsLength]
    exact ⟨_, Fallible.bind_eq_ok.mpr ⟨_, hrepresentative,
      Fallible.bind_eq_ok.mpr ⟨_, hrefs, Fallible.bind_eq_ok.mpr ⟨_, hseverest,
      Fallible.bind_eq_ok.mpr ⟨_, hweakest, Fallible.bind_eq_ok.mpr ⟨_, heffectiveFrom,
      Fallible.bind_eq_ok.mpr ⟨_, ht,
      Fallible.bind_eq_ok.mpr ⟨_, Contributors.validate_eq_ok hbounds,
      Fallible.bind_eq_ok.mpr ⟨_, Contributors.validate_eq_ok hunique,
      Fallible.bind_eq_ok.mpr ⟨_, Contributing.validate_eq_ok hids,
      Fallible.bind_eq_ok.mpr ⟨_, Contributing.validate_eq_ok hsorted, rfl⟩⟩⟩⟩⟩⟩⟩⟩⟩⟩⟩

theorem clusterFromGroup_eq_ok_iff {sha256 : String → Sha256Hex} {members : List Finding}
    (hne : members ≠ []) (hlength : members.length ≤ maxContributors) :
    (∃ cluster, clusterFromGroup sha256 members = .ok cluster) ↔ Comparable members := by
  have hperm := members.perm_insertionSort fun a b => a.findingId.val ≤ b.findingId.val
  have hcomparable : Comparable (members.insertionSort fun a b => a.findingId.val ≤ b.findingId.val)
      ↔ Comparable members := by
    unfold Comparable
    simp only [hperm.mem_iff]
  rw [← hcomparable, clusterFromGroup, clusterFromOrdered_eq_ok_iff]
  · intro hnil
    rw [hnil] at hperm
    exact hne hperm.symm.eq_nil
  · rw [hperm.length_eq]
    exact hlength

end Findings
end SecureMail
