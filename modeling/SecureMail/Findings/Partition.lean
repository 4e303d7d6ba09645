import SecureMail.Findings.Score
import SecureMail.Lib.Keyed

/-!
# Deduplication loses nothing

The clusters cut the findings by their key. Each cluster keeps the ids of its part and counts it, so
what is read off all clusters together is read off the findings. A part is put in the order of its ids
before anything is made of it, and the clusters are sorted at the end by a key that tells them apart,
so the order of the findings is forgotten twice.

Findings with one id are taken to be one finding, and the hash to tell the id texts of the clusters
apart.

`Deduplicated` lists what it is to lose nothing: the ids of the clusters are the ids of the
findings, in some order and each once; the keys of the clusters are the keys of the findings; and
each cluster says of its own part what is true of it. None of the clauses mentions the dictionary
the source groups by, so that another way to group would have to meet the same list.
-/

namespace SecureMail
namespace Findings

/-- Each list of findings with one key, over the keys in the order of their first findings. -/
theorem groups_eq_map (findings : List Finding) :
    groups findings = (Py.Dict.groupBy groupKey findings).keys.map fun key =>
      findings.filter (groupKey · = key) := by
  rw [groups, Py.Dict.keys, List.map_map]
  refine List.map_congr_left ?_
  rintro ⟨key, members⟩ hentry
  exact (Py.Dict.mem_groupBy_iff.mp hentry).1

/-- The keys of the findings, each once. -/
abbrev keysOf (findings : List Finding) : List (String × String × String × String) :=
  (Py.Dict.groupBy groupKey findings).keys

theorem mem_keysOf_iff {findings : List Finding} {key : String × String × String × String} :
    key ∈ keysOf findings ↔ ∃ f ∈ findings, groupKey f = key := by
  rw [keysOf, Py.Dict.keys, List.mem_map]
  constructor
  · rintro ⟨⟨key, members⟩, hentry, rfl⟩
    obtain ⟨rfl, hne⟩ := Py.Dict.mem_groupBy_iff.mp hentry
    obtain ⟨f, hf⟩ := List.exists_mem_of_ne_nil _ hne
    obtain ⟨hmem, hkey⟩ := List.mem_filter.mp hf
    exact ⟨f, hmem, of_decide_eq_true hkey⟩
  · rintro ⟨f, hf, rfl⟩
    have hmem : f ∈ findings.filter (groupKey · = groupKey f) :=
      List.mem_filter.mpr ⟨hf, by simp⟩
    exact ⟨(groupKey f, findings.filter (groupKey · = groupKey f)),
      Py.Dict.mem_groupBy_iff.mpr ⟨rfl, List.ne_nil_of_mem hmem⟩, rfl⟩

/-! ## What a cluster keeps of its part -/

/-- The key of a cluster. -/
def clusterKey (cluster : EndpointFindingCluster) : String × String × String × String :=
  (cluster.code.val, cluster.affectedEndpoint.val, cluster.policyProfile.val,
    cluster.policyPackVersion.val)

/-- The text the id of a cluster is the hash of. -/
def aggregateMaterial (first : Finding) (members : List Finding) : String :=
  Py.join "|" (["endpoint", first.code.val, first.affectedEndpoint.val, first.policyProfile.val,
    first.policyPackVersion.val] ++ (members.map (·.findingId.val)).insertionSort (· ≤ ·))

/-- A part, in the order of its ids. -/
def orderedMembers (members : List Finding) : List Finding :=
  members.insertionSort fun a b => a.findingId.val ≤ b.findingId.val

/-- The fields of a cluster that are read off its members, in the order of their ids. -/
structure Summarizes (sha256 : String → Sha256Hex) (cluster : EndpointFindingCluster)
    (ordered : List Finding) : Prop where
  ids : cluster.contributingFindingIds.val = ordered.map (·.findingId)
  recurrence : cluster.recurrenceCount.val = ordered.length
  unique : cluster.uniqueOccurrences.val = (ordered.map occurrenceKey).dedup.length
  outcome : cluster.outcome = .negative ↔ ∃ f ∈ ordered, f.outcome = .negative
  severity : ∃ severest, Py.maxBy (fun f : Finding => severityRank f.severity)
    (pickPrimary ordered) = some severest ∧ cluster.severity = severest.severity
  basis : ∃ weakest, Py.minBy (fun f : Finding => stateRank f.basisState)
    (pickPrimary ordered) = some weakest ∧ cluster.basisState = weakest.basisState
  key : ∃ f ∈ ordered, clusterKey cluster = groupKey f
  id : ∀ first rest, ordered = first :: rest →
    cluster.findingId = sha256 (aggregateMaterial first ordered)

theorem pickPrimary_subset {members : List Finding} : pickPrimary members ⊆ members := by
  intro f hf
  unfold pickPrimary at hf
  dsimp only at hf
  split at hf
  · exact hf
  · exact List.mem_of_mem_filter hf

theorem summarizes_of_clusterFromOrdered {sha256 : String → Sha256Hex} {ordered : List Finding}
    {cluster : EndpointFindingCluster} (h : clusterFromOrdered sha256 ordered = .ok cluster) :
    Summarizes sha256 cluster ordered := by
  unfold clusterFromOrdered at h
  obtain ⟨representative, hrepresentative, h⟩ := Fallible.bind_eq_ok.mp h
  obtain ⟨occurrences, -, h⟩ := Fallible.bind_eq_ok.mp h
  obtain ⟨severest, hseverest, h⟩ := Fallible.bind_eq_ok.mp h
  obtain ⟨weakest, hweakest, h⟩ := Fallible.bind_eq_ok.mp h
  obtain ⟨effectiveFrom, -, h⟩ := Fallible.bind_eq_ok.mp h
  obtain ⟨evaluationTime, -, h⟩ := Fallible.bind_eq_ok.mp h
  obtain ⟨recurrence, hrecurrence, h⟩ := Fallible.bind_eq_ok.mp h
  obtain ⟨unique, hunique, h⟩ := Fallible.bind_eq_ok.mp h
  obtain ⟨ids, hids, h⟩ := Fallible.bind_eq_ok.mp h
  obtain ⟨refs, -, h⟩ := Fallible.bind_eq_ok.mp h
  obtain rfl := Fallible.pure_eq_ok.mp h
  have hmember : representative ∈ ordered :=
    pickPrimary_subset (Py.select_mem (selected_eq_ok.mp hrepresentative))
  refine ⟨?_, ?_, ?_, ?_, ⟨severest, selected_eq_ok.mp hseverest, rfl⟩,
    ⟨weakest, selected_eq_ok.mp hweakest, rfl⟩, ⟨representative, hmember, rfl⟩, ?_⟩
  · exact Contributing.val_of_validate hids
  · exact Contributors.val_of_validate hrecurrence
  · exact Contributors.val_of_validate hunique
  · by_cases hany : ordered.any (·.outcome = .negative) = true
    · rw [if_pos hany]
      simpa using hany
    · rw [if_neg hany]
      simpa using hany
  · rintro first rest rfl
    rfl

theorem mem_orderedMembers {members : List Finding} {f : Finding} :
    f ∈ orderedMembers members ↔ f ∈ members := List.mem_insertionSort _

theorem orderedMembers_perm (members : List Finding) : (orderedMembers members).Perm members :=
  List.perm_insertionSort _ members

/-- The findings with a key. -/
def membersOf (findings : List Finding) (key : String × String × String × String) :
    List Finding :=
  findings.filter (groupKey · = key)

theorem mem_membersOf {findings : List Finding} {key : String × String × String × String}
    {f : Finding} : f ∈ membersOf findings key ↔ f ∈ findings ∧ groupKey f = key := by
  simp [membersOf]

theorem dedupFindings_eq_ok {sha256 : String → Sha256Hex} {findings : List Finding}
    {clusters : List EndpointFindingCluster} :
    dedupFindings sha256 findings = .ok clusters ↔ ∃ unsorted,
      ((keysOf findings).mapM fun key => clusterFromGroup sha256 (membersOf findings key)) =
        .ok unsorted ∧
      clusters = unsorted.insertionSort (SortKey.Before clusterOrdering) := by
  unfold dedupFindings
  rw [groups_eq_map, List.mapM_map, Fallible.bind_eq_ok]
  refine exists_congr fun unsorted => and_congr_right fun _ => ?_
  rw [Fallible.pure_eq_ok]
  exact eq_comm

theorem clusterFromGroup_key {sha256 : String → Sha256Hex} {findings : List Finding}
    {key : String × String × String × String} {cluster : EndpointFindingCluster}
    (h : clusterFromGroup sha256 (membersOf findings key) = .ok cluster) :
    clusterKey cluster = key ∧
      Summarizes sha256 cluster (orderedMembers (membersOf findings key)) := by
  have hsummary : Summarizes sha256 cluster (orderedMembers (membersOf findings key)) :=
    summarizes_of_clusterFromOrdered h
  obtain ⟨f, hf, hkey⟩ := hsummary.key
  exact ⟨hkey.trans (mem_membersOf.mp (mem_orderedMembers.mp hf)).2, hsummary⟩

/-! ## The clusters of a list of findings -/

/-- What the clusters of the findings are to be, taken together. Each clause is about the findings
as a set of members by key, and none about how the clusters were made, so a reader can take it for
the contract of `dedup_findings`. -/
structure Deduplicated (findings : List Finding) (clusters : List EndpointFindingCluster) :
    Prop where
  ids : (clusters.flatMap (·.contributingFindingIds.val)).Perm (findings.map (·.findingId))
  keys_nodup : (clusters.map clusterKey).Nodup
  mem_keys : ∀ key, key ∈ clusters.map clusterKey ↔ ∃ f ∈ findings, groupKey f = key
  members : ∀ c ∈ clusters, c.contributingFindingIds.val.Perm
    ((membersOf findings (clusterKey c)).map (·.findingId))
  recurrence : (clusters.map (·.recurrenceCount.val)).sum = findings.length
  occurrences : ∀ c ∈ clusters,
    1 ≤ c.uniqueOccurrences.val ∧ c.uniqueOccurrences.val ≤ c.recurrenceCount.val
  outcome : ∀ c ∈ clusters,
    c.outcome = .negative ↔ ∃ f ∈ membersOf findings (clusterKey c), f.outcome = .negative

theorem summarizes_of_mem {sha256 : String → Sha256Hex} {findings : List Finding}
    {clusters : List EndpointFindingCluster} (h : dedupFindings sha256 findings = .ok clusters)
    {c : EndpointFindingCluster} (hc : c ∈ clusters) :
    Summarizes sha256 c (orderedMembers (membersOf findings (clusterKey c))) := by
  obtain ⟨unsorted, hunsorted, rfl⟩ := dedupFindings_eq_ok.mp h
  obtain ⟨key, -, hmade⟩ :=
    Fallible.exists_of_mem_mapM hunsorted ((List.mem_insertionSort _).mp hc)
  obtain ⟨rfl, hsummary⟩ := clusterFromGroup_key hmade
  exact hsummary

theorem clusterKeys_perm {sha256 : String → Sha256Hex} {findings : List Finding}
    {clusters : List EndpointFindingCluster} (h : dedupFindings sha256 findings = .ok clusters) :
    (clusters.map clusterKey).Perm (keysOf findings) := by
  obtain ⟨unsorted, hunsorted, rfl⟩ := dedupFindings_eq_ok.mp h
  have hkeys : unsorted.map clusterKey = (keysOf findings).map id :=
    Fallible.map_of_mapM (fun _ _ _ hmade => (clusterFromGroup_key hmade).1) hunsorted
  rw [List.map_id] at hkeys
  rw [← hkeys]
  exact (List.perm_insertionSort _ unsorted).map clusterKey

/-- What each part gives, all clusters together give of the whole. -/
theorem flatMap_clusters_perm {α : Type} {sha256 : String → Sha256Hex} {findings : List Finding}
    {clusters : List EndpointFindingCluster} (h : dedupFindings sha256 findings = .ok clusters)
    (read : EndpointFindingCluster → List α) (ofFinding : Finding → α)
    (hread : ∀ c ∈ clusters, (read c).Perm ((membersOf findings (clusterKey c)).map ofFinding)) :
    (clusters.flatMap read).Perm (findings.map ofFinding) := by
  have hparts : (clusters.flatMap read).Perm
      (clusters.flatMap fun c => (membersOf findings (clusterKey c)).map ofFinding) :=
    List.Perm.flatMap_left clusters hread
  have hkeys : (clusters.flatMap fun c => (membersOf findings (clusterKey c)).map ofFinding) =
      ((clusters.map clusterKey).flatMap fun key => membersOf findings key).map ofFinding := by
    rw [List.map_flatMap, List.flatMap_map]
  have hcut : ((keysOf findings).flatMap fun key => membersOf findings key).Perm findings :=
    Keyed.flatMap_filter_perm (Py.Dict.nodup_keys _) fun f hf => mem_keysOf_iff.mpr ⟨f, hf, rfl⟩
  rw [hkeys] at hparts
  exact hparts.trans ((((clusterKeys_perm h).flatMap_right _).trans hcut).map ofFinding)

theorem deduplicated_of_eq_ok {sha256 : String → Sha256Hex} {findings : List Finding}
    {clusters : List EndpointFindingCluster} (h : dedupFindings sha256 findings = .ok clusters) :
    Deduplicated findings clusters := by
  have hkeys := clusterKeys_perm h
  have hmembers : ∀ c ∈ clusters, c.contributingFindingIds.val.Perm
      ((membersOf findings (clusterKey c)).map (·.findingId)) := by
    intro c hc
    rw [(summarizes_of_mem h hc).ids]
    exact (orderedMembers_perm _).map _
  refine ⟨flatMap_clusters_perm h _ _ hmembers, ?_, ?_, hmembers, ?_, ?_, ?_⟩
  · exact hkeys.nodup_iff.mpr (Py.Dict.nodup_keys _)
  · intro key
    rw [hkeys.mem_iff, mem_keysOf_iff]
  · -- As many units as members, and the units of all clusters are those of the findings.
    have hunits := flatMap_clusters_perm h (fun c => List.replicate c.recurrenceCount.val ())
      (fun _ => ()) (by
        intro c hc
        rw [(summarizes_of_mem h hc).recurrence, (orderedMembers_perm _).length_eq, List.map_const'])
    have hlength := hunits.length_eq
    rw [List.length_flatMap, List.length_map] at hlength
    simpa using hlength
  · intro c hc
    refine ⟨c.uniqueOccurrences.property.1, ?_⟩
    rw [(summarizes_of_mem h hc).unique, (summarizes_of_mem h hc).recurrence]
    have hle := (List.dedup_sublist ((orderedMembers (membersOf findings
      (clusterKey c))).map occurrenceKey)).length_le
    rwa [List.length_map] at hle
  · intro c hc
    rw [(summarizes_of_mem h hc).outcome]
    simp only [mem_orderedMembers]

/-! ## The order of the findings -/

/-- The findings that share an id are one finding. -/
def OneById (findings : List Finding) : Prop :=
  ∀ f ∈ findings, ∀ g ∈ findings, f.findingId = g.findingId → f = g

/-- The text the id of a part is the hash of. -/
def materialOf (members : List Finding) : String :=
  match orderedMembers members with
  | [] => ""
  | first :: rest => aggregateMaterial first (first :: rest)

/-- No two id texts of these findings have one hash. -/
def CollisionFree (sha256 : String → Sha256Hex) (findings : List Finding) : Prop :=
  ∀ key ∈ keysOf findings, ∀ key' ∈ keysOf findings,
    sha256 (materialOf (membersOf findings key)) = sha256 (materialOf (membersOf findings key')) →
      materialOf (membersOf findings key) = materialOf (membersOf findings key')

theorem toList_join_cons_cons (sep first second : String) (rest : List String) :
    (Py.join sep (first :: second :: rest)).toList =
      first.toList ++ (sep.toList ++ (Py.join sep (second :: rest)).toList) := by
  simp [Py.join, List.intercalate_cons_cons]

/-- Behind an equal code, endpoint and profile, the pack is read off the id text. -/
theorem pack_of_aggregateMaterial {f g : Finding} {ordered ordered' : List Finding}
    (hf : ordered ≠ []) (hg : ordered' ≠ [])
    (hcode : f.code.val = g.code.val) (hendpoint : f.affectedEndpoint.val = g.affectedEndpoint.val)
    (hprofile : f.policyProfile.val = g.policyProfile.val)
    (h : aggregateMaterial f ordered = aggregateMaterial g ordered') :
    f.policyPackVersion.val = g.policyPackVersion.val := by
  have hids : ∀ members : List Finding, members ≠ [] → ∃ id ids,
      (members.map (·.findingId.val)).insertionSort (· ≤ ·) = id :: ids := by
    intro members hne
    refine List.exists_cons_of_ne_nil ?_
    intro hnil
    have hlength := congrArg List.length hnil
    rw [List.length_insertionSort, List.length_map, List.length_nil] at hlength
    exact hne (List.length_eq_zero_iff.mp hlength)
  obtain ⟨id, ids, hordered⟩ := hids ordered hf
  obtain ⟨id', ids', hordered'⟩ := hids ordered' hg
  have hlists := congrArg String.toList h
  unfold aggregateMaterial at hlists
  rw [hordered, hordered'] at hlists
  simp only [List.cons_append, List.nil_append, toList_join_cons_cons, hcode, hendpoint, hprofile,
    List.append_cancel_left_eq] at hlists
  have hlength : f.policyPackVersion.val.toList.length = g.policyPackVersion.val.toList.length := by
    rw [String.length_toList, String.length_toList, f.policyPackVersion.property.1,
      g.policyPackVersion.property.1]
  exact String.toList_inj.mp (List.append_inj_left hlists hlength)

instance : Std.TransCmp clusterOrdering :=
  inferInstanceAs (Std.TransCmp
    (compareLex (compareOn fun c : EndpointFindingCluster => c.code.val)
      (compareLex (compareOn fun c => c.affectedEndpoint.val)
        (compareLex (compareOn fun c => c.policyProfile.val)
          (compareOn fun c => c.findingId.val)))))

/-- The key the clusters are sorted by tells them apart. -/
theorem clusterOrdering_total {sha256 : String → Sha256Hex} {findings : List Finding}
    (hsha256 : CollisionFree sha256 findings) {unsorted : List EndpointFindingCluster}
    (h : ((keysOf findings).mapM fun key => clusterFromGroup sha256 (membersOf findings key)) =
      .ok unsorted) {a b : EndpointFindingCluster} (ha : a ∈ unsorted) (hb : b ∈ unsorted)
    (heq : clusterOrdering a b = .eq) : a = b := by
  simp only [clusterOrdering, Ordering.then_eq_eq, Std.LawfulEqOrd.compare_eq_iff_eq] at heq
  obtain ⟨hcode, hendpoint, hprofile, hid⟩ := heq
  obtain ⟨key, hkey, hmade⟩ := Fallible.exists_of_mem_mapM h ha
  obtain ⟨key', hkey', hmade'⟩ := Fallible.exists_of_mem_mapM h hb
  obtain ⟨rfl, hsummary⟩ := clusterFromGroup_key hmade
  obtain ⟨rfl, hsummary'⟩ := clusterFromGroup_key hmade'
  -- The id of a cluster is the hash of the text of its part.
  have hmaterial : ∀ {c : EndpointFindingCluster},
      Summarizes sha256 c (orderedMembers (membersOf findings (clusterKey c))) →
      ∃ first rest, orderedMembers (membersOf findings (clusterKey c)) = first :: rest ∧
        materialOf (membersOf findings (clusterKey c)) = aggregateMaterial first (first :: rest) ∧
        c.findingId = sha256 (materialOf (membersOf findings (clusterKey c))) ∧
        groupKey first = clusterKey c := by
    intro c hc
    obtain ⟨f, hf, -⟩ := hc.key
    obtain ⟨first, rest, hordered⟩ := List.exists_cons_of_ne_nil (List.ne_nil_of_mem hf)
    have htext : materialOf (membersOf findings (clusterKey c)) =
        aggregateMaterial first (first :: rest) := by
      rw [materialOf, hordered]
    refine ⟨first, rest, hordered, htext, ?_, ?_⟩
    · rw [hc.id first rest hordered, htext, hordered]
    · have hfirst : first ∈ orderedMembers (membersOf findings (clusterKey c)) := by
        rw [hordered]
        exact List.mem_cons_self
      exact (mem_membersOf.mp (mem_orderedMembers.mp hfirst)).2
  obtain ⟨first, rest, -, htext, hhash, hfirst⟩ := hmaterial hsummary
  obtain ⟨first', rest', -, htext', hhash', hfirst'⟩ := hmaterial hsummary'
  have hsame := hsha256 _ hkey _ hkey' (by rw [← hhash, ← hhash', Subtype.ext hid])
  rw [htext, htext'] at hsame
  simp only [groupKey, clusterKey, Prod.mk.injEq] at hfirst hfirst'
  have hpack := pack_of_aggregateMaterial (List.cons_ne_nil _ _) (List.cons_ne_nil _ _)
    (hfirst.1.trans (hcode.trans hfirst'.1.symm))
    (hfirst.2.1.trans (hendpoint.trans hfirst'.2.1.symm))
    (hfirst.2.2.1.trans (hprofile.trans hfirst'.2.2.1.symm)) hsame
  have hkeys : clusterKey a = clusterKey b := by
    simp only [clusterKey, Prod.mk.injEq]
    exact ⟨hcode, hendpoint, hprofile, hfirst.2.2.2.symm.trans (hpack.trans hfirst'.2.2.2)⟩
  rw [← hkeys] at hmade'
  exact Except.ok.inj (hmade.symm.trans hmade')

/-- **The order of the findings makes no difference.** The groups come in another order then, and so
do their members; both are sorted again. -/
theorem dedupFindings_perm {sha256 : String → Sha256Hex} {findings findings' : List Finding}
    (hperm : findings.Perm findings') (hone : OneById findings)
    (hsha256 : CollisionFree sha256 findings) {clusters : List EndpointFindingCluster}
    (h : dedupFindings sha256 findings = .ok clusters) :
    dedupFindings sha256 findings' = .ok clusters := by
  obtain ⟨unsorted, hunsorted, rfl⟩ := dedupFindings_eq_ok.mp h
  have hkeys : (keysOf findings).Perm (keysOf findings') := by
    rw [List.perm_ext_iff_of_nodup (Py.Dict.nodup_keys _) (Py.Dict.nodup_keys _)]
    intro key
    rw [mem_keysOf_iff, mem_keysOf_iff]
    simp only [hperm.mem_iff]
  -- A part is the same part, and in the order of its ids the same list.
  have hgroup : ∀ key, clusterFromGroup sha256 (membersOf findings' key) =
      clusterFromGroup sha256 (membersOf findings key) := by
    intro key
    have hmembers : (membersOf findings key).Perm (membersOf findings' key) := hperm.filter _
    have hordered := SortKey.insertionSort_key_eq_of_perm (fun f : Finding => f.findingId.val)
      hmembers (by
        intro f hf g hg hid
        exact hone f (mem_membersOf.mp hf).1 g (mem_membersOf.mp hg).1 (Subtype.ext hid))
    unfold clusterFromGroup
    rw [hordered]
  have hsame : (fun key => clusterFromGroup sha256 (membersOf findings' key)) =
      fun key => clusterFromGroup sha256 (membersOf findings key) := funext hgroup
  have hreturns : ∃ unsorted', ((keysOf findings').mapM fun key =>
      clusterFromGroup sha256 (membersOf findings key)) = .ok unsorted' := by
    rw [Fallible.exists_mapM_eq_ok_iff]
    intro key hkey
    exact Fallible.exists_mapM_eq_ok_iff.mp ⟨unsorted, hunsorted⟩ key (hkeys.mem_iff.mpr hkey)
  obtain ⟨unsorted', hunsorted'⟩ := hreturns
  refine dedupFindings_eq_ok.mpr ⟨unsorted', by rw [hsame]; exact hunsorted', ?_⟩
  exact SortKey.insertionSort_eq_of_perm (Fallible.perm_of_mapM hkeys hunsorted hunsorted')
    fun a ha b hb => clusterOrdering_total hsha256 hunsorted ha hb

/-! ## When there are clusters -/

/-- No two findings of one key have a naive and an aware evaluation time. -/
def GroupsComparable (findings : List Finding) : Prop :=
  ∀ f ∈ findings, ∀ g ∈ findings, groupKey f = groupKey g →
    f.policyEvaluationTime.offset.isSome = g.policyEvaluationTime.offset.isSome

theorem exists_clusters_iff {sha256 : String → Sha256Hex} {findings : List Finding}
    (hlength : findings.length ≤ 4096) :
    (∃ clusters, dedupFindings sha256 findings = .ok clusters) ↔ GroupsComparable findings :=
  @dedupFindings_eq_ok_iff sha256
    { findings := findings, findings_le := hlength, policyChecks_le := by simp,
      assetContext_le := by simp }

/-- **Deduplication keeps every finding once, in any order, exactly where the evaluation times of each
key compare.** -/
theorem dedup_lossless_iff {sha256 : String → Sha256Hex} {findings : List Finding}
    (hlength : findings.length ≤ 4096) (hone : OneById findings)
    (hsha256 : CollisionFree sha256 findings) :
    (∃ clusters, dedupFindings sha256 findings = .ok clusters ∧ Deduplicated findings clusters ∧
        ∀ findings', findings.Perm findings' →
          dedupFindings sha256 findings' = .ok clusters) ↔
      GroupsComparable findings := by
  rw [← exists_clusters_iff hlength]
  constructor
  · rintro ⟨clusters, h, -⟩
    exact ⟨clusters, h⟩
  · rintro ⟨clusters, h⟩
    exact ⟨clusters, h, deduplicated_of_eq_ok h, fun findings' hperm =>
      dedupFindings_perm hperm hone hsha256 h⟩

/-- Two findings of one endpoint, evaluated at one time. -/
def januaryPair : List Finding :=
  [januaryFinding firstId (some 0), januaryFinding secondId (some 0)]

theorem january_pair_lossless :
    ∃ clusters, dedupFindings mixedSha256 januaryPair = .ok clusters ∧
      Deduplicated januaryPair clusters ∧
      ∀ findings', januaryPair.Perm findings' →
        dedupFindings mixedSha256 findings' = .ok clusters := by
  have hone : OneById januaryPair := by
    unfold OneById
    decide +kernel
  have hsha256 : CollisionFree mixedSha256 januaryPair := by
    unfold CollisionFree
    decide +kernel
  have htimes : GroupsComparable januaryPair := by
    unfold GroupsComparable
    decide +kernel
  exact (dedup_lossless_iff (by decide) hone hsha256).mpr htimes

/-- With a naive and an aware time among the findings of one key there are no clusters. -/
theorem mixed_times_not_deduplicated :
    mixedRequest.findings.length ≤ 4096 ∧ OneById mixedRequest.findings ∧
      CollisionFree mixedSha256 mixedRequest.findings ∧
      ¬∃ clusters, dedupFindings mixedSha256 mixedRequest.findings = .ok clusters ∧
        Deduplicated mixedRequest.findings clusters ∧
        ∀ findings', mixedRequest.findings.Perm findings' →
          dedupFindings mixedSha256 findings' = .ok clusters := by
  refine ⟨by decide, ?_, ?_, ?_⟩
  · unfold OneById
    decide +kernel
  · unfold CollisionFree
    decide +kernel
  · rintro ⟨clusters, h, -⟩
    have htimes := (@dedupFindings_eq_ok_iff mixedSha256 mixedRequest).mp ⟨clusters, h⟩
    exact absurd (htimes _ List.mem_cons_self _ (List.mem_cons_of_mem _ List.mem_cons_self) rfl)
      (by decide)

end Findings
end SecureMail
