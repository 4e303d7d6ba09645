import SecureMail.Findings.Posture
import SecureMail.Lib.SortKey

/-!
# `score_findings`

The findings are clustered, each cluster is scored with the labels of its endpoint, and the posture
is built from what comes out. The headline score has a law: zero is a finding of its own, that
everything applicable was decided and passed; no score is the absence of that; and otherwise the
score is the one of the first prioritized finding.

The law holds wherever `score_findings` returns, and it returns unless the members of one cluster
mix naive and aware evaluation times. The documents serialize a naive time as one in UTC, but the
comparison of a naive and an aware one raises before that.

`HeadlineLaw` is the law and `ComparableTimes` the condition. The law is stated of the request and
of the posture only: what the score is for, and not how it is computed, so the scores of the
clusters do not occur in it except as those of the prioritized findings. The condition is one about
times within a cluster, as two findings of different clusters are never compared.
-/

namespace SecureMail
namespace Findings

structure ScoreRequest where
  findings : List Finding := []
  findings_le : findings.length ≤ 4096
  policyChecks : List PolicyCheck := []
  policyChecks_le : policyChecks.length ≤ 16384
  assetContext : List AssetContext := []
  assetContext_le : assetContext.length ≤ 1024

theorem noPolicyChecks_le : ([] : List PolicyCheck).length ≤ 16384 := by decide

theorem noAssetContext_le : ([] : List AssetContext).length ≤ 1024 := by decide

/-- The labels of an endpoint: the later of two contexts for one endpoint stays. -/
def contextByEndpoint (request : ScoreRequest) : Py.Dict String AssetContext :=
  Py.Dict.ofList (·.endpoint.val) id request.assetContext

/-- The input of `compute_score` for one cluster. An endpoint that the inventory does not list has
the labels for unknown, which have points of their own. -/
def scoreInput (contexts : Py.Dict String AssetContext) (cluster : EndpointFindingCluster) :
    ScoreInput :=
  let context := contexts.get? cluster.affectedEndpoint.val
  { severity := cluster.severity
    basisState := cluster.basisState
    exposure := (context.map (·.exposure)).getD .unknown
    uniqueOccurrences := ⟨cluster.uniqueOccurrences.val, cluster.uniqueOccurrences.property.1,
      cluster.uniqueOccurrences.property.2.trans (by decide)⟩
    assetCriticality := (context.map (·.assetCriticality)).getD .unknown
    blastRadius := (context.map (·.blastRadius)).getD .unknown }

/-- The body of the loop: `compute_score` and `scored_from_cluster`. -/
def scoreCluster (contexts : Py.Dict String AssetContext) (cluster : EndpointFindingCluster) :
    ScoredEndpointFinding :=
  let inputs := scoreInput contexts cluster
  let vector := computeScore inputs
  { toEndpointFindingCluster := cluster
    score := vector.score
    score_le := vector.score_le
    components := vector.components
    exposure := inputs.exposure
    assetCriticality := inputs.assetCriticality
    blastRadius := inputs.blastRadius }

/-- `score_findings`. -/
def scoreFindings (sha256 : String → Sha256Hex) (request : ScoreRequest) :
    Result PostureAssessment := do
  let clusters ← dedupFindings sha256 request.findings
  buildPosture (clusters.map (scoreCluster (contextByEndpoint request))) request.policyChecks

/-! ## The law -/

/-- What the headline score says. The three cases exclude each other, and which of them holds can be
told from the request: no findings and a complete coverage, no findings and an incomplete one, or
findings. -/
structure HeadlineLaw (request : ScoreRequest) (posture : PostureAssessment) : Prop where
  zero : posture.riskScore.map (·.val) = some 0 ↔
    request.findings = [] ∧ CoverageComplete request.policyChecks
  absent : posture.riskScore = none ↔
    request.findings = [] ∧ ¬ CoverageComplete request.policyChecks
  headline : request.findings ≠ [] →
    ∃ first rest, posture.prioritizedFindings.val = first :: rest ∧
      posture.riskScore.map (·.val) = some first.score ∧
      (∀ item ∈ posture.prioritizedFindings.val, item.score ≤ first.score) ∧
      first.score = first.components.total ∧ 4 ≤ first.score ∧ first.score ≤ 100

/-- The findings of one cluster have evaluation times that compare. Python refuses to compare a
naive time with an aware one, and nothing in the schema of a finding keeps the two apart. -/
def ComparableTimes (request : ScoreRequest) : Prop :=
  ∀ f ∈ request.findings, ∀ g ∈ request.findings, groupKey f = groupKey g →
    f.policyEvaluationTime.offset.isSome = g.policyEvaluationTime.offset.isSome

instance : Std.TransCmp priorityOrdering :=
  inferInstanceAs (Std.TransCmp
    (compareLex (fun a b => compareOn (·.score) b a)
      (compareLex (compareOn fun f : ScoredEndpointFinding => outcomeRank f.outcome)
        (compareLex (compareOn fun f => severityOrder f.severity)
          (compareLex (compareOn fun f => f.code.val)
            (compareLex (compareOn fun f => f.affectedEndpoint.val)
              (compareOn fun f => f.findingId.val)))))))

theorem score_le_of_priority {a b : ScoredEndpointFinding}
    (h : SortKey.Before priorityOrdering a b) : b.score ≤ a.score := by
  by_contra hlt
  rw [Nat.not_le] at hlt
  have hgt : Ord.compare b.score a.score = .gt := Nat.compare_eq_gt.mpr hlt
  have hle : (priorityOrdering a b).isLE = true := h
  unfold priorityOrdering at hle
  rw [hgt] at hle
  exact absurd hle (by simp)

theorem scoreCluster_law (contexts : Py.Dict String AssetContext)
    (cluster : EndpointFindingCluster) :
    (scoreCluster contexts cluster).score = (scoreCluster contexts cluster).components.total ∧
      4 ≤ (scoreCluster contexts cluster).score :=
  ⟨computeScore_score _, four_le_computeScore _⟩

theorem groups_eq_nil_iff {findings : List Finding} : groups findings = [] ↔ findings = [] := by
  constructor
  · intro h
    by_contra hne
    obtain ⟨f, hf⟩ := List.exists_mem_of_ne_nil findings hne
    have hmem : findings.filter (groupKey · = groupKey f) ∈ groups findings := by
      rw [mem_groups_iff]
      refine ⟨_, rfl, ?_⟩
      exact List.ne_nil_of_mem (List.mem_filter.mpr ⟨hf, by simp⟩)
    rw [h] at hmem
    exact absurd hmem (by simp)
  · rintro rfl
    rfl

/-- The groups of comparable times are those of a request with comparable times. -/
theorem comparableTimes_iff {request : ScoreRequest} :
    ComparableTimes request ↔ ∀ members ∈ groups request.findings, Comparable members := by
  constructor
  · intro h members hmembers
    obtain ⟨key, rfl, -⟩ := mem_groups_iff.mp hmembers
    intro f hf g hg
    obtain ⟨hfmem, hfkey⟩ := List.mem_filter.mp hf
    obtain ⟨hgmem, hgkey⟩ := List.mem_filter.mp hg
    apply h f hfmem g hgmem
    rw [of_decide_eq_true hfkey, of_decide_eq_true hgkey]
  · intro h f hf g hg hkey
    have hmem : request.findings.filter (groupKey · = groupKey f) ∈ groups request.findings := by
      rw [mem_groups_iff]
      refine ⟨_, rfl, ?_⟩
      exact List.ne_nil_of_mem (List.mem_filter.mpr ⟨hf, by simp⟩)
    apply h _ hmem f (List.mem_filter.mpr ⟨hf, by simp⟩) g
    exact List.mem_filter.mpr ⟨hg, by simp [hkey]⟩

theorem length_groups_le (findings : List Finding) :
    (groups findings).length ≤ findings.length := by
  unfold groups
  rw [List.length_map]
  exact Py.Dict.length_groupBy_le _ _

theorem dedupFindings_eq_ok_iff {sha256 : String → Sha256Hex} {request : ScoreRequest} :
    (∃ clusters, dedupFindings sha256 request.findings = .ok clusters) ↔
      ComparableTimes request := by
  rw [comparableTimes_iff]
  have hmapM : (∃ clusters, dedupFindings sha256 request.findings = .ok clusters) ↔
      ∃ clusters, (groups request.findings).mapM (clusterFromGroup sha256) = .ok clusters := by
    unfold dedupFindings
    constructor
    · rintro ⟨clusters, h⟩
      obtain ⟨unsorted, hunsorted, -⟩ := Fallible.bind_eq_ok.mp h
      exact ⟨unsorted, hunsorted⟩
    · rintro ⟨unsorted, hunsorted⟩
      exact ⟨_, Fallible.bind_eq_ok.mpr ⟨unsorted, hunsorted, rfl⟩⟩
  rw [hmapM, Fallible.exists_mapM_eq_ok_iff]
  refine forall_congr' fun members => forall_congr' fun hmembers => ?_
  obtain ⟨key, rfl, hne⟩ := mem_groups_iff.mp hmembers
  exact clusterFromGroup_eq_ok_iff hne
    ((List.length_filter_le _ _).trans request.findings_le)

theorem dedupFindings_length {sha256 : String → Sha256Hex} {findings : List Finding}
    {clusters : List EndpointFindingCluster} (h : dedupFindings sha256 findings = .ok clusters) :
    clusters.length = (groups findings).length := by
  unfold dedupFindings at h
  obtain ⟨unsorted, hunsorted, hpure⟩ := Fallible.bind_eq_ok.mp h
  obtain rfl := Fallible.pure_eq_ok.mp hpure
  rw [List.length_insertionSort, Fallible.length_of_mapM hunsorted]

theorem prioritizedFindings_of_buildPosture {scored : List ScoredEndpointFinding}
    {checks : List PolicyCheck} {posture : PostureAssessment}
    (h : buildPosture scored checks = .ok posture) :
    posture.prioritizedFindings.val = prioritizeFindings scored := by
  unfold buildPosture at h
  dsimp only at h
  split at h
  · obtain rfl := Fallible.pure_eq_ok.mp h
    rfl
  · cases h

/-- The posture of a list of scored findings has the law, if the scores have theirs. -/
theorem headlineLaw_of_buildPosture {request : ScoreRequest}
    {scored : List ScoredEndpointFinding} {posture : PostureAssessment}
    (h : buildPosture scored request.policyChecks = .ok posture)
    (hnil : scored = [] ↔ request.findings = [])
    (hlaw : ∀ item ∈ scored, item.score = item.components.total ∧ 4 ≤ item.score) :
    HeadlineLaw request posture := by
  have hlength : (prioritizeFindings scored).length ≤ 4096 := by
    by_contra hlong
    unfold buildPosture at h
    simp only [dif_neg hlong] at h
    cases h
  unfold buildPosture at h
  simp only [dif_pos hlength] at h
  obtain rfl := Fallible.pure_eq_ok.mp h
  have hcomplete := @assessmentState_eq_complete_iff request.policyChecks
  by_cases hfindings : request.findings = []
  · -- Nothing to prioritize: the score says how far the coverage went.
    have hscored : scored = [] := hnil.mpr hfindings
    subst hscored
    have hrisk : riskScore (assessmentState (aggregateCoverage request.policyChecks).overall)
        (prioritizeFindings []) =
          if assessmentState (aggregateCoverage request.policyChecks).overall = .complete then
            some ⟨0, Nat.zero_le _⟩ else none := rfl
    refine ⟨?_, ?_, fun hne => absurd hfindings hne⟩
    · by_cases hc : CoverageComplete request.policyChecks
      · rw [hrisk, if_pos (hcomplete.mpr hc)]
        simp [hc, hfindings]
      · rw [hrisk, if_neg fun h => hc (hcomplete.mp h)]
        simp [hc, hfindings]
    · by_cases hc : CoverageComplete request.policyChecks
      · rw [hrisk, if_pos (hcomplete.mpr hc)]
        simp [hc, hfindings]
      · rw [hrisk, if_neg fun h => hc (hcomplete.mp h)]
        simp [hc, hfindings]
  · have hne : prioritizeFindings scored ≠ [] := by
      intro hempty
      have hzero : scored.length = 0 := by
        rw [← List.length_insertionSort (r := fun a b => (priorityOrdering a b).isLE = true)]
        exact congrArg List.length hempty
      exact hfindings (hnil.mp (List.length_eq_zero_iff.mp hzero))
    obtain ⟨first, rest, hordered⟩ := List.exists_cons_of_ne_nil hne
    have hmem : ∀ item, item ∈ prioritizeFindings scored ↔ item ∈ scored :=
      fun item => List.mem_insertionSort _
    have hfirst : ∀ item ∈ prioritizeFindings scored, item.score ≤ first.score := by
      intro item hitem
      exact score_le_of_priority
        (SortKey.le_of_head priorityOrdering hordered item ((hmem item).mp hitem))
    obtain ⟨best, hbest⟩ := Option.isSome_iff_exists.mp
      (@Py.select_isSome _ (fun a b : ScoredEndpointFinding => b.score < a.score) _ |>.mpr hne)
    have hbestScore : best.score = first.score := by
      apply le_antisymm
      · exact hfirst best (Py.select_mem hbest)
      · apply Py.le_of_maxBy hbest
        rw [hordered]
        exact List.mem_cons_self
    have hfirstMem : first ∈ scored := by
      rw [← hmem, hordered]
      exact List.mem_cons_self
    obtain ⟨htotal, hfour⟩ := hlaw first hfirstMem
    have hrisk : (riskScore (assessmentState (aggregateCoverage request.policyChecks).overall)
        (prioritizeFindings scored)) = some ⟨best.score, best.score_le⟩ := by
      unfold riskScore
      rw [show Py.maxBy _ _ = some best from hbest]
    refine ⟨?_, ?_, fun _ => ⟨first, rest, hordered, ?_, hfirst, htotal, hfour, first.score_le⟩⟩
    · rw [hrisk]
      simp only [Option.map_some, Option.some.injEq, hfindings, false_and, iff_false]
      omega
    · rw [hrisk]
      simp [hfindings]
    · rw [hrisk]
      exact congrArg some hbestScore

theorem comparableTimes_of_scoreFindings {sha256 : String → Sha256Hex} {request : ScoreRequest}
    {posture : PostureAssessment} (h : scoreFindings sha256 request = .ok posture) :
    ComparableTimes request := by
  obtain ⟨clusters, hclusters, -⟩ := Fallible.bind_eq_ok.mp h
  exact dedupFindings_eq_ok_iff.mp ⟨clusters, hclusters⟩

theorem headlineLaw_of_comparableTimes (sha256 : String → Sha256Hex) {request : ScoreRequest}
    (htimes : ComparableTimes request) :
    ∃ posture, scoreFindings sha256 request = .ok posture ∧ HeadlineLaw request posture := by
  obtain ⟨clusters, hclusters⟩ := (@dedupFindings_eq_ok_iff _ request).mpr htimes
  have hlength := dedupFindings_length hclusters
  have hbound : (prioritizeFindings
      (clusters.map (scoreCluster (contextByEndpoint request)))).length ≤ 4096 := by
    unfold prioritizeFindings
    rw [List.length_insertionSort, List.length_map, hlength]
    exact (length_groups_le _).trans request.findings_le
  have hposture : ∃ posture,
      buildPosture (clusters.map (scoreCluster (contextByEndpoint request)))
        request.policyChecks = .ok posture := by
    unfold buildPosture
    simp only [dif_pos hbound]
    exact ⟨_, rfl⟩
  obtain ⟨posture, hposture⟩ := hposture
  refine ⟨posture, Fallible.bind_eq_ok.mpr ⟨clusters, hclusters, hposture⟩, ?_⟩
  apply headlineLaw_of_buildPosture hposture
  · rw [List.map_eq_nil_iff, ← List.length_eq_zero_iff, hlength, List.length_eq_zero_iff]
    exact groups_eq_nil_iff
  · intro item hitem
    obtain ⟨cluster, -, rfl⟩ := List.mem_map.mp hitem
    exact scoreCluster_law _ cluster

/-- **The headline score has its law exactly where the evaluation times of each cluster compare.**
Where they do not, there is no posture at all, and so no score that could break the law. -/
theorem headline_law_iff (sha256 : String → Sha256Hex) (request : ScoreRequest) :
    (∃ posture, scoreFindings sha256 request = .ok posture ∧ HeadlineLaw request posture) ↔
      ComparableTimes request := by
  constructor
  · rintro ⟨posture, h, -⟩
    exact comparableTimes_of_scoreFindings h
  · intro htimes
    exact headlineLaw_of_comparableTimes sha256 htimes

theorem tls10Code_bounds :
    1 ≤ "TLS_NEGOTIATED_TLS10".length ∧ "TLS_NEGOTIATED_TLS10".length ≤ 64 := by decide

theorem tls10Title_bounds :
    1 ≤ "TLS 1.0 negotiated".length ∧ "TLS 1.0 negotiated".length ≤ 160 := by decide

/-- A finding about one endpoint, evaluated at midnight of the first of January 2026. -/
def januaryFinding (id : Sha256Hex) (offset : Option Int) : Finding where
  findingId := id
  code := ⟨"TLS_NEGOTIATED_TLS10", tls10Code_bounds⟩
  outcome := .negative
  title := ⟨"TLS 1.0 negotiated", tls10Title_bounds⟩
  rationale := ⟨"The server selected TLS 1.0.", by decide⟩
  standards := []
  standards_le := by decide
  remediationId := ⟨"disable-tls10", by decide⟩
  severity := .high
  evaluationState := .verified
  basisState := .observed
  policyProfile := ⟨"ietf_current", by decide⟩
  policyPackVersion := ⟨"cccccccccccccccccccccccccccccccccccccccccccccccccccccccccccccccc", by decide +kernel⟩
  ruleEffectiveFrom := 737424
  ruleEffectiveUntil := none
  policyEvaluationTime := ⟨63902822400000000, offset, by decide⟩
  affectedEndpoint := ⟨"192.0.2.1:993", by decide⟩
  evidenceReferences := []
  evidenceReferences_le := by decide

/-- The identifiers of two findings. -/
def firstId : Sha256Hex := ⟨"aaaaaaaaaaaaaaaaaaaaaaaaaaaaaaaaaaaaaaaaaaaaaaaaaaaaaaaaaaaaaaaa", by decide +kernel⟩

def secondId : Sha256Hex := ⟨"bbbbbbbbbbbbbbbbbbbbbbbbbbbbbbbbbbbbbbbbbbbbbbbbbbbbbbbbbbbbbbbb", by decide +kernel⟩

/-- The first finding says `2026-01-01T00:00:00`, the second `2026-01-01T00:00:00Z`. -/
def mixedRequest : ScoreRequest where
  findings := [januaryFinding firstId none, januaryFinding secondId (some 0)]
  findings_le := by decide
  policyChecks_le := noPolicyChecks_le
  assetContext_le := noAssetContext_le

/-- The SHA-256 of the id text of the one cluster of `mixedRequest`. -/
def mixedSha256 (_ : String) : Sha256Hex :=
  ⟨"4e560494f9a42f6fbdb4ed861a79f15d41f8f6d377806d52fa26cdb2b19a7763", by decide +kernel⟩

/-- Two findings of one cluster, a naive and an aware time: there is no posture at all. -/
theorem mixed_times_raise :
    ¬ ∃ posture, scoreFindings mixedSha256 mixedRequest = .ok posture ∧
      HeadlineLaw mixedRequest posture := by
  rintro ⟨posture, h, -⟩
  have htimes := comparableTimes_of_scoreFindings h _ List.mem_cons_self _
    (List.mem_cons_of_mem _ List.mem_cons_self) rfl
  exact absurd htimes (by decide)

end Findings
end SecureMail
