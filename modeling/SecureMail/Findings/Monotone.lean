import SecureMail.Findings.Partition

/-!
# One more negative finding

The headline is the largest score of a cluster, and a cluster is scored by its own members and the
labels of its endpoint. A finding that is added changes the one cluster it joins or opens. A new
cluster can only raise the headline; a cluster that is joined can lose points, since its confidence is
that of its weakest member, and since one negative member puts all others out of the primary set.

One would expect that more bad news cannot make the assessment better. The weakest-basis rule of the
documentation is against it, and `Weakens` says exactly when it shows: the finding has to join the
cluster that leads, to take points from it, and no other cluster may be as high. Everything else is
a rearrangement of a maximum. The change of one cluster is read off two lists of members, the one
with the new finding in front, so that the other clusters need not be looked at.
-/

namespace SecureMail
namespace Findings

/-! ## The points of some members -/

/-- The highest severity of the primary members. -/
def severityOf (members : List Finding) : FindingSeverity :=
  ((Py.maxBy (fun f : Finding => severityRank f.severity) (pickPrimary members)).map
    (·.severity)).getD .informational

/-- The weakest basis of the primary members. -/
def basisOf (members : List Finding) : EvidenceState :=
  ((Py.minBy (fun f : Finding => stateRank f.basisState) (pickPrimary members)).map
    (·.basisState)).getD .notObservable

def occurrencesOf (members : List Finding) : Nat := (members.map occurrenceKey).dedup.length

/-- What the members of a cluster add to its score. -/
def points (members : List Finding) : Nat :=
  severityPoints (severityOf members) + confidencePoints (basisOf members) +
    recurrencePoints (occurrencesOf members)

/-- What the labels of an endpoint add. -/
def labelPoints (contexts : Py.Dict String AssetContext) (endpoint : String) : Nat :=
  let context := contexts.get? endpoint
  exposurePoints ((context.map (·.exposure)).getD .unknown) +
    criticalityPoints ((context.map (·.assetCriticality)).getD .unknown) +
    blastRadiusPoints ((context.map (·.blastRadius)).getD .unknown)

/-- The score of the cluster with a key. -/
def scoreAt (request : ScoreRequest) (key : String × String × String × String) : Nat :=
  points (membersOf request.findings key) + labelPoints (contextByEndpoint request) key.2.1

theorem severityRank_injective {s t : FindingSeverity} (h : severityRank s = severityRank t) :
    s = t := by
  cases s <;> cases t <;> first | rfl | exact absurd h (by decide)

theorem stateRank_injective {s t : EvidenceState} (h : stateRank s = stateRank t) : s = t := by
  cases s <;> cases t <;> first | rfl | exact absurd h (by decide)

theorem severityPoints_mono {s t : FindingSeverity} (h : severityRank s ≤ severityRank t) :
    severityPoints s ≤ severityPoints t := by
  cases s <;> cases t <;> first | decide | exact absurd h (by decide)

theorem recurrencePoints_mono {m n : Nat} (h : m ≤ n) : recurrencePoints m ≤ recurrencePoints n := by
  have hless : m - 1 ≤ n - 1 := Nat.sub_le_sub_right h 1
  exact min_le_min_left _ (Nat.mul_le_mul_left recurrenceStep hless)

theorem mem_pickPrimary {members : List Finding} {f : Finding} : f ∈ pickPrimary members ↔
    f ∈ members ∧ ((∃ g ∈ members, g.outcome = .negative) → f.outcome = .negative) := by
  unfold pickPrimary
  by_cases hnegative : ∃ g ∈ members, g.outcome = .negative
  · obtain ⟨g, hg, hout⟩ := hnegative
    have hne : members.filter (·.outcome = .negative) ≠ [] :=
      List.ne_nil_of_mem (List.mem_filter.mpr ⟨hg, by simpa using hout⟩)
    have hsome : ∃ g ∈ members, g.outcome = .negative := ⟨g, hg, hout⟩
    simp [List.isEmpty_iff, hne, hsome]
  · have hnil : members.filter (·.outcome = .negative) = [] := by
      rw [List.filter_eq_nil_iff]
      intro g hg hout
      exact hnegative ⟨g, hg, by simpa using hout⟩
    simp [hnil, hnegative]

theorem severityOf_spec {members : List Finding} (hne : members ≠ []) :
    (∃ f ∈ pickPrimary members, f.severity = severityOf members) ∧
      ∀ f ∈ pickPrimary members, severityRank f.severity ≤ severityRank (severityOf members) := by
  obtain ⟨f, hf⟩ := exists_maxBy (fun f : Finding => severityRank f.severity)
    (pickPrimary_ne_nil hne)
  have hselected := selected_eq_ok.mp hf
  have hseverity : severityOf members = f.severity := by
    rw [severityOf, hselected, Option.map_some, Option.getD_some]
  rw [hseverity]
  exact ⟨⟨f, Py.select_mem hselected, rfl⟩, Py.le_of_maxBy hselected⟩

theorem basisOf_spec {members : List Finding} (hne : members ≠ []) :
    (∃ f ∈ pickPrimary members, f.basisState = basisOf members) ∧
      ∀ f ∈ pickPrimary members, stateRank (basisOf members) ≤ stateRank f.basisState := by
  obtain ⟨f, hf⟩ := exists_minBy (fun f : Finding => stateRank f.basisState)
    (pickPrimary_ne_nil hne)
  have hselected := selected_eq_ok.mp hf
  have hbasis : basisOf members = f.basisState := by
    rw [basisOf, hselected, Option.map_some, Option.getD_some]
  rw [hbasis]
  exact ⟨⟨f, Py.select_mem hselected, rfl⟩, Py.minBy_le hselected⟩

/-- The severity is read off the primary members, in whatever order they are. -/
theorem severityOf_eq {members : List Finding} {s : FindingSeverity}
    (hsome : ∃ f ∈ pickPrimary members, f.severity = s)
    (hall : ∀ f ∈ pickPrimary members, severityRank f.severity ≤ severityRank s) :
    severityOf members = s := by
  obtain ⟨f, hf, hseverity⟩ := hsome
  obtain ⟨⟨g, hg, hgs⟩, hmost⟩ := severityOf_spec (List.ne_nil_of_mem (pickPrimary_subset hf))
  apply severityRank_injective
  apply le_antisymm
  · rw [← hgs]
    exact hall g hg
  · rw [← hseverity]
    exact hmost f hf

theorem basisOf_eq {members : List Finding} {s : EvidenceState}
    (hsome : ∃ f ∈ pickPrimary members, f.basisState = s)
    (hall : ∀ f ∈ pickPrimary members, stateRank s ≤ stateRank f.basisState) :
    basisOf members = s := by
  obtain ⟨f, hf, hbasis⟩ := hsome
  obtain ⟨⟨g, hg, hgs⟩, hleast⟩ := basisOf_spec (List.ne_nil_of_mem (pickPrimary_subset hf))
  apply stateRank_injective
  apply le_antisymm
  · rw [← hbasis]
    exact hleast f hf
  · rw [← hgs]
    exact hall g hg

theorem points_perm {members members' : List Finding} (h : members.Perm members') :
    points members = points members' := by
  cases members with
  | nil => rw [List.nil_perm.mp h]
  | cons first rest =>
    have hmem : ∀ f, f ∈ pickPrimary members' ↔ f ∈ pickPrimary (first :: rest) := by
      intro f
      rw [mem_pickPrimary, mem_pickPrimary]
      simp only [h.mem_iff]
    have hseverity : severityOf members' = severityOf (first :: rest) := by
      obtain ⟨hsome, hall⟩ := severityOf_spec (List.cons_ne_nil first rest)
      apply severityOf_eq
      · simpa only [hmem] using hsome
      · simpa only [hmem] using hall
    have hbasis : basisOf members' = basisOf (first :: rest) := by
      obtain ⟨hsome, hall⟩ := basisOf_spec (List.cons_ne_nil first rest)
      apply basisOf_eq
      · simpa only [hmem] using hsome
      · simpa only [hmem] using hall
    have hoccurrences : occurrencesOf members' = occurrencesOf (first :: rest) :=
      (h.map occurrenceKey).dedup.length_eq.symm
    rw [points, points, hseverity, hbasis, hoccurrences]

/-! ## The headline is the largest score -/

theorem score_of_summarizes {sha256 : String → Sha256Hex} {request : ScoreRequest}
    {cluster : EndpointFindingCluster}
    (h : Summarizes sha256 cluster
      (orderedMembers (membersOf request.findings (clusterKey cluster)))) :
    (scoreCluster (contextByEndpoint request) cluster).score =
      scoreAt request (clusterKey cluster) := by
  obtain ⟨severest, hseverest, hseverity⟩ := h.severity
  obtain ⟨weakest, hweakest, hbasis⟩ := h.basis
  have hseverityOf : cluster.severity =
      severityOf (orderedMembers (membersOf request.findings (clusterKey cluster))) := by
    rw [severityOf, hseverest, hseverity, Option.map_some, Option.getD_some]
  have hbasisOf : cluster.basisState =
      basisOf (orderedMembers (membersOf request.findings (clusterKey cluster))) := by
    rw [basisOf, hweakest, hbasis, Option.map_some, Option.getD_some]
  have hscore := (scoreCluster_law (contextByEndpoint request) cluster).1
  rw [hscore, scoreAt, ← points_perm (orderedMembers_perm _), points, ← hseverityOf, ← hbasisOf,
    occurrencesOf, ← h.unique]
  simp only [scoreCluster, computeScore, ScoreInput.components, ScoreComponents.total, scoreInput,
    labelPoints, clusterKey]
  omega

/-- The headline of a request with findings: the score of one of its clusters, and no cluster has
more. -/
theorem headline_spec {sha256 : String → Sha256Hex} {request : ScoreRequest}
    {posture : PostureAssessment} (h : scoreFindings sha256 request = .ok posture)
    (hne : request.findings ≠ []) :
    ∃ n, posture.riskScore.map (·.val) = some n ∧
      (∃ f ∈ request.findings, scoreAt request (groupKey f) = n) ∧
      ∀ f ∈ request.findings, scoreAt request (groupKey f) ≤ n := by
  obtain ⟨clusters, hclusters, hposture⟩ := Fallible.bind_eq_ok.mp h
  obtain ⟨posture', hposture', hlaw⟩ := headlineLaw_of_comparableTimes sha256
    (comparableTimes_of_scoreFindings h)
  obtain rfl : posture = posture' := Except.ok.inj (h.symm.trans hposture')
  obtain ⟨first, rest, hordered, hrisk, hmost, -⟩ := hlaw.headline hne
  have hitems : ∀ item, item ∈ posture.prioritizedFindings.val ↔
      ∃ c ∈ clusters, scoreCluster (contextByEndpoint request) c = item := by
    intro item
    rw [prioritizedFindings_of_buildPosture hposture, prioritizeFindings, List.mem_insertionSort,
      List.mem_map]
  have hscore : ∀ c ∈ clusters, (scoreCluster (contextByEndpoint request) c).score =
      scoreAt request (clusterKey c) := fun c hc => score_of_summarizes (summarizes_of_mem hclusters hc)
  have hkeys := (deduplicated_of_eq_ok hclusters).mem_keys
  refine ⟨first.score, hrisk, ?_, ?_⟩
  · obtain ⟨c, hc, hfirst⟩ := (hitems first).mp (by rw [hordered]; exact List.mem_cons_self)
    obtain ⟨f, hf, hkey⟩ := (hkeys (clusterKey c)).mp (List.mem_map.mpr ⟨c, hc, rfl⟩)
    refine ⟨f, hf, ?_⟩
    rw [hkey, ← hscore c hc, hfirst]
  · intro f hf
    obtain ⟨c, hc, hkey⟩ := List.mem_map.mp ((hkeys (groupKey f)).mpr ⟨f, hf, rfl⟩)
    rw [← hkey, ← hscore c hc]
    exact hmost _ ((hitems _).mpr ⟨c, hc, rfl⟩)

/-! ## The finding that is added -/

/-- The request with one more finding, at any place. The labels and the checks are the same, so that
the clusters are all that can change. -/
structure Adds (request : ScoreRequest) (added : Finding) (request' : ScoreRequest) : Prop where
  findings : request'.findings.Perm (added :: request.findings)
  policyChecks : request'.policyChecks = request.policyChecks
  assetContext : request'.assetContext = request.assetContext

/-- The finding joins the one cluster with the largest score and takes points from it, and no other
cluster keeps up that score. The three fields are what the maximum needs to fall. Its position is
the cluster of the new finding, its value there goes down, and nothing else stands in for it. None
of the three asks for the headline of the longer list, so that the condition can be checked before
the finding is added. -/
structure Weakens (request : ScoreRequest) (added : Finding) : Prop where
  joins : ∃ f ∈ request.findings, groupKey f = groupKey added
  lowers : points (added :: membersOf request.findings (groupKey added)) <
    points (membersOf request.findings (groupKey added))
  above : ∀ f ∈ request.findings, groupKey f ≠ groupKey added →
    scoreAt request (groupKey f) < scoreAt request (groupKey added)

variable {request request' : ScoreRequest} {added : Finding}

theorem scoreAt_joined (h : Adds request added request') :
    scoreAt request' (groupKey added) =
      points (added :: membersOf request.findings (groupKey added)) +
        labelPoints (contextByEndpoint request) (groupKey added).2.1 := by
  have hmembers : (membersOf request'.findings (groupKey added)).Perm
      (added :: membersOf request.findings (groupKey added)) := by
    have hperm := h.findings.filter (groupKey · = groupKey added)
    rwa [List.filter_cons_of_pos (by simp)] at hperm
  rw [scoreAt, points_perm hmembers, contextByEndpoint, h.assetContext, ← contextByEndpoint]

theorem scoreAt_other (h : Adds request added request') {key : String × String × String × String}
    (hkey : key ≠ groupKey added) : scoreAt request' key = scoreAt request key := by
  have hmembers : (membersOf request'.findings key).Perm (membersOf request.findings key) := by
    have hperm := h.findings.filter (groupKey · = key)
    rwa [List.filter_cons_of_neg (by simpa using Ne.symm hkey)] at hperm
  rw [scoreAt, scoreAt, points_perm hmembers, contextByEndpoint, h.assetContext, ← contextByEndpoint]

/-- The headline is lower than before exactly if the finding weakens the one cluster it was taken
from. -/
theorem headline_lt_iff (hadds : Adds request added request') {m n : Nat}
    (hn : ∃ f ∈ request.findings, scoreAt request (groupKey f) = n)
    (hn' : ∀ f ∈ request.findings, scoreAt request (groupKey f) ≤ n)
    (hm : ∃ f ∈ request'.findings, scoreAt request' (groupKey f) = m)
    (hm' : ∀ f ∈ request'.findings, scoreAt request' (groupKey f) ≤ m) :
    m < n ↔ Weakens request added := by
  have hold : ∀ f ∈ request.findings, f ∈ request'.findings := fun f hf =>
    hadds.findings.mem_iff.mpr (List.mem_cons_of_mem _ hf)
  have hnew : added ∈ request'.findings := hadds.findings.mem_iff.mpr List.mem_cons_self
  have hjoined := scoreAt_joined hadds
  constructor
  · intro hlt
    -- The cluster the headline was taken from is the one that is joined.
    obtain ⟨f, hf, hscore⟩ := hn
    have hkey : groupKey f = groupKey added := by
      by_contra hother
      have hle := hm' f (hold f hf)
      rw [scoreAt_other hadds hother, hscore] at hle
      omega
    have htop : scoreAt request (groupKey added) = n := by rw [← hkey, hscore]
    refine ⟨⟨f, hf, hkey⟩, ?_, ?_⟩
    · have hle := hm' added hnew
      rw [hjoined] at hle
      rw [scoreAt] at htop
      omega
    · intro g hg hother
      have hle := hm' g (hold g hg)
      rw [scoreAt_other hadds hother] at hle
      omega
  · rintro ⟨⟨f, hf, hkey⟩, hlowers, habove⟩
    have htop : scoreAt request (groupKey added) ≤ n := by
      rw [← hkey]
      exact hn' f hf
    obtain ⟨g, hg, hscore⟩ := hm
    by_cases hother : groupKey g = groupKey added
    · rw [hother, hjoined] at hscore
      rw [scoreAt] at htop
      omega
    · have hgold : g ∈ request.findings := by
        rcases List.mem_cons.mp (hadds.findings.mem_iff.mp hg) with rfl | hmem
        · exact absurd rfl hother
        · exact hmem
      have hlt := habove g hgold hother
      rw [scoreAt_other hadds hother] at hscore
      omega

/-- A cluster with a negative member keeps its severity and its recurrence, so what it loses is
confidence, and to the basis of the finding that is added. -/
theorem confidence_of_lowers {members : List Finding} (hnegative : added.outcome = .negative)
    (hsome : ∃ f ∈ members, f.outcome = .negative)
    (hlowers : points (added :: members) < points members) :
    confidencePoints added.basisState < confidencePoints (basisOf members) := by
  have hne : members ≠ [] := by
    obtain ⟨f, hf, -⟩ := hsome
    exact List.ne_nil_of_mem hf
  have hprimary : ∀ f, f ∈ pickPrimary (added :: members) ↔
      f = added ∨ f ∈ pickPrimary members := by
    intro f
    rw [mem_pickPrimary, mem_pickPrimary, List.mem_cons]
    have hany : ∃ g ∈ added :: members, g.outcome = .negative :=
      ⟨added, List.mem_cons_self, hnegative⟩
    simp only [hany, hsome, forall_const]
    constructor
    · rintro ⟨rfl | hf, hout⟩
      · exact Or.inl rfl
      · exact Or.inr ⟨hf, hout⟩
    · rintro (rfl | ⟨hf, hout⟩)
      · exact ⟨Or.inl rfl, hnegative⟩
      · exact ⟨Or.inr hf, hout⟩
  have hseverity : severityPoints (severityOf members) ≤
      severityPoints (severityOf (added :: members)) := by
    obtain ⟨⟨f, hf, hfs⟩, -⟩ := severityOf_spec hne
    apply severityPoints_mono
    rw [← hfs]
    exact (severityOf_spec (List.cons_ne_nil added members)).2 f ((hprimary f).mpr (Or.inr hf))
  have hoccurrences : occurrencesOf members ≤ occurrencesOf (added :: members) := by
    unfold occurrencesOf
    rw [List.map_cons]
    by_cases hmem : occurrenceKey added ∈ members.map occurrenceKey
    · rw [List.dedup_cons_of_mem hmem]
    · rw [List.dedup_cons_of_notMem hmem, List.length_cons]
      exact Nat.le_succ _
  have hrecurrence := recurrencePoints_mono hoccurrences
  unfold points at hlowers
  have hconfidence : confidencePoints (basisOf (added :: members)) <
      confidencePoints (basisOf members) := by omega
  obtain ⟨⟨f, hf, hfs⟩, hleast⟩ := basisOf_spec (List.cons_ne_nil added members)
  rcases (hprimary f).mp hf with rfl | hold
  · rwa [hfs]
  · -- The weakest basis is that of an old member, and so the old one.
    have hsame : basisOf members = basisOf (added :: members) := by
      apply basisOf_eq ⟨f, hold, hfs⟩
      intro g hg
      exact hleast g ((hprimary g).mpr (Or.inr hg))
    rw [hsame] at hconfidence
    exact absurd hconfidence (Nat.lt_irrefl _)

/-- **A negative finding that is added leaves a headline. It is not lower than before unless the
finding weakens the one cluster with the largest score; a cluster that had a negative member it can
only weaken by a basis of less confidence.** -/
theorem headline_monotone_unless_weakened {sha256 : String → Sha256Hex} {before : PostureAssessment}
    (hadds : Adds request added request') (hnegative : added.outcome = .negative)
    (hbefore : scoreFindings sha256 request = .ok before)
    (htimes : ∀ f ∈ request.findings, groupKey f = groupKey added →
      f.policyEvaluationTime.offset.isSome = added.policyEvaluationTime.offset.isSome) :
    ∃ after m, scoreFindings sha256 request' = .ok after ∧
      after.riskScore.map (·.val) = some m ∧
      ((∀ n, before.riskScore.map (·.val) = some n → n ≤ m) ↔ ¬Weakens request added) ∧
      (Weakens request added →
        (∃ f ∈ membersOf request.findings (groupKey added), f.outcome = .negative) →
        confidencePoints added.basisState <
          confidencePoints (basisOf (membersOf request.findings (groupKey added)))) := by
  have hcomparable : ComparableTimes request' := by
    have hold := comparableTimes_of_scoreFindings hbefore
    intro f hf g hg hkey
    rcases List.mem_cons.mp (hadds.findings.mem_iff.mp hf) with rfl | hf <;>
      rcases List.mem_cons.mp (hadds.findings.mem_iff.mp hg) with rfl | hg
    · rfl
    · exact (htimes g hg hkey.symm).symm
    · exact htimes f hf hkey
    · exact hold f hf g hg hkey
  obtain ⟨after, hafter, -⟩ := headlineLaw_of_comparableTimes sha256 hcomparable
  have hne' : request'.findings ≠ [] :=
    List.ne_nil_of_mem (hadds.findings.mem_iff.mpr List.mem_cons_self)
  obtain ⟨m, hm, hsome', hmost'⟩ := headline_spec hafter hne'
  refine ⟨after, m, hafter, hm, ?_, fun hweakens hsome =>
    confidence_of_lowers hnegative hsome hweakens.lowers⟩
  by_cases hne : request.findings = []
  · -- Without findings the headline was zero or absent, and nothing was joined.
    have hnot : ¬Weakens request added := by
      rintro ⟨⟨f, hf, -⟩, -⟩
      rw [hne] at hf
      exact absurd hf List.not_mem_nil
    refine iff_of_true ?_ hnot
    intro n hn
    obtain ⟨posture, hposture, hlaw⟩ := headlineLaw_of_comparableTimes sha256
      (comparableTimes_of_scoreFindings hbefore)
    obtain rfl : before = posture := Except.ok.inj (hbefore.symm.trans hposture)
    by_cases hcomplete : CoverageComplete request.policyChecks
    · have hzero := hlaw.zero.mpr ⟨hne, hcomplete⟩
      have hn0 : n = 0 := Option.some.inj (hn.symm.trans hzero)
      rw [hn0]
      exact Nat.zero_le m
    · rw [hlaw.absent.mpr ⟨hne, hcomplete⟩] at hn
      exact absurd hn (by simp)
  · obtain ⟨n, hn, hsome, hmost⟩ := headline_spec hbefore hne
    rw [← headline_lt_iff hadds hsome hmost hsome' hmost', Nat.not_lt]
    constructor
    · intro hall
      exact hall n hn
    · intro hle k hk
      rwa [Option.some.inj (hk.symm.trans hn)]

/-- One finding about the endpoint. -/
def januaryRequest : ScoreRequest where
  findings := [januaryFinding firstId (some 0)]
  findings_le := by decide
  policyChecks_le := noPolicyChecks_le
  assetContext_le := noAssetContext_le

/-- Another one, on evidence that is in conflict. -/
def conflictingFinding : Finding :=
  { januaryFinding secondId (some 0) with basisState := .conflicting }

def conflictingRequest : ScoreRequest where
  findings := conflictingFinding :: januaryRequest.findings
  findings_le := by decide
  policyChecks_le := noPolicyChecks_le
  assetContext_le := noAssetContext_le

theorem headline_before :
    ((scoreFindings mixedSha256 januaryRequest).toOption.bind (·.riskScore)).map (·.val) =
      some 73 := by
  decide +kernel

theorem headline_after :
    ((scoreFindings mixedSha256 conflictingRequest).toOption.bind (·.riskScore)).map (·.val) =
      some 62 := by
  decide +kernel

/-- The headline that is left is lower, so the finding is one that weakens. -/
theorem conflicting_finding_leaves_headline :
    ∃ before after, scoreFindings mixedSha256 januaryRequest = .ok before ∧
      scoreFindings mixedSha256 conflictingRequest = .ok after ∧
      before.riskScore.map (·.val) = some 73 ∧ after.riskScore.map (·.val) = some 62 ∧
      Weakens januaryRequest conflictingFinding := by
  have htimes : ComparableTimes januaryRequest := by
    unfold ComparableTimes
    decide +kernel
  obtain ⟨before, hbefore, -⟩ := headlineLaw_of_comparableTimes mixedSha256 htimes
  have hadds : Adds januaryRequest conflictingFinding conflictingRequest :=
    ⟨List.Perm.refl _, rfl, rfl⟩
  obtain ⟨after, m, hafter, hm, hiff, -⟩ := headline_monotone_unless_weakened hadds rfl hbefore (by
    decide +kernel)
  have hscore := headline_before
  have hscore' := headline_after
  rw [hbefore] at hscore
  rw [hafter] at hscore'
  refine ⟨before, after, hbefore, hafter, hscore, hscore', ?_⟩
  obtain rfl : m = 62 := Option.some.inj (hm.symm.trans hscore')
  by_contra hnot
  exact absurd (hiff.mpr hnot 73 hscore) (by decide)

/-- The second negative finding takes the headline from 73 to 62. -/
theorem conflicting_finding_lowers_headline :
    Adds januaryRequest conflictingFinding conflictingRequest ∧
      conflictingFinding.outcome = .negative ∧
      ((scoreFindings mixedSha256 januaryRequest).toOption.bind (·.riskScore)).map (·.val) =
        some 73 ∧
      ((scoreFindings mixedSha256 conflictingRequest).toOption.bind (·.riskScore)).map (·.val) =
        some 62 :=
  ⟨⟨List.Perm.refl _, rfl, rfl⟩, rfl, headline_before, headline_after⟩

end Findings
end SecureMail
