import SecureMail.Findings.Dedup
import SecureMail.Findings.Scoring

/-!
# Coverage and the posture

The coverage counts the checks by outcome, over all and by protocol and category. The posture puts
it next to the prioritized findings, and says how far the assessment got and what the headline
score is.

The assessment is complete when every check was decided, and a score of zero is only given then. The
model of the counts refuses counts that do not add up. That validator is a field here, so that the
loop has to prove its increments right, and no later result asks for the sum again. The bound on the
score and the one on the number of prioritized findings are kept in the same way.
-/

namespace SecureMail
namespace Findings

/-! ## Coverage -/

/-- The four counts sum to the number of applicable checks. -/
structure CoverageCounts where
  applicableCount : Nat
  passedCount : Nat
  failedCount : Nat
  unknownCount : Nat
  notObservableCount : Nat
  reconcile : passedCount + failedCount + unknownCount + notObservableCount = applicableCount
  deriving DecidableEq

/-- `_zero_counts`. -/
def zeroCounts : CoverageCounts := ⟨0, 0, 0, 0, 0, rfl⟩

/-- `_increment`. A check is counted under one outcome and in the total, so the total stays the sum.
-/
def increment (counts : CoverageCounts) (outcome : PolicyCheckOutcome) : CoverageCounts where
  applicableCount := counts.applicableCount + 1
  passedCount := counts.passedCount + (if outcome = .pass then 1 else 0)
  failedCount := counts.failedCount + (if outcome = .fail then 1 else 0)
  unknownCount := counts.unknownCount + (if outcome = .unknown then 1 else 0)
  notObservableCount := counts.notObservableCount + (if outcome = .notObservable then 1 else 0)
  reconcile := by
    have h := counts.reconcile
    cases outcome <;> simp <;> omega

structure CoverageMatrix where
  overall : CoverageCounts
  byProtocol : List (String × CoverageCounts) := []
  byCategory : List (String × CoverageCounts) := []
  byProtocolAndCategory : List (String × List (String × CoverageCounts)) := []
  deriving DecidableEq

/-- `sorted(d.items())`. -/
def sortedItems {ν : Type} (d : Py.Dict String ν) : List (String × ν) :=
  d.entries.insertionSort fun a b => a.1 ≤ b.1

/-- The tables of `aggregate_coverage`, as its loop fills them. -/
structure CoverageTables where
  overall : CoverageCounts := zeroCounts
  byProtocol : Py.Dict String CoverageCounts := ∅
  byCategory : Py.Dict String CoverageCounts := ∅
  byCell : Py.Dict String (Py.Dict String CoverageCounts) := ∅

def CoverageTables.add (tables : CoverageTables) (check : PolicyCheck) : CoverageTables where
  overall := increment tables.overall check.outcome
  byProtocol := tables.byProtocol.update check.protocol.value zeroCounts (increment · check.outcome)
  byCategory := tables.byCategory.update check.category.value zeroCounts (increment · check.outcome)
  byCell := tables.byCell.update check.protocol.value ∅
    (·.update check.category.value zeroCounts (increment · check.outcome))

/-- `aggregate_coverage`. The matrix is the four tables of the loop with their rows in the order of
their names. -/
def aggregateCoverage (checks : List PolicyCheck) : CoverageMatrix :=
  let tables := checks.foldl CoverageTables.add {}
  { overall := tables.overall
    byProtocol := sortedItems tables.byProtocol
    byCategory := sortedItems tables.byCategory
    byProtocolAndCategory :=
      (sortedItems tables.byCell).map fun row => (row.1, sortedItems row.2) }

inductive AssessmentState where
  | complete
  | limited
  | none
  deriving DecidableEq, Repr

/-- `_assessment_state`. -/
def assessmentState (coverage : CoverageCounts) : AssessmentState :=
  if coverage.applicableCount = 0 then .none
  else if 0 < coverage.unknownCount ∨ 0 < coverage.notObservableCount then .limited
  else .complete

/-! ## Prioritized findings -/

/-- A cluster with its score and the labels the score was computed from. -/
@[ext] structure ScoredEndpointFinding extends EndpointFindingCluster where
  score : Nat
  score_le : score ≤ 100
  components : ScoreComponents
  exposure : ExposureClass
  assetCriticality : AssetCriticality
  blastRadius : BlastRadius

instance : DecidableEq ScoredEndpointFinding := fun _ _ =>
  decidable_of_iff _ ScoredEndpointFinding.ext_iff.symm

/-- `_OUTCOME_RANK`. -/
def outcomeRank : FindingOutcome → Nat
  | .negative => 0
  | .indeterminate => 1

/-- `_SEVERITY_ORDER`. -/
def severityOrder : FindingSeverity → Nat
  | .high => 0
  | .medium => 1
  | .low => 2
  | .informational => 3

/-- The sort key: the higher score first. The last key is the id, so that clusters with different
ids are never equal in it. -/
def priorityOrdering (a b : ScoredEndpointFinding) : Ordering :=
  (Ord.compare b.score a.score).then <|
    (Ord.compare (outcomeRank a.outcome) (outcomeRank b.outcome)).then <|
      (Ord.compare (severityOrder a.severity) (severityOrder b.severity)).then <|
        (Ord.compare a.code.val b.code.val).then <|
          (Ord.compare a.affectedEndpoint.val b.affectedEndpoint.val).then
            (Ord.compare a.findingId.val b.findingId.val)

/-- `prioritize_findings`. -/
def prioritizeFindings (findings : List ScoredEndpointFinding) : List ScoredEndpointFinding :=
  findings.insertionSort fun a b => (priorityOrdering a b).isLE = true

/-! ## Posture -/

structure PostureAssessment where
  assessmentState : AssessmentState
  riskScore : Option { n : Nat // n ≤ 100 }
  prioritizedFindings : { fs : List ScoredEndpointFinding // fs.length ≤ 4096 }
  coverage : CoverageMatrix
  deriving DecidableEq

/-- `_risk_score`. -/
def riskScore (state : AssessmentState) (findings : List ScoredEndpointFinding) :
    Option { n : Nat // n ≤ 100 } :=
  match Py.maxBy (fun f : ScoredEndpointFinding => f.score) findings with
  | some best => some ⟨best.score, best.score_le⟩
  | none => if state = .complete then some ⟨0, Nat.zero_le _⟩ else none

/-- `build_posture`. The score is read off the prioritized list, and the state off the counts. -/
def buildPosture (findings : List ScoredEndpointFinding) (checks : List PolicyCheck) :
    Result PostureAssessment :=
  let ordered := prioritizeFindings findings
  let coverage := aggregateCoverage checks
  let state := assessmentState coverage.overall
  if h : ordered.length ≤ 4096 then
    pure
      { assessmentState := state
        riskScore := riskScore state ordered
        prioritizedFindings := ⟨ordered, h⟩
        coverage := coverage }
  else throw (.validation "PostureAssessment" "prioritized_findings")

/-! ## What is counted -/

/-- Applicable checks exist, and each of them was decided. It is what a score of zero stands for,
said of the checks and not of the counts. -/
def CoverageComplete (checks : List PolicyCheck) : Prop :=
  checks ≠ [] ∧ ∀ c ∈ checks, c.outcome ≠ .unknown ∧ c.outcome ≠ .notObservable

theorem overall_foldl {checks : List PolicyCheck} {tables : CoverageTables} :
    (checks.foldl CoverageTables.add tables).overall =
      checks.foldl (fun counts c => increment counts c.outcome) tables.overall := by
  induction checks generalizing tables with
  | nil => rfl
  | cons c rest ih => exact ih

/-- Each count is the number of the checks with its outcome. -/
theorem foldl_increment {checks : List PolicyCheck} {counts : CoverageCounts} :
    let result := checks.foldl (fun counts c => increment counts c.outcome) counts
    result.applicableCount = counts.applicableCount + checks.length ∧
      result.unknownCount = counts.unknownCount + checks.countP (·.outcome = .unknown) ∧
      result.notObservableCount =
        counts.notObservableCount + checks.countP (·.outcome = .notObservable) := by
  induction checks generalizing counts with
  | nil => exact ⟨rfl, rfl, rfl⟩
  | cons c rest ih =>
    obtain ⟨happlicable, hunknown, hnotObservable⟩ := @ih (increment counts c.outcome)
    refine ⟨?_, ?_, ?_⟩
    · rw [List.foldl_cons, happlicable, List.length_cons]
      show counts.applicableCount + 1 + rest.length = _
      omega
    · rw [List.foldl_cons, hunknown, List.countP_cons]
      show counts.unknownCount + (if c.outcome = .unknown then 1 else 0) + _ = _
      simp only [decide_eq_true_eq]
      omega
    · rw [List.foldl_cons, hnotObservable, List.countP_cons]
      show counts.notObservableCount + (if c.outcome = .notObservable then 1 else 0) + _ = _
      simp only [decide_eq_true_eq]
      omega

theorem assessmentState_eq_complete_iff {checks : List PolicyCheck} :
    assessmentState (aggregateCoverage checks).overall = .complete ↔ CoverageComplete checks := by
  have hoverall : (aggregateCoverage checks).overall =
      checks.foldl (fun counts c => increment counts c.outcome) zeroCounts := overall_foldl
  obtain ⟨happlicable, hunknown, hnotObservable⟩ := @foldl_increment checks zeroCounts
  have hzero : zeroCounts.applicableCount = 0 ∧ zeroCounts.unknownCount = 0 ∧
      zeroCounts.notObservableCount = 0 := ⟨rfl, rfl, rfl⟩
  rw [hzero.1, Nat.zero_add] at happlicable
  rw [hzero.2.1, Nat.zero_add] at hunknown
  rw [hzero.2.2, Nat.zero_add] at hnotObservable
  unfold assessmentState CoverageComplete
  rw [hoverall, happlicable, hunknown, hnotObservable]
  by_cases hnil : checks = []
  · simp [hnil]
  · have hlength : checks.length ≠ 0 := by simpa using hnil
    rw [if_neg hlength]
    by_cases hundecided : 0 < checks.countP (·.outcome = .unknown) ∨
        0 < checks.countP (·.outcome = .notObservable)
    · rw [if_pos hundecided]
      constructor
      · intro h
        cases h
      · rintro ⟨-, hall⟩
        rw [List.countP_pos_iff, List.countP_pos_iff] at hundecided
        rcases hundecided with ⟨c, hc, hout⟩ | ⟨c, hc, hout⟩
        · exact absurd (by simpa using hout) (hall c hc).1
        · exact absurd (by simpa using hout) (hall c hc).2
    · rw [if_neg hundecided]
      refine ⟨fun _ => ⟨hnil, ?_⟩, fun _ => rfl⟩
      intro c hc
      rw [not_or, List.countP_pos_iff, List.countP_pos_iff] at hundecided
      exact ⟨fun hout => hundecided.1 ⟨c, hc, by simpa using hout⟩,
        fun hout => hundecided.2 ⟨c, hc, by simpa using hout⟩⟩

end Findings
end SecureMail
