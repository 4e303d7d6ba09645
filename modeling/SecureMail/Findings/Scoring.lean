import SecureMail.Findings.Finding

/-!
# The priority score

A score is a sum of six addends, each out of a table or, for recurrence, capped. The tables bound
every addend, so the sum needs no cap. An inventory label that is not known has points of its own,
and with them every sum is at least four.

That the least score is four is what tells a score of zero from a small one: zero is never the score
of a finding. The tables are definitions over the enumerations of the source, so that a case that is
added there is a case that is missing here, and the bounds are by cases on them.
-/

namespace SecureMail
namespace Findings

inductive ExposureClass where
  | «public»
  | partner
  | internal
  | isolated
  | unknown
  deriving DecidableEq, Repr

inductive AssetCriticality where
  | critical
  | high
  | medium
  | low
  | unknown
  deriving DecidableEq, Repr

inductive BlastRadius where
  | organization
  | multiAsset
  | singleEndpoint
  | unknown
  deriving DecidableEq, Repr

/-- `SEVERITY_POINTS`. -/
def severityPoints : FindingSeverity → Nat
  | .high => 50
  | .medium => 30
  | .low => 15
  | .informational => 0

/-- `CONFIDENCE_POINTS`. They are not in the order of `stateRank`: a conflicting basis is the
weakest there, and it has more points than an indeterminate one. -/
def confidencePoints : EvidenceState → Nat
  | .verified => 20
  | .observed => 16
  | .inferred => 12
  | .incomplete => 6
  | .conflicting => 3
  | .indeterminate => 2
  | .notObservable => 0

/-- `EXPOSURE_POINTS`. Unknown lies between isolated and internal, so that an empty inventory
neither raises a score much nor lowers it. -/
def exposurePoints : ExposureClass → Nat
  | .«public» => 10
  | .partner => 8
  | .internal => 5
  | .isolated => 2
  | .unknown => 4

/-- `CRITICALITY_POINTS`. -/
def criticalityPoints : AssetCriticality → Nat
  | .critical => 5
  | .high => 4
  | .medium => 3
  | .low => 1
  | .unknown => 2

/-- `BLAST_RADIUS_POINTS`. -/
def blastRadiusPoints : BlastRadius → Nat
  | .organization => 5
  | .multiAsset => 3
  | .singleEndpoint => 1
  | .unknown => 1

def recurrenceStep : Nat := 2
def recurrenceCap : Nat := 10

structure AssetContext where
  endpoint : Text 300
  exposure : ExposureClass := .unknown
  assetCriticality : AssetCriticality := .unknown
  blastRadius : BlastRadius := .unknown
  deriving DecidableEq

structure ScoreInput where
  severity : FindingSeverity
  basisState : EvidenceState
  exposure : ExposureClass := .unknown
  uniqueOccurrences : { n : Nat // 1 ≤ n ∧ n ≤ 1000000 }
  assetCriticality : AssetCriticality := .unknown
  blastRadius : BlastRadius := .unknown
  deriving DecidableEq

structure ScoreComponents where
  severity : Nat
  confidence : Nat
  exposure : Nat
  recurrence : Nat
  assetCriticality : Nat
  blastRadius : Nat
  severity_le : severity ≤ 50
  confidence_le : confidence ≤ 20
  exposure_le : exposure ≤ 10
  recurrence_le : recurrence ≤ 10
  assetCriticality_le : assetCriticality ≤ 5
  blastRadius_le : blastRadius ≤ 5
  deriving DecidableEq

def ScoreComponents.total (c : ScoreComponents) : Nat :=
  c.severity + c.confidence + c.exposure + c.recurrence + c.assetCriticality + c.blastRadius

structure ScoreVector where
  score : Nat
  score_le : score ≤ 100
  components : ScoreComponents
  deriving DecidableEq

/-! ## The tables are within the bounds of the components -/

theorem severityPoints_le (s : FindingSeverity) : severityPoints s ≤ 50 := by
  cases s <;> decide

theorem confidencePoints_le (s : EvidenceState) : confidencePoints s ≤ 20 := by
  cases s <;> decide

theorem exposurePoints_bounds (e : ExposureClass) : 2 ≤ exposurePoints e ∧ exposurePoints e ≤ 10 := by
  cases e <;> decide

theorem criticalityPoints_bounds (c : AssetCriticality) :
    1 ≤ criticalityPoints c ∧ criticalityPoints c ≤ 5 := by
  cases c <;> decide

theorem blastRadiusPoints_bounds (b : BlastRadius) :
    1 ≤ blastRadiusPoints b ∧ blastRadiusPoints b ≤ 5 := by
  cases b <;> decide

/-- `recurrence_points`, on the numbers it does not refuse. -/
def recurrencePoints (uniqueOccurrences : Nat) : Nat :=
  min recurrenceCap (recurrenceStep * (uniqueOccurrences - 1))

def ScoreInput.components (inputs : ScoreInput) : ScoreComponents where
  severity := severityPoints inputs.severity
  confidence := confidencePoints inputs.basisState
  exposure := exposurePoints inputs.exposure
  recurrence := recurrencePoints inputs.uniqueOccurrences.val
  assetCriticality := criticalityPoints inputs.assetCriticality
  blastRadius := blastRadiusPoints inputs.blastRadius
  severity_le := severityPoints_le _
  confidence_le := confidencePoints_le _
  exposure_le := (exposurePoints_bounds _).2
  recurrence_le := Nat.min_le_left ..
  assetCriticality_le := (criticalityPoints_bounds _).2
  blastRadius_le := (blastRadiusPoints_bounds _).2

/-- `compute_score`. -/
def computeScore (inputs : ScoreInput) : ScoreVector where
  score := min 100 inputs.components.total
  score_le := Nat.min_le_left ..
  components := inputs.components

theorem ScoreComponents.total_le (c : ScoreComponents) : c.total ≤ 100 := by
  have h₁ := c.severity_le
  have h₂ := c.confidence_le
  have h₃ := c.exposure_le
  have h₄ := c.recurrence_le
  have h₅ := c.assetCriticality_le
  have h₆ := c.blastRadius_le
  unfold total
  omega

/-- The cap is never reached from above: a score is the sum of its components. -/
theorem computeScore_score (inputs : ScoreInput) :
    (computeScore inputs).score = (computeScore inputs).components.total :=
  Nat.min_eq_right (ScoreComponents.total_le _)

theorem four_le_computeScore (inputs : ScoreInput) : 4 ≤ (computeScore inputs).score := by
  rw [computeScore_score]
  have hexposure := (exposurePoints_bounds inputs.exposure).1
  have hcriticality := (criticalityPoints_bounds inputs.assetCriticality).1
  have hblast := (blastRadiusPoints_bounds inputs.blastRadius).1
  show 4 ≤ severityPoints inputs.severity + confidencePoints inputs.basisState +
    exposurePoints inputs.exposure + recurrencePoints inputs.uniqueOccurrences.val +
    criticalityPoints inputs.assetCriticality + blastRadiusPoints inputs.blastRadius
  omega

end Findings
end SecureMail
