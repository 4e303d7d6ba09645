import SecureMail.Lib.SortKey
import SecureMail.Ml.Windows
import SecureMail.Py.Dict
import SecureMail.Py.Str

/-!
# The baseline scorer

A window is scored against the earlier windows of its endpoint: how far each rate is from their
median, how much it has drifted, and how rare its categories are among its peers.

Each of the three reads a list of earlier windows and one window, and the lists are made by filters
on the day. The arithmetic is that of `FloatOps`, about which nothing is assumed: what is proved of
the scorer is which windows it can depend on, and that holds for any operations at all.
-/

namespace SecureMail
namespace Ml

open Py

variable {F : Type} [FloatOps F]

def madScale : F := 1.4826
def madFloor : F := 0.01
def zCap : F := 30.0
def zThreshold : F := 3.5
def pageHinkleyDelta : F := 0.02
def pageHinkleyLambda : F := 0.5
def minHistoryWindows : Nat := 14
def minSessionCount : Nat := 10
def incompleteRateGate : F := 0.40

def baselineModelDigest : String :=
  "8e2f99e8e2feaa6f3b638b0982b2cc9483339ad6e7bd1dcd73a4b5f7b14b0508"

/-! ## Statistics -/

/-- `sorted(values)`. -/
def sortedFloats (values : List F) : List F :=
  values.insertionSort fun a b => FloatOps.lt b a = false

/-- `statistics.median`, of data that is not empty. -/
def median (values : List F) : F :=
  let ordered := sortedFloats values
  let half := ordered.length / 2
  if ordered.length % 2 = 1 then ordered.getD half 0.0
  else (ordered.getD (half - 1) 0.0 + ordered.getD half 0.0) / FloatOps.ofNat 2

/-- `median_mad`. -/
def medianMad (values : List F) : F × F :=
  if values.isEmpty then (0.0, 0.0)
  else
    let med := median values
    (med, median (values.map fun item => FloatOps.abs (item - med)))

/-- `robust_z`. -/
def robustZ (value median mad : F) : F :=
  let scale := FloatOps.max (mad * madScale) madFloor
  let zScore := (value - median) / scale
  FloatOps.max (-zCap) (FloatOps.min zCap zScore)

/-- `page_hinkley_score`. The running mean includes the current value, so that a jump is seen when
it happens. -/
def pageHinkleyScore (history : List F) (current : F) : F :=
  let step := fun (acc : F × F × Nat) value =>
    let (mean, statistic, count) := acc
    let count := count + 1
    let mean := mean + (value - mean) / FloatOps.ofNat count
    (mean, FloatOps.max 0.0 (statistic + value - mean - pageHinkleyDelta), count)
  let (_, statistic, _) := (history ++ [current]).foldl step ((0.0 : F), (0.0 : F), 0)
  statistic / pageHinkleyLambda

/-- `categorical_rarity`: the score, whether the value is new, and how often it occurred. -/
def categoricalRarity (value : String) (history : List String) : F × Bool × Nat :=
  let count := history.countP (· = value)
  let firstSeen := decide (0 < history.length) && count == 0
  let score := -FloatOps.log ((FloatOps.ofNat count + 0.5) / (FloatOps.ofNat history.length + 0.5))
  (score, firstSeen, count)

/-- `skip_reason`. The reasons are asked in this order, and the first is the one that is reported.
-/
def skipReason (window : EndpointWindow F) (history : List (EndpointWindow F)) : Option String :=
  if window.sessionCount < minSessionCount then some "insufficient_support"
  else if history.length < minHistoryWindows then some "insufficient_history"
  else if !window.captureQualityOk then some "capture_quality"
  else if FloatOps.lt incompleteRateGate window.incompleteReconstructionRate then
    some "capture_quality"
  else none

/-! ## Contributions -/

/-- A numeric feature, beside the median of the history. -/
def numericContribution (window : EndpointWindow F) (feature : NumericFeature) (median score : F) :
    FeatureContribution F where
  feature := feature.name
  evidenceField := feature.evidenceField
  value := .number (window.numeric feature)
  reference := .number median
  score := score

/-- The rarity of a category among the peers, or in the history if there are none. -/
def rarityContribution (window : EndpointWindow F) (catalog : List (EndpointWindow F))
    (feature : CategoricalFeature) : FeatureContribution F :=
  let current := window.categorical feature
  let (rarity, _, count) := categoricalRarity current (catalog.map (·.categorical feature))
  { feature := feature.name
    evidenceField := feature.evidenceField
    value := .text current
    reference := .text s!"peer_count={count}"
    score := rarity }

/-- `catalog = peers if peers else history`. -/
def catalogOf (history peers : List (EndpointWindow F)) : List (EndpointWindow F) :=
  if peers.isEmpty then history else peers

/-- `(-item.score, item.feature)` comes strictly first. -/
def contributionBefore (a b : FeatureContribution F) : Bool :=
  if FloatOps.beq (-a.score) (-b.score) then decide (a.feature < b.feature)
  else FloatOps.lt (-a.score) (-b.score)

def sortContributions (items : List (FeatureContribution F)) : List (FeatureContribution F) :=
  items.insertionSort fun a b => contributionBefore b a = false

/-- `_contributions`. For a rate the larger of two scores counts: the distance from the median, or
the drift. -/
def baselineContributions (window : EndpointWindow F) (history peers : List (EndpointWindow F)) :
    List (FeatureContribution F) :=
  let numeric := NumericFeature.mad.map fun feature =>
    let series := history.map (·.numeric feature)
    let (median, mad) := medianMad series
    let value := window.numeric feature
    let score := FloatOps.max (FloatOps.abs (robustZ value median mad)) (pageHinkleyScore series value)
    numericContribution window feature median score
  let rarity := CategoricalFeature.rarity.map (rarityContribution window (catalogOf history peers))
  sortContributions (numeric ++ rarity)

/-- `str(value)`. -/
def FeatureValue.str : FeatureValue F → String
  | .number x => FloatOps.repr x
  | .text s => s

/-- The part of a reason that names one contribution. -/
def reasonPart (item : FeatureContribution F) : String :=
  match item.value, item.reference with
  | .number value, .number reference =>
    s!"{item.feature} is {FloatOps.fixed4 value} (trailing median {FloatOps.fixed4 reference})"
  | value, reference => s!"{item.feature} is {value.str} ({reference.str})"

/-- `build_reason`. -/
def buildReason (contributions : List (FeatureContribution F)) (lead : Option String := none) : String :=
  if contributions.isEmpty then "insufficient_history: session_count; field session.uid."
  else
    let cited := contributions.take 3
    let fields := Py.join ", " (Dict.fromKeys (cited.map (·.evidenceField)))
    let parts := Py.join "; " (cited.map reasonPart)
    let body := s!"{parts}; fields {fields}."
    match lead with
    | some lead => s!"{lead} {body}"
    | none => body

/-! ## Percentiles -/

/-- The scores that are ranked. -/
def WindowScore.isRanked (item : WindowScore F) : Bool := item.skipReason.isNone && !item.suppressed

/-- The share of a day's scores that are not above one of them. -/
def percentileOf (items : List (WindowScore F)) (item : WindowScore F) : F :=
  let ordered := sortedFloats (items.map (·.score))
  let rank := ordered.countP fun value => FloatOps.le value item.score
  100.0 * FloatOps.ofNat rank / FloatOps.ofNat ordered.length

/-- `percentile_map`. -/
def percentileMap (scores : List (WindowScore F)) : Dict (String × Nat) F :=
  let byDay := Dict.groupBy (·.dayIndex) (scores.filter (·.isRanked))
  Dict.ofList (fun entry : WindowScore F × F => (entry.1.endpointId, entry.1.dayIndex)) (·.2)
    (byDay.entries.flatMap fun day => day.2.map fun item => (item, percentileOf day.2 item))

/-- The score with its percentile, in view of all scores. -/
def withPercentile (scores : List (WindowScore F)) (item : WindowScore F) : WindowScore F :=
  { item with percentile := (percentileMap scores).get? (item.endpointId, item.dayIndex) }

/-! ## The scorer -/

/-- The windows of a `defaultdict`, each series sorted by day. -/
def seriesOf {κ : Type} [DecidableEq κ] (key : EndpointWindow F → κ) (windows : List (EndpointWindow F))
    (k : κ) : List (EndpointWindow F) :=
  (((Dict.groupBy key windows).get? k).getD []).insertionSort
    (SortKey.Before (compareOn (·.dayIndex)))

def cohortOf (window : EndpointWindow F) : String × String :=
  (window.siteId, window.protocolRole.value)

/-- The earlier windows of the endpoint. -/
def endpointHistory (windows : List (EndpointWindow F)) (window : EndpointWindow F) :
    List (EndpointWindow F) :=
  (seriesOf (·.endpointId) windows window.endpointId).filter (·.dayIndex < window.dayIndex)

/-- `_peer_history`. -/
def peerHistory (windows : List (EndpointWindow F)) (window : EndpointWindow F) :
    List (EndpointWindow F) :=
  (seriesOf cohortOf windows (cohortOf window)).filter (·.dayIndex < window.dayIndex)

/-- The score of a window that is not scored. -/
def suppressedScore (detector modelDigest : String) (window : EndpointWindow F) : WindowScore F where
  endpointId := window.endpointId
  dayIndex := window.dayIndex
  detector := detector
  score := 0.0
  threshold := zThreshold
  aboveThreshold := false
  suppressed := true
  contributions := []
  reason := "maintenance window suppressed; field session.explicit_upgrade.state."
  modelDigest := modelDigest

def skippedScore (detector modelDigest : String) (window : EndpointWindow F) (skip : String) :
    WindowScore F where
  endpointId := window.endpointId
  dayIndex := window.dayIndex
  detector := detector
  score := 0.0
  threshold := zThreshold
  aboveThreshold := false
  skipReason := some skip
  contributions := []
  reason := s!"{skip}: session_count; field session.uid."
  modelDigest := modelDigest

namespace BaselineAnomalyScorer

/-- The body of the loop over the windows. -/
def scoreWindow (windows : List (EndpointWindow F)) (window : EndpointWindow F) : WindowScore F :=
  let history := endpointHistory windows window
  if window.inMaintenance then suppressedScore "baseline" baselineModelDigest window
  else match skipReason window history with
  | some skip => skippedScore "baseline" baselineModelDigest window skip
  | none =>
    let contributions := baselineContributions window history (peerHistory windows window)
    let score :=
      match contributions.map (·.score) with
      | [] => 0.0
      | first :: rest => rest.foldl FloatOps.max first
    { endpointId := window.endpointId
      dayIndex := window.dayIndex
      detector := "baseline"
      score := score
      threshold := zThreshold
      aboveThreshold := FloatOps.le zThreshold score
      contributions := contributions.take 3
      reason := buildReason (contributions.take 3)
      modelDigest := baselineModelDigest }

/-- `BaselineAnomalyScorer.score_windows`. -/
def scoreWindows (windows : List (EndpointWindow F)) : List (WindowScore F) :=
  let scored := windows.map (scoreWindow windows)
  scored.map (withPercentile scored)

end BaselineAnomalyScorer

end Ml
end SecureMail
