import SecureMail.Evidence.Certificate
import SecureMail.Lib.Validation
import SecureMail.Ml.Ranking

/-!
# The evaluation of the detectors

A detector is judged by its precision, by how late it tells of the events that were injected, and by
how often it alerts where nothing was. The challenger is judged beside the baseline, with the delays
of the two together, and each comparison is a gate of the report.

Delays are counts of days, and everything that is computed of them or of the counts of alerts is a
double. The gates compare doubles, so a gate is no statement about a rate but one about a rounded
rate; what is proved of the gates below therefore rests on monotonicity, which rounding keeps, and
not on exact arithmetic.

The report and what it holds of each detector are models with checks on their fields. A record of
either type is one whose checks have passed (`Validated`). The copy of the challenger's evaluation
with the delays of both is made without a validation in the code; no check reads what is replaced, so
the copy is of that type all the same.
-/

namespace SecureMail
namespace Ml

open Py
open Fallible (Returns returns_bind)
open Validation (Validated Passes validate within within_iff passes_nil passes_cons
  returns_validate_iff val_of_validate)

def detectionDelayWindows : Nat := 2
def baselinePrecisionFloor : Py.Float := .ofRatio 60 100
def isolationForestPrecisionLift : Py.Float := .ofRatio 10 100
def p90DelaySlackWindows : Nat := 1
def alertRateRegressionFactor : Py.Float := .ofRatio 110 100

/-- `1e-12`. -/
def tolerance : Py.Float := .ofRatio 1 (10 ^ 12)

/-! ## Delays -/

/-- `event_id` to the number of days until the event was told of. -/
abbrev Delays := Dict String (Option Nat)

/-- `delays.get(event_id)`. -/
def Delays.delay (delays : Delays) (eventId : String) : Option Nat :=
  (delays.get? eventId).join

/-- The last score of each endpoint and day that was neither skipped nor suppressed. -/
def scoresByKey (scores : List (WindowScore ℚ)) : Dict (String × Nat) (WindowScore ℚ) :=
  Dict.ofList (fun item => (item.endpointId, item.dayIndex)) id (scores.filter (·.isRanked))

/-- The first of the days from the event on that the detector alerts on. -/
def detectionDelay (scores : List (WindowScore ℚ)) (maxDelay : Nat) (event : SeededEvent) :
    Option Nat :=
  (List.range (maxDelay + 1)).find? fun delay =>
    ((scoresByKey scores).get? (event.endpointId, event.startDay + delay)).any (·.aboveThreshold)

/-- `detection_delays`. -/
def detectionDelays (scores : List (WindowScore ℚ)) (labels : CohortLabels)
    (maxDelay : Nat := detectionDelayWindows) : Delays :=
  Dict.ofList (·.eventId) (detectionDelay scores maxDelay) labels.events

/-- `_delay_values`. -/
def delayValues (delays : Delays) : List Nat := delays.entries.filterMap (·.2)

/-- `float(statistics.median(values))`: the middle value, or the quotient of a sum by two. -/
def statisticsMedian (values : List Nat) : Result Py.Float :=
  let data := values.insertionSort (· ≤ ·)
  let n := data.length
  if n = 0 then throw .valueError
  else if n % 2 = 1 then
    match data[n / 2]? with
    | some middle => pure (.ofNat middle)
    | none => throw .indexError
  else
    match data[n / 2 - 1]?, data[n / 2]? with
    | some low, some high => pure (.ofRatio (low + high) 2)
    | _, _ => throw .indexError

/-- `median_delay`. -/
def medianDelay (delays : Delays) : Result (Option Py.Float) :=
  let values := delayValues delays
  if values = [] then pure none
  else do pure (some (← statisticsMedian values))

/-- `p90_delay`. -/
def p90Delay (delays : Delays) : Result (Option Py.Float) :=
  percentile ((delayValues delays).map .ofNat) (.ofRatio 90 100)

/-- `_univariate_ids`. -/
def univariateIds (labels : CohortLabels) : List String :=
  (labels.events.filter (·.kind = .univariate)).map (·.eventId)

/-- The delay of two detectors together, on one event. -/
def earlier (first second : Option Nat) : Option Nat :=
  match first, second with
  | none, second => second
  | some first, none => some first
  | some first, some second => some (min first second)

/-- `_merge_delays`. -/
def mergeDelays (left right : Delays) : Delays :=
  Dict.ofList id (fun eventId => earlier (left.delay eventId) (right.delay eventId))
    (left.keys ++ right.keys)

/-- `_subset_delays`. -/
def subsetDelays (delays : Delays) (eventIds : List String) : Delays :=
  Dict.ofList id delays.delay eventIds

/-! ## Alerts -/

/-- The endpoints and days of some episodes. -/
def daysOfEpisodes (episodes : List (String × Nat × Nat)) : List (String × Nat) :=
  episodes.flatMap fun (endpointId, startDay, endDay) =>
    (List.range' startDay (endDay + 1 - startDay)).map fun day => (endpointId, day)

/-- `labeled_days`. -/
def labeledDays (labels : CohortLabels) : List (String × Nat) :=
  daysOfEpisodes (labels.events.map fun event => (event.endpointId, event.startDay, event.endDay))

/-- `maintenance_days`. -/
def maintenanceDays (labels : CohortLabels) : List (String × Nat) :=
  daysOfEpisodes
    (labels.maintenance.map fun window => (window.endpointId, window.startDay, window.endDay))

/-- `_endpoint_day_population`. -/
def endpointDayPopulation (windows : List (EndpointWindow ℚ)) : List (String × Nat) :=
  (windows.filter fun item => isEvalDay item.dayIndex && !item.isNewEndpoint).map fun item =>
    (item.endpointId, item.dayIndex)

/-- The endpoints and days a detector alerts on. -/
def alertKeys (scores : List (WindowScore ℚ)) : List (String × Nat) :=
  (scores.filter fun item => item.aboveThreshold && item.isRanked).map fun item =>
    (item.endpointId, item.dayIndex)

/-- The counters of `alert_rates`. They are counts until the end, so that only the rates are
rounded. -/
structure AlertCounts where
  alerts : Nat := 0
  cleanAlerts : Nat := 0
  cleanDays : Nat := 0
  maintenanceAlerts : Nat := 0
  maintenancePop : Nat := 0
  newAlerts : Nat := 0

/-- One turn of the loop of `alert_rates`. A day in maintenance is counted apart, and a day that an
event was injected into is not counted as clean. -/
def AlertCounts.note (fired maintained labeled isNew : Bool) (counts : AlertCounts) : AlertCounts :=
  let counts := if fired then { counts with alerts := counts.alerts + 1 } else counts
  let counts :=
    if maintained then
      let counts := { counts with maintenancePop := counts.maintenancePop + 1 }
      if fired then { counts with maintenanceAlerts := counts.maintenanceAlerts + 1 } else counts
    else if !labeled then
      let counts := { counts with cleanDays := counts.cleanDays + 1 }
      if fired then { counts with cleanAlerts := counts.cleanAlerts + 1 } else counts
    else counts
  if isNew && fired then { counts with newAlerts := counts.newAlerts + 1 } else counts

def alertCounts (scores : List (WindowScore ℚ)) (population : List (String × Nat))
    (labels : CohortLabels) : AlertCounts :=
  population.foldl (fun counts key =>
    counts.note (key ∈ alertKeys scores) (key ∈ maintenanceDays labels) (key ∈ labeledDays labels)
      (key.1 ∈ labels.newEndpoints)) {}

/-- A rate, and 0 of an empty population. -/
def rateOf (count population : Nat) : Py.Float :=
  if population = 0 then .ofNat 0 else .ofRatio count population

/-- `1000.0 * alerts / len(population)`. The caller has returned before where the population is empty,
so that the quotient has a value. -/
def perThousand (alerts population : Nat) : Py.Float :=
  (((Py.Float.ofNat 1000).mul (.ofNat alerts)).div? (.ofNat population)).getD .nan

/-- `alert_rates`. Without a day to count over all rates are zero, and not undefined. -/
def alertRates (scores : List (WindowScore ℚ)) (windows : List (EndpointWindow ℚ))
    (labels : CohortLabels) : Py.Float × Py.Float × Py.Float × Nat :=
  let population := endpointDayPopulation windows
  if population = [] then (.ofNat 0, .ofNat 0, .ofNat 0, 0)
  else
    let counts := alertCounts scores population labels
    (perThousand counts.alerts population.length, rateOf counts.cleanAlerts counts.cleanDays,
      rateOf counts.maintenanceAlerts counts.maintenancePop, counts.newAlerts)

/-! ## The report -/

/-- What `DetectorEvaluation` is called with. -/
structure DetectorEvaluation where
  detector : String
  modelDigest : String
  precisionAtK : Py.Float
  k : Nat
  detectionDelays : Delays
  medianDelay : Option Py.Float
  p90Delay : Option Py.Float
  alertsPer1000EndpointDays : Py.Float
  cleanAlertRate : Py.Float
  maintenanceAlertRate : Py.Float
  newEndpointAlertCount : Nat
  rankedEndpointIds : List String

/-- A rate that is not negative. -/
def notNegative (rate : Py.Float) : Bool := (Py.Float.ofNat 0).le rate

def DetectorEvaluation.checks (evaluation : DetectorEvaluation) : List (Bool × Error) :=
  [(within 1 64 evaluation.detector, .validation "DetectorEvaluation" "detector"),
   (IsSha256Hex evaluation.modelDigest, .validation "DetectorEvaluation" "model_digest"),
   (notNegative evaluation.precisionAtK && evaluation.precisionAtK.le (.ofNat 1),
     .validation "DetectorEvaluation" "precision_at_k"),
   (1 ≤ evaluation.k, .validation "DetectorEvaluation" "k"),
   (notNegative evaluation.alertsPer1000EndpointDays,
     .validation "DetectorEvaluation" "alerts_per_1000_endpoint_days"),
   (notNegative evaluation.cleanAlertRate, .validation "DetectorEvaluation" "clean_alert_rate"),
   (notNegative evaluation.maintenanceAlertRate,
     .validation "DetectorEvaluation" "maintenance_alert_rate"),
   (evaluation.rankedEndpointIds.length ≤ 64,
     .validation "DetectorEvaluation" "ranked_endpoint_ids")]

/-- `summarize_detector`. New endpoints are left out of the precision, and their alerts are counted
apart. -/
def summarizeDetector (scores : List (WindowScore ℚ)) (windows : List (EndpointWindow ℚ))
    (labels : CohortLabels) (detector modelDigest : String) (k : Nat := topK) :
    Result (Validated DetectorEvaluation.checks) := do
  let (precision, ranked) := Ml.precisionAtK scores labels k labels.newEndpoints
  let delays := Ml.detectionDelays scores labels
  let (perThousand, cleanRate, maintenanceRate, newAlerts) := alertRates scores windows labels
  let median ← Ml.medianDelay delays
  let p90 ← Ml.p90Delay delays
  validate DetectorEvaluation.checks {
    detector := detector
    modelDigest := modelDigest
    precisionAtK := precision
    k := k
    detectionDelays := delays
    medianDelay := median
    p90Delay := p90
    alertsPer1000EndpointDays := perThousand
    cleanAlertRate := cleanRate
    maintenanceAlertRate := maintenanceRate
    newEndpointAlertCount := newAlerts
    rankedEndpointIds := ranked }

def nullDigest : String := String.ofList (List.replicate 64 '0')

/-- `null_scores`, with the numbers that are drawn. The fields that a score has of its window have
passed the same checks there. -/
def nullScores (draw : Nat → ℚ) (windows : List (EndpointWindow ℚ)) : List (WindowScore ℚ) :=
  windows.mapIdx fun i window => {
    endpointId := window.endpointId
    dayIndex := window.dayIndex
    detector := "null"
    score := draw i
    threshold := 1.1
    aboveThreshold := false
    suppressed := window.inMaintenance
    skipReason := none
    percentile := none
    contributions := []
    reason := "null ranking; not an advisory output"
    modelDigest := nullDigest
    featureSchemaVersion := featureSchemaVersion }

/-- `_delay_gate`. -/
def delayGate (baseline : DetectorEvaluation) (labels : CohortLabels) : Bool :=
  !(univariateIds labels).isEmpty && (univariateIds labels).all fun eventId =>
    match baseline.detectionDelays.delay eventId with
    | none => false
    | some delay => delay ≤ detectionDelayWindows

structure GateResults where
  baselinePrecisionFloor : Bool
  baselineBeatsNull : Bool
  detectionDelay : Bool
  challengerPrecisionLift : Bool
  liftCiExcludesZero : Bool
  medianDelayNoWorse : Bool
  p90DelayWithinSlack : Bool
  alertRateRegression : Bool

/-- `all_passed`. -/
def GateResults.allPassed (gates : GateResults) : Bool :=
  gates.baselinePrecisionFloor && gates.baselineBeatsNull && gates.detectionDelay &&
    gates.challengerPrecisionLift && gates.liftCiExcludesZero && gates.medianDelayNoWorse &&
    gates.p90DelayWithinSlack && gates.alertRateRegression

/-- What `EvaluationReport` is called with. -/
structure EvaluationReport where
  cohortId : String
  featureSchemaVersion : String := Ml.featureSchemaVersion
  nullDetector : Validated DetectorEvaluation.checks
  baseline : Validated DetectorEvaluation.checks
  challenger : Option (Validated DetectorEvaluation.checks)
  precisionLift : Option Py.Float
  liftCiLow : Option Py.Float
  liftCiHigh : Option Py.Float
  gates : GateResults

def EvaluationReport.checks (report : EvaluationReport) : List (Bool × Error) :=
  [(within 1 80 report.cohortId, .validation "EvaluationReport" "cohort_id"),
   (within 1 64 report.featureSchemaVersion,
     .validation "EvaluationReport" "feature_schema_version")]

/-- A delay is no worse than that of the baseline, with some slack. -/
def noWorse (base cand : Option Py.Float) (slack : Py.Float) : Bool :=
  match base, cand with
  | none, cand => cand.isNone
  | some _, none => false
  | some base, some cand => cand.le (base.add slack)

def rateNoWorse (base cand : Py.Float) : Bool :=
  cand.le ((base.mul alertRateRegressionFactor).add tolerance)

/-- What is computed where there is a challenger. -/
structure Challenge where
  evaluation : Validated DetectorEvaluation.checks
  lift : Py.Float
  ciLow : Py.Float
  ciHigh : Py.Float
  medianOk : Bool
  p90Ok : Bool

/-- `model_copy(update=...)` of the delays and what is computed of them. -/
def withDelays (evaluation : Validated DetectorEvaluation.checks) (delays : Delays)
    (median p90 : Option Py.Float) : Validated DetectorEvaluation.checks :=
  ⟨{ evaluation.val with detectionDelays := delays, medianDelay := median, p90Delay := p90 },
    evaluation.property⟩

def challengeOf (rng : Rng) (windows : List (EndpointWindow ℚ)) (labels : CohortLabels)
    (baseline challenger : List (WindowScore ℚ)) (baselineEval : DetectorEvaluation)
    (challengerDigest : String) : Except EvaluationError Challenge := do
  let challengerEval ← (summarizeDetector challenger windows labels "isolation_forest"
    challengerDigest).mapError .raised
  let lift := challengerEval.val.precisionAtK.sub baselineEval.precisionAtK
  let (_, ciLow, ciHigh) ←
    pairedBootstrapLift rng baseline challenger labels topK bootstrapSamples
  let fusedDelays := mergeDelays baselineEval.detectionDelays challengerEval.val.detectionDelays
  let univariate := univariateIds labels
  let baselineUniv := subsetDelays baselineEval.detectionDelays univariate
  let challengerUniv := subsetDelays fusedDelays univariate
  let baseMedian ← (medianDelay baselineUniv).mapError .raised
  let candMedian ← (medianDelay challengerUniv).mapError .raised
  let baseP90 ← (p90Delay baselineUniv).mapError .raised
  let candP90 ← (p90Delay challengerUniv).mapError .raised
  pure {
    evaluation := withDelays challengerEval fusedDelays candMedian candP90
    lift := lift
    ciLow := ciLow
    ciHigh := ciHigh
    medianOk := noWorse baseMedian candMedian tolerance
    p90Ok := noWorse baseP90 candP90 (.ofNat p90DelaySlackWindows) }

/-- The report, with its gates. Those that compare the challenger are closed without one. -/
def reportOf (labels : CohortLabels) (cohortId : String)
    (nullEval baselineEval : Validated DetectorEvaluation.checks) (challenge : Option Challenge) :
    EvaluationReport where
  cohortId := cohortId
  nullDetector := nullEval
  baseline := baselineEval
  challenger := challenge.map (·.evaluation)
  precisionLift := challenge.map (·.lift)
  liftCiLow := challenge.map (·.ciLow)
  liftCiHigh := challenge.map (·.ciHigh)
  gates := {
    baselinePrecisionFloor := baselinePrecisionFloor.le baselineEval.val.precisionAtK
    baselineBeatsNull :=
      (nullEval.val.precisionAtK.add tolerance).lt baselineEval.val.precisionAtK
    detectionDelay := delayGate baselineEval.val labels
    challengerPrecisionLift :=
      challenge.any fun c => (isolationForestPrecisionLift.sub tolerance).le c.lift
    liftCiExcludesZero := challenge.any fun c => (Py.Float.ofNat 0).lt c.ciLow
    medianDelayNoWorse := challenge.any (·.medianOk)
    p90DelayWithinSlack := challenge.any (·.p90Ok)
    alertRateRegression := challenge.any fun c =>
      rateNoWorse baselineEval.val.cleanAlertRate c.evaluation.val.cleanAlertRate &&
        rateNoWorse baselineEval.val.maintenanceAlertRate c.evaluation.val.maintenanceAlertRate }

/-- The challenge, where there is a challenger and its digest. -/
def challengeIfAny (rng : Rng) (windows : List (EndpointWindow ℚ)) (labels : CohortLabels)
    (baseline : List (WindowScore ℚ)) (challenger : Option (List (WindowScore ℚ)))
    (baselineEval : DetectorEvaluation) (challengerDigest : Option String) :
    Except EvaluationError (Option Challenge) :=
  match challenger, challengerDigest with
  | some challenger, some challengerDigest => do
    pure (some (← challengeOf rng windows labels baseline challenger baselineEval challengerDigest))
  | _, _ => pure none

/-- `compare_detectors`. The three detectors are evaluated on one population, and the challenger
only if there is one. -/
def compareDetectors (rng : Rng) (draw : Nat → ℚ) (windows : List (EndpointWindow ℚ))
    (labels : CohortLabels) (baseline : List (WindowScore ℚ))
    (challenger : Option (List (WindowScore ℚ))) (baselineDigest : String)
    (challengerDigest : Option String) (cohortId : String) :
    Except EvaluationError (Validated EvaluationReport.checks) := do
  let nullEval ← (summarizeDetector (nullScores draw windows) windows labels "null"
    nullDigest).mapError .raised
  let baselineEval ← (summarizeDetector baseline windows labels "baseline"
    baselineDigest).mapError .raised
  let challenge ← challengeIfAny rng windows labels baseline challenger baselineEval.val
    challengerDigest
  (validate EvaluationReport.checks (reportOf labels cohortId nullEval baselineEval
    challenge)).mapError .raised

/-! ## Tables of delays -/

section

variable {κ ν : Type} [DecidableEq κ] {f : κ → ν}

theorem setEntries_map (k : κ) : ∀ l : List (κ × Unit),
    Dict.setEntries k (f k) (l.map fun e => (e.1, f e.1)) =
      (Dict.setEntries k () l).map fun e => (e.1, f e.1)
  | [] => rfl
  | e :: rest => by
    by_cases he : e.1 = k
    · simp [Dict.setEntries, he]
    · simp [Dict.setEntries, he, setEntries_map k rest]

/-- A table by the keys themselves has its keys in the order of first occurrence. -/
theorem entries_ofList_id (f : κ → ν) (l : List κ) :
    (Dict.ofList id f l).entries = (Dict.fromKeys l).map fun k => (k, f k) := by
  have hentries : (Dict.ofList id f l).entries =
      (l.foldl (fun d k => d.set k ()) (∅ : Dict κ Unit)).entries.map fun e => (e.1, f e.1) := by
    induction l using List.reverseRecOn with
    | nil => rfl
    | append_singleton l k ih =>
      rw [Dict.ofList, List.foldl_append, List.foldl_append, List.foldl_cons, List.foldl_nil,
        List.foldl_cons, List.foldl_nil]
      show Dict.setEntries k (f k) (Dict.ofList id f l).entries = List.map _ (Dict.setEntries k () _)
      rw [ih, setEntries_map]
  rw [hentries, Dict.fromKeys, Dict.keys, List.map_map]
  rfl

theorem get?_ofList_id (f : κ → ν) {l : List κ} {k : κ} :
    (Dict.ofList id f l).get? k = if k ∈ l then some (f k) else none := by
  by_cases hk : k ∈ l
  · rw [if_pos hk]
    apply Dict.mem_entries_iff.mp
    rw [entries_ofList_id, List.mem_map]
    exact ⟨k, Dict.mem_fromKeys.mpr hk, rfl⟩
  · rw [if_neg hk]
    cases hget : (Dict.ofList id f l).get? k with
    | none => rfl
    | some v =>
      obtain ⟨k', hk', rfl, -⟩ := Dict.mem_of_get?_ofList hget
      exact absurd hk' hk

end

theorem delay_mergeDelays (left right : Delays) (eventId : String) :
    (mergeDelays left right).delay eventId =
      earlier (left.delay eventId) (right.delay eventId) := by
  rw [Delays.delay, mergeDelays, get?_ofList_id]
  split
  · rfl
  · rename_i hnot
    rw [List.mem_append, not_or, Dict.mem_keys_iff, Dict.mem_keys_iff, Bool.not_eq_true,
      Bool.not_eq_true, Option.isSome_eq_false_iff, Option.isSome_eq_false_iff,
      Option.isNone_iff_eq_none, Option.isNone_iff_eq_none] at hnot
    simp [Delays.delay, hnot.1, hnot.2, earlier]

/-- The delays of some events are those of a list of them, one each. -/
theorem delayValues_subsetDelays (delays : Delays) (eventIds : List String) :
    delayValues (subsetDelays delays eventIds) =
      (Dict.fromKeys eventIds).filterMap delays.delay := by
  rw [delayValues, subsetDelays, entries_ofList_id, List.filterMap_map]
  rfl

/-- Two detectors together are no later than the first on events the first tells of. -/
theorem earlier_le (first : Nat) (second : Option Nat) :
    ∃ d, earlier (some first) second = some d ∧ d ≤ first := by
  cases second with
  | none => exact ⟨first, rfl, le_rfl⟩
  | some second => exact ⟨min first second, rfl, min_le_left _ _⟩

theorem forall₂_filterMap {α β : Type} {R : β → β → Prop} {f g : α → Option β} :
    ∀ {l : List α}, (∀ a ∈ l, ∃ x y, f a = some x ∧ g a = some y ∧ R x y) →
      List.Forall₂ R (l.filterMap f) (l.filterMap g)
  | [], _ => .nil
  | a :: rest, h => by
    obtain ⟨x, y, hx, hy, hxy⟩ := h a List.mem_cons_self
    rw [List.filterMap_cons_some hx, List.filterMap_cons_some hy]
    exact .cons hxy (forall₂_filterMap fun b hb => h b (List.mem_cons_of_mem a hb))

/-- Where the baseline tells of every event, the delays of both are below its own one by one. -/
theorem fused_forall₂ {base : Delays} (other : Delays) {eventIds : List String}
    (h : ∀ eventId ∈ eventIds, (base.delay eventId).isSome) :
    List.Forall₂ (· ≤ ·) (delayValues (subsetDelays (mergeDelays base other) eventIds))
      (delayValues (subsetDelays base eventIds)) := by
  rw [delayValues_subsetDelays, delayValues_subsetDelays]
  apply forall₂_filterMap
  intro eventId hmem
  obtain ⟨first, hfirst⟩ := Option.isSome_iff_exists.mp (h eventId (Dict.mem_fromKeys.mp hmem))
  obtain ⟨d, hd, hle⟩ := earlier_le first (other.delay eventId)
  exact ⟨d, first, by rw [delay_mergeDelays, hfirst, hd], hfirst, hle⟩

/-! ## Medians -/

/-- The place of a sorted list, where it is on the list. -/
theorem sorted_place {values : List Nat} {i : Nat} (hi : i < values.length) :
    ∃ h : i < (values.insertionSort (· ≤ ·)).length,
      (values.insertionSort (· ≤ ·))[i]? = some (values.insertionSort (· ≤ ·))[i] := by
  have h : i < (values.insertionSort (· ≤ ·)).length := by rwa [List.length_insertionSort]
  exact ⟨h, List.getElem?_eq_getElem h⟩

/-- The median of small numbers is a double, and goes up with them. -/
theorem statisticsMedian_le {values other : List Nat} (hvalues : values ≠ [])
    (h : List.Forall₂ (· ≤ ·) values other) (hsmall : ∀ v ∈ other, v ≤ 2 ^ 52) :
    ∃ m m', statisticsMedian values = .ok m ∧ statisticsMedian other = .ok m' ∧
      m.Finite ∧ m'.Finite ∧ m.value ≤ m'.value := by
  have hlength := h.length_eq
  have hpos := List.length_pos_iff.mpr hvalues
  have hplace : ∀ i, i < values.length → ∃ x y, (values.insertionSort (· ≤ ·))[i]? = some x ∧
      (other.insertionSort (· ≤ ·))[i]? = some y ∧ x ≤ y ∧ y ≤ 2 ^ 52 := by
    intro i hi
    obtain ⟨hx, hgetx⟩ := sorted_place hi
    obtain ⟨hy, hgety⟩ := sorted_place (hlength ▸ hi : i < other.length)
    exact ⟨_, _, hgetx, hgety, OrderStatistics.sorted_le_of_forall₂ h hx hy,
      hsmall _ ((List.mem_insertionSort _).mp (List.getElem_mem hy))⟩
  have hne : values.length ≠ 0 := by omega
  simp only [statisticsMedian, List.length_insertionSort, ← hlength, if_neg hne]
  obtain ⟨high, high', hhigh, hhigh', hle, hbound⟩ := hplace (values.length / 2) (by omega)
  by_cases hodd : values.length % 2 = 1
  · simp only [if_pos hodd, hhigh, hhigh']
    obtain ⟨hfinite, hvalue⟩ := Py.Float.ofNat_exact (n := high) (by omega)
    obtain ⟨hfinite', hvalue'⟩ := Py.Float.ofNat_exact (n := high') (by omega)
    refine ⟨_, _, rfl, rfl, hfinite, hfinite', ?_⟩
    rw [hvalue, hvalue']
    exact_mod_cast hle
  · obtain ⟨low, low', hlow, hlow', hle', hbound'⟩ := hplace (values.length / 2 - 1) (by omega)
    simp only [if_neg hodd, hhigh, hhigh', hlow, hlow']
    obtain ⟨hfinite, hvalue⟩ := Py.Float.ofRatio_of_le (n := low + high) two_pos (by omega)
    obtain ⟨hfinite', hvalue'⟩ := Py.Float.ofRatio_of_le (n := low' + high') two_pos (by omega)
    refine ⟨_, _, rfl, rfl, hfinite, hfinite', ?_⟩
    rw [hvalue, hvalue']
    refine Py.Float.rounds.mono (div_le_div_of_nonneg_right ?_ (Nat.cast_nonneg 2))
    exact_mod_cast Nat.add_le_add hle' hle

theorem forall₂_refl {α : Type} {R : α → α → Prop} (hR : ∀ a, R a a) :
    ∀ l : List α, List.Forall₂ R l l
  | [] => .nil
  | a :: rest => .cons (hR a) (forall₂_refl hR rest)

theorem forall₂_imp_of_mem {α β : Type} {R S : α → β → Prop} :
    ∀ {l : List α} {l' : List β}, (∀ a b, a ∈ l → b ∈ l' → R a b → S a b) → List.Forall₂ R l l' →
      List.Forall₂ S l l'
  | _, _, _, .nil => .nil
  | _, _, h, .cons hab hrest =>
    .cons (h _ _ List.mem_cons_self List.mem_cons_self hab)
      (forall₂_imp_of_mem (fun a b ha hb => h a b (List.mem_cons_of_mem _ ha)
        (List.mem_cons_of_mem _ hb)) hrest)

/-! ## Tables of small delays -/

/-- The table has no more than sixty-four delays, and none that is longer than the window: as many as
there are events at the most, each told of while it is waited for. -/
structure Delays.Small (delays : Delays) : Prop where
  few : (delayValues delays).length ≤ 64
  within : ∀ eventId d, delays.delay eventId = some d → d ≤ detectionDelayWindows

theorem exists_delay {delays : Delays} {d : Nat} (h : d ∈ delayValues delays) :
    ∃ eventId, delays.delay eventId = some d := by
  obtain ⟨⟨eventId, delay⟩, hentry, hdelay⟩ := List.mem_filterMap.mp h
  refine ⟨eventId, ?_⟩
  rw [Delays.delay, Dict.mem_entries_iff.mp hentry]
  exact hdelay

theorem Delays.Small.value_le {delays : Delays} (h : delays.Small) {d : Nat}
    (hd : d ∈ delayValues delays) : d ≤ detectionDelayWindows := by
  obtain ⟨eventId, hdelay⟩ := exists_delay hd
  exact h.within eventId d hdelay

/-- A table has no more entries than it is made from. -/
theorem length_delayValues_ofList {α : Type} (key : α → String) (value : α → Option Nat)
    (l : List α) : (delayValues (Dict.ofList key value l)).length ≤ l.length := by
  have hsubset : (Dict.ofList key value l).keys ⊆ l.map key := by
    intro k hk
    obtain ⟨a, ha, hkey⟩ := Dict.mem_keys_ofList.mp hk
    exact List.mem_map.mpr ⟨a, ha, hkey⟩
  have hkeys := ((Dict.nodup_keys _).subperm hsubset).length_le
  rw [Dict.keys, List.length_map, List.length_map] at hkeys
  exact (List.length_filterMap_le _ _).trans hkeys

theorem small_detectionDelays (scores : List (WindowScore ℚ)) {labels : CohortLabels}
    (hevents : labels.events.length ≤ 64) : (detectionDelays scores labels).Small where
  few := (length_delayValues_ofList _ _ _).trans hevents
  within := by
    intro eventId d hdelay
    have hget := Option.join_eq_some_iff.mp hdelay
    obtain ⟨event, -, -, hfound⟩ := Dict.mem_of_get?_ofList hget
    have hday := List.mem_range.mp (List.mem_of_find?_eq_some hfound)
    exact Nat.le_of_lt_succ hday

theorem delay_subsetDelays {delays : Delays} {eventIds : List String} {eventId : String} {d : Nat}
    (h : (subsetDelays delays eventIds).delay eventId = some d) : delays.delay eventId = some d := by
  rw [Delays.delay, subsetDelays, get?_ofList_id] at h
  split at h
  · exact h
  · cases h

theorem earlier_eq_some {first second : Option Nat} {d : Nat} (h : earlier first second = some d) :
    first = some d ∨ second = some d := by
  cases first with
  | none => exact Or.inr h
  | some first =>
    cases second with
    | none => exact Or.inl h
    | some second =>
      obtain rfl := Option.some.inj h
      rcases min_choice first second with hmin | hmin
      · exact Or.inl (by rw [hmin])
      · exact Or.inr (by rw [hmin])

/-- The delays of some events are small where those of all are, and so are those of two tables
together. -/
theorem small_subsetDelays {delays : Delays} {eventIds : List String} (hfew : eventIds.length ≤ 64)
    (h : ∀ eventId d, delays.delay eventId = some d → d ≤ detectionDelayWindows) :
    (subsetDelays delays eventIds).Small where
  few := (length_delayValues_ofList _ _ _).trans hfew
  within := fun eventId d hdelay => h eventId d (delay_subsetDelays hdelay)

theorem within_mergeDelays {left right : Delays} (hleft : left.Small) (hright : right.Small)
    (eventId : String) (d : Nat) (h : (mergeDelays left right).delay eventId = some d) :
    d ≤ detectionDelayWindows := by
  rw [delay_mergeDelays] at h
  rcases earlier_eq_some h with h | h
  · exact hleft.within eventId d h
  · exact hright.within eventId d h

/-- The median of a table of small delays is read without an error, and so is its 90th percentile. -/
theorem medianDelay_ok {delays : Delays} (h : delays.Small) : ∃ m, medianDelay delays = .ok m := by
  by_cases hnil : delayValues delays = []
  · exact ⟨none, by simp only [medianDelay, if_pos hnil]; rfl⟩
  · obtain ⟨m, -, hm, -⟩ := statisticsMedian_le hnil (forall₂_refl Nat.le_refl _)
      (fun v hv => (h.value_le hv).trans (by decide))
    exact ⟨some m, by simp only [medianDelay, if_neg hnil, hm]; rfl⟩

/-- The doubles of small delays. -/
theorem Delays.Small.ofNat_exact {delays : Delays} (h : delays.Small) :
    ∀ x ∈ (delayValues delays).map Py.Float.ofNat, x.Finite ∧ |x.value| ≤ 2 := by
  intro x hx
  obtain ⟨d, hd, rfl⟩ := List.mem_map.mp hx
  have hle : d ≤ 2 := h.value_le hd
  obtain ⟨hfinite, hvalue⟩ := Py.Float.ofNat_exact (n := d) (hle.trans (by norm_num))
  rw [hvalue, Nat.abs_cast]
  exact ⟨hfinite, by exact_mod_cast hle⟩

theorem room_two : 2 + roundoff 2 < Py.Float.overflow := room_of_le (by norm_num)

theorem p90_le {values other : Delays} (hvalues : values.Small) (hother : other.Small)
    (h : List.Forall₂ (· ≤ ·) (delayValues values) (delayValues other))
    (hnil : delayValues values ≠ []) :
    ∃ p p', p90Delay values = .ok (some p) ∧ p90Delay other = .ok (some p') ∧
      p.Finite ∧ p'.Finite ∧ p.value ≤ p'.value := by
  obtain ⟨hshare, h0, h1⟩ :=
    Py.Float.ofRatio_mem_Icc (n := 90) (d := 100) (by norm_num) (by norm_num)
  refine percentile_le_of_forall₂ ?_ (by simpa using hnil) ?_ hshare h0 h1 room_two
    hvalues.ofNat_exact hother.ofNat_exact
  · rw [List.forall₂_map_left_iff, List.forall₂_map_right_iff]
    refine forall₂_imp_of_mem (fun d d' hd hd' hle => ?_) h
    rw [(Py.Float.ofNat_exact ((hvalues.value_le hd).trans (by decide))).2,
      (Py.Float.ofNat_exact ((hother.value_le hd').trans (by decide))).2]
    exact_mod_cast hle
  · rw [List.length_map]
    exact hvalues.few.trans (by norm_num)

theorem p90Delay_ok {delays : Delays} (h : delays.Small) : ∃ p, p90Delay delays = .ok p := by
  by_cases hnil : delayValues delays = []
  · exact ⟨none, by simp only [p90Delay, hnil]; rfl⟩
  · obtain ⟨p, -, hp, -⟩ := p90_le h h (forall₂_refl Nat.le_refl _) hnil
    exact ⟨some p, hp⟩

theorem noWorse_of_le {base cand slack : Py.Float} (hbase : base.Finite) (hcand : cand.Finite)
    (hslack : slack.Finite) (hnonneg : 0 ≤ slack.value) (h : cand.value ≤ base.value) :
    noWorse (some base) (some cand) slack = true :=
  Py.Float.le_add_right hcand hbase hslack hnonneg h

/-- **Where the baseline tells of every event, the two together are no worse.** An event that the
baseline misses adds a delay to the list, and that can be a long one. -/
theorem noWorse_of_forall₂ {base cand : Delays} (hbase : base.Small) (hcand : cand.Small)
    (h : List.Forall₂ (· ≤ ·) (delayValues cand) (delayValues base)) :
    ∃ baseMedian candMedian baseP90 candP90, medianDelay base = .ok baseMedian ∧
      medianDelay cand = .ok candMedian ∧ p90Delay base = .ok baseP90 ∧
      p90Delay cand = .ok candP90 ∧ noWorse baseMedian candMedian tolerance = true ∧
      noWorse baseP90 candP90 (.ofNat p90DelaySlackWindows) = true := by
  by_cases hnil : delayValues cand = []
  · have hnil' : delayValues base = [] := by
      rw [hnil] at h
      exact List.forall₂_nil_left_iff.mp h
    exact ⟨none, none, none, none, by simp only [medianDelay, if_pos hnil']; rfl,
      by simp only [medianDelay, if_pos hnil]; rfl, by simp only [p90Delay, hnil']; rfl,
      by simp only [p90Delay, hnil]; rfl, rfl, rfl⟩
  · have hnil' : delayValues base ≠ [] := by
      intro hbase
      rw [hbase] at h
      exact hnil (List.forall₂_nil_right_iff.mp h)
    obtain ⟨m, m', hm, hm', hfinite, hfinite', hle⟩ := statisticsMedian_le hnil h
      (fun v hv => (hbase.value_le hv).trans (by decide))
    obtain ⟨p, p', hp, hp', hpfinite, hpfinite', hple⟩ := p90_le hcand hbase h hnil
    obtain ⟨htolerance, htolerance0, -⟩ :=
      Py.Float.ofRatio_mem_Icc (n := 1) (d := 1000000000000) (by norm_num) (by norm_num)
    obtain ⟨hslack, hslackValue⟩ := Py.Float.ofNat_exact (n := p90DelaySlackWindows) (by decide)
    exact ⟨some m', some m, some p', some p, by simp only [medianDelay, if_neg hnil', hm']; rfl,
      by simp only [medianDelay, if_neg hnil, hm]; rfl, hp', hp,
      noWorse_of_le hfinite' hfinite htolerance htolerance0 hle,
      noWorse_of_le hpfinite' hpfinite hslack (hslackValue ▸ Nat.cast_nonneg _) hple⟩

/-! ## The alerts counted -/

theorem population_le {windows : List (EndpointWindow ℚ)} (hwindows : windows.length ≤ 2 ^ 53) :
    (endpointDayPopulation windows).length ≤ 2 ^ 53 := by
  rw [endpointDayPopulation, List.length_map]
  exact (List.length_filter_le _ _).trans hwindows

/-- The counters are those of the days that fired, that were clean and that were maintained. -/
theorem alertCounts_eq (scores : List (WindowScore ℚ)) (population : List (String × Nat))
    (labels : CohortLabels) :
    alertCounts scores population labels =
      { alerts := population.countP (· ∈ alertKeys scores)
        cleanAlerts := population.countP fun key => key ∈ alertKeys scores ∧
          key ∉ maintenanceDays labels ∧ key ∉ labeledDays labels
        cleanDays := population.countP fun key =>
          key ∉ maintenanceDays labels ∧ key ∉ labeledDays labels
        maintenanceAlerts := population.countP fun key =>
          key ∈ alertKeys scores ∧ key ∈ maintenanceDays labels
        maintenancePop := population.countP (· ∈ maintenanceDays labels)
        newAlerts := population.countP fun key =>
          key ∈ alertKeys scores ∧ key.1 ∈ labels.newEndpoints } := by
  induction population using List.reverseRecOn with
  | nil => rfl
  | append_singleton population key ih =>
    rw [alertCounts] at ih ⊢
    rw [List.foldl_append, List.foldl_cons, List.foldl_nil, ih]
    simp only [List.countP_append, List.countP_singleton]
    by_cases hfired : key ∈ alertKeys scores <;> by_cases hmaintained : key ∈ maintenanceDays labels <;>
      by_cases hlabeled : key ∈ labeledDays labels <;>
      by_cases hnew : key.1 ∈ labels.newEndpoints <;>
      simp [AlertCounts.note, hfired, hmaintained, hlabeled, hnew]

/-- A detector that alerts on nothing has no rates. -/
theorem alertRates_of_silent {scores : List (WindowScore ℚ)} (h : alertKeys scores = [])
    {windows : List (EndpointWindow ℚ)} (hwindows : windows.length ≤ 2 ^ 53) (labels : CohortLabels) :
    (alertRates scores windows labels).1.IsZero ∧ (alertRates scores windows labels).2.1.IsZero ∧
      (alertRates scores windows labels).2.2.1.IsZero ∧
      (alertRates scores windows labels).2.2.2 = 0 := by
  have hzero := Py.Float.isZero_ofNat_zero
  have hrate : ∀ n, (rateOf 0 n).IsZero := by
    intro n
    rw [rateOf, Py.Float.ofRatio_zero, ite_self]
    exact hzero
  unfold alertRates
  by_cases hnil : endpointDayPopulation windows = []
  · simp only [hnil, if_true]
    exact ⟨hzero, hzero, hzero, trivial⟩
  · simp only [if_neg hnil, alertCounts_eq, h]
    simp only [List.not_mem_nil, decide_false, List.countP_false, Function.const_apply, false_and]
    refine ⟨?_, hrate _, hrate _, trivial⟩
    have hproduct : (Py.Float.ofNat 1000).mul (.ofNat 0) = .ofNat 0 := by decide +kernel
    obtain ⟨r, hr, hrzero⟩ := Py.Float.zero_div?
      (Py.Float.finite_ofNat (population_le hwindows) (by norm_num))
      (Py.Float.ofNat_ne_zero (List.length_pos_iff.mpr hnil))
    rw [perThousand, hproduct, hr]
    exact hrzero

/-- The rates are not negative. -/
theorem notNegative_ofRatio (n d : Nat) : notNegative (.ofRatio n d) = true := by
  unfold notNegative Py.Float.ofRatio
  exact Py.Float.isZero_le_nearest Py.Float.isZero_ofNat_zero _ _

theorem notNegative_zero : notNegative (.ofNat 0) = true :=
  Py.Float.ofRatio_zero 1 ▸ notNegative_ofRatio 0 1

theorem notNegative_rateOf (n d : Nat) : notNegative (rateOf n d) = true := by
  unfold rateOf
  split
  · exact notNegative_zero
  · exact notNegative_ofRatio n d

theorem notNegative_perThousand {alerts population : Nat} (halerts : alerts ≤ 2 ^ 53)
    (hpos : 0 < population) (hpopulation : population ≤ 2 ^ 53) :
    notNegative (perThousand alerts population) = true := by
  obtain ⟨hthousand, hvalue⟩ := Py.Float.ofNat_exact (n := 1000) (by norm_num)
  obtain ⟨hcount, hvalue'⟩ := Py.Float.ofNat_exact halerts
  obtain ⟨hwhole, hvalue''⟩ := Py.Float.ofNat_exact hpopulation
  have hzero := Py.Float.isZero_iff.mp Py.Float.isZero_ofNat_zero
  have hlarge : (0 : ℚ) ≤ 1000 * alerts ∧ (1000 * alerts : ℚ) ≤ 2 ^ 63 := by
    have hle : (alerts : ℚ) ≤ 2 ^ 53 := by exact_mod_cast halerts
    constructor
    · exact mul_nonneg (by norm_num) (Nat.cast_nonneg alerts)
    · calc (1000 * alerts : ℚ) ≤ 1000 * 2 ^ 53 := mul_le_mul_of_nonneg_left hle (by norm_num)
        _ ≤ 2 ^ 63 := by norm_num
  -- The product is a double of its size, and the quotient is no larger.
  have hproduct := Py.Float.nearest_mul hthousand hcount
  rw [hvalue, hvalue', Nat.cast_ofNat] at hproduct
  obtain ⟨hfinite, hrounded⟩ := hproduct.finite_of_abs_le (Py.Float.inFormat_two_pow 63)
    (by rw [abs_of_nonneg hlarge.1]; exact hlarge.2) (Py.Float.two_pow_lt_overflow (by norm_num))
  have hsize : 0 ≤ ((Py.Float.ofNat 1000).mul (.ofNat alerts)).value ∧
      ((Py.Float.ofNat 1000).mul (.ofNat alerts)).value ≤ 2 ^ 63 := by
    have hlow := Py.Float.rounds.mono hlarge.1
    have hhigh := Py.Float.rounds.mono hlarge.2
    rw [Py.Float.rounds.zero] at hlow
    rw [Py.Float.rounded_of_inFormat (Py.Float.inFormat_two_pow 63)] at hhigh
    rw [hrounded]
    exact ⟨hlow, hhigh⟩
  obtain ⟨r, hr, hnearest⟩ := Py.Float.nearest_div hfinite hwhole (Py.Float.ofNat_ne_zero hpos)
  rw [hvalue''] at hnearest
  have hquotient : 0 ≤ ((Py.Float.ofNat 1000).mul (.ofNat alerts)).value / (population : ℚ) ∧
      ((Py.Float.ofNat 1000).mul (.ofNat alerts)).value / (population : ℚ) ≤ 2 ^ 63 :=
    ⟨div_nonneg hsize.1 (Nat.cast_nonneg _),
      (div_le_self hsize.1 (by exact_mod_cast hpos)).trans hsize.2⟩
  obtain ⟨hdone, hresult⟩ := hnearest.finite_of_abs_le (Py.Float.inFormat_two_pow 63)
    (by rw [abs_of_nonneg hquotient.1]; exact hquotient.2)
    (Py.Float.two_pow_lt_overflow (by norm_num))
  have hlow := Py.Float.rounds.mono hquotient.1
  rw [Py.Float.rounds.zero] at hlow
  rw [notNegative, perThousand, hr, Option.getD_some, Py.Float.le_iff_value hzero.1 hdone, hzero.2,
    hresult]
  exact hlow

theorem notNegative_alertRates (scores : List (WindowScore ℚ)) {windows : List (EndpointWindow ℚ)}
    (hwindows : windows.length ≤ 2 ^ 53) (labels : CohortLabels) :
    notNegative (alertRates scores windows labels).1 = true ∧
      notNegative (alertRates scores windows labels).2.1 = true ∧
      notNegative (alertRates scores windows labels).2.2.1 = true := by
  unfold alertRates
  by_cases hnil : endpointDayPopulation windows = []
  · simp only [hnil, if_true]
    exact ⟨notNegative_zero, notNegative_zero, notNegative_zero⟩
  · simp only [if_neg hnil]
    have hpopulation := population_le hwindows
    refine ⟨notNegative_perThousand ?_ (List.length_pos_iff.mpr hnil) hpopulation,
      notNegative_rateOf _ _, notNegative_rateOf _ _⟩
    rw [alertCounts_eq]
    exact List.countP_le_length.trans hpopulation

theorem alertKeys_nullScores (draw : Nat → ℚ) (windows : List (EndpointWindow ℚ)) :
    alertKeys (nullScores draw windows) = [] := by
  have hnone : (nullScores draw windows).filter
      (fun item => item.aboveThreshold && item.isRanked) = [] := by
    apply List.filter_eq_nil_iff.mpr
    intro item hitem
    obtain ⟨i, hi, rfl⟩ := List.mem_mapIdx.mp hitem
    simp
  rw [alertKeys, hnone, List.map_nil]

/-! ## The gates -/

theorem delayGate_iff {baseline : DetectorEvaluation} {labels : CohortLabels} :
    delayGate baseline labels = true ↔ univariateIds labels ≠ [] ∧
      ∀ eventId ∈ univariateIds labels, ∃ delay,
        baseline.detectionDelays.delay eventId = some delay ∧ delay ≤ detectionDelayWindows := by
  rw [delayGate, Bool.and_eq_true, Bool.not_eq_true', List.isEmpty_eq_false_iff, List.all_eq_true]
  refine and_congr_right fun _ => forall₂_congr fun eventId _ => ?_
  cases baseline.detectionDelays.delay eventId <;> simp

/-- What is computed of the ranking passes the checks. -/
theorem precisionAtK_passes (scores : List (WindowScore ℚ)) (labels : CohortLabels) :
    (notNegative (precisionAtK scores labels topK labels.newEndpoints).1 &&
        (precisionAtK scores labels topK labels.newEndpoints).1.le (.ofNat 1)) = true ∧
      (precisionAtK scores labels topK labels.newEndpoints).2.length ≤ 64 := by
  have hlength : ((rankedIds scores labels.newEndpoints).take topK).length ≤ topK :=
    List.length_take_le _ _
  have hhits : ((rankedIds scores labels.newEndpoints).take topK).countP
      (· ∈ trueEventEndpoints labels) ≤ topK := List.countP_le_length.trans hlength
  obtain ⟨hfinite, -, hle⟩ := Py.Float.ofRatio_mem_Icc (show 0 < topK by decide) hhits
  obtain ⟨hone, hvalue⟩ := Py.Float.ofNat_exact (n := 1) (by norm_num)
  rw [precisionAtK_eq, notNegative_ofRatio, Bool.true_and, Py.Float.le_iff_value hfinite hone, hvalue]
  exact ⟨by exact_mod_cast hle, hlength.trans (by decide)⟩

/-- The evaluation of a detector is computed, and then validated. Of its checks only that of the
digest can fail, which is given by the caller. -/
theorem summarizeDetector_eq (scores : List (WindowScore ℚ)) {windows : List (EndpointWindow ℚ)}
    {labels : CohortLabels} (hwindows : windows.length ≤ 2 ^ 53)
    (hevents : labels.events.length ≤ 64) (detector modelDigest : String)
    (hdetector : within 1 64 detector = true) :
    ∃ evaluation : DetectorEvaluation,
      summarizeDetector scores windows labels detector modelDigest =
        validate DetectorEvaluation.checks evaluation ∧
      (Passes evaluation.checks ↔ IsSha256Hex modelDigest) ∧
      evaluation.detectionDelays = detectionDelays scores labels ∧
      alertRates scores windows labels = (evaluation.alertsPer1000EndpointDays,
        evaluation.cleanAlertRate, evaluation.maintenanceAlertRate,
        evaluation.newEndpointAlertCount) := by
  have hsmall := small_detectionDelays scores hevents
  obtain ⟨median, hmedian⟩ := medianDelay_ok hsmall
  obtain ⟨p90, hp90⟩ := p90Delay_ok hsmall
  refine ⟨_, by simp only [summarizeDetector, hmedian, hp90]; rfl, ?_, rfl, rfl⟩
  obtain ⟨hthousand, hclean, hmaintenance⟩ := notNegative_alertRates scores hwindows labels
  obtain ⟨hprecision, hranked⟩ := precisionAtK_passes scores labels
  simp only [DetectorEvaluation.checks, passes_cons, passes_nil, hdetector, hthousand, hclean,
    hmaintenance, hprecision, hranked, decide_eq_true_iff, and_true, true_and]
  exact ⟨fun h => h.1, fun h => ⟨h, by decide⟩⟩

/-! ## Both detectors -/

/-- The detector alerts on an endpoint on a day: by the last of its scores there, of those that were
neither skipped nor suppressed. -/
def AlertsOn (scores : List (WindowScore ℚ)) (endpointId : String) (day : Nat) : Prop :=
  ∃ item, (scores.filter fun item => item.isRanked && item.endpointId = endpointId &&
    item.dayIndex = day).getLast? = some item ∧ item.aboveThreshold = true

theorem alertsOn_iff {scores : List (WindowScore ℚ)} {endpointId : String} {day : Nat} :
    ((scoresByKey scores).get? (endpointId, day)).any (·.aboveThreshold) = true ↔
      AlertsOn scores endpointId day := by
  have hfilter : (scores.filter (·.isRanked)).filter
      (fun item => (item.endpointId, item.dayIndex) = (endpointId, day)) =
        scores.filter fun item => item.isRanked && item.endpointId = endpointId &&
          item.dayIndex = day := by
    rw [List.filter_filter]
    refine List.filter_congr fun item _ => ?_
    cases item.isRanked <;> simp
  rw [scoresByKey, Dict.get?_ofList, hfilter, Option.map_id, id, Option.any_eq_true]
  rfl

instance (scores : List (WindowScore ℚ)) (endpointId : String) (day : Nat) :
    Decidable (AlertsOn scores endpointId day) :=
  decidable_of_iff _ alertsOn_iff

/-- Of the events with one id, a table of delays has the last. -/
theorem delay_detectionDelays {scores : List (WindowScore ℚ)} {labels : CohortLabels}
    {event : SeededEvent} {eventId : String}
    (hlast : (labels.events.filter (·.eventId = eventId)).getLast? = some event) :
    (detectionDelays scores labels).delay eventId =
      detectionDelay scores detectionDelayWindows event := by
  rw [Delays.delay, detectionDelays, Dict.get?_ofList, hlast]
  rfl

/-- The earlier of the first days of two predicates is the first day of either. -/
theorem earlier_find? (p q : Nat → Bool) (n : Nat) :
    earlier ((List.range n).find? p) ((List.range n).find? q) =
      (List.range n).find? fun day => p day || q day := by
  cases hp : (List.range n).find? p with
  | none =>
    have hnot : ∀ day ∈ List.range n, (p day || q day) = q day := by
      intro day hday
      have hday' : p day = false := by
        simpa using List.find?_range_eq_none.mp hp day (List.mem_range.mp hday)
      rw [hday', Bool.false_or]
    rw [← List.head?_filter, ← List.head?_filter, List.filter_congr hnot]
    rfl
  | some first =>
    obtain ⟨hfirst, hmem, hbefore⟩ := List.find?_range_eq_some.mp hp
    cases hq : (List.range n).find? q with
    | none =>
      rw [List.find?_range_eq_none] at hq
      refine (List.find?_range_eq_some.mpr ⟨by simp [hfirst], hmem, ?_⟩).symm
      intro day hday
      rw [Bool.not_or, hbefore day hday, hq day (hday.trans (List.mem_range.mp hmem))]
      rfl
    | some second =>
      obtain ⟨hsecond, hmem', hbefore'⟩ := List.find?_range_eq_some.mp hq
      refine (List.find?_range_eq_some.mpr ⟨?_, ?_, ?_⟩).symm
      · rcases min_choice first second with h | h <;> simp [h, hfirst, hsecond]
      · rcases min_choice first second with h | h <;> rw [h] <;> assumption
      · intro day hday
        rw [Bool.not_or, hbefore day (lt_of_lt_of_le hday (min_le_left _ _)),
          hbefore' day (lt_of_lt_of_le hday (min_le_right _ _))]
        rfl

/-- **The delay of two detectors together is that of one that alerts where either does.** So two
detectors are judged as one, without a run of a third. -/
theorem fused_delay_iff {baseline challenger : List (WindowScore ℚ)} {labels : CohortLabels}
    {event : SeededEvent} {eventId : String}
    (hlast : (labels.events.filter (·.eventId = eventId)).getLast? = some event) (delay : Nat) :
    (mergeDelays (detectionDelays baseline labels) (detectionDelays challenger labels)).delay
        eventId = some delay ↔
      (AlertsOn baseline event.endpointId (event.startDay + delay) ∨
          AlertsOn challenger event.endpointId (event.startDay + delay)) ∧
        delay ≤ detectionDelayWindows ∧
        ∀ earlier < delay, ¬(AlertsOn baseline event.endpointId (event.startDay + earlier) ∨
          AlertsOn challenger event.endpointId (event.startDay + earlier)) := by
  rw [delay_mergeDelays, delay_detectionDelays hlast, delay_detectionDelays hlast, detectionDelay,
    detectionDelay, earlier_find?, List.find?_range_eq_some]
  simp only [Bool.or_eq_true, alertsOn_iff, List.mem_range, Nat.lt_succ_iff, Bool.not_eq_true',
    ← Bool.not_eq_true]

/-- An event of the day before the scores of `twoScores`. -/
def lateEvent : SeededEvent := ⟨"e", .univariate, "b", 29, 29⟩

theorem fused_delay_iff_of_two :
    (mergeDelays (detectionDelays (twoScores 0 2) { events := [lateEvent] })
      (detectionDelays (twoScores 2 0) { events := [lateEvent] })).delay "e" = some 1 :=
  (@fused_delay_iff (twoScores 0 2) (twoScores 2 0) { events := [lateEvent] } lateEvent "e" rfl
    1).mpr (by decide +kernel)

/-! ## The comparison -/

/-- A challenge is computed where the digest of the challenger passes its check, and where the
baseline tells of every univariate event in time, the two detectors together are no worse. -/
theorem challengeOf_eq (rng : Rng) {windows : List (EndpointWindow ℚ)} {labels : CohortLabels}
    (hwindows : windows.length ≤ 2 ^ 53) (hevents : labels.events.length ≤ 64)
    (baseline challenger : List (WindowScore ℚ)) {baselineEval : DetectorEvaluation}
    (hbaseline : baselineEval.detectionDelays = detectionDelays baseline labels)
    (challengerDigest : String) :
    (Returns (challengeOf rng windows labels baseline challenger baselineEval challengerDigest) ↔
        IsSha256Hex challengerDigest) ∧
      ∀ c, challengeOf rng windows labels baseline challenger baselineEval challengerDigest = .ok c →
        delayGate baselineEval labels = true → c.medianOk = true ∧ c.p90Ok = true := by
  obtain ⟨evaluation, heval, hpasses, hdelays, -⟩ := summarizeDetector_eq challenger hwindows hevents
    "isolation_forest" challengerDigest (by decide)
  obtain ⟨lift, hlift⟩ := pairedBootstrapLift_ok rng baseline challenger labels
    (show 0 < topK by decide) (show 0 < bootstrapSamples by decide) (by decide)
  have hfew : (univariateIds labels).length ≤ 64 := by
    rw [univariateIds, List.length_map]
    exact (List.length_filter_le _ _).trans hevents
  have hsmall := small_detectionDelays baseline hevents
  have hsmall' := small_detectionDelays challenger hevents
  have hbase : (subsetDelays baselineEval.detectionDelays (univariateIds labels)).Small :=
    small_subsetDelays hfew (hbaseline ▸ hsmall.within)
  have hcand : (subsetDelays (mergeDelays baselineEval.detectionDelays evaluation.detectionDelays)
      (univariateIds labels)).Small := by
    rw [hbaseline, hdelays]
    exact small_subsetDelays hfew (within_mergeDelays hsmall hsmall')
  obtain ⟨baseMedian, hbm⟩ := medianDelay_ok hbase
  obtain ⟨candMedian, hcm⟩ := medianDelay_ok hcand
  obtain ⟨baseP90, hbp⟩ := p90Delay_ok hbase
  obtain ⟨candP90, hcp⟩ := p90Delay_ok hcand
  have hdigest : Returns (challengeOf rng windows labels baseline challenger baselineEval
      challengerDigest) → Passes evaluation.checks := by
    rintro ⟨c, hc⟩
    unfold challengeOf at hc
    rw [heval] at hc
    obtain ⟨e, he, -⟩ := Fallible.bind_eq_ok.mp hc
    exact returns_validate_iff.mp ⟨e, Fallible.mapError_eq_ok.mp he⟩
  have hcomputed : ∀ hpassed : Passes evaluation.checks,
      challengeOf rng windows labels baseline challenger baselineEval challengerDigest = .ok {
        evaluation := withDelays ⟨evaluation, hpassed⟩
          (mergeDelays baselineEval.detectionDelays evaluation.detectionDelays) candMedian candP90
        lift := evaluation.precisionAtK.sub baselineEval.precisionAtK
        ciLow := lift.2.1
        ciHigh := lift.2.2
        medianOk := noWorse baseMedian candMedian tolerance
        p90Ok := noWorse baseP90 candP90 (.ofNat p90DelaySlackWindows) } := by
    intro hpassed
    simp only [challengeOf, heval, Validation.validate_of_passes hpassed, hlift, hbm, hcm, hbp, hcp,
      Except.mapError, bind, Except.bind]
    rfl
  refine ⟨⟨fun h => hpasses.mp (hdigest h), fun h => ⟨_, hcomputed (hpasses.mpr h)⟩⟩, ?_⟩
  intro c hc hgate
  have hpassed := hdigest ⟨c, hc⟩
  rw [hcomputed hpassed] at hc
  obtain rfl := Except.ok.inj hc
  have hall : ∀ eventId ∈ univariateIds labels,
      (baselineEval.detectionDelays.delay eventId).isSome := by
    intro eventId hmem
    obtain ⟨delay, hdelay, -⟩ := (delayGate_iff.mp hgate).2 eventId hmem
    rw [hdelay]
    rfl
  obtain ⟨bm, cm, bp, cp, hbm', hcm', hbp', hcp', hmedian, hp90⟩ := noWorse_of_forall₂ hbase hcand
    (fused_forall₂ evaluation.detectionDelays hall)
  rw [hbm] at hbm'
  rw [hcm] at hcm'
  rw [hbp] at hbp'
  rw [hcp] at hcp'
  cases hbm'
  cases hcm'
  cases hbp'
  cases hcp'
  exact ⟨hmedian, hp90⟩

theorem challengeIfAny_eq (rng : Rng) {windows : List (EndpointWindow ℚ)} {labels : CohortLabels}
    (hwindows : windows.length ≤ 2 ^ 53) (hevents : labels.events.length ≤ 64)
    (baseline : List (WindowScore ℚ)) (challenger : Option (List (WindowScore ℚ)))
    {baselineEval : DetectorEvaluation}
    (hbaseline : baselineEval.detectionDelays = detectionDelays baseline labels)
    (challengerDigest : Option String) :
    (Returns (challengeIfAny rng windows labels baseline challenger baselineEval challengerDigest) ↔
        (challenger.isSome = true → ∀ digest ∈ challengerDigest, IsSha256Hex digest)) ∧
      ∀ challenge, challengeIfAny rng windows labels baseline challenger baselineEval
          challengerDigest = .ok challenge →
        ∀ c ∈ challenge, delayGate baselineEval labels = true → c.medianOk = true ∧ c.p90Ok = true := by
  cases challenger with
  | none =>
    refine ⟨⟨fun _ h => absurd h (by decide), fun _ => ⟨none, rfl⟩⟩, ?_⟩
    intro challenge hchallenge c hc
    cases hchallenge
    cases hc
  | some challenger =>
    cases challengerDigest with
    | none =>
      refine ⟨⟨fun _ _ digest h => absurd h (Option.not_mem_none digest), fun _ => ⟨none, rfl⟩⟩, ?_⟩
      intro challenge hchallenge c hc
      cases hchallenge
      cases hc
    | some challengerDigest =>
      obtain ⟨hreturns, hgates⟩ := challengeOf_eq rng hwindows hevents baseline challenger hbaseline
        challengerDigest
      unfold challengeIfAny
      rw [Fallible.returns_bind_pure, hreturns]
      refine ⟨by simp, ?_⟩
      intro challenge hchallenge c hc
      obtain ⟨c', hc', hsome⟩ := Fallible.bind_eq_ok.mp hchallenge
      cases hsome
      obtain rfl := Option.some.inj hc
      exact hgates c' hc'

/-- The verdict where the gates of the median and of the percentile follow from another. -/
theorem allPassed_of_delay {gates : GateResults}
    (h : gates.detectionDelay = true → gates.challengerPrecisionLift = true →
      gates.medianDelayNoWorse = true ∧ gates.p90DelayWithinSlack = true) :
    gates.allPassed = (gates.baselinePrecisionFloor && gates.baselineBeatsNull &&
      gates.detectionDelay && gates.challengerPrecisionLift && gates.liftCiExcludesZero &&
      gates.alertRateRegression) := by
  unfold GateResults.allPassed
  cases hdelay : gates.detectionDelay with
  | false => simp
  | true =>
    cases hlift : gates.challengerPrecisionLift with
    | false => simp
    | true =>
      obtain ⟨hmedian, hp90⟩ := h hdelay hlift
      simp [hmedian, hp90]

/-- **The comparison of two detectors** gives a report just when the digests are digests and the
cohort has a name of no more than eighty characters. Its verdict is that of six of its gates: where
the baseline tells of every univariate event in time, the gates of the median and of the 90th
percentile are passed. And the ranking by chance that the baseline has to beat reports no alert. -/
theorem compareDetectors_spec (rng : Rng) (draw : Nat → ℚ) {windows : List (EndpointWindow ℚ)}
    {labels : CohortLabels} (hwindows : windows.length ≤ 2 ^ 53)
    (hevents : labels.events.length ≤ 64) (baseline : List (WindowScore ℚ))
    (challenger : Option (List (WindowScore ℚ))) (baselineDigest : String)
    (challengerDigest : Option String) (cohortId : String) :
    (Returns (compareDetectors rng draw windows labels baseline challenger baselineDigest
        challengerDigest cohortId) ↔
      IsSha256Hex baselineDigest ∧
        (challenger.isSome = true → ∀ digest ∈ challengerDigest, IsSha256Hex digest) ∧
        1 ≤ cohortId.length ∧ cohortId.length ≤ 80) ∧
      ∀ report, compareDetectors rng draw windows labels baseline challenger baselineDigest
          challengerDigest cohortId = .ok report →
        report.val.gates.allPassed = (report.val.gates.baselinePrecisionFloor &&
          report.val.gates.baselineBeatsNull && report.val.gates.detectionDelay &&
          report.val.gates.challengerPrecisionLift && report.val.gates.liftCiExcludesZero &&
          report.val.gates.alertRateRegression) ∧
        report.val.nullDetector.val.alertsPer1000EndpointDays.IsZero ∧
        report.val.nullDetector.val.cleanAlertRate.IsZero ∧
        report.val.nullDetector.val.maintenanceAlertRate.IsZero ∧
        report.val.nullDetector.val.newEndpointAlertCount = 0 := by
  obtain ⟨nullEval, hnull, hnullPasses, -, hnullRates⟩ := summarizeDetector_eq
    (nullScores draw windows) hwindows hevents "null" nullDigest (by decide)
  obtain ⟨baselineEval, hbaseline, hbaselinePasses, hdelays, -⟩ := summarizeDetector_eq
    baseline hwindows hevents "baseline" baselineDigest (by decide)
  obtain ⟨hchallenge, hgates⟩ := challengeIfAny_eq rng hwindows hevents baseline challenger hdelays
    challengerDigest
  have hsilent : nullEval.alertsPer1000EndpointDays.IsZero ∧ nullEval.cleanAlertRate.IsZero ∧
      nullEval.maintenanceAlertRate.IsZero ∧ nullEval.newEndpointAlertCount = 0 := by
    have hrates := alertRates_of_silent (alertKeys_nullScores draw windows) hwindows labels
    rwa [hnullRates] at hrates
  have hnullPassed : Passes nullEval.checks := hnullPasses.mpr (by decide +kernel)
  have hreport : ∀ (challenge : Option Challenge) nullRecord baselineRecord,
      Passes (reportOf labels cohortId nullRecord baselineRecord challenge).checks ↔
        1 ≤ cohortId.length ∧ cohortId.length ≤ 80 := by
    intro challenge nullRecord baselineRecord
    simp only [EvaluationReport.checks, reportOf, passes_cons, passes_nil, within_iff, and_true]
    exact and_iff_left (by decide)
  have hsteps : ∀ hpassed : Passes baselineEval.checks,
      compareDetectors rng draw windows labels baseline challenger baselineDigest challengerDigest
        cohortId = (challengeIfAny rng windows labels baseline challenger baselineEval
          challengerDigest >>= fun challenge => (validate EvaluationReport.checks (reportOf labels
            cohortId ⟨nullEval, hnullPassed⟩ ⟨baselineEval, hpassed⟩ challenge)).mapError .raised) := by
    intro hpassed
    unfold compareDetectors
    rw [hnull, hbaseline, Validation.validate_of_passes hnullPassed,
      Validation.validate_of_passes hpassed]
    rfl
  have hdigest : Returns (compareDetectors rng draw windows labels baseline challenger baselineDigest
      challengerDigest cohortId) → Passes baselineEval.checks := by
    rintro ⟨report, hok⟩
    unfold compareDetectors at hok
    rw [hbaseline] at hok
    obtain ⟨nullRecord, -, hrest⟩ := Fallible.bind_eq_ok.mp hok
    obtain ⟨record, hrecord, -⟩ := Fallible.bind_eq_ok.mp hrest
    exact returns_validate_iff.mp ⟨record, Fallible.mapError_eq_ok.mp hrecord⟩
  constructor
  · constructor
    · intro hreturns
      have hpassed := hdigest hreturns
      rw [hsteps hpassed, returns_bind] at hreturns
      obtain ⟨⟨challenge, hok⟩, hlast⟩ := hreturns
      obtain ⟨report, hreported⟩ := hlast challenge hok
      have hcohort := (hreport challenge _ _).mp
        (returns_validate_iff.mp ⟨report, Fallible.mapError_eq_ok.mp hreported⟩)
      exact ⟨hbaselinePasses.mp hpassed, hchallenge.mp ⟨challenge, hok⟩, hcohort⟩
    · rintro ⟨hbase, hdigests, hcohort⟩
      have hpassed := hbaselinePasses.mpr hbase
      obtain ⟨challenge, hok⟩ := hchallenge.mpr hdigests
      have hpasses :=
        (hreport challenge ⟨nullEval, hnullPassed⟩ ⟨baselineEval, hpassed⟩).mpr hcohort
      exact ⟨⟨_, hpasses⟩, (hsteps hpassed).trans (Fallible.bind_eq_ok.mpr
        ⟨challenge, hok, Fallible.mapError_eq_ok.mpr (Validation.validate_of_passes hpasses)⟩)⟩
  · intro report hok
    have hpassed := hdigest ⟨report, hok⟩
    rw [hsteps hpassed] at hok
    obtain ⟨challenge, hchosen, hlast⟩ := Fallible.bind_eq_ok.mp hok
    have hval := val_of_validate (Fallible.mapError_eq_ok.mp hlast)
    rw [hval]
    refine ⟨allPassed_of_delay ?_, hsilent⟩
    intro hdelay hlift
    cases challenge with
    | none => cases hlift
    | some c => exact hgates (some c) hchosen c rfl hdelay

/-- A comparison of two detectors that tell of one event at the same time. -/
theorem compareDetectors_spec_of_two :
    ∃ report, compareDetectors (fun _ _ h => ⟨0, h⟩) (fun _ => 0) [] { events := [lateEvent] }
        (twoScores 0 2) (some (twoScores 2 0)) baselineModelDigest (some baselineModelDigest)
        "cohort" = .ok report ∧
      report.val.nullDetector.val.alertsPer1000EndpointDays.IsZero := by
  obtain ⟨hreturns, hreport⟩ := @compareDetectors_spec (fun _ _ h => ⟨0, h⟩) (fun _ => 0) []
    { events := [lateEvent] } (by decide) (by decide) (twoScores 0 2) (some (twoScores 2 0))
    baselineModelDigest (some baselineModelDigest) "cohort"
  have hdigest : IsSha256Hex baselineModelDigest := by decide +kernel
  obtain ⟨report, hok⟩ := hreturns.mpr
    ⟨hdigest, fun _ digest h => Option.some.inj h ▸ hdigest, by decide⟩
  exact ⟨report, hok, (hreport report hok).2.1⟩

end Ml
end SecureMail
