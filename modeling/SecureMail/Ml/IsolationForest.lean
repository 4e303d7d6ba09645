import SecureMail.Ml.Baselines

/-!
# The Isolation Forest scorer

From time to time a model is fitted to all earlier windows, and it scores the windows of the days
until the next fit. What `scikit-learn` does is a parameter: a model is whatever the fit of a
training matrix is, and a matrix has one score a row.

What is fixed is when a fit takes place and what it is given: the windows from before the day of the
fit that can be trained on. A model that was fitted stays in use for the days that follow, so that a
score depends on the day of the fit as much as on its own. The models are kept by the days they
serve, and the loop over the days is a fold whose state is that table and the last fit.
-/

namespace SecureMail
namespace Ml

open Py

variable {F : Type} [FloatOps F]

/-- `IsolationForest` and `numpy.quantile`. -/
class ForestOps (F M : Type) where
  fit : Nat → List (List F) → M
  scoreSamples : M → (rows : List (List F)) → { scores : List F // scores.length = rows.length }
  quantile : List F → F → F

namespace IsolationForestScorer

def maxSamples : Nat := 256
def thresholdQuantile : F := 0.992
def minTrainWindows : Nat := 40
def refitEveryDays : Nat := 7

def modelDigest : String := "3bc105e4e3e7c730a17c9d0c3fd46dfdf7d29c69a790b94576e9989d27cd1dfb"

/-! ## Vectors -/

def versionBuckets : List String := ["TLSv10", "TLSv12", "TLSv13", "other"]

/-- `_version_bucket`. -/
def versionBucket (value : String) : String :=
  if ["TLSv10", "TLSv12", "TLSv13"].contains value then value else "other"

def indicator (b : Bool) : F := if b then 1.0 else 0.0

/-- `_raw_vector`. A window has one vector whatever the model, so that training and scoring see the
same numbers. -/
def rawVector (window : EndpointWindow F) (history peers : List (EndpointWindow F)) : List F :=
  let catalog := catalogOf history peers
  let numeric := NumericFeature.all.map window.numeric
  let deviations := NumericFeature.mad.map fun feature =>
    let (median, mad) := medianMad (history.map (·.numeric feature))
    FloatOps.abs (robustZ (window.numeric feature) median mad)
  let rarities := CategoricalFeature.rarity.flatMap fun feature =>
    let (rarity, firstSeen, _) :=
      categoricalRarity (window.categorical feature) (catalog.map (·.categorical feature))
    [rarity, indicator firstSeen]
  let (_, endpointFirst, _) :=
    categoricalRarity (F := F) window.issuerId (history.map (·.issuerId))
  let version := versionBucket window.dominantTlsVersion
  numeric ++ deviations ++ rarities ++ [indicator endpointFirst] ++
    versionBuckets.map fun bucket => indicator (version == bucket)

/-- One row, centred and divided. -/
def applyScale (vector medians mads : List F) : List F :=
  List.zipWith3 (fun x median mad => (x - median) / mad) vector medians mads

/-- `_scale`: the scaled matrix, the medians and the scales of its columns. -/
def scale (matrix : List (List F)) : List (List F) × List F × List F :=
  match matrix with
  | [] => ([], [], [])
  | first :: _ =>
    let columns := (List.range first.length).map fun column =>
      medianMad (matrix.map fun row => row.getD column 0.0)
    let medians := columns.map (·.1)
    let mads := columns.map fun column => FloatOps.max column.2 1e-6
    (matrix.map fun row => applyScale row medians mads, medians, mads)

/-- `_contributions`. They explain a score after the fact, since the forest gives none, and have no
part in it. -/
def contributions (window : EndpointWindow F) (history peers : List (EndpointWindow F)) :
    List (FeatureContribution F) :=
  let numeric := NumericFeature.all.map fun feature =>
    let (median, _) := medianMad (history.map (·.numeric feature))
    numericContribution window feature median (FloatOps.abs (window.numeric feature - median))
  let rarity := CategoricalFeature.rarity.map (rarityContribution window (catalogOf history peers))
  (sortContributions (numeric ++ rarity)).take 3

/-! ## The fits -/

variable {M : Type} [ForestOps F M]

/-- A model with the scaling of its training matrix and its threshold. -/
structure Fit (F M : Type) where
  model : M
  medians : List F
  mads : List F
  threshold : F

/-- `_trainable`. -/
def trainable (windows : List (EndpointWindow F)) (window : EndpointWindow F) : Bool :=
  !window.inMaintenance && (skipReason window (endpointHistory windows window)).isNone

/-- The vectors a day's model is fitted to. -/
def trainingVectors (windows : List (EndpointWindow F)) (dayIndex : Nat) : List (List F) :=
  (windows.filter fun window => decide (window.dayIndex < dayIndex) && trainable windows window).map
    fun window => rawVector window (endpointHistory windows window) (peerHistory windows window)

/-- The fit to a training matrix, unless there is too little of it. -/
def fitTo (vectors : List (List F)) : Option (Fit F M) :=
  if vectors.length < minTrainWindows then none
  else
    let (scaled, medians, mads) := scale vectors
    let model : M := ForestOps.fit (Nat.min maxSamples scaled.length) scaled
    let trainScores := (ForestOps.scoreSamples model scaled).1.map (-·)
    some ⟨model, medians, mads, ForestOps.quantile M trainScores thresholdQuantile⟩

/-- The loop over the days: the models so far, and the last fit with its day. -/
structure Fits (F M : Type) where
  models : Dict Nat (Fit F M) := ∅
  last : Option (Nat × Fit F M) := none

/-- A day of the loop: the last fit serves for a week, then there is a new one. -/
def Fits.day (windows : List (EndpointWindow F)) (fits : Fits F M) (dayIndex : Nat) : Fits F M :=
  let refit :=
    match fitTo (trainingVectors windows dayIndex) with
    | none => fits
    | some fit => { models := fits.models.set dayIndex fit, last := some (dayIndex, fit) }
  match fits.last with
  | some (lastFitDay, lastFit) =>
    if (dayIndex : Int) - lastFitDay < refitEveryDays then
      { fits with models := fits.models.set dayIndex lastFit }
    else refit
  | none => refit

/-- `sorted({window.day_index for window in windows})`. -/
def daysOf (windows : List (EndpointWindow F)) : List Nat :=
  (windows.map (·.dayIndex)).dedup.insertionSort (SortKey.Before (compareOn id))

def fits (windows : List (EndpointWindow F)) : Fits F M := (daysOf windows).foldl (Fits.day windows) {}

/-! ## The scorer -/

/-- `float(-model.score_samples([row])[0])`. -/
def sampleScore (model : M) (row : List F) : F :=
  match ForestOps.scoreSamples model [row] with
  | ⟨scores, hlength⟩ => -scores.head (List.ne_nil_of_length_pos (hlength.symm ▸ Nat.zero_lt_one))

/-- The body of the loop over the windows, with the model of the window's day. -/
def scoreFitted (windows : List (EndpointWindow F)) (fitted : Option (Fit F M))
    (window : EndpointWindow F) : WindowScore F :=
  let history := endpointHistory windows window
  let peers := peerHistory windows window
  if window.inMaintenance then suppressedScore "isolation_forest" modelDigest window
  else
    match skipReason window history, fitted with
    | some skip, _ => skippedScore "isolation_forest" modelDigest window skip
    | none, none => skippedScore "isolation_forest" modelDigest window "insufficient_history"
    | none, some fit =>
      let vector := rawVector window history peers
      let score := sampleScore fit.model (applyScale vector fit.medians fit.mads)
      let cited := contributions window history peers
      { endpointId := window.endpointId
        dayIndex := window.dayIndex
        detector := "isolation_forest"
        score := score
        threshold := fit.threshold
        aboveThreshold := FloatOps.le fit.threshold score
        contributions := cited
        reason := buildReason cited (some "Isolation Forest multivariate isolation;")
        modelDigest := modelDigest }

/-- The score of a window, in view of all. -/
def scoreWindow (M : Type) [ForestOps F M] (windows : List (EndpointWindow F))
    (window : EndpointWindow F) : WindowScore F :=
  scoreFitted windows ((fits windows : Fits F M).models.get? window.dayIndex) window

/-- `IsolationForestScorer.score_windows`, where `scikit-learn` is installed. -/
def scoreWindows (M : Type) [ForestOps F M] (windows : List (EndpointWindow F)) :
    List (WindowScore F) :=
  let scored := windows.map (scoreWindow M windows)
  scored.map (withPercentile scored)

end IsolationForestScorer

end Ml
end SecureMail
