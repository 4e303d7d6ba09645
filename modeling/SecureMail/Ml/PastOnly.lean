import Mathlib.Data.List.Dedup
import SecureMail.Lib.Timed
import SecureMail.Ml.IsolationForest

/-!
# The scorers look back only

Both scorers are two passes over the windows: one that scores each window, one that ranks the scores
of each day. The first sees the earlier windows of the endpoint and of its peers, and, for the
Isolation Forest, a model that was fitted on this day or before to windows from before the fit; the
second sees the scores of the day. So both passes are causal, and no later window can change a
score.

The general fact is one about maps of lists with a day on each element (`Causal`): if the image of a
list up to a day is determined by the list up to that day, later elements may come and go. Causal
maps compose, and a fold of days is causal if each day is. So each scorer is taken apart into
passes, each pass is shown causal from the filters it reads through, and no proof follows a score
through its arithmetic. The theorem compares two histories that agree up to a day, which is stronger
than the removal of later windows from one.
-/

namespace SecureMail
namespace Ml

open Py Timed

variable {F : Type} {windows windows' : List (EndpointWindow F)} {window : EndpointWindow F}
  {day : Nat}

/-! ## The histories -/

/-- A history is the earlier windows with the key, sorted by day. -/
theorem filter_seriesOf {κ : Type} [DecidableEq κ] (key : EndpointWindow F → κ) (k : κ) :
    (seriesOf key windows k).filter (·.dayIndex < day) =
      ((before (·.dayIndex) day windows).filter (key · = k)).insertionSort
        (SortKey.Before (compareOn (·.dayIndex))) := by
  rw [seriesOf, Dict.getD_groupBy, SortKey.filter_insertionSort, before, List.filter_filter,
    List.filter_filter]
  congr 1
  refine List.filter_congr fun a _ => ?_
  rw [Bool.and_comm]

theorem endpointHistory_congr
    (h : before (·.dayIndex) window.dayIndex windows = before (·.dayIndex) window.dayIndex windows') :
    endpointHistory windows window = endpointHistory windows' window := by
  rw [endpointHistory, endpointHistory, filter_seriesOf, filter_seriesOf, h]

theorem peerHistory_congr
    (h : before (·.dayIndex) window.dayIndex windows = before (·.dayIndex) window.dayIndex windows') :
    peerHistory windows window = peerHistory windows' window := by
  rw [peerHistory, peerHistory, filter_seriesOf, filter_seriesOf, h]

/-! ## The ranks -/

/-- The ranked scores of a day. -/
def rankedOn (scores : List (WindowScore F)) (day : Nat) : List (WindowScore F) :=
  (scores.filter (·.isRanked)).filter (·.dayIndex = day)

theorem rankedOn_congr {scores scores' : List (WindowScore F)}
    (h : upTo (·.dayIndex) day scores = upTo (·.dayIndex) day scores') :
    rankedOn scores day = rankedOn scores' day := by
  have hranked : ∀ scores : List (WindowScore F),
      rankedOn scores day = rankedOn (upTo (·.dayIndex) day scores) day := by
    intro scores
    rw [rankedOn, rankedOn, upTo, List.filter_filter, List.filter_filter, List.filter_filter]
    refine List.filter_congr fun item _ => ?_
    by_cases hday : item.dayIndex = day
    · simp [hday]
    · simp [hday]
  rw [hranked scores, h, ← hranked]

variable [FloatOps F]

/-- A percentile is read off the scores of its day. -/
theorem get?_percentileMap (scores : List (WindowScore F)) (endpointId : String) (day : Nat) :
    (percentileMap scores).get? (endpointId, day) =
      (((rankedOn scores day).map fun item => (item, percentileOf (rankedOn scores day) item)).filter
        fun entry => (entry.1.endpointId, entry.1.dayIndex) = (endpointId, day)).getLast?.map (·.2) := by
  rw [percentileMap, Dict.get?_ofList]
  congr 2
  refine @Dict.filter_flatMap_groupBy Nat _ (WindowScore F) (WindowScore F × F) (·.dayIndex)
    (scores.filter (·.isRanked)) day (fun items => items.map fun item => (item, percentileOf items item))
    _ rfl ?_
  rintro day' items hitems hday
  rw [List.filter_eq_nil_iff]
  rintro ⟨item, percentile⟩ hmem
  obtain ⟨hitem, rfl⟩ : item ∈ items ∧ percentileOf items item = percentile := by
    obtain ⟨item', hitem', heq⟩ := List.mem_map.mp hmem
    obtain ⟨rfl, rfl⟩ := Prod.mk.inj heq
    exact ⟨hitem', rfl⟩
  obtain ⟨rfl, -⟩ := Dict.mem_groupBy_iff.mp hitems
  have hitemDay : item.dayIndex = day' := of_decide_eq_true (List.mem_filter.mp hitem).2
  simp [hitemDay, hday]

theorem causal_withPercentile :
    Causal (fun item : WindowScore F => item.dayIndex) (withPercentile (F := F)) := by
  intro scores scores' item h
  rw [withPercentile, withPercentile, get?_percentileMap, get?_percentileMap, rankedOn_congr h]

/-! ## The baseline -/

namespace BaselineAnomalyScorer

theorem scoreWindow_dayIndex (windows : List (EndpointWindow F)) (window : EndpointWindow F) :
    (scoreWindow windows window).dayIndex = window.dayIndex := by
  unfold scoreWindow
  cases window.inMaintenance with
  | true => rfl
  | false =>
    cases hskip : skipReason window (endpointHistory windows window) with
    | some skip => simp [hskip, skippedScore]
    | none => simp [hskip]

theorem causal_scoreWindow :
    Causal (fun window : EndpointWindow F => window.dayIndex) (scoreWindow (F := F)) := by
  intro windows windows' window h
  have hbefore := before_congr h
  rw [scoreWindow, scoreWindow, endpointHistory_congr hbefore, peerHistory_congr hbefore]

end BaselineAnomalyScorer

/-! ## The Isolation Forest -/

namespace IsolationForestScorer

variable {M : Type} [ForestOps F M]

theorem trainable_congr
    (h : before (·.dayIndex) window.dayIndex windows = before (·.dayIndex) window.dayIndex windows') :
    trainable windows window = trainable windows' window := by
  rw [trainable, trainable, endpointHistory_congr h]

/-- The vectors of a fit come from the windows before it. -/
theorem trainingVectors_congr
    (h : before (·.dayIndex) day windows = before (·.dayIndex) day windows') :
    trainingVectors windows day = trainingVectors windows' day := by
  have hsplit : ∀ windows : List (EndpointWindow F), trainingVectors windows day =
      ((before (·.dayIndex) day windows).filter (trainable windows)).map fun window =>
        rawVector window (endpointHistory windows window) (peerHistory windows window) := by
    intro windows
    rw [trainingVectors, before, List.filter_filter]
    congr 1
    refine List.filter_congr fun window _ => ?_
    rw [Bool.and_comm]
  rw [hsplit, hsplit, h]
  have hearlier : ∀ window ∈ before (·.dayIndex) day windows',
      before (·.dayIndex) window.dayIndex windows = before (·.dayIndex) window.dayIndex windows' := by
    intro window hwindow
    have hday : window.dayIndex < day := of_decide_eq_true (List.mem_filter.mp hwindow).2
    exact before_congr_of_lt hday.le h
  have hfilter : (before (·.dayIndex) day windows').filter (trainable windows) =
      (before (·.dayIndex) day windows').filter (trainable windows') :=
    List.filter_congr fun window hwindow => trainable_congr (hearlier window hwindow)
  rw [hfilter]
  refine List.map_congr_left fun window hwindow => ?_
  have hbefore := hearlier window (List.mem_of_mem_filter hwindow)
  rw [endpointHistory_congr hbefore, peerHistory_congr hbefore]

theorem day_congr (fits : Fits F M)
    (h : before (·.dayIndex) day windows = before (·.dayIndex) day windows') :
    Fits.day windows fits day = Fits.day windows' fits day := by
  rw [Fits.day, Fits.day, trainingVectors_congr h]

/-- A day of the loop sets no model but its own. -/
theorem get?_day {day' : Nat} (fits : Fits F M) (hday : day' ≠ day) :
    (Fits.day windows fits day).models.get? day' = fits.models.get? day' := by
  have hset : ∀ fit, (fits.models.set day fit).get? day' = fits.models.get? day' := by
    intro fit
    rw [Dict.get?_set, if_neg hday]
  unfold Fits.day
  cases fits.last with
  | none =>
    cases fitTo (M := M) (trainingVectors windows day) with
    | none => rfl
    | some fit => exact hset fit
  | some last =>
    obtain ⟨lastFitDay, lastFit⟩ := last
    by_cases hweek : (day : Int) - lastFitDay < refitEveryDays
    · simp only [hweek, if_true]
      exact hset lastFit
    · simp only [hweek, if_false]
      cases fitTo (M := M) (trainingVectors windows day) with
      | none => rfl
      | some fit => exact hset fit

/-- Later days leave the model of a day alone. -/
theorem get?_foldl_day {days : List Nat} :
    ∀ {fits : Fits F M}, (∀ day' ∈ days, day < day') →
      (days.foldl (Fits.day windows) fits).models.get? day = fits.models.get? day := by
  induction days with
  | nil =>
    intro fits _
    rfl
  | cons day' rest ih =>
    intro fits hlater
    rw [List.foldl_cons, ih fun later hmem => hlater later (List.mem_cons_of_mem _ hmem)]
    exact get?_day fits (hlater day' List.mem_cons_self).ne

omit [FloatOps F] in
/-- The loop goes through the days in order. -/
theorem pairwise_daysOf (windows : List (EndpointWindow F)) :
    (daysOf windows).Pairwise fun a b => a ≤ b := by
  have hsorted : (daysOf windows).Pairwise (SortKey.Before (compareOn id)) :=
    SortKey.pairwise_insertionSort _
  refine hsorted.imp ?_
  intro a b hab
  exact Nat.isLE_compare.mp hab

omit [FloatOps F] in
/-- The days up to one are the days of the windows up to it. -/
theorem upTo_daysOf (windows : List (EndpointWindow F)) (day : Nat) :
    upTo id day (daysOf windows) = daysOf (upTo (·.dayIndex) day windows) := by
  have hdedup : ∀ days : List Nat, (days.dedup).filter (fun d => decide (d ≤ day)) =
      (days.filter fun d => decide (d ≤ day)).dedup := by
    intro days
    induction days with
    | nil => rfl
    | cons d rest ih =>
      by_cases hmem : d ∈ rest
      · rw [List.dedup_cons_of_mem hmem, ih, List.filter_cons]
        by_cases hd : d ≤ day
        · have hkept : d ∈ rest.filter fun d => decide (d ≤ day) :=
            List.mem_filter.mpr ⟨hmem, by simpa using hd⟩
          rw [if_pos (by simpa using hd), List.dedup_cons_of_mem hkept]
        · rw [if_neg (by simpa using hd)]
      · rw [List.dedup_cons_of_notMem hmem, List.filter_cons, List.filter_cons, ih]
        by_cases hd : d ≤ day
        · have hnot : d ∉ rest.filter fun d => decide (d ≤ day) :=
            fun hkept => hmem (List.mem_of_mem_filter hkept)
          rw [if_pos (by simpa using hd), if_pos (by simpa using hd), List.dedup_cons_of_notMem hnot]
        · rw [if_neg (by simpa using hd), if_neg (by simpa using hd)]
  have hmap : (windows.map (·.dayIndex)).filter (fun d => decide (d ≤ day)) =
      (upTo (·.dayIndex) day windows).map (·.dayIndex) := List.filter_map
  show (daysOf windows).filter (fun d => decide (d ≤ day)) = _
  rw [daysOf, SortKey.filter_insertionSort, hdedup, hmap, daysOf]

/-- The model of a day is there once the loop has done the day. -/
theorem get?_fits (windows : List (EndpointWindow F)) (day : Nat) :
    (fits windows : Fits F M).models.get? day =
      ((upTo id day (daysOf windows)).foldl (Fits.day windows) {}).models.get? day := by
  have hsplit := eq_upTo_append day (pairwise_daysOf windows)
  have hlater : ∀ later ∈ (daysOf windows).filter fun d => decide (day < d), day < later :=
    fun later hlater => of_decide_eq_true (List.mem_filter.mp hlater).2
  unfold fits
  conv_lhs => rw [hsplit, List.foldl_append]
  exact get?_foldl_day hlater

/-- The days up to one are done alike. -/
theorem foldl_day_congr (h : upTo (·.dayIndex) day windows = upTo (·.dayIndex) day windows')
    {days : List Nat} :
    ∀ {s : Fits F M}, (∀ d ∈ days, d ≤ day) →
      days.foldl (Fits.day windows) s = days.foldl (Fits.day windows') s := by
  induction days with
  | nil =>
    intro s _
    rw [List.foldl_nil, List.foldl_nil]
  | cons d rest ih =>
    intro s hdays
    have hd : d ≤ day := hdays d List.mem_cons_self
    rw [List.foldl_cons, List.foldl_cons, day_congr s (before_congr (upTo_congr hd h))]
    exact ih fun d hd => hdays d (List.mem_cons_of_mem _ hd)

/-- **The model of a day depends on the windows up to the day.** A fit serves later days, but what
it was given is from before its own. -/
theorem get?_fits_congr (h : upTo (·.dayIndex) day windows = upTo (·.dayIndex) day windows') :
    (fits windows : Fits F M).models.get? day = (fits windows').models.get? day := by
  have hdays : upTo id day (daysOf windows) = upTo id day (daysOf windows') := by
    rw [upTo_daysOf, upTo_daysOf, h]
  have hupTo : ∀ d ∈ upTo id day (daysOf windows), d ≤ day :=
    fun d hd => of_decide_eq_true (List.mem_filter.mp hd).2
  rw [get?_fits, get?_fits, ← hdays, foldl_day_congr h hupTo]

theorem scoreWindow_dayIndex (windows : List (EndpointWindow F)) (window : EndpointWindow F) :
    (scoreWindow M windows window).dayIndex = window.dayIndex := by
  unfold scoreWindow scoreFitted
  cases window.inMaintenance with
  | true => rfl
  | false =>
    cases hskip : skipReason window (endpointHistory windows window) with
    | some skip => simp [hskip, skippedScore]
    | none => cases (fits windows : Fits F M).models.get? window.dayIndex <;> simp [hskip, skippedScore]

theorem causal_scoreWindow :
    Causal (fun window : EndpointWindow F => window.dayIndex) (scoreWindow (F := F) M) := by
  intro windows windows' window h
  have hbefore := before_congr h
  rw [scoreWindow, scoreWindow, get?_fits_congr h]
  generalize (fits windows' : Fits F M).models.get? window.dayIndex = fitted
  unfold scoreFitted
  rw [endpointHistory_congr hbefore, peerHistory_congr hbefore]

end IsolationForestScorer

/-! ## Both -/

/-- The windows up to a day, each with its score. -/
def scoredUpTo (scoreWindows : List (EndpointWindow F) → List (WindowScore F)) (day : Nat)
    (windows : List (EndpointWindow F)) : List (EndpointWindow F × WindowScore F) :=
  (windows.zip (scoreWindows windows)).filter fun scored => decide (scored.1.dayIndex ≤ day)

/-- A causal score with its percentile is causal. -/
theorem scoredUpTo_congr
    {scoreWindow : List (EndpointWindow F) → EndpointWindow F → WindowScore F}
    (hcausal : Causal (fun window : EndpointWindow F => window.dayIndex) scoreWindow)
    (htime : ∀ windows window, (scoreWindow windows window).dayIndex = window.dayIndex)
    (h : upTo (·.dayIndex) day windows = upTo (·.dayIndex) day windows') :
    scoredUpTo (fun windows => pass withPercentile (pass scoreWindow windows)) day windows =
      scoredUpTo (fun windows => pass withPercentile (pass scoreWindow windows)) day windows' := by
  unfold scoredUpTo
  simp only [pass_pass]
  exact filter_zip_pass_congr (causal_withPercentile.comp hcausal htime) h

/-- **Neither scorer lets a later window change an earlier score.** The two histories may differ in
every window of a later day, in number and in content. -/
theorem scorers_past_only (M : Type) [ForestOps F M]
    (h : windows.filter (fun window => decide (window.dayIndex ≤ day)) =
      windows'.filter fun window => decide (window.dayIndex ≤ day)) :
    scoredUpTo BaselineAnomalyScorer.scoreWindows day windows =
        scoredUpTo BaselineAnomalyScorer.scoreWindows day windows' ∧
      scoredUpTo (IsolationForestScorer.scoreWindows M) day windows =
        scoredUpTo (IsolationForestScorer.scoreWindows M) day windows' :=
  ⟨scoredUpTo_congr BaselineAnomalyScorer.causal_scoreWindow
      BaselineAnomalyScorer.scoreWindow_dayIndex h,
    scoredUpTo_congr IsolationForestScorer.causal_scoreWindow
      IsolationForestScorer.scoreWindow_dayIndex h⟩

/-! ## Fifty-six days of an endpoint -/

/-- Of a forest that is fitted to nothing. -/
instance : ForestOps Rat Unit where
  fit _ _ := ()
  scoreSamples _ rows := ⟨rows.map fun _ => 0, List.length_map _⟩
  quantile scores _ := scores.headD 0

def busyWindow (tls10Share : Rat) (day : Nat) : EndpointWindow Rat where
  endpointId := "10.0.0.1:25"
  siteId := "local"
  protocolRole := .smtpMx
  dayIndex := day
  sessionCount := 12
  tls13Share := 1 - tls10Share
  tls12Share := 0
  tls10Share := tls10Share
  handshakeFailureRate := 0
  alertRate := 0
  starttlsSuccessRate := 1
  starttlsFallbackRate := 0
  forwardSecrecyPresentRate := 1
  certificateChurnRate := 0
  incompleteReconstructionRate := 0
  notObservableRate := 0
  dominantTlsVersion := "TLSv13"
  issuerId := "iss_unknown"

/-- Days that are alike up to the last, with its share of TLS 1.0. -/
def busyDays (lastShare : Rat) : List (EndpointWindow Rat) :=
  (List.range 55).map (busyWindow 0) ++ [busyWindow lastShare 55]

/-- Both scorers score the last but one of the days, and neither sees the last. -/
theorem next_day_past_only :
    (BaselineAnomalyScorer.scoreWindow (busyDays 0) (busyWindow 0 54)).skipReason = none ∧
      (IsolationForestScorer.scoreWindow Unit (busyDays 0) (busyWindow 0 54)).skipReason = none ∧
      scoredUpTo BaselineAnomalyScorer.scoreWindows 54 (busyDays 0) =
        scoredUpTo BaselineAnomalyScorer.scoreWindows 54 (busyDays 1) ∧
      scoredUpTo (IsolationForestScorer.scoreWindows Unit) 54 (busyDays 0) =
        scoredUpTo (IsolationForestScorer.scoreWindows Unit) 54 (busyDays 1) := by
  refine ⟨by decide +kernel, by decide +kernel, scorers_past_only Unit ?_⟩
  simp [busyDays, busyWindow]

end Ml
end SecureMail
