import Mathlib.Data.String.Basic
import SecureMail.Lib.Leaders
import SecureMail.Ml.Baselines
import SecureMail.Ml.Percentile

/-!
# Precision at K

A detector is judged by its ranking of endpoints: each by its highest score, and of the first few how
many an event was injected into. The lift of one detector over another is resampled: some endpoints
stay, and the places of the others are drawn from among them with repetition. The random numbers are
those of any generator.

The two kinds of numbers are not modelled alike. A score is only ever compared, with another one or
with its negative, and that is exact in doubles; so scores are rationals, and a ranking of them is an
order on names. A precision is a quotient, and the lifts, their mean and their percentiles come of
it, so these are doubles with the rounding of the code. What is promised of them is therefore up to
`roundoff`: an interval of lifts may begin a little below -1, and a lift that every replicate has is
not always the one reported.
-/

namespace SecureMail
namespace Ml

open Py

inductive AnomalyKind
  | univariate | multivariate
deriving DecidableEq, Repr

structure SeededEvent where
  eventId : String
  kind : AnomalyKind
  endpointId : String
  startDay : Nat
  endDay : Nat

structure MaintenanceWindow where
  endpointId : String
  startDay : Nat
  endDay : Nat

structure CohortLabels where
  events : List SeededEvent := []
  maintenance : List MaintenanceWindow := []
  jitterEndpoints : List String := []
  newEndpoints : List String := []

def topK : Nat := 5
def warmupDays : Nat := 28
def bootstrapSamples : Nat := 1000

/-- `true_event_endpoints`. -/
def trueEventEndpoints (labels : CohortLabels) : List String := labels.events.map (·.endpointId)

def isEvalDay (dayIndex : Nat) : Bool := warmupDays ≤ dayIndex

/-- `_eligible_scores`. -/
def eligibleScores (scores : List (WindowScore ℚ)) : List (WindowScore ℚ) :=
  scores.filter fun item => isEvalDay item.dayIndex && item.isRanked

/-- One turn of the loop of `peak_scores_by_endpoint`. Of equal scores the first that is seen stays,
so a repetition of the highest score changes nothing. -/
def notePeak (peaks : Dict String (WindowScore ℚ)) (item : WindowScore ℚ) :
    Dict String (WindowScore ℚ) :=
  match peaks.get? item.endpointId with
  | none => peaks.set item.endpointId item
  | some current =>
    if current.score < item.score then peaks.set item.endpointId item else peaks

def peakScoresByEndpoint (scores : List (WindowScore ℚ)) : Dict String (WindowScore ℚ) :=
  (eligibleScores scores).foldl notePeak ∅

/-- The key `(-score, endpoint_id)`. -/
def rankOrder {α : Type} (score : α → ℚ) (name : α → String) : α → α → Ordering :=
  compareLex (compareOn fun a => -score a) (compareOn name)

instance {α : Type} {score : α → ℚ} {name : α → String} : Std.TransCmp (rankOrder score name) :=
  inferInstanceAs (Std.TransCmp (compareLex (compareOn fun a => -score a) (compareOn name)))

/-- `precision_at_k`. It is a fraction of k and not of the number of endpoints that were ranked. -/
def precisionAtK (scores : List (WindowScore ℚ)) (labels : CohortLabels) (k : Nat)
    (excluded : List String) : Py.Float × List String :=
  let trueIds := trueEventEndpoints labels
  let peaks := ((peakScoresByEndpoint scores).entries.map (·.2)).filter (·.endpointId ∉ excluded)
  let ranked := peaks.insertionSort (SortKey.Before (rankOrder (·.score) (·.endpointId)))
  let ids := (ranked.take k).map (·.endpointId)
  if ids = [] then (.ofNat 0, [])
  else (.ofRatio (ids.countP (· ∈ trueIds)) k, ids)

/-! ## The bootstrap -/

/-- `rng.randrange(n)`, by the number of calls before. -/
abbrev Rng := Nat → (n : Nat) → 0 < n → Fin n

inductive EvaluationError
  | raised (error : Error)
  | assertion
  | zeroDivision

/-- The peaks of the endpoints that are not excluded. -/
def scoreMap (scores : List (WindowScore ℚ)) (excluded : List String) : Dict String ℚ :=
  Dict.ofList (·.1) (·.2.score)
    ((peakScoresByEndpoint scores).entries.filter (·.1 ∉ excluded))

/-- `_precision`. An endpoint may be drawn several times and is ranked once. -/
def samplePrecision (trueIds : List String) (k : Nat) (peakMap : Dict String ℚ)
    (sample : List String) : Py.Float :=
  let ranked := sample.insertionSort
    (SortKey.Before (rankOrder (fun endpointId => (peakMap.get? endpointId).getD 0) id))
  let unique := Leaders.collect k [] ranked
  if unique = [] then .ofNat 0 else .ofRatio (unique.countP (· ∈ trueIds)) k

/-- The endpoints that are drawn for a replicate. -/
def sampledFillers (rng : Rng) (fillers : List String) (fillerBudget replicate : Nat) :
    List String :=
  if h : 0 < fillers.length then
    (List.range fillerBudget).map fun draw =>
      fillers.get (rng (replicate * fillerBudget + draw) fillers.length h)
  else []

/-- `endpoints`, `anchors` and `fillers`. -/
def endpointsOf (left right : Dict String ℚ) : List String :=
  (left.keys ++ right.keys).eraseDups.insertionSort (· ≤ ·)

def anchorsOf (labels : CohortLabels) (endpoints : List String) : List String :=
  ((trueEventEndpoints labels ++ labels.jitterEndpoints).eraseDups.filter
    (· ∈ endpoints)).insertionSort (· ≤ ·)

def fillersOf (labels : CohortLabels) (endpoints : List String) : List String :=
  endpoints.filter (· ∉ anchorsOf labels endpoints)

/-- A replicate: the anchors and what is drawn. -/
def sampleOf (rng : Rng) (labels : CohortLabels) (endpoints : List String) (replicate : Nat) :
    List String :=
  anchorsOf labels endpoints ++ sampledFillers rng (fillersOf labels endpoints)
    (endpoints.length - (anchorsOf labels endpoints).length) replicate

/-- The lift of a replicate. Both detectors are judged on one sample, which is what pairs them. -/
def liftOf (rng : Rng) (baseline challenger : List (WindowScore ℚ)) (labels : CohortLabels)
    (k replicate : Nat) : Py.Float :=
  let baselinePeaks := scoreMap baseline labels.newEndpoints
  let challengerPeaks := scoreMap challenger labels.newEndpoints
  let sample := sampleOf rng labels (endpointsOf baselinePeaks challengerPeaks) replicate
  (samplePrecision (trueEventEndpoints labels) k challengerPeaks sample).sub
    (samplePrecision (trueEventEndpoints labels) k baselinePeaks sample)

/-- `lifts`. -/
def liftsOf (rng : Rng) (baseline challenger : List (WindowScore ℚ)) (labels : CohortLabels)
    (k samples : Nat) : List Py.Float :=
  (List.range samples).map (liftOf rng baseline challenger labels k)

/-- `paired_bootstrap_lift`. With no endpoint there is no lift to resample, and the interval is a
point at zero. -/
def pairedBootstrapLift (rng : Rng) (baseline challenger : List (WindowScore ℚ))
    (labels : CohortLabels) (k samples : Nat) :
    Except EvaluationError (Py.Float × Py.Float × Py.Float) := do
  let endpoints := endpointsOf (scoreMap baseline labels.newEndpoints)
    (scoreMap challenger labels.newEndpoints)
  if endpoints = [] then pure (.ofNat 0, .ofNat 0, .ofNat 0)
  else
    let lifts := liftsOf rng baseline challenger labels k samples
    match (Py.Float.sum lifts).div? (.ofNat lifts.length) with
    | none => throw .zeroDivision
    | some mean =>
      let low ← (percentile lifts (.ofRatio 5 100)).mapError .raised
      let high ← (percentile lifts (.ofRatio 95 100)).mapError .raised
      match low, high with
      | some low, some high => pure (mean, low, high)
      | _, _ => throw .assertion

/-! ## Peaks -/

/-- The highest score of an endpoint. -/
def IsPeak (scores : List (WindowScore ℚ)) (endpointId : String) (peak : ℚ) : Prop :=
  (∃ item ∈ eligibleScores scores, item.endpointId = endpointId ∧ item.score = peak) ∧
    ∀ item ∈ eligibleScores scores, item.endpointId = endpointId → item.score ≤ peak

/-- The table of the peaks of the scores seen. -/
def PeaksOf (peaks : Dict String (WindowScore ℚ)) (seen : List (WindowScore ℚ)) : Prop :=
  ∀ endpointId,
    (peaks.get? endpointId = none → ∀ item ∈ seen, item.endpointId ≠ endpointId) ∧
      ∀ peak, peaks.get? endpointId = some peak → peak ∈ seen ∧ peak.endpointId = endpointId ∧
        ∀ item ∈ seen, item.endpointId = endpointId → item.score ≤ peak.score

theorem get?_notePeak {peaks : Dict String (WindowScore ℚ)} {item : WindowScore ℚ} (e : String) :
    (notePeak peaks item).get? e =
      if e = item.endpointId then
        some (match peaks.get? item.endpointId with
          | none => item
          | some current => if current.score < item.score then item else current)
      else peaks.get? e := by
  unfold notePeak
  cases hget : peaks.get? item.endpointId with
  | none => rw [Dict.get?_set]
  | some current =>
    by_cases hlt : current.score < item.score
    · simp only [hlt, if_true, Dict.get?_set]
    · simp only [hlt, if_false]
      by_cases he : e = item.endpointId
      · rw [if_pos he, he, hget]
      · rw [if_neg he]

theorem PeaksOf.note {peaks : Dict String (WindowScore ℚ)} {seen : List (WindowScore ℚ)}
    (h : PeaksOf peaks seen) (item : WindowScore ℚ) :
    PeaksOf (notePeak peaks item) (seen ++ [item]) := by
  intro e
  rw [get?_notePeak]
  by_cases he : e = item.endpointId
  · subst he
    rw [if_pos rfl]
    refine ⟨fun hnone => absurd hnone (by simp), ?_⟩
    intro peak hpeak
    obtain rfl := Option.some.inj hpeak
    cases hget : peaks.get? item.endpointId with
    | none =>
      refine ⟨List.mem_append_right _ (List.mem_singleton_self _), rfl, ?_⟩
      intro other hother hid
      rcases List.mem_append.mp hother with hseen | hlast
      · exact absurd hid ((h _).1 hget other hseen)
      · rw [List.mem_singleton.mp hlast]
    | some current =>
      obtain ⟨hmem, hcurrent, hle⟩ := (h _).2 current hget
      dsimp only
      by_cases hlt : current.score < item.score
      · rw [if_pos hlt]
        refine ⟨List.mem_append_right _ (List.mem_singleton_self _), rfl, ?_⟩
        intro other hother hid
        rcases List.mem_append.mp hother with hseen | hlast
        · exact (hle other hseen hid).trans hlt.le
        · rw [List.mem_singleton.mp hlast]
      · rw [if_neg hlt]
        refine ⟨List.mem_append_left _ hmem, hcurrent, ?_⟩
        intro other hother hid
        rcases List.mem_append.mp hother with hseen | hlast
        · exact hle other hseen hid
        · rw [List.mem_singleton.mp hlast]
          exact not_lt.mp hlt
  · rw [if_neg he]
    refine ⟨fun hnone other hother => ?_, fun peak hpeak => ?_⟩
    · rcases List.mem_append.mp hother with hseen | hlast
      · exact (h e).1 hnone other hseen
      · rw [List.mem_singleton.mp hlast]
        exact Ne.symm he
    · obtain ⟨hmem, hid, hle⟩ := (h e).2 peak hpeak
      refine ⟨List.mem_append_left _ hmem, hid, ?_⟩
      intro other hother hother'
      rcases List.mem_append.mp hother with hseen | hlast
      · exact hle other hseen hother'
      · rw [List.mem_singleton.mp hlast] at hother'
        exact absurd hother'.symm he

theorem peaksOf_foldl (l : List (WindowScore ℚ)) : PeaksOf (l.foldl notePeak ∅) l := by
  induction l using List.reverseRecOn with
  | nil => simp [PeaksOf]
  | append_singleton l item ih =>
    rw [List.foldl_append, List.foldl_cons, List.foldl_nil]
    exact ih.note item

/-- The highest score of an endpoint, where it has one. -/
def peakOf (scores : List (WindowScore ℚ)) (endpointId : String) : Option ℚ :=
  ((peakScoresByEndpoint scores).get? endpointId).map (·.score)

theorem peakOf_eq_some_iff {scores : List (WindowScore ℚ)} {e : String} {q : ℚ} :
    peakOf scores e = some q ↔ IsPeak scores e q := by
  have hpeaks := peaksOf_foldl (eligibleScores scores) e
  rw [peakOf, Option.map_eq_some_iff]
  constructor
  · intro ⟨peak, hget, hscore⟩
    obtain ⟨hmem, hid, hle⟩ := hpeaks.2 peak hget
    exact ⟨⟨peak, hmem, hid, hscore⟩, hscore ▸ hle⟩
  · intro ⟨⟨item, hmem, hid, hscore⟩, hle⟩
    cases hget : (peakScoresByEndpoint scores).get? e with
    | none => exact absurd hid (hpeaks.1 hget item hmem)
    | some peak =>
      obtain ⟨hpeak, hpeakId, hmax⟩ := hpeaks.2 peak hget
      refine ⟨peak, rfl, le_antisymm (hle peak hpeak hpeakId) ?_⟩
      rw [← hscore]
      exact hmax item hmem hid

/-- The peaks do not see the order of the scores. -/
theorem peakOf_perm {scores scores' : List (WindowScore ℚ)} (h : scores.Perm scores') :
    peakOf scores = peakOf scores' := by
  funext e
  have hmem : ∀ item, item ∈ eligibleScores scores ↔ item ∈ eligibleScores scores' := fun item =>
    (h.filter _).mem_iff
  apply Option.ext
  intro q
  rw [peakOf_eq_some_iff, peakOf_eq_some_iff]
  simp only [IsPeak, hmem]

/-! ## The ranking -/

theorem rankOrder_eq {α : Type} {score : α → ℚ} {name : α → String} {a b : α}
    (h : rankOrder score name a b = .eq) : name a = name b := by
  have hthen : (compare (-score a) (-score b)).then (compare (name a) (name b)) = .eq := h
  exact compare_eq_iff_eq.mp (Ordering.then_eq_eq.mp hthen).2

/-- The first of two has the higher score, or the same one and the lesser name. -/
theorem before_rankOrder_iff {α : Type} {score : α → ℚ} {name : α → String} {a b : α} :
    SortKey.Before (rankOrder score name) a b ↔
      score b < score a ∨ score a = score b ∧ name a ≤ name b := by
  have hthen : rankOrder score name a b =
    (compare (-score a) (-score b)).then (compare (name a) (name b)) := rfl
  rw [SortKey.Before, hthen, Ordering.isLE_then_iff_or,
    Ordering.isLE_iff_ne_gt (o := compare (name a) _)]
  simp only [compare_lt_iff_lt, compare_eq_iff_eq, neg_lt_neg_iff, neg_inj, compare_le_iff_le]

/-- All endpoints that are ranked, in order. -/
def rankedIds (scores : List (WindowScore ℚ)) (excluded : List String) : List String :=
  ((((peakScoresByEndpoint scores).entries.map (·.2)).filter
    (·.endpointId ∉ excluded)).insertionSort
      (SortKey.Before (rankOrder (·.score) (·.endpointId)))).map (·.endpointId)

theorem precisionAtK_eq (scores : List (WindowScore ℚ)) (labels : CohortLabels) (k : Nat)
    (excluded : List String) :
    precisionAtK scores labels k excluded =
      (.ofRatio (((rankedIds scores excluded).take k).countP (· ∈ trueEventEndpoints labels)) k,
        (rankedIds scores excluded).take k) := by
  simp only [precisionAtK, List.map_take]
  rw [← rankedIds]
  by_cases hnil : (rankedIds scores excluded).take k = []
  · rw [if_pos hnil, hnil, List.countP_nil, Py.Float.ofRatio_zero]
  · rw [if_neg hnil]

theorem fst_of_mem_peaks {scores : List (WindowScore ℚ)} {e : String} {peak : WindowScore ℚ}
    (h : (peakScoresByEndpoint scores).get? e = some peak) : peak.endpointId = e :=
  ((peaksOf_foldl (eligibleScores scores) e).2 peak h).2.1

/-- The peaks that are not excluded. -/
def includedPeaks (scores : List (WindowScore ℚ)) (excluded : List String) :
    List (WindowScore ℚ) :=
  ((peakScoresByEndpoint scores).entries.map (·.2)).filter (·.endpointId ∉ excluded)

theorem mem_includedPeaks {scores : List (WindowScore ℚ)} {excluded : List String}
    {peak : WindowScore ℚ} :
    peak ∈ includedPeaks scores excluded ↔
      (peakScoresByEndpoint scores).get? peak.endpointId = some peak ∧
        peak.endpointId ∉ excluded := by
  simp only [includedPeaks, List.mem_filter, decide_eq_true_iff]
  refine and_congr_left fun _ => ?_
  constructor
  · intro hmem
    obtain ⟨⟨e, _⟩, hentry, rfl⟩ := List.mem_map.mp hmem
    have hget := Dict.mem_entries_iff.mp hentry
    rw [fst_of_mem_peaks hget]
    exact hget
  · intro hget
    exact List.mem_map.mpr ⟨_, Dict.mem_entries_iff.mpr hget, rfl⟩

theorem nodup_includedPeaks (scores : List (WindowScore ℚ)) (excluded : List String) :
    ((includedPeaks scores excluded).map (·.endpointId)).Nodup := by
  have hkeys : (peakScoresByEndpoint scores).entries.map (fun entry => entry.2.endpointId) =
      (peakScoresByEndpoint scores).entries.map (·.1) := by
    apply List.map_congr_left
    rintro ⟨e, peak⟩ hentry
    exact fst_of_mem_peaks (Dict.mem_entries_iff.mp hentry)
  have hnodup : (((peakScoresByEndpoint scores).entries.map (·.2)).map (·.endpointId)).Nodup := by
    rw [List.map_map]
    exact hkeys ▸ (peakScoresByEndpoint scores).nodup
  exact hnodup.sublist (List.filter_sublist.map _)

theorem rankedIds_perm (scores : List (WindowScore ℚ)) (excluded : List String) :
    (rankedIds scores excluded).Perm ((includedPeaks scores excluded).map (·.endpointId)) :=
  (List.perm_insertionSort _ _).map _

theorem nodup_rankedIds (scores : List (WindowScore ℚ)) (excluded : List String) :
    (rankedIds scores excluded).Nodup :=
  (rankedIds_perm scores excluded).nodup_iff.mpr (nodup_includedPeaks scores excluded)

theorem mem_rankedIds {scores : List (WindowScore ℚ)} {excluded : List String} {e : String} :
    e ∈ rankedIds scores excluded ↔ (∃ q, IsPeak scores e q) ∧ e ∉ excluded := by
  rw [(rankedIds_perm scores excluded).mem_iff, List.mem_map]
  simp only [mem_includedPeaks, ← peakOf_eq_some_iff, peakOf, Option.map_eq_some_iff]
  constructor
  · rintro ⟨peak, ⟨hget, hnot⟩, rfl⟩
    exact ⟨⟨_, peak, hget, rfl⟩, hnot⟩
  · rintro ⟨⟨_, peak, hget, rfl⟩, hnot⟩
    have hid := fst_of_mem_peaks hget
    exact ⟨peak, by rw [hid]; exact ⟨hget, hnot⟩, hid⟩

/-- The endpoints are in the order of their peaks. -/
theorem pairwise_rankedIds (scores : List (WindowScore ℚ)) (excluded : List String) :
    (rankedIds scores excluded).Pairwise
      (SortKey.Before (rankOrder (fun e => (peakOf scores e).getD 0) id)) := by
  apply List.pairwise_map.mpr
  have hsorted : ((includedPeaks scores excluded).insertionSort
      (SortKey.Before (rankOrder (·.score) (·.endpointId)))).Pairwise
        (SortKey.Before (rankOrder (·.score) (·.endpointId))) :=
    SortKey.pairwise_insertionSort _
  refine List.Pairwise.imp_of_mem ?_ hsorted
  intro a b ha hb hab
  have hscore : ∀ peak ∈ includedPeaks scores excluded,
      (peakOf scores peak.endpointId).getD 0 = peak.score := by
    intro peak hpeak
    rw [peakOf, (mem_includedPeaks.mp hpeak).1]
    rfl
  rw [before_rankOrder_iff] at hab ⊢
  rw [hscore a ((List.mem_insertionSort _).mp ha), hscore b ((List.mem_insertionSort _).mp hb)]
  exact hab

/-- A ranking is known by the peaks and what is excluded. -/
theorem rankedIds_congr {scores scores' : List (WindowScore ℚ)} (h : peakOf scores = peakOf scores')
    (excluded : List String) : rankedIds scores excluded = rankedIds scores' excluded := by
  have hother := pairwise_rankedIds scores' excluded
  rw [← h] at hother
  apply Leaders.eq_of_pairwise_of_mem_iff (pairwise_rankedIds scores excluded) hother
    (nodup_rankedIds _ _) (nodup_rankedIds _ _)
  · intro e
    simp only [mem_rankedIds, ← peakOf_eq_some_iff, h]
  · intro a _ b _ hab
    exact rankOrder_eq hab

theorem getD_peakOf {scores : List (WindowScore ℚ)} {e : String} {q : ℚ} (h : IsPeak scores e q) :
    (peakOf scores e).getD 0 = q := by
  rw [peakOf_eq_some_iff.mpr h]
  rfl

theorem get?_scoreMap (scores : List (WindowScore ℚ)) (excluded : List String) (e : String) :
    (scoreMap scores excluded).get? e = if e ∈ excluded then none else peakOf scores e := by
  have hkeys : e ∈ (scoreMap scores excluded).keys ↔
      ∃ entry ∈ (peakScoresByEndpoint scores).entries.filter (·.1 ∉ excluded), entry.1 = e :=
    Dict.mem_keys_ofList
  by_cases he : e ∈ excluded
  · rw [if_pos he]
    cases hget : (scoreMap scores excluded).get? e with
    | none => rfl
    | some q =>
      obtain ⟨entry, hentry, hfst⟩ := hkeys.mp (Dict.mem_keys_iff.mpr (by rw [hget]; rfl))
      have hnot := of_decide_eq_true (List.mem_filter.mp hentry).2
      exact absurd (hfst ▸ he) hnot
  · rw [if_neg he]
    cases hget : (scoreMap scores excluded).get? e with
    | some q =>
      obtain ⟨⟨e', peak⟩, hentry, rfl, rfl⟩ := Dict.mem_of_get?_ofList hget
      rw [peakOf, Dict.mem_entries_iff.mp (List.mem_filter.mp hentry).1]
      rfl
    | none =>
      cases hpeak : (peakScoresByEndpoint scores).get? e with
      | none => rw [peakOf, hpeak]; rfl
      | some peak =>
        have hentry : (e, peak) ∈ (peakScoresByEndpoint scores).entries.filter (·.1 ∉ excluded) :=
          List.mem_filter.mpr ⟨Dict.mem_entries_iff.mpr hpeak, decide_eq_true he⟩
        have hsome := Dict.mem_keys_iff.mp (hkeys.mpr ⟨_, hentry, rfl⟩)
        rw [hget] at hsome
        cases hsome

/-- What a replicate names. -/
def sampleLeaders (k : Nat) (peakMap : Dict String ℚ) (sample : List String) : List String :=
  ((sample.insertionSort (SortKey.Before
    (rankOrder (fun endpointId => (peakMap.get? endpointId).getD 0) id))).eraseDups).take k

theorem samplePrecision_eq_leaders (trueIds : List String) {k : Nat} (hk : 0 < k)
    (peakMap : Dict String ℚ) (sample : List String) :
    samplePrecision trueIds k peakMap sample =
      .ofRatio ((sampleLeaders k peakMap sample).countP (· ∈ trueIds)) k := by
  simp only [samplePrecision, Leaders.collect_eq_take hk]
  rw [← sampleLeaders]
  by_cases hnil : sampleLeaders k peakMap sample = []
  · rw [if_pos hnil, hnil, List.countP_nil, Py.Float.ofRatio_zero]
  · rw [if_neg hnil]

theorem samplePrecision_congr {peakMap peakMap' : Dict String ℚ}
    (h : peakMap.get? = peakMap'.get?) (trueIds : List String) (k : Nat) (sample : List String) :
    samplePrecision trueIds k peakMap sample = samplePrecision trueIds k peakMap' sample := by
  simp only [samplePrecision, h]

theorem samplePrecision_mem_Icc (trueIds : List String) {k : Nat} (hk : 0 < k)
    (peakMap : Dict String ℚ) (sample : List String) :
    (samplePrecision trueIds k peakMap sample).Finite ∧
      0 ≤ (samplePrecision trueIds k peakMap sample).value ∧
      (samplePrecision trueIds k peakMap sample).value ≤ 1 := by
  have hle : (sampleLeaders k peakMap sample).countP (· ∈ trueIds) ≤ k :=
    List.countP_le_length.trans (List.length_take_le _ _)
  rw [samplePrecision_eq_leaders trueIds hk]
  exact Py.Float.ofRatio_mem_Icc hk hle

theorem eraseDups_pairwise {cmp : String → String → Ordering} [Std.TransCmp cmp]
    (sample : List String) :
    (sample.insertionSort (SortKey.Before cmp)).eraseDups.Pairwise (SortKey.Before cmp) :=
  (SortKey.pairwise_insertionSort sample).sublist (Leaders.eraseDups_sublist _)

/-- A replicate with every endpoint that has a peak is the ranking itself. -/
theorem sampleLeaders_eq_rankedIds (k : Nat) (scores : List (WindowScore ℚ))
    (excluded : List String) {sample : List String}
    (h : ∀ e, e ∈ sample ↔ ((scoreMap scores excluded).get? e).isSome) :
    sampleLeaders k (scoreMap scores excluded) sample = (rankedIds scores excluded).take k := by
  have hpeaks : ∀ e, ((scoreMap scores excluded).get? e).isSome ↔
      (∃ q, IsPeak scores e q) ∧ e ∉ excluded := by
    intro e
    rw [get?_scoreMap]
    by_cases he : e ∈ excluded
    · simp [he]
    · simp [he, Option.isSome_iff_exists, peakOf_eq_some_iff]
  have hranked : (rankedIds scores excluded).Pairwise (SortKey.Before
      (rankOrder (fun e => ((scoreMap scores excluded).get? e).getD 0) id)) := by
    refine (pairwise_rankedIds scores excluded).imp_of_mem ?_
    intro a b ha hb hab
    rw [before_rankOrder_iff] at hab ⊢
    rw [get?_scoreMap, get?_scoreMap, if_neg (mem_rankedIds.mp ha).2,
      if_neg (mem_rankedIds.mp hb).2]
    exact hab
  refine congrArg (List.take k) ?_
  apply Leaders.eq_of_pairwise_of_mem_iff (eraseDups_pairwise sample) hranked
    (Leaders.nodup_eraseDups _) (nodup_rankedIds _ _)
  · intro e
    rw [List.mem_eraseDups, List.mem_insertionSort, h, hpeaks, mem_rankedIds]
  · intro a _ b _ hab
    exact rankOrder_eq hab

/-- A replicate with every endpoint that has a peak has the precision of the detector. -/
theorem samplePrecision_eq_precisionAtK {k : Nat} (hk : 0 < k) (scores : List (WindowScore ℚ))
    (labels : CohortLabels) (excluded : List String) {sample : List String}
    (h : ∀ e, e ∈ sample ↔ ((scoreMap scores excluded).get? e).isSome) :
    samplePrecision (trueEventEndpoints labels) k (scoreMap scores excluded) sample =
      (precisionAtK scores labels k excluded).1 := by
  rw [samplePrecision_eq_leaders _ hk, sampleLeaders_eq_rankedIds k scores excluded h,
    precisionAtK_eq]

/-! ## The lift -/

/-- The lift of a replicate is a double between -1 and 1. -/
theorem liftOf_mem_Icc (rng : Rng) (baseline challenger : List (WindowScore ℚ))
    (labels : CohortLabels) {k : Nat} (hk : 0 < k) (replicate : Nat) :
    (liftOf rng baseline challenger labels k replicate).Finite ∧
      |(liftOf rng baseline challenger labels k replicate).value| ≤ 1 := by
  obtain ⟨hfinite, h0, h1⟩ := samplePrecision_mem_Icc (trueEventEndpoints labels) hk
    (scoreMap challenger labels.newEndpoints) (sampleOf rng labels
      (endpointsOf (scoreMap baseline labels.newEndpoints)
        (scoreMap challenger labels.newEndpoints)) replicate)
  obtain ⟨hfinite', h0', h1'⟩ := samplePrecision_mem_Icc (trueEventEndpoints labels) hk
    (scoreMap baseline labels.newEndpoints) (sampleOf rng labels
      (endpointsOf (scoreMap baseline labels.newEndpoints)
        (scoreMap challenger labels.newEndpoints)) replicate)
  exact Py.Float.abs_sub_le_one hfinite hfinite' ⟨h0, h1⟩ ⟨h0', h1'⟩

theorem length_liftsOf (rng : Rng) (baseline challenger : List (WindowScore ℚ))
    (labels : CohortLabels) (k samples : Nat) :
    (liftsOf rng baseline challenger labels k samples).length = samples := by
  rw [liftsOf, List.length_map, List.length_range]

theorem mem_liftsOf {rng : Rng} {baseline challenger : List (WindowScore ℚ)} {labels : CohortLabels}
    {k samples : Nat} {x : Py.Float} :
    x ∈ liftsOf rng baseline challenger labels k samples ↔
      ∃ replicate < samples, liftOf rng baseline challenger labels k replicate = x := by
  rw [liftsOf, List.mem_map]
  simp only [List.mem_range]

/-- What is left of a rounding among lifts is far below the threshold. -/
theorem roundoff_one : 1 + roundoff 1 < Py.Float.overflow := room_of_le (by norm_num)

/-- **The interval of the lifts**: what bounds the lift of every replicate bounds the percentiles of
the lifts, and the lower of them is below the upper, up to the rounding. -/
theorem liftsOf_percentiles (rng : Rng) (baseline challenger : List (WindowScore ℚ))
    (labels : CohortLabels) {k samples : Nat} (hk : 0 < k) (hsamples : 0 < samples)
    (hlarge : samples ≤ 2 ^ 53 + 1) :
    ∃ low high, percentile (liftsOf rng baseline challenger labels k samples) (.ofRatio 5 100) =
          .ok (some low) ∧
        percentile (liftsOf rng baseline challenger labels k samples) (.ofRatio 95 100) =
          .ok (some high) ∧
        low.Finite ∧ high.Finite ∧ low.value ≤ high.value + 2 * roundoff 1 ∧
        ∀ a b, (∀ replicate, a ≤ (liftOf rng baseline challenger labels k replicate).value ∧
            (liftOf rng baseline challenger labels k replicate).value ≤ b) →
          a - roundoff 1 ≤ low.value ∧ low.value ≤ b + roundoff 1 ∧
            a - roundoff 1 ≤ high.value ∧ high.value ≤ b + roundoff 1 := by
  have hlength := length_liftsOf rng baseline challenger labels k samples
  have hlifts : liftsOf rng baseline challenger labels k samples ≠ [] :=
    List.ne_nil_of_length_pos (by rw [hlength]; exact hsamples)
  have hbounds : ∀ x ∈ liftsOf rng baseline challenger labels k samples,
      x.Finite ∧ |x.value| ≤ 1 := by
    intro x hx
    obtain ⟨replicate, -, rfl⟩ := mem_liftsOf.mp hx
    exact liftOf_mem_Icc rng baseline challenger labels hk replicate
  have hnear : ∀ q : Py.Float, q.Finite → 0 ≤ q.value → q.value ≤ 1 → _ := fun q hq h0 h1 =>
    percentile_ok hlifts (hlength.symm ▸ hlarge) (fun x hx => (hbounds x hx).1) hq h0 h1
      (fun x hx => (hbounds x hx).2) roundoff_one
  obtain ⟨hlowShare, hlow0, hlow1⟩ :=
    Py.Float.ofRatio_mem_Icc (n := 5) (d := 100) (by norm_num) (by norm_num)
  obtain ⟨hhighShare, hhigh0, hhigh1⟩ :=
    Py.Float.ofRatio_mem_Icc (n := 95) (d := 100) (by norm_num) (by norm_num)
  obtain ⟨low, hlow, hlowFinite, -, hlowNear⟩ := hnear (.ofRatio 5 100) hlowShare hlow0 hlow1
  obtain ⟨high, hhigh, hhighFinite, -, hhighNear⟩ := hnear (.ofRatio 95 100) hhighShare hhigh0 hhigh1
  have hlines := Interpolation.lerp_mono (lineOf_mono hlifts) (percentileRank_le
    (hlength.symm ▸ hlarge) hlowShare hhighShare hlow0
    (Py.Float.ofRatio_mono (by norm_num) (by norm_num) (by norm_num)) hhigh1)
  rw [abs_le] at hlowNear hhighNear
  refine ⟨low, high, hlow, hhigh, hlowFinite, hhighFinite, by linarith, ?_⟩
  intro a b h
  have hbetween : ∀ x ∈ liftsOf rng baseline challenger labels k samples,
      a ≤ x.value ∧ x.value ≤ b := by
    intro x hx
    obtain ⟨replicate, -, rfl⟩ := mem_liftsOf.mp hx
    exact h replicate
  have hline := lerp_lineOf_mem_Icc hlifts hbetween
  have hlowLine := hline (percentileRank (liftsOf rng baseline challenger labels k samples).length
    (.ofRatio 5 100)).value
  have hhighLine := hline (percentileRank (liftsOf rng baseline challenger labels k samples).length
    (.ofRatio 95 100)).value
  refine ⟨?_, ?_, ?_, ?_⟩ <;> linarith

/-- A detector with the peaks of the other has no lift in any replicate. -/
theorem liftOf_eq_zero (rng : Rng) {baseline challenger : List (WindowScore ℚ)}
    {labels : CohortLabels} {k : Nat} (hk : 0 < k) (replicate : Nat)
    (h : ∀ e ∉ labels.newEndpoints, peakOf baseline e = peakOf challenger e) :
    liftOf rng baseline challenger labels k replicate = .ofNat 0 := by
  have hget : (scoreMap baseline labels.newEndpoints).get? =
      (scoreMap challenger labels.newEndpoints).get? := by
    funext e
    rw [get?_scoreMap, get?_scoreMap]
    by_cases he : e ∈ labels.newEndpoints
    · rw [if_pos he, if_pos he]
    · rw [if_neg he, if_neg he, h e he]
  simp only [liftOf, samplePrecision_congr hget]
  exact Py.Float.sub_self_of_finite (samplePrecision_mem_Icc _ hk _ _).1

theorem mem_endpointsOf {left right : Dict String ℚ} {e : String} :
    e ∈ endpointsOf left right ↔ (left.get? e).isSome ∨ (right.get? e).isSome := by
  simp only [endpointsOf, List.mem_insertionSort, List.mem_eraseDups, List.mem_append,
    Dict.mem_keys_iff]

theorem mem_anchorsOf {labels : CohortLabels} {endpoints : List String} {e : String} :
    e ∈ anchorsOf labels endpoints ↔
      (e ∈ trueEventEndpoints labels ∨ e ∈ labels.jitterEndpoints) ∧ e ∈ endpoints := by
  simp [anchorsOf, List.mem_insertionSort, List.mem_eraseDups]

/-- An endpoint that is not excluded and has a peak. -/
def Ranked (scores : List (WindowScore ℚ)) (labels : CohortLabels) (e : String) : Prop :=
  (∃ q, IsPeak scores e q) ∧ e ∉ labels.newEndpoints

theorem isSome_scoreMap_iff {scores : List (WindowScore ℚ)} {labels : CohortLabels} {e : String} :
    ((scoreMap scores labels.newEndpoints).get? e).isSome ↔ Ranked scores labels e := by
  rw [get?_scoreMap, Ranked]
  by_cases he : e ∈ labels.newEndpoints
  · simp [he]
  · simp [he, Option.isSome_iff_exists, peakOf_eq_some_iff]

/-- Where nothing is drawn, each replicate is the ranking of both. -/
theorem liftOf_of_anchored (rng : Rng) {baseline challenger : List (WindowScore ℚ)}
    {labels : CohortLabels} {k : Nat} (hk : 0 < k)
    (hsame : ∀ e, Ranked baseline labels e ↔ Ranked challenger labels e)
    (hanchored : ∀ e, Ranked baseline labels e →
      e ∈ trueEventEndpoints labels ∨ e ∈ labels.jitterEndpoints) (replicate : Nat) :
    liftOf rng baseline challenger labels k replicate =
      (precisionAtK challenger labels k labels.newEndpoints).1.sub
        (precisionAtK baseline labels k labels.newEndpoints).1 := by
  have hends : ∀ e, e ∈ endpointsOf (scoreMap baseline labels.newEndpoints)
      (scoreMap challenger labels.newEndpoints) ↔ Ranked baseline labels e := by
    intro e
    rw [mem_endpointsOf, isSome_scoreMap_iff, isSome_scoreMap_iff, ← hsame e, or_self]
  have hfillers : fillersOf labels (endpointsOf (scoreMap baseline labels.newEndpoints)
      (scoreMap challenger labels.newEndpoints)) = [] := by
    apply List.filter_eq_nil_iff.mpr
    intro e he
    simpa using mem_anchorsOf.mpr ⟨hanchored e ((hends e).mp he), he⟩
  have hsample : ∀ e, e ∈ sampleOf rng labels (endpointsOf (scoreMap baseline labels.newEndpoints)
      (scoreMap challenger labels.newEndpoints)) replicate ↔ Ranked baseline labels e := by
    intro e
    rw [sampleOf, hfillers]
    simp only [sampledFillers, List.length_nil, lt_self_iff_false, dite_false, List.append_nil]
    rw [mem_anchorsOf, hends]
    exact and_iff_right_of_imp (hanchored e)
  simp only [liftOf]
  rw [samplePrecision_eq_precisionAtK hk challenger labels labels.newEndpoints,
    samplePrecision_eq_precisionAtK hk baseline labels labels.newEndpoints]
  · intro e
    rw [hsample, isSome_scoreMap_iff]
  · intro e
    rw [hsample, isSome_scoreMap_iff, hsame]

theorem precisionAtK_eq_zero {scores : List (WindowScore ℚ)} {labels : CohortLabels} (k : Nat)
    (h : ∀ e, ¬Ranked scores labels e) :
    (precisionAtK scores labels k labels.newEndpoints).1 = .ofNat 0 := by
  have hnil : rankedIds scores labels.newEndpoints = [] :=
    List.eq_nil_iff_forall_not_mem.mpr fun e he => h e (mem_rankedIds.mp he)
  rw [precisionAtK_eq, hnil, List.take_nil, List.countP_nil, Py.Float.ofRatio_zero]

/-- The report of the bootstrap, where there is an endpoint and a lift. -/
theorem pairedBootstrapLift_eq (rng : Rng) {baseline challenger : List (WindowScore ℚ)}
    {labels : CohortLabels} {k samples : Nat} {low high : Py.Float} (hsamples : 0 < samples)
    (hendpoints : endpointsOf (scoreMap baseline labels.newEndpoints)
      (scoreMap challenger labels.newEndpoints) ≠ [])
    (hlow : percentile (liftsOf rng baseline challenger labels k samples) (.ofRatio 5 100) =
      .ok (some low))
    (hhigh : percentile (liftsOf rng baseline challenger labels k samples) (.ofRatio 95 100) =
      .ok (some high)) :
    ∃ mean, (Py.Float.sum (liftsOf rng baseline challenger labels k samples)).div?
        (.ofNat samples) = some mean ∧
      pairedBootstrapLift rng baseline challenger labels k samples = .ok (mean, low, high) := by
  obtain ⟨mean, hmean⟩ := Py.Float.div?_ok
    (Py.Float.sum (liftsOf rng baseline challenger labels k samples)) (Py.Float.ofNat_ne_zero hsamples)
  refine ⟨mean, hmean, ?_⟩
  have hlength := length_liftsOf rng baseline challenger labels k samples
  unfold pairedBootstrapLift
  rw [if_neg hendpoints]
  simp only [hlength, hmean, hlow, hhigh]
  rfl

theorem pairedBootstrapLift_ok (rng : Rng) (baseline challenger : List (WindowScore ℚ))
    (labels : CohortLabels) {k samples : Nat} (hk : 0 < k) (hsamples : 0 < samples)
    (hlarge : samples ≤ 2 ^ 53 + 1) :
    ∃ lift, pairedBootstrapLift rng baseline challenger labels k samples = .ok lift := by
  by_cases hendpoints : endpointsOf (scoreMap baseline labels.newEndpoints)
      (scoreMap challenger labels.newEndpoints) = []
  · exact ⟨_, by simp only [pairedBootstrapLift, if_pos hendpoints]; rfl⟩
  · obtain ⟨low, high, hlow, hhigh, -⟩ :=
      liftsOf_percentiles rng baseline challenger labels hk hsamples hlarge
    obtain ⟨mean, -, hok⟩ := pairedBootstrapLift_eq rng hsamples hendpoints hlow hhigh
    exact ⟨_, hok⟩

/-- Where no replicate has a lift, everything reported is a zero. -/
theorem liftsOf_zeros (rng : Rng) {baseline challenger : List (WindowScore ℚ)}
    {labels : CohortLabels} {k : Nat} (samples : Nat)
    (h : ∀ replicate, liftOf rng baseline challenger labels k replicate = .ofNat 0) :
    liftsOf rng baseline challenger labels k samples = List.replicate samples (.ofNat 0) := by
  apply List.eq_replicate_iff.mpr
  refine ⟨length_liftsOf rng baseline challenger labels k samples, ?_⟩
  intro x hx
  obtain ⟨replicate, -, rfl⟩ := mem_liftsOf.mp hx
  exact h replicate

/-- The scores of two endpoints, by a detector that tells them apart. -/
def twoScores (first second : ℚ) : List (WindowScore ℚ) :=
  [("a", first), ("b", second)].map fun entry : String × ℚ =>
    { endpointId := entry.1, dayIndex := 30, detector := "baseline", score := entry.2, threshold := 1,
      aboveThreshold := decide (1 ≤ entry.2), contributions := [], reason := "peak",
      modelDigest := baselineModelDigest }

end Ml
end SecureMail
