import SecureMail.Lib.Bounded
import SecureMail.Lib.Fallible
import SecureMail.Lib.Transition
import SecureMail.Ml.Advisory

/-!
# The window history

`windows.jsonl` is a log of windows that keeps its last `max_windows`. Each job reads it, gives its
own windows the day after the last day it has read, and appends them. The day is not kept anywhere
else, and the log is cut at every append; what saves the count is that the cut takes the oldest
windows, so the last day is always still there.

The cut is a trailing window of everything that was ever appended, and a trailing window of a
trailing window is one again (`rtake_append_rtake`). So the file is described by the list of all
appends without mention of the file before it, which is what `Retained` says, and the invariant of a
run is one equation and one order.
-/

namespace SecureMail
namespace Ml

open Transition Bounded
open Policy (EvidenceBatch)

/-- `MAX_ML_WINDOWS`. -/
def maxMlWindows : Nat := 512

structure FilesystemMlHistoryStore where
  maxWindows : Nat := maxMlWindows
  maxWindows_pos : 0 < maxWindows := by decide

variable {F : Type}

/-- `(item.day_index, item.endpoint_id)`. -/
def windowOrder : EndpointWindow F → EndpointWindow F → Ordering :=
  compareLex (compareOn (·.dayIndex)) (compareOn (·.endpointId))

instance : Std.TransCmp (windowOrder (F := F)) :=
  inferInstanceAs (Std.TransCmp (compareLex (compareOn EndpointWindow.dayIndex)
    (compareOn EndpointWindow.endpointId)))

namespace FilesystemMlHistoryStore

/-- `load_windows`, of a file with these windows. -/
def loadWindows (store : FilesystemMlHistoryStore) (file : List (EndpointWindow F)) :
    List (EndpointWindow F) :=
  (file.insertionSort (SortKey.Before windowOrder)).rtake store.maxWindows

/-- `append_windows`: the windows of the file after it. -/
def appendWindows (store : FilesystemMlHistoryStore) (file windows : List (EndpointWindow F)) :
    List (EndpointWindow F) :=
  (store.loadWindows file ++ windows).rtake store.maxWindows

end FilesystemMlHistoryStore

/-- A job that gets as far as its append: the windows are what the pipeline returns for some
document and scorers on the history that is stored. A job that fails before its append leaves the
file alone and is no step. The scorers may be any at each job, since a deployment may change its
model between two captures. -/
def AppendStep [FloatOps F] (store : FilesystemMlHistoryStore) (sha256 : String → Jobs.Digest)
    (file appended file' : List (EndpointWindow F)) : Prop :=
  ∃ scorers document section_,
    attachAdvisoriesWithHistory sha256 scorers (store.loadWindows file) document =
      .ok (section_, appended) ∧ file' = store.appendWindows file appended

/-! ## The windows of one job -/

section

variable [FloatOps F] {sha256 : String → Jobs.Digest} {document : EvidenceBatch}
  {windows history current : List (EndpointWindow F)} {scorers : List (AnomalyScorer F)}
  {advisory : AdvisorySection}

theorem validate_eq_ok {window window' : EndpointWindow F} (h : window.validate = .ok window') :
    window' = window := by
  unfold EndpointWindow.validate at h
  split at h
  · cases h
  · split at h
    · cases h
    · split at h
      · cases h
      · split at h
        · cases h
        · split at h
          · cases h
          · exact (Except.ok.inj h).symm

omit [FloatOps F] in
/-- The items of a dictionary sorted by their keys, which are different. -/
theorem pairwise_sortedItems {ν : Type} (d : Py.Dict String ν) :
    (d.entries.insertionSort (SortKey.Before (compareOn (·.1)))).Pairwise fun a b =>
      compare a.1 b.1 = .lt := by
  have hsorted : (d.entries.insertionSort (SortKey.Before (compareOn (·.1)))).Pairwise
      (SortKey.Before (compareOn (·.1))) := SortKey.pairwise_insertionSort d.entries
  have hnodup : ((d.entries.insertionSort (SortKey.Before (compareOn (·.1)))).map (·.1)).Nodup :=
    ((List.perm_insertionSort _ d.entries).map (·.1)).nodup_iff.mpr d.nodup
  rw [List.Nodup, List.pairwise_map] at hnodup
  refine (hsorted.and hnodup).imp ?_
  rintro a b ⟨hle, hne⟩
  have hle' : (compare a.1 b.1).isLE = true := hle
  cases hcompare : compare a.1 b.1 with
  | lt => rfl
  | eq => exact absurd (Std.LawfulEqOrd.eq_of_compare hcompare) hne
  | gt =>
    rw [hcompare] at hle'
    exact absurd hle' (by decide)

/-- The windows of a capture are in order of their endpoints, no endpoint twice. -/
theorem pairwise_extractEndpointWindows
    (h : extractEndpointWindows sha256 document = .ok windows) :
    windows.Pairwise fun a b => compare a.endpointId b.endpointId = .lt := by
  have hnames : ∀ (groups : List (String × List Row)) (windows : List (EndpointWindow F)),
      groups.mapM (fun group => (windowOf sha256 document group.1 group.2).validate) = .ok windows →
        windows.map (·.endpointId) = groups.map (·.1) := by
    intro groups
    induction groups with
    | nil =>
      intro windows h
      obtain rfl := Fallible.pure_eq_ok.mp h
      rfl
    | cons group rest ih =>
      intro windows h
      obtain ⟨window, rest', hwindow, hrest, rfl⟩ := Fallible.mapM_cons_eq_ok.mp h
      obtain rfl := validate_eq_ok hwindow
      rw [List.map_cons, List.map_cons, ih rest' hrest]
      rfl
  have hgroups : (groupedRows document).Pairwise fun a b => compare a.1 b.1 = .lt :=
    pairwise_sortedItems _
  rw [← List.pairwise_map (R := fun a b : String => compare a b = .lt), ← hnames _ _ h,
    List.pairwise_map] at hgroups
  exact hgroups

/-- The windows a job appends are of one day, the next one, in order of their endpoints. -/
theorem of_attachAdvisoriesWithHistory
    (h : attachAdvisoriesWithHistory sha256 scorers history document = .ok (advisory, current)) :
    (∀ window ∈ current, window.dayIndex = nextDay history) ∧
      current.Pairwise fun a b => compare a.endpointId b.endpointId = .lt := by
  obtain ⟨extracted, hextracted, h⟩ := Fallible.bind_eq_ok.mp h
  obtain ⟨scores, -, h⟩ := Fallible.bind_eq_ok.mp h
  obtain ⟨-, rfl⟩ := Prod.mk.inj (Fallible.pure_eq_ok.mp h)
  constructor
  · intro window hwindow
    obtain ⟨extractedWindow, -, rfl⟩ := List.mem_map.mp hwindow
    rfl
  · rw [assignDayIndex, List.pairwise_map]
    exact pairwise_extractEndpointWindows hextracted

end

/-! ## The invariant -/

/-- Every stored window is before the next day. -/
theorem lt_nextDay {history : List (EndpointWindow F)} {window : EndpointWindow F}
    (h : window ∈ history) : window.dayIndex < nextDay history := by
  have hmem : window.dayIndex ∈ history.map (·.dayIndex) := List.mem_map.mpr ⟨window, h, rfl⟩
  unfold nextDay
  cases hmax : (history.map (·.dayIndex)).max? with
  | none =>
    rw [List.max?_eq_none_iff.mp hmax] at hmem
    cases hmem
  | some last => exact Nat.lt_succ_of_le ((List.max?_eq_some_iff.mp hmax).2 _ hmem)

theorem dayIndex_le_of_windowOrder {a b : EndpointWindow F} (h : windowOrder a b = .lt) :
    a.dayIndex ≤ b.dayIndex := by
  have hthen : (compare a.dayIndex b.dayIndex).then (compare a.endpointId b.endpointId) = .lt := h
  rcases Ordering.then_eq_lt.mp hthen with hlt | ⟨heq, -⟩
  · exact (Nat.compare_eq_lt.mp hlt).le
  · exact (Nat.compare_eq_eq.mp heq).le

theorem windowOrder_of_dayIndex_lt {a b : EndpointWindow F} (h : a.dayIndex < b.dayIndex) :
    windowOrder a b = .lt := by
  show (compare a.dayIndex b.dayIndex).then (compare a.endpointId b.endpointId) = .lt
  rw [Nat.compare_eq_lt.mpr h]
  rfl

theorem windowOrder_of_endpointId_lt {a b : EndpointWindow F} (hday : a.dayIndex = b.dayIndex)
    (h : compare a.endpointId b.endpointId = .lt) : windowOrder a b = .lt := by
  show (compare a.dayIndex b.dayIndex).then (compare a.endpointId b.endpointId) = .lt
  rw [Nat.compare_eq_eq.mpr hday]
  exact h

/-- Everything that was appended is in strict order, and the file has the last of it. The order is
by day and then by endpoint, and being strict it says that no endpoint has two windows for one day.
-/
structure Retained (store : FilesystemMlHistoryStore) (appended : List (List (EndpointWindow F)))
    (file : List (EndpointWindow F)) : Prop where
  ordered : appended.flatten.Pairwise fun a b => windowOrder a b = .lt
  file_eq : file = appended.flatten.rtake store.maxWindows

namespace Retained

variable {store : FilesystemMlHistoryStore} {appended : List (List (EndpointWindow F))}
  {file current : List (EndpointWindow F)}

theorem insertionSort_eq {l : List (EndpointWindow F)}
    (h : l.Pairwise fun a b => windowOrder a b = .lt) :
    l.insertionSort (SortKey.Before windowOrder) = l := by
  refine SortKey.insertionSort_of_pairwise (h.imp ?_)
  intro a b hab
  show (windowOrder a b).isLE = true
  rw [hab]
  rfl

/-- The file is read as it was written. -/
theorem loadWindows_eq (h : Retained store appended file) : store.loadWindows file = file := by
  have hfile : file.Pairwise fun a b => windowOrder a b = .lt := by
    rw [h.file_eq]
    exact h.ordered.sublist (rtake_sublist _ _)
  rw [FilesystemMlHistoryStore.loadWindows, insertionSort_eq hfile, h.file_eq, rtake_rtake]

/-- The next day is after everything that was ever appended: the last window is still there. -/
theorem lt_nextDay (h : Retained store appended file) {window : EndpointWindow F}
    (hwindow : window ∈ appended.flatten) : window.dayIndex < nextDay file := by
  obtain ⟨last, hlast⟩ := List.getLast?_isSome.mpr (List.ne_nil_of_mem hwindow) |> Option.isSome_iff_exists.mp
  have hle : window.dayIndex ≤ last.dayIndex := by
    obtain ⟨earlier, hearlier⟩ := List.getLast?_eq_some_iff.mp hlast
    have hordered := h.ordered
    rw [hearlier] at hwindow hordered
    rcases List.mem_append.mp hwindow with hmem | hmem
    · exact dayIndex_le_of_windowOrder
        ((List.pairwise_append.mp hordered).2.2 window hmem last (List.mem_singleton_self _))
    · rw [List.mem_singleton.mp hmem]
  have hkept : last ∈ file := by
    refine List.mem_of_getLast? ?_
    rw [h.file_eq, getLast?_rtake store.maxWindows_pos]
    exact hlast
  exact hle.trans_lt (Ml.lt_nextDay hkept)

/-- An append keeps the order and cuts the oldest. -/
theorem append (h : Retained store appended file)
    (hday : ∀ window ∈ current, window.dayIndex = nextDay file)
    (hendpoints : current.Pairwise fun a b => compare a.endpointId b.endpointId = .lt) :
    Retained store (appended ++ [current]) (store.appendWindows file current) := by
  have hflatten : (appended ++ [current]).flatten = appended.flatten ++ current := by simp
  constructor
  · rw [hflatten, List.pairwise_append]
    refine ⟨h.ordered, ?_, ?_⟩
    · refine hendpoints.imp_of_mem ?_
      intro a b ha hb hab
      exact windowOrder_of_endpointId_lt ((hday a ha).trans (hday b hb).symm) hab
    · intro old hold window hwindow
      refine windowOrder_of_dayIndex_lt ?_
      rw [hday window hwindow]
      exact h.lt_nextDay hold
  · rw [FilesystemMlHistoryStore.appendWindows, h.loadWindows_eq, hflatten, h.file_eq,
      rtake_append_rtake]

end Retained

section

variable [FloatOps F] {store : FilesystemMlHistoryStore} {sha256 : String → Jobs.Digest}
  {trace : List (List (EndpointWindow F))} {file current file' : List (EndpointWindow F)}

theorem AppendStep.retained (hstep : AppendStep store sha256 file current file')
    (h : Retained store trace file) : Retained store (trace ++ [current]) file' := by
  obtain ⟨scorers, document, advisory, hattach, rfl⟩ := hstep
  rw [h.loadWindows_eq] at hattach
  obtain ⟨hday, hendpoints⟩ := of_attachAdvisoriesWithHistory hattach
  exact h.append hday hendpoints

theorem retained_of_run (h : Run (AppendStep store sha256) [] trace file) :
    Retained store trace file :=
  h.trace_invariant (fun _ _ _ _ hI hstep => hstep.retained hI)
    ⟨List.Pairwise.nil, by rw [List.flatten_nil, List.rtake_nil]⟩

/-- **After any sequence of jobs** the history is within its bound, a job appends only windows of
later days than all that are stored, and what is stored is the last of everything that was ever
appended, in order of days and endpoints. -/
theorem history_over_runs (h : Run (AppendStep store sha256) [] trace file) :
    file.length ≤ store.maxWindows ∧
      (∀ current file', AppendStep store sha256 file current file' →
        ∀ window ∈ current, ∀ stored ∈ file, stored.dayIndex < window.dayIndex) ∧
      file = (trace.flatten.insertionSort (SortKey.Before windowOrder)).rtake store.maxWindows := by
  have hretained := retained_of_run h
  refine ⟨?_, ?_, ?_⟩
  · rw [hretained.file_eq]
    exact length_rtake_le _ _
  · rintro current file' ⟨scorers, document, advisory, hattach, -⟩ window hwindow stored hstored
    rw [hretained.loadWindows_eq] at hattach
    rw [(of_attachAdvisoriesWithHistory hattach).1 window hwindow]
    exact lt_nextDay hstored
  · rw [Retained.insertionSort_eq hretained.ordered]
    exact hretained.file_eq

end

/-! ## One endpoint, captured twice -/

def smtpFlow : Flow where
  uid := "C1"
  orig := ⟨"192.0.2.9", 40000⟩
  resp := ⟨"192.0.2.1", 25⟩
  proto := .tcp
  history := "ShADad"
  connState := "SF"
  missedBytes := 0
  origBytes := 120
  respBytes := 90
  reconstructionQuality := .complete
  gapBytes := 0
  evidenceState := .observed

def smtpSession : EmailSession where
  uid := "C1"
  protocol := some .smtp
  portHint := .smtp
  payloadEvidence := .smtp
  evidenceState := .observed

def oneSession : EvidenceBatch where
  flows := [smtpFlow]
  sessions := [smtpSession]

def zeroDigest : Jobs.Digest :=
  ⟨"0000000000000000000000000000000000000000000000000000000000000000", by decide +kernel,
    by decide +kernel⟩

/-- What the job of the capture answers on a history. -/
def attachOn (history : List (EndpointWindow Rat)) :
    Except AdvisoryError (AdvisorySection × List (EndpointWindow Rat)) :=
  attachAdvisoriesWithHistory (fun _ => zeroDigest)
    [fun windows => .ok (BaselineAnomalyScorer.scoreWindows windows)] history oneSession

/-- The windows of the capture, if its job gets as far as the append. -/
def windowsOn (history : List (EndpointWindow Rat)) : List (EndpointWindow Rat) :=
  match attachOn history with
  | .ok (_, windows) => windows
  | .error _ => []

def firstWindows : List (EndpointWindow Rat) := windowsOn []
def secondWindows : List (EndpointWindow Rat) := windowsOn firstWindows

theorem appendStep_windowsOn (history : List (EndpointWindow Rat))
    (hload : ({} : FilesystemMlHistoryStore).loadWindows history = history)
    (hok : (attachOn history).isOk = true) :
    AppendStep {} (fun _ => zeroDigest) history (windowsOn history)
      (({} : FilesystemMlHistoryStore).appendWindows history (windowsOn history)) := by
  cases hattach : attachOn history with
  | error e =>
    rw [hattach] at hok
    cases hok
  | ok result =>
    obtain ⟨advisory, windows⟩ := result
    have hwindows : windowsOn history = windows := by
      rw [windowsOn, hattach]
    refine ⟨[fun windows => .ok (BaselineAnomalyScorer.scoreWindows windows)], oneSession, advisory,
      ?_, rfl⟩
    rw [hload, hwindows]
    exact hattach

theorem appendStep_firstWindows :
    AppendStep {} (fun _ => zeroDigest) [] firstWindows firstWindows := by
  have hempty : ({} : FilesystemMlHistoryStore).appendWindows [] firstWindows = firstWindows := by
    decide +kernel
  have hstep : AppendStep {} (fun _ => zeroDigest) [] firstWindows
      (({} : FilesystemMlHistoryStore).appendWindows [] firstWindows) :=
    appendStep_windowsOn [] rfl (by decide +kernel)
  rw [hempty] at hstep
  exact hstep

theorem history_after_two_captures :
    (firstWindows ++ secondWindows).map (fun window => (window.endpointId, window.dayIndex)) =
        [("192.0.2.1:25", 0), ("192.0.2.1:25", 1)] ∧
      (firstWindows ++ secondWindows).length ≤ 512 ∧
      firstWindows ++ secondWindows =
        ([firstWindows, secondWindows].flatten.insertionSort
          (SortKey.Before windowOrder)).rtake 512 := by
  have hrun : Run (AppendStep {} fun _ => zeroDigest) [] [firstWindows, secondWindows]
      (firstWindows ++ secondWindows) := by
    have hsecond := appendStep_windowsOn firstWindows (by decide +kernel)
      (by decide +kernel)
    have hfull : ({} : FilesystemMlHistoryStore).appendWindows firstWindows secondWindows =
        firstWindows ++ secondWindows := by
      decide +kernel
    exact (Run.single appendStep_firstWindows).snoc (hfull ▸ hsecond)
  have hhistory := history_over_runs hrun
  exact ⟨by decide +kernel, hhistory.1, hhistory.2.2⟩

end Ml
end SecureMail
