import SecureMail.Normalize.Emission

/-!
# Times `normalize_sessions` can read

The time of a row is read once the row makes an event, unless the event repeats the capability
before it: then the row is passed over, and its time with it. The time of a frame is read once the
frame makes an event. An integer past the range of a double is what cannot be read.

So the condition is one on a log and not on its rows one by one, which is why it is apart from the
rest. The last event that was logged of a connection is read off the rows before (`lastLogged`), and
it is proved to be what the table holds there (`previous_eq_lastLogged`). The time of a frame has no
such exception.
-/

namespace SecureMail
namespace Normalize
namespace Sessions

open Py (Val Dict)
open Fallible (Returns returns_bind returns_bind_pure returns_foldlM_iff_before)

/-- The last event of the connection that entered the tables. -/
def lastLogged (uid : String) (rows : List Record) : Option ProtocolEvent :=
  (uncollapsed none (rowEvents uid rows)).getLast?.map Prod.fst

/-- The time of a row is one that is read, if the event of the row enters the tables. -/
def RowTimed (flows : List Flow) (before : List Record) (row : Record) : Prop :=
  ∀ flow ∈ flows, asStr (row.get "uid") maxUidLen = some flow.uid →
    ∀ e, rowEvent row = some e →
      isDuplicateCapability (lastLogged flow.uid before) e.1 = false → FloatReadable (row.get "ts")

/-- Every time that is read can be. -/
structure TimesReadable (logs : Record) (flows : List Flow) (tsharkFrames : Option (List Val)) :
    Prop where
  rows : ∀ before row after, emailRows logs = before ++ row :: after → RowTimed flows before row
  frames : ∀ frame ∈ keptFrames tsharkFrames, FrameTimed flows frame

/-! ## The event before a row -/

theorem getLast?_uncollapsed_cons (last : Option ProtocolEvent) (e : RowEvent)
    (rest : List RowEvent) (hnew : isDuplicateCapability last e.1 = false) :
    (((uncollapsed last (e :: rest)).getLast?.map Prod.fst).or last) =
      ((uncollapsed (some e.1) rest).getLast?.map Prod.fst).or (some e.1) := by
  rw [uncollapsed, if_neg (by simp [hnew]), List.getLast?_cons]
  cases (uncollapsed (some e.1) rest).getLast? with
  | none => rfl
  | some _ => rfl

/-- **The pass holds the last event that entered**, or the one it held before. A row that is passed
over does not replace it, and that is why a repetition may be repeated. -/
theorem previous_of_zeekRun {uid : String} {flowByUid : Dict String Flow}
    (hflow : (flowByUid.get? uid).isSome = true) {rows : List Record} {s s' : ZeekPass}
    (h : rows.foldlM (zeekStep flowByUid) s = .ok s') :
    s'.previousByUid.get? uid =
      ((uncollapsed (s.previousByUid.get? uid) (rowEvents uid rows)).getLast?.map Prod.fst).or
        (s.previousByUid.get? uid) := by
  induction rows generalizing s with
  | nil =>
    obtain rfl := Fallible.pure_eq_ok.mp h
    rfl
  | cons row rest ih =>
    obtain ⟨t, ht, hrest⟩ := Fallible.foldlM_cons_eq_ok.mp h
    rw [ih hrest]
    cases hown : rowIsOf uid row with
    | false =>
      have hprevious : t.previousByUid.get? uid = s.previousByUid.get? uid :=
        congrArg ZeekShare.previous (spares_zeekStep flowByUid uid s t row hown ht)
      rw [rowEvents_other hown, hprevious]
    | true =>
      rw [rowEvents_own hown]
      rcases zeekStep_row hown hflow ht with
        ⟨hnone, rfl⟩ | ⟨e, he, ⟨hdup, rfl⟩ | ⟨hnew, ts, order, rfl⟩⟩
      · rw [hnone]
        rfl
      · rw [he, Option.toList_some, List.singleton_append, uncollapsed, if_pos hdup]
      · rw [he, Option.toList_some, List.singleton_append, getLast?_uncollapsed_cons _ _ _ hnew,
          previous_record rfl]

theorem previous_eq_lastLogged {uid : String} {flowByUid : Dict String Flow}
    (hflow : (flowByUid.get? uid).isSome = true) {rows : List Record} {s : ZeekPass}
    (h : rows.foldlM (zeekStep flowByUid) {} = .ok s) :
    s.previousByUid.get? uid = lastLogged uid rows := by
  rw [previous_of_zeekRun hflow h]
  exact Option.or_none

/-! ## The two passes -/

theorem rowEvent_eq_some {row : Record} {event : ProtocolEvent}
    (h : eventFromEmailRow row = .ok (some event)) :
    rowEvent row = some (event, protocolFromName (asStr (row.get "protocol") 16)) := by
  unfold rowEvent
  rw [h]

theorem eventFromEmailRow_of_rowEvent {row : Record} {e : RowEvent} (h : rowEvent row = some e) :
    eventFromEmailRow row = .ok (some e.1) := by
  unfold rowEvent at h
  split at h
  · rename_i event hevent
    cases h
    exact hevent
  · cases h

theorem returns_zeekStep_iff_timed {flows : List Flow} {before : List Record} {row : Record}
    {s : ZeekPass} (hrun : before.foldlM (zeekStep (flowsByUid flows)) {} = .ok s) :
    Returns (zeekStep (flowsByUid flows) s row) ↔
      RowReadable flows row ∧ RowTimed flows before row := by
  rw [returns_zeekStep_iff]
  simp only [flowsByUid_isSome, returns_eventFromEmailRow_iff]
  have hprevious : ∀ flow ∈ flows,
      s.previousByUid.get? flow.uid = lastLogged flow.uid before := fun flow hflow =>
    previous_eq_lastLogged (flowsByUid_isSome.mpr ⟨flow, hflow, rfl⟩) hrun
  constructor
  · intro h
    refine ⟨?_, ?_⟩
    · rintro ⟨flow, hflow, huid⟩
      exact (h flow.uid huid ⟨flow, hflow, rfl⟩).1
    · intro flow hflow huid e he hnew
      rw [← hprevious flow hflow] at hnew
      exact (h flow.uid huid ⟨flow, hflow, rfl⟩).2 e.1 (eventFromEmailRow_of_rowEvent he) hnew
  · rintro ⟨hreadable, htimed⟩ uid huid ⟨flow, hflow, rfl⟩
    refine ⟨hreadable ⟨flow, hflow, huid⟩, ?_⟩
    intro event hevent hnew
    rw [hprevious flow hflow] at hnew
    exact htimed flow hflow huid _ (rowEvent_eq_some hevent) hnew

theorem returns_zeekPass_iff_timed {logs : Record} {flows : List Flow} :
    Returns (zeekPass logs (flowsByUid flows)) ↔
      (∀ row ∈ emailRows logs, RowReadable flows row) ∧
        ∀ before row after, emailRows logs = before ++ row :: after →
          RowTimed flows before row := by
  have hrun : Returns (zeekPass logs (flowsByUid flows)) ↔
      ∀ before row after, emailRows logs = before ++ row :: after →
        RowReadable flows row ∧ RowTimed flows before row :=
    returns_foldlM_iff_before fun before row after s _ hs => returns_zeekStep_iff_timed hs
  rw [hrun]
  constructor
  · intro h
    refine ⟨?_, fun before row after hsplit => (h before row after hsplit).2⟩
    intro row hrow
    obtain ⟨before, after, hsplit⟩ := List.append_of_mem hrow
    exact (h before row after hsplit).1
  · rintro ⟨hreadable, htimed⟩ before row after hsplit
    refine ⟨hreadable row ?_, htimed before row after hsplit⟩
    rw [hsplit]
    exact List.mem_append_right before List.mem_cons_self

/-- **`normalize_sessions` returns on the input it can read, and on no other.** Nothing is assumed
of the times any more, unlike in the module before. -/
theorem returns_normalizeSessions_iff_timed {logs : Record} {flows : List Flow}
    {tsharkFrames : Option (List Val)} :
    Returns (normalizeSessions logs flows tsharkFrames) ↔
      InputReadable logs flows tsharkFrames ∧ TimesReadable logs flows tsharkFrames := by
  unfold normalizeSessions readTables
  rw [returns_bind_pure, returns_bind]
  simp only [returns_bind_pure, returns_tsharkPass_iff_timed]
  constructor
  · rintro ⟨hzeek, h⟩
    obtain ⟨hrows, htimes⟩ := returns_zeekPass_iff_timed.mp hzeek
    obtain ⟨zeek, hrun⟩ := hzeek
    exact ⟨⟨hrows, fun frame hframe => (h zeek hrun frame hframe).1⟩,
      ⟨htimes, fun frame hframe => (h zeek hrun frame hframe).2⟩⟩
  · rintro ⟨hreadable, htimes⟩
    exact ⟨returns_zeekPass_iff_timed.mpr ⟨hreadable.rows, htimes.rows⟩, fun _ _ frame hframe =>
      ⟨hreadable.frames frame hframe, htimes.frames frame hframe⟩⟩

end Sessions
end Normalize
end SecureMail
