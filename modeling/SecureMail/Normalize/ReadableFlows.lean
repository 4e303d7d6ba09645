import SecureMail.Normalize.Readable

/-!
# Logs `normalize_flows` can read

The events of a connection are the rows of `sm_tcp_recon.log` with its uid, the first 256 of them.
`normalize_flows` returns unless a number it reads cannot be one: a gap count, a port, or a count or
event of a row of `conn.log` that names both of its ends.

The condition on a row of the reconstruction log is one on the events that a flow asks for. A row of
a connection without a flow is never read, and neither is the 257th row of a connection, so a value
there does no harm whatever it is. That is why the condition goes through the table of the
connection and is not one on all rows.
-/

namespace SecureMail
namespace Normalize
namespace Flows

open Py (Dict)
open Fallible (Returns returns_pure returns_bind returns_bind_pure returns_foldlM_iff_forall)

/-! ## The events of a connection -/

/-- The rows of `sm_tcp_recon.log` with this uid, in the order of the log. -/
def eventsOf (logs : Record) (uid : String) : List Record :=
  (rowsOf logs "sm_tcp_recon.log").filter fun row => asStr (row.get "uid") maxUidLen = some uid

/-- The events that are kept. -/
def keptEvents (logs : Record) (uid : String) : List Record :=
  (eventsOf logs uid).take maxEventsPerFlow

theorem appendBounded_take {α : Type} (l : List α) (a : α) :
    appendBounded (l.take maxEventsPerFlow) a = (l ++ [a]).take maxEventsPerFlow := by
  unfold appendBounded
  by_cases hroom : l.length < maxEventsPerFlow
  · have hfits : (l ++ [a]).length ≤ maxEventsPerFlow := by simpa using Nat.succ_le_of_lt hroom
    rw [List.take_of_length_le hroom.le, if_pos hroom, List.take_of_length_le hfits]
  · have hfull : maxEventsPerFlow ≤ l.length := Nat.not_lt.mp hroom
    rw [List.length_take, Nat.min_eq_left hfull, if_neg (Nat.lt_irrefl _),
      List.take_append_of_le_length hfull]

/-- The table holds the first 256 rows of each connection. -/
theorem get?_foldl_reconRowStep {uid : String} {rows : List Record} :
    ∀ {d : Dict String (List Record)} {before : List Record},
      (d.get? uid).getD [] = before.take maxEventsPerFlow →
      ((rows.foldl reconRowStep d).get? uid).getD [] =
        (before ++ rows.filter fun row => asStr (row.get "uid") maxUidLen = some uid).take
          maxEventsPerFlow := by
  induction rows with
  | nil =>
    intro d before hd
    rw [List.filter_nil, List.append_nil]
    exact hd
  | cons row rest ih =>
    intro d before hd
    rw [List.foldl_cons]
    cases hrow : asStr (row.get "uid") maxUidLen with
    | none =>
      have hstep : reconRowStep d row = d := by
        unfold reconRowStep
        rw [hrow]
      simp only [hstep, List.filter_cons, hrow, reduceCtorEq, decide_false, Bool.false_eq_true,
        if_false]
      exact ih hd
    | some rowUid =>
      have hstep : reconRowStep d row = d.update rowUid [] (appendBounded · row) := by
        unfold reconRowStep
        rw [hrow]
      rw [hstep]
      by_cases huid : rowUid = uid
      · subst huid
        have hkept : ((d.update rowUid [] (appendBounded · row)).get? rowUid).getD [] =
            (before ++ [row]).take maxEventsPerFlow := by
          rw [Dict.update, Dict.get?_set_self, Option.getD_some, hd, appendBounded_take]
        simp only [List.filter_cons, hrow, decide_true, if_true]
        rw [List.append_cons]
        exact ih hkept
      · have hother : ((d.update rowUid [] (appendBounded · row)).get? uid).getD [] =
            before.take maxEventsPerFlow := by
          rw [Dict.update, Dict.get?_set, if_neg (Ne.symm huid)]
          exact hd
        simp only [List.filter_cons, hrow, Option.some.injEq, huid, decide_false,
          Bool.false_eq_true, if_false]
        exact ih hother

theorem getD_reconTable (logs : Record) (uid : String) :
    ((reconTable logs).get? uid).getD [] = keptEvents logs uid :=
  @get?_foldl_reconRowStep _ _ ∅ [] rfl

/-! ## What is readable -/

/-- The four numbers of an event. -/
structure EventReadable (event : Record) : Prop where
  seq : IntReadable (event.get "seq")
  length : IntReadable (event.get "len")
  rangeStart : IntReadable (event.get "range_start")
  rangeEnd : IntReadable (event.get "range_end")

theorem returns_reconNumbers_iff {event : Record} :
    Returns (reconNumbers event) ↔ EventReadable event := by
  unfold reconNumbers
  constructor
  · intro h
    obtain ⟨hseq, h⟩ := returns_bind.mp h
    obtain ⟨seq, hseq'⟩ := hseq
    obtain ⟨hlength, h⟩ := returns_bind.mp (h seq hseq')
    obtain ⟨length, hlength'⟩ := hlength
    obtain ⟨hstart, h⟩ := returns_bind.mp (h length hlength')
    obtain ⟨start, hstart'⟩ := hstart
    have hend := returns_bind_pure.mp (h start hstart')
    exact ⟨returns_asInt_iff.mp ⟨seq, hseq'⟩, returns_asInt_iff.mp ⟨length, hlength'⟩,
      returns_asInt_iff.mp ⟨start, hstart'⟩, returns_asInt_iff.mp hend⟩
  · intro h
    refine returns_bind.mpr ⟨returns_asInt_iff.mpr h.seq, fun seq _ => ?_⟩
    refine returns_bind.mpr ⟨returns_asInt_iff.mpr h.length, fun length _ => ?_⟩
    refine returns_bind.mpr ⟨returns_asInt_iff.mpr h.rangeStart, fun start _ => ?_⟩
    exact returns_bind_pure.mpr (returns_asInt_iff.mpr h.rangeEnd)

theorem returns_reconStep_iff {s : Recon} {event : Record} :
    Returns (reconStep s event) ↔ EventReadable event := by
  unfold reconStep
  rw [returns_bind_pure, returns_reconNumbers_iff]

theorem returns_foldlM_reconStep_iff {events : List Record} {s : Recon} :
    Returns (events.foldlM reconStep s) ↔ ∀ event ∈ events, EventReadable event :=
  returns_foldlM_iff_forall fun _ _ _ => returns_reconStep_iff

/-- The counts of a connection, and its events. -/
structure FactsReadable (logs row : Record) (uid : String) : Prop where
  missedBytes : IntReadable (row.get "missed_bytes")
  origBytes : IntReadable (row.get "orig_bytes")
  respBytes : IntReadable (row.get "resp_bytes")
  events : ∀ event ∈ keptEvents logs uid, EventReadable event

/-- A row of `conn.log`: its ports, and the rest once it names both of its ends. -/
structure ConnReadable (logs row : Record) : Prop where
  origPort : IntReadable (recordGet row "id.orig_p")
  respPort : IntReadable (recordGet row "id.resp_p")
  facts : ∀ connection, connectionOf row = .ok (some connection) →
    FactsReadable logs row connection.uid

/-- The rows of the two logs whose numbers are read. -/
structure LogsReadable (logs : Record) : Prop where
  loss : ∀ row ∈ rowsOf logs "capture_loss.log", IntReadable (row.get "gaps")
  conn : ∀ row ∈ rowsOf logs "conn.log", ConnReadable logs row

theorem returns_connectionOf_iff {row : Record} :
    Returns (connectionOf row) ↔
      IntReadable (recordGet row "id.orig_p") ∧ IntReadable (recordGet row "id.resp_p") := by
  unfold connectionOf
  constructor
  · intro h
    obtain ⟨⟨port, hport⟩, h⟩ := returns_bind.mp h
    obtain ⟨hresp, -⟩ := returns_bind.mp (h port hport)
    exact ⟨returns_asInt_iff.mp ⟨port, hport⟩, returns_asInt_iff.mp hresp⟩
  · rintro ⟨horig, hresp⟩
    refine returns_bind.mpr ⟨returns_asInt_iff.mpr horig, fun origPort _ => ?_⟩
    refine returns_bind.mpr ⟨returns_asInt_iff.mpr hresp, fun respPort _ => ?_⟩
    split
    · exact returns_pure _
    · exact returns_pure _

section

variable {logs row : Record} {tables : Tables} {connection : Connection}

theorem returns_factsOf_iff (htable : tables.reconByUid = reconTable logs) :
    Returns (factsOf tables row connection) ↔ FactsReadable logs row connection.uid := by
  unfold factsOf
  rw [htable, getD_reconTable]
  constructor
  · intro h
    obtain ⟨⟨missed, hmissed⟩, h⟩ := returns_bind.mp h
    obtain ⟨⟨orig, horig⟩, h⟩ := returns_bind.mp (h missed hmissed)
    obtain ⟨⟨resp, hresp⟩, h⟩ := returns_bind.mp (h orig horig)
    have hevents := returns_bind_pure.mp (h resp hresp)
    exact ⟨returns_asInt_iff.mp ⟨missed, hmissed⟩, returns_asInt_iff.mp ⟨orig, horig⟩,
      returns_asInt_iff.mp ⟨resp, hresp⟩, returns_foldlM_reconStep_iff.mp hevents⟩
  · intro h
    refine returns_bind.mpr ⟨returns_asInt_iff.mpr h.missedBytes, fun missed _ => ?_⟩
    refine returns_bind.mpr ⟨returns_asInt_iff.mpr h.origBytes, fun orig _ => ?_⟩
    refine returns_bind.mpr ⟨returns_asInt_iff.mpr h.respBytes, fun resp _ => ?_⟩
    exact returns_bind_pure.mpr (returns_foldlM_reconStep_iff.mpr h.events)

theorem returns_connStep_iff (htable : tables.reconByUid = reconTable logs) {flows : List Flow} :
    Returns (connStep tables flows row) ↔ ConnReadable logs row := by
  unfold connStep
  rw [returns_bind, returns_connectionOf_iff]
  constructor
  · rintro ⟨⟨horig, hresp⟩, h⟩
    refine ⟨horig, hresp, ?_⟩
    intro connection hconnection
    exact (returns_factsOf_iff htable).mp (returns_bind_pure.mp (h _ hconnection))
  · intro h
    refine ⟨⟨h.origPort, h.respPort⟩, ?_⟩
    intro connection hconnection
    cases connection with
    | none => exact returns_pure flows
    | some connection =>
      exact returns_bind_pure.mpr ((returns_factsOf_iff htable).mpr (h.facts connection hconnection))

end

/-- **`normalize_flows` returns on the logs it can read, and on no others.** The condition follows
the reader from log to log, and asks only of values that are converted. -/
theorem returns_normalizeFlows_iff {logs : Record} {preflight : CapturePreflight} :
    Returns (normalizeFlows logs preflight) ↔ LogsReadable logs := by
  have hloss : Returns ((rowsOf logs "capture_loss.log").foldlM lossStep 0) ↔
      ∀ row ∈ rowsOf logs "capture_loss.log", IntReadable (row.get "gaps") := by
    refine returns_foldlM_iff_forall fun gaps row _ => ?_
    unfold lossStep
    rw [returns_bind_pure, returns_asInt_iff]
  have hconn : ∀ tables : Tables, tables.reconByUid = reconTable logs →
      (Returns ((rowsOf logs "conn.log").foldlM (connStep tables) []) ↔
        ∀ row ∈ rowsOf logs "conn.log", ConnReadable logs row) := by
    intro tables htable
    exact returns_foldlM_iff_forall fun _ _ _ => returns_connStep_iff htable
  unfold normalizeFlows
  rw [returns_bind, hloss]
  constructor
  · rintro ⟨hreadable, h⟩
    obtain ⟨gaps, hgaps⟩ := hloss.mpr hreadable
    exact ⟨hreadable, (hconn _ rfl).mp (returns_bind.mp (h gaps hgaps)).1⟩
  · intro h
    refine ⟨h.loss, ?_⟩
    intro gaps _
    exact returns_bind.mpr ⟨(hconn _ rfl).mpr h.conn, fun flows _ => returns_pure _⟩

end Flows
end Normalize
end SecureMail
