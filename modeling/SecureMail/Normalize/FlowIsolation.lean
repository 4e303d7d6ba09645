import SecureMail.Normalize.Conflicts
import SecureMail.Normalize.Isolation

/-!
# One flow among many

The rows of all connections are interleaved in shared logs and grouped by uid in shared tables. What
a connection reads from a table is the first 256 of its own rows (`getD_reconTable`), so rows of
other connections can neither displace them nor stand between them, whatever their number. The names
`weird.log` gives are kept beside the facts and judged by nobody, so that log may differ freely.

Hence two results. Logs in which every connection has its own rows in the same order give the same
output (`Reordered`), and logs that agree on one connection give it the same flows (`AgreeOn`).
-/

namespace SecureMail
namespace Normalize
namespace Flows

open Py (Dict)
open Fallible (bind_eq_ok pure_eq_ok)
open Sessions (itemsOf recordsOf boundedRecords_eq)

/-! ## What a row reads of the tables -/

/-- The tables say the same of a connection to whoever judges it. The names of oddities are not part
of it: they are kept with the facts, and no verdict reads them. -/
structure SameFor (uid : String) (tables tables' : Tables) : Prop where
  loss : tables.captureLossGaps = tables'.captureLossGaps
  recon : (tables.reconByUid.get? uid).getD [] = (tables'.reconByUid.get? uid).getD []
  truncated : tables.truncatedPackets = tables'.truncatedPackets

variable {tables tables' : Tables} {row : Record} {connection : Connection} {uid : String}

theorem factsOf_same (h : SameFor connection.uid tables tables') {facts facts' : ReconstructionFacts}
    (hfacts : factsOf tables row connection = .ok facts)
    (hfacts' : factsOf tables' row connection = .ok facts') :
    flowOf connection facts = flowOf connection facts' := by
  obtain ⟨missed, hmissed, hfacts⟩ := bind_eq_ok.mp hfacts
  obtain ⟨origBytes, horig, hfacts⟩ := bind_eq_ok.mp hfacts
  obtain ⟨respBytes, hresp, hfacts⟩ := bind_eq_ok.mp hfacts
  obtain ⟨recon, hrecon, hfacts⟩ := bind_eq_ok.mp hfacts
  obtain ⟨missed', hmissed', hfacts'⟩ := bind_eq_ok.mp hfacts'
  obtain ⟨origBytes', horig', hfacts'⟩ := bind_eq_ok.mp hfacts'
  obtain ⟨respBytes', hresp', hfacts'⟩ := bind_eq_ok.mp hfacts'
  obtain ⟨recon', hrecon', hfacts'⟩ := bind_eq_ok.mp hfacts'
  obtain rfl := Except.ok.inj (hmissed.symm.trans hmissed')
  obtain rfl := Except.ok.inj (horig.symm.trans horig')
  obtain rfl := Except.ok.inj (hresp.symm.trans hresp')
  rw [h.recon] at hrecon
  obtain rfl := Except.ok.inj (hrecon.symm.trans hrecon')
  obtain rfl := pure_eq_ok.mp hfacts
  obtain rfl := pure_eq_ok.mp hfacts'
  rw [h.loss, h.truncated]
  rfl

/-- A row has one flow. -/
theorem IsFlowOf.same {flow flow' : Flow}
    (hsame : ∀ connection, connectionOf row = .ok (some connection) →
      SameFor connection.uid tables tables')
    (h : IsFlowOf tables row flow) (h' : IsFlowOf tables' row flow') : flow = flow' := by
  obtain ⟨connection, facts, hconnection, hfacts, rfl⟩ := h
  obtain ⟨connection', facts', hconnection', hfacts', rfl⟩ := h'
  obtain rfl := Option.some.inj (Except.ok.inj (hconnection.symm.trans hconnection'))
  exact factsOf_same (hsame connection hconnection) hfacts hfacts'

/-- The row is of this connection. -/
def rowIsOf (uid : String) (row : Record) : Bool := asStr (row.get "uid") maxUidLen = some uid

/-- The row names both of its ends. -/
def namesEnds (row : Record) : Bool :=
  match connectionOf row with
  | .ok (some _) => true
  | _ => false

theorem uid_connectionOf (h : connectionOf row = .ok (some connection)) :
    asStr (row.get "uid") maxUidLen = some connection.uid := by
  obtain ⟨origPort, -, h⟩ := bind_eq_ok.mp h
  obtain ⟨respPort, -, h⟩ := bind_eq_ok.mp h
  split at h
  · rename_i huid _ _
    obtain rfl := Option.some.inj (pure_eq_ok.mp h)
    exact huid
  · exact absurd (pure_eq_ok.mp h) (by simp)

theorem IsFlowOf.own_iff {flow : Flow} (h : IsFlowOf tables row flow) :
    (flow.uid = uid) ↔ rowIsOf uid row = true := by
  obtain ⟨connection, facts, hconnection, -, rfl⟩ := h
  rw [uid_flowOf, rowIsOf, uid_connectionOf hconnection, decide_eq_true_iff, Option.some.injEq]

/-! ## The flows of a log -/

/-- **One flow for each row that names both of its ends**, in the order of the rows. -/
theorem forall₂_connStep {rows : List Record} {flows out : List Flow}
    (h : rows.foldlM (connStep tables) flows = .ok out) :
    ∃ made, List.Forall₂ (IsFlowOf tables) (rows.filter namesEnds) made ∧ out = flows ++ made := by
  induction rows generalizing flows with
  | nil =>
    obtain rfl := pure_eq_ok.mp h
    exact ⟨[], .nil, (List.append_nil _).symm⟩
  | cons row rest ih =>
    obtain ⟨flows', hstep, hrest⟩ := Fallible.foldlM_cons_eq_ok.mp h
    obtain ⟨made, hmade, rfl⟩ := ih hrest
    obtain ⟨connection, hconnection, hstep⟩ := bind_eq_ok.mp hstep
    cases connection with
    | none =>
      obtain rfl := pure_eq_ok.mp hstep
      have hends : namesEnds row = false := by rw [namesEnds, hconnection]
      rw [List.filter_cons_of_neg (by simp [hends])]
      exact ⟨made, hmade, rfl⟩
    | some connection =>
      obtain ⟨facts, hfacts, hstep⟩ := bind_eq_ok.mp hstep
      obtain rfl := pure_eq_ok.mp hstep
      have hends : namesEnds row = true := by rw [namesEnds, hconnection]
      rw [List.filter_cons_of_pos hends]
      refine ⟨flowOf connection facts :: made, .cons ?_ hmade, by simp⟩
      exact ⟨connection, facts, hconnection, hfacts, rfl⟩

/-- The flows of one connection come from its own rows. -/
theorem forall₂_filter {rows : List Record} {made : List Flow}
    (h : List.Forall₂ (IsFlowOf tables) rows made) (uid : String) :
    List.Forall₂ (IsFlowOf tables) (rows.filter (rowIsOf uid))
      (made.filter fun flow => flow.uid = uid) := by
  induction h with
  | nil => exact .nil
  | @cons row flow rows made hflow _ ih =>
    by_cases hrow : rowIsOf uid row = true
    · have huid : flow.uid = uid := hflow.own_iff.mpr hrow
      rw [List.filter_cons_of_pos hrow, List.filter_cons_of_pos (by simpa using huid)]
      exact .cons hflow ih
    · have huid : ¬flow.uid = uid := fun h => hrow (hflow.own_iff.mp h)
      rw [List.filter_cons_of_neg hrow, List.filter_cons_of_neg (by simpa using huid)]
      exact ih

theorem eq_of_forall₂ {rows : List Record} {made made' : List Flow}
    (hsame : ∀ row ∈ rows, ∀ connection, connectionOf row = .ok (some connection) →
      SameFor connection.uid tables tables')
    (h : List.Forall₂ (IsFlowOf tables) rows made)
    (h' : List.Forall₂ (IsFlowOf tables') rows made') : made = made' := by
  induction h generalizing made' with
  | nil =>
    cases h'
    rfl
  | @cons row flow rows made hflow _ ih =>
    cases h' with
    | cons hflow' hrest' =>
      rw [List.forall_mem_cons] at hsame
      rw [IsFlowOf.same hsame.1 hflow hflow', ih hsame.2 hrest']

instance : Std.TransCmp flowOrdering :=
  inferInstanceAs (Std.TransCmp
    (compareLex (compareOn fun f : Flow => f.proto.value)
      (compareLex (compareOn fun f => f.orig.host)
        (compareLex (compareOn fun f => f.orig.port.val)
          (compareLex (compareOn fun f => f.resp.host)
            (compareLex (compareOn fun f => f.resp.port.val) (compareOn fun f => f.uid)))))))

/-! ## The tables of two logs -/

/-- Everything a log holds. -/
def allRows (logs : Record) (name : String) : List Record := recordsOf (getLog logs name)

/-- No log is cut. -/
def WithinLimits (logs : Record) : Prop :=
  ∀ name ∈ ["conn.log", "weird.log", "capture_loss.log", "sm_tcp_recon.log"],
    (itemsOf (getLog logs name)).length ≤ maxRecords

/-- The logs say the same of one connection, row for row. The rows of the others may differ in any
way, and so may `weird.log`. The loss of the capture is in no connection's rows, and it is asked to
be the same: a gap count is added to each flow. -/
structure AgreeOn (uid : String) (logs logs' : Record) : Prop where
  conn : (allRows logs "conn.log").filter (rowIsOf uid) =
    (allRows logs' "conn.log").filter (rowIsOf uid)
  recon : (allRows logs "sm_tcp_recon.log").filter (rowIsOf uid) =
    (allRows logs' "sm_tcp_recon.log").filter (rowIsOf uid)
  loss : allRows logs "capture_loss.log" = allRows logs' "capture_loss.log"

/-- Every connection has its own rows in the same order, and the connections are the same. The rows
of `conn.log` are one for each flow, and the order of the flows is theirs. -/
structure Reordered (logs logs' : Record) : Prop where
  conn : allRows logs "conn.log" = allRows logs' "conn.log"
  recon : ∀ uid, (allRows logs "sm_tcp_recon.log").filter (rowIsOf uid) =
    (allRows logs' "sm_tcp_recon.log").filter (rowIsOf uid)
  loss : allRows logs "capture_loss.log" = allRows logs' "capture_loss.log"

theorem Reordered.agreeOn {logs logs' : Record} (h : Reordered logs logs') (uid : String) :
    AgreeOn uid logs logs' :=
  ⟨by rw [h.conn], h.recon uid, h.loss⟩

variable {logs logs' : Record} {preflight : CapturePreflight} {flows flows' : List Flow}

theorem WithinLimits.rowsOf (h : WithinLimits logs) {name : String}
    (hname : name ∈ ["conn.log", "weird.log", "capture_loss.log", "sm_tcp_recon.log"]) :
    rowsOf logs name = allRows logs name := boundedRecords_eq (h name hname)

theorem WithinLimits.keptEvents (h : WithinLimits logs) (uid : String) : keptEvents logs uid =
    ((allRows logs "sm_tcp_recon.log").filter (rowIsOf uid)).take maxEventsPerFlow := by
  rw [Flows.keptEvents, eventsOf, h.rowsOf (by simp)]
  rfl

/-- What a run goes by, and what it makes. -/
theorem normalizeFlows_made (hlimits : WithinLimits logs)
    (h : normalizeFlows logs preflight = .ok flows) :
    ∃ gaps made, (allRows logs "capture_loss.log").foldlM lossStep 0 = .ok gaps ∧
      List.Forall₂
        (IsFlowOf ⟨gaps, weirdTable logs, reconTable logs, preflight.truncatedPacketsPresent⟩)
        ((allRows logs "conn.log").filter namesEnds) made ∧
      flows = made.insertionSort (SortKey.Before flowOrdering) := by
  obtain ⟨gaps, hgaps, h⟩ := bind_eq_ok.mp h
  obtain ⟨unsorted, hrun, h⟩ := bind_eq_ok.mp h
  obtain rfl := pure_eq_ok.mp h
  obtain ⟨made, hmade, hunsorted⟩ := forall₂_connStep hrun
  rw [List.nil_append] at hunsorted
  subst hunsorted
  rw [hlimits.rowsOf (by simp)] at hgaps hmade
  exact ⟨gaps, unsorted, hgaps, hmade, rfl⟩

/-- Of one connection, two logs that agree on it leave the same in the tables. -/
theorem AgreeOn.sameFor (h : AgreeOn uid logs logs') (hlimits : WithinLimits logs)
    (hlimits' : WithinLimits logs') {gaps gaps' : Nat}
    (hgaps : (allRows logs "capture_loss.log").foldlM lossStep 0 = .ok gaps)
    (hgaps' : (allRows logs' "capture_loss.log").foldlM lossStep 0 = .ok gaps') :
    SameFor uid ⟨gaps, weirdTable logs, reconTable logs, preflight.truncatedPacketsPresent⟩
      ⟨gaps', weirdTable logs', reconTable logs', preflight.truncatedPacketsPresent⟩ where
  loss := by
    rw [h.loss] at hgaps
    exact Except.ok.inj (hgaps.symm.trans hgaps')
  recon := by
    rw [getD_reconTable, getD_reconTable, hlimits.keptEvents, hlimits'.keptEvents, h.recon]
  truncated := rfl

theorem filter_filter_comm (p q : Record → Bool) (rows : List Record) :
    (rows.filter p).filter q = (rows.filter q).filter p := by
  rw [List.filter_filter, List.filter_filter]
  exact List.filter_congr fun _ _ => Bool.and_comm _ _

theorem AgreeOn.filter_eq (h : AgreeOn uid logs logs') (hlimits : WithinLimits logs)
    (hlimits' : WithinLimits logs') (hrun : normalizeFlows logs preflight = .ok flows)
    (hrun' : normalizeFlows logs' preflight = .ok flows') :
    flows'.filter (fun flow => flow.uid = uid) = flows.filter fun flow => flow.uid = uid := by
  obtain ⟨gaps, made, hgaps, hmade, rfl⟩ := normalizeFlows_made hlimits hrun
  obtain ⟨gaps', made', hgaps', hmade', rfl⟩ := normalizeFlows_made hlimits' hrun'
  rw [SortKey.filter_insertionSort, SortKey.filter_insertionSort]
  have hown := forall₂_filter hmade uid
  have hown' := forall₂_filter hmade' uid
  rw [filter_filter_comm, h.conn, ← filter_filter_comm] at hown
  have hmadeSame := eq_of_forall₂ ?_ hown hown'
  · rw [hmadeSame]
  · -- The rows that are left are of this connection.
    intro row hrow connection hconnection
    have hrow : rowIsOf uid row = true := List.of_mem_filter hrow
    rw [rowIsOf, uid_connectionOf hconnection, decide_eq_true_iff, Option.some.injEq] at hrow
    rw [hrow]
    exact h.sameFor hlimits hlimits' hgaps hgaps'

theorem Reordered.readable (h : Reordered logs logs') (hlimits : WithinLimits logs)
    (hlimits' : WithinLimits logs') (hread : LogsReadable logs) : LogsReadable logs' where
  loss := by
    rw [hlimits'.rowsOf (by simp), ← h.loss, ← hlimits.rowsOf (by simp)]
    exact hread.loss
  conn := by
    rw [hlimits'.rowsOf (by simp), ← h.conn, ← hlimits.rowsOf (by simp)]
    intro row hrow
    have hrow := hread.conn row hrow
    refine ⟨hrow.origPort, hrow.respPort, fun connection hconnection => ?_⟩
    have hfacts := hrow.facts connection hconnection
    refine ⟨hfacts.missedBytes, hfacts.origBytes, hfacts.respBytes, ?_⟩
    rw [hlimits'.keptEvents, ← h.recon, ← hlimits.keptEvents]
    exact hfacts.events

theorem Reordered.run_eq (h : Reordered logs logs') (hlimits : WithinLimits logs)
    (hlimits' : WithinLimits logs') (hrun : normalizeFlows logs preflight = .ok flows) :
    normalizeFlows logs' preflight = .ok flows := by
  have hread := returns_normalizeFlows_iff.mp ⟨flows, hrun⟩
  have hreturns : Fallible.Returns (normalizeFlows logs' preflight) :=
    returns_normalizeFlows_iff.mpr (h.readable hlimits hlimits' hread)
  obtain ⟨flows', hrun'⟩ := hreturns
  obtain ⟨gaps, made, hgaps, hmade, rfl⟩ := normalizeFlows_made hlimits hrun
  obtain ⟨gaps', made', hgaps', hmade', rfl⟩ := normalizeFlows_made hlimits' hrun'
  rw [← h.conn] at hmade'
  have hsame : made = made' := by
    refine eq_of_forall₂ ?_ hmade hmade'
    intro row _ connection _
    exact (h.agreeOn connection.uid).sameFor hlimits hlimits' hgaps hgaps'
  rw [hsame]
  exact hrun'

/-- **Flows are isolated**: within the row limits the output does not depend on how the rows of the
connections are interleaved, a connection's flows do not depend on the rows of the others, and there
is one flow for each row of `conn.log` that names both of its ends. -/
theorem flow_isolated {logs logs' : Record} {preflight : CapturePreflight} {flows : List Flow}
    (hlimits : WithinLimits logs) (hlimits' : WithinLimits logs')
    (hrun : normalizeFlows logs preflight = .ok flows) :
    (Reordered logs logs' → normalizeFlows logs' preflight = .ok flows) ∧
      (∀ uid flows', AgreeOn uid logs logs' → normalizeFlows logs' preflight = .ok flows' →
        flows'.filter (fun flow => flow.uid = uid) = flows.filter fun flow => flow.uid = uid) ∧
      ∃ gaps made, (allRows logs "capture_loss.log").foldlM lossStep 0 = .ok gaps ∧
        List.Forall₂
          (IsFlowOf ⟨gaps, weirdTable logs, reconTable logs, preflight.truncatedPacketsPresent⟩)
          ((allRows logs "conn.log").filter namesEnds) made ∧
        made.Perm flows := by
  refine ⟨fun h => h.run_eq hlimits hlimits' hrun,
    fun uid flows' h hrun' => h.filter_eq hlimits hlimits' hrun hrun', ?_⟩
  obtain ⟨gaps, made, hgaps, hmade, rfl⟩ := normalizeFlows_made hlimits hrun
  exact ⟨gaps, made, hgaps, hmade, (List.perm_insertionSort _ made).symm⟩

/-- A gap on another connection. -/
def otherGap : Record :=
  [("uid", .str "C2"), ("event_type", .str "seq_gap"), ("seq", .int 80), ("len", .int 20)]

/-- The flow of the mail connection, with a segment sent twice. -/
def mailFlow : Flow :=
  { uid := "C1", orig := ⟨"192.0.2.10", 49152⟩, resp := ⟨"192.0.2.25", 25⟩, proto := .tcp,
    history := "ShADadFf", connState := "", missedBytes := 0, origBytes := 0, respBytes := 0,
    reconstructionQuality := .complete, observedConditions := [.duplicateSegments], gapBytes := 0,
    evidenceState := .observed }

theorem mailFlow_isolated :
    normalizeFlows (mailLogs [otherGap, duplicateEvent]) ⟨false, none⟩ = .ok [mailFlow] := by
  have hrun : normalizeFlows (mailLogs [duplicateEvent, otherGap]) ⟨false, none⟩ =
      .ok [mailFlow] := by decide +kernel
  have hlimits : WithinLimits (mailLogs [duplicateEvent, otherGap]) := by
    unfold WithinLimits
    decide +kernel
  have hlimits' : WithinLimits (mailLogs [otherGap, duplicateEvent]) := by
    unfold WithinLimits
    decide +kernel
  refine (flow_isolated hlimits hlimits' hrun).1 ⟨rfl, fun uid => ?_, rfl⟩
  -- Whoever asks, at most one of the two events is theirs.
  have hdisjoint : ¬(rowIsOf uid duplicateEvent = true ∧ rowIsOf uid otherGap = true) := by
    unfold rowIsOf
    rw [decide_eq_true_iff, decide_eq_true_iff]
    rintro ⟨hfirst, hsecond⟩
    have hsame := hfirst.trans hsecond.symm
    exact absurd hsame (by decide)
  show [duplicateEvent, otherGap].filter (rowIsOf uid) =
    [otherGap, duplicateEvent].filter (rowIsOf uid)
  cases hfirst : rowIsOf uid duplicateEvent <;> cases hsecond : rowIsOf uid otherGap <;>
    simp_all

end Flows
end Normalize
end SecureMail
