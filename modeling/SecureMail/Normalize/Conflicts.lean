import SecureMail.Normalize.ReadableFlows

/-!
# Which conflicts reach a flow

A connection whose retransmissions disagree has a `rexmit_inconsistency` row. On its way to the flow
the row passes a cap, and then has to be given a range: those of the overlaps, else those of the
retransmissions, else a range of the length it names itself. The classifier only looks at the
ranges, so a conflict without one is not seen, and neither is one behind the first 256 events.

A conflict that is not reported is worse than one that is reported twice, so the condition is exact
and it is on the rows. `ConflictKept` asks of the events that passed the cap whether a range can be
named. A row that names no length and stands alone is one way to lose a conflict. A flood of rows
before it is the other, and a client can send one.
-/

namespace SecureMail
namespace Normalize
namespace Flows

open Fallible (bind_eq_ok pure_eq_ok foldlM_collect foldlM_last)

def eventTypeOf (event : Record) : String := (asStr (event.get "event_type") maxWeirdNameLen).getD ""

def isConflict (event : Record) : Bool := eventTypeOf event = "rexmit_inconsistency"

/-- The event's numbers make a range. -/
def NamesRange (event : Record) : Prop :=
  ∃ n, reconNumbers event = .ok n ∧ (n.range none true).isSome = true

/-- The last conflict among the events has a length, or some overlap or retransmission has a range.
The events are those of one connection that passed the cap, so that both ways to lose a conflict are
in view. -/
def ConflictKept (events : List Record) : Prop :=
  ∃ last, (events.filter isConflict).getLast? = some last ∧
    ((∃ n, asInt (last.get "len") = .ok (some n)) ∨
      ∃ event ∈ events, (eventTypeOf event = "overlap" ∨ eventTypeOf event = "rexmit") ∧
        NamesRange event)

/-! ## One event -/

/-- Whether there is a range does not depend on its direction, nor on whether it is exact. -/
theorem isSome_byteRange (start «end» length : Option Nat) (isOrig isOrig' : Option Bool)
    (exact exact' : Bool) :
    (byteRange start «end» length isOrig exact).isSome =
      (byteRange start «end» length isOrig' exact').isSome := by
  unfold byteRange
  dsimp only
  cases «end».or (length.map (start.getD 0 + ·)) with
  | none => rfl
  | some resolvedEnd =>
    by_cases h : resolvedEnd < start.getD 0
    · simp [h]
    · simp [h]

theorem ReconNumbers.isSome_range (n : ReconNumbers) (isOrig : Option Bool) (exact : Bool) :
    (n.range isOrig exact).isSome = (n.range none true).isSome :=
  isSome_byteRange _ _ _ _ _ _ _

section

variable {s s' : Recon} {event : Record}

theorem reconStep_eq_ok_iff : reconStep s event = .ok s' ↔
    ∃ n, reconNumbers event = .ok n ∧
      s' = s.event (eventTypeOf event) (asBool (event.get "is_orig")) n := by
  unfold reconStep
  rw [bind_eq_ok]
  simp only [pure_eq_ok, eq_comm (b := s')]
  rfl

variable (eventType : String) (isOrig : Option Bool) (n : ReconNumbers)

theorem Recon.event_inconsistency :
    (s.event eventType isOrig n).inconsistency =
      (s.inconsistency || decide (eventType = "rexmit_inconsistency")) := by
  unfold Recon.event
  split_ifs with h₁ h₂ h₃ h₄ h₅ h₆
  all_goals simp [*]

theorem Recon.event_overlapRanges :
    (s.event eventType isOrig n).overlapRanges =
      s.overlapRanges ++ if eventType = "overlap" then
        (n.range isOrig (n.seq.isSome || n.rangeStart.isSome)).toList else [] := by
  unfold Recon.event
  split_ifs with h₁ h₂ h₃ h₄ h₅ h₆
  all_goals simp_all

theorem Recon.event_rexmitRanges :
    (s.event eventType isOrig n).rexmitRanges =
      s.rexmitRanges ++ if eventType = "rexmit" then (n.range isOrig n.seq.isSome).toList else [] := by
  unfold Recon.event
  split_ifs with h₁ h₂ h₃ h₄ h₅ h₆
  all_goals simp_all

theorem Recon.event_pendingConflictLen :
    (s.event eventType isOrig n).pendingConflictLen =
      if eventType = "rexmit_inconsistency" then n.length else s.pendingConflictLen := by
  unfold Recon.event
  split_ifs with h₁ h₂ h₃ h₄ h₅ h₆
  all_goals simp_all

end

/-! ## The events of a connection -/

theorem length_of_reconNumbers {event : Record} {n : ReconNumbers}
    (h : reconNumbers event = .ok n) : asInt (event.get "len") = .ok n.length := by
  unfold reconNumbers at h
  obtain ⟨seq, -, h⟩ := bind_eq_ok.mp h
  obtain ⟨length, hlength, h⟩ := bind_eq_ok.mp h
  obtain ⟨rangeStart, -, h⟩ := bind_eq_ok.mp h
  obtain ⟨rangeEnd, -, h⟩ := bind_eq_ok.mp h
  obtain rfl := pure_eq_ok.mp h
  exact hlength

/-- A conflict has ranges if some overlap or retransmission has one, or a length was left pending. -/
theorem Recon.conflictingRanges_ne_nil_iff {s : Recon} : s.conflictingRanges ≠ [] ↔
    s.inconsistency = true ∧
      (s.pendingConflictLen.isSome = true ∨ s.overlapRanges ≠ [] ∨ s.rexmitRanges ≠ []) := by
  unfold Recon.conflictingRanges
  cases s.inconsistency with
  | false => simp
  | true =>
    cases hoverlap : s.overlapRanges with
    | cons range rest => simp
    | nil =>
      cases hrexmit : s.rexmitRanges with
      | cons range rest => simp
      | nil =>
        cases s.pendingConflictLen with
        | none => simp
        | some length => simp [byteRange]

section

variable {events : List Record} {s : Recon} (hrun : events.foldlM reconStep {} = .ok s)

include hrun

theorem inconsistency_iff : s.inconsistency = true ↔ ∃ event ∈ events, isConflict event = true := by
  have hcollect := foldlM_collect (P := fun s : Recon => s.inconsistency = true)
    (Q := fun event => isConflict event = true) ?_ hrun
  · simpa using hcollect
  · intro s s' event hstep
    obtain ⟨n, -, rfl⟩ := reconStep_eq_ok_iff.mp hstep
    rw [Recon.event_inconsistency, Bool.or_eq_true]
    rfl

/-- A list of ranges is added to by the events of one type that name a range. -/
theorem ranges_ne_nil_iff {ranges : Recon → List ByteRange} {type : String}
    {exact : ReconNumbers → Bool} (hempty : ranges {} = [])
    (hevent : ∀ s eventType isOrig n, ranges (Recon.event s eventType isOrig n) =
      ranges s ++ if eventType = type then (n.range isOrig (exact n)).toList else []) :
    ranges s ≠ [] ↔ ∃ event ∈ events, eventTypeOf event = type ∧ NamesRange event := by
  have hcollect := foldlM_collect (P := fun s : Recon => ranges s ≠ [])
    (Q := fun event => eventTypeOf event = type ∧ NamesRange event) ?_ hrun
  · simpa [hempty] using hcollect
  · intro s s' event hstep
    obtain ⟨n, hn, rfl⟩ := reconStep_eq_ok_iff.mp hstep
    have hnames : NamesRange event ↔ (n.range none true).isSome = true := by
      constructor
      · rintro ⟨n', hn', hsome⟩
        obtain rfl : n' = n := Except.ok.inj (hn'.symm.trans hn)
        exact hsome
      · exact fun hsome => ⟨n, hn, hsome⟩
    rw [hevent, hnames, ← ReconNumbers.isSome_range n (asBool (event.get "is_orig")) (exact n)]
    by_cases htype : eventTypeOf event = type
    · rw [if_pos htype]
      cases n.range (asBool (event.get "is_orig")) (exact n) with
      | none => simp [htype]
      | some range => simp [htype]
    · simp [htype]

/-- **The events leave ranges in conflict exactly when a conflict among them is kept.** It is the
whole effect of the fold over the events, as far as the verdict is concerned. -/
theorem conflictingRanges_ne_nil_iff_kept : s.conflictingRanges ≠ [] ↔ ConflictKept events := by
  have hinconsistency := inconsistency_iff hrun
  have hoverlap : s.overlapRanges ≠ [] ↔
      ∃ event ∈ events, eventTypeOf event = "overlap" ∧ NamesRange event :=
    ranges_ne_nil_iff hrun rfl fun _ => Recon.event_overlapRanges
  have hrexmit : s.rexmitRanges ≠ [] ↔
      ∃ event ∈ events, eventTypeOf event = "rexmit" ∧ NamesRange event :=
    ranges_ne_nil_iff hrun rfl fun _ => Recon.event_rexmitRanges
  have hpending := foldlM_last Recon.pendingConflictLen isConflict
    (Q := fun event length => asInt (event.get "len") = .ok length) ?_ ?_ hrun
  · rw [Recon.conflictingRanges_ne_nil_iff, hinconsistency, hoverlap, hrexmit]
    unfold ConflictKept
    cases hlast : (events.filter isConflict).getLast? with
    | none =>
      have hnone : ¬ ∃ event ∈ events, isConflict event = true := by
        simpa using List.getLast?_eq_none_iff.mp hlast
      simp [hnone]
    | some last =>
      rw [hlast] at hpending
      have hmem := List.mem_filter.mp (List.mem_of_getLast? hlast)
      have hpendingIff : s.pendingConflictLen.isSome = true ↔
          ∃ n, asInt (last.get "len") = .ok (some n) := by
        rw [Option.isSome_iff_exists]
        simp [hpending]
      have hranges : (∃ event ∈ events, eventTypeOf event = "overlap" ∧ NamesRange event) ∨
            (∃ event ∈ events, eventTypeOf event = "rexmit" ∧ NamesRange event) ↔
          ∃ event ∈ events, (eventTypeOf event = "overlap" ∨ eventTypeOf event = "rexmit") ∧
            NamesRange event := by
        simp only [or_and_right, and_or_left, exists_or]
      rw [hpendingIff, hranges]
      constructor
      · rintro ⟨-, hkept⟩
        exact ⟨last, rfl, hkept⟩
      · rintro ⟨last', hsome, hkept⟩
        obtain rfl := Option.some.inj hsome
        exact ⟨⟨last, hmem⟩, hkept⟩
  · intro s s' event hstep hwrites
    obtain ⟨n, hn, rfl⟩ := reconStep_eq_ok_iff.mp hstep
    have htype : eventTypeOf event = "rexmit_inconsistency" := of_decide_eq_true hwrites
    rw [Recon.event_pendingConflictLen, if_pos htype]
    exact length_of_reconNumbers hn
  · intro s s' event hstep hwrites
    obtain ⟨n, -, rfl⟩ := reconStep_eq_ok_iff.mp hstep
    have htype : eventTypeOf event ≠ "rexmit_inconsistency" := of_decide_eq_false hwrites
    rw [Recon.event_pendingConflictLen, if_neg htype]

end

/-! ## The flow -/

theorem reconstructionQuality_eq_conflicting_iff {facts : ReconstructionFacts} :
    facts.classifyReconstruction.reconstructionQuality = .conflicting ↔
      facts.proto = .tcp ∧ facts.conflictingRanges ≠ [] := by
  unfold ReconstructionFacts.classifyReconstruction
  by_cases hproto : facts.proto = .tcp
  swap
  · rw [if_pos hproto]
    split_ifs <;> simp [ReconstructionFacts.verdict, hproto]
  rw [if_neg (not_not.mpr hproto)]
  by_cases hconflicting : facts.conflictingRanges = []
  · rw [hconflicting]
    dsimp only
    split_ifs <;> simp_all [ReconstructionFacts.verdict]
  · rw [if_pos (by simpa using hconflicting)]
    simp [ReconstructionFacts.verdict, hproto, hconflicting]

/-- The flow of a row that names both of its ends. -/
def IsFlowOf (tables : Tables) (row : Record) (flow : Flow) : Prop :=
  ∃ connection facts, connectionOf row = .ok (some connection) ∧
    factsOf tables row connection = .ok facts ∧ flow = flowOf connection facts

/-- A row adds its flow, if it has one. -/
theorem mem_connStep_iff {tables : Tables} {flows flows' : List Flow} {row : Record}
    (h : connStep tables flows row = .ok flows') {flow : Flow} :
    flow ∈ flows' ↔ flow ∈ flows ∨ IsFlowOf tables row flow := by
  unfold connStep at h
  obtain ⟨connection, hconnection, h⟩ := bind_eq_ok.mp h
  cases connection with
  | none =>
    obtain rfl := pure_eq_ok.mp h
    simp [IsFlowOf, hconnection]
  | some connection =>
    obtain ⟨facts, hfacts, h⟩ := bind_eq_ok.mp h
    obtain rfl := pure_eq_ok.mp h
    rw [List.mem_append, List.mem_singleton]
    constructor
    · rintro (hmem | rfl)
      · exact Or.inl hmem
      · exact Or.inr ⟨connection, facts, hconnection, hfacts, rfl⟩
    · rintro (hmem | ⟨connection', facts', hconnection', hfacts', rfl⟩)
      · exact Or.inl hmem
      · obtain rfl := Option.some.inj (Except.ok.inj (hconnection.symm.trans hconnection'))
        obtain rfl := Except.ok.inj (hfacts.symm.trans hfacts')
        exact Or.inr rfl

/-- The flows are those of the rows. -/
theorem mem_normalizeFlows_iff {logs : Record} {preflight : CapturePreflight} {flows : List Flow}
    (h : normalizeFlows logs preflight = .ok flows) :
    ∃ tables : Tables, tables.reconByUid = reconTable logs ∧
      ∀ flow, flow ∈ flows ↔ ∃ row ∈ rowsOf logs "conn.log", IsFlowOf tables row flow := by
  unfold normalizeFlows at h
  obtain ⟨gaps, -, h⟩ := bind_eq_ok.mp h
  obtain ⟨unsorted, hrun, h⟩ := bind_eq_ok.mp h
  obtain rfl := pure_eq_ok.mp h
  let tables : Tables :=
    ⟨gaps, weirdTable logs, reconTable logs, preflight.truncatedPacketsPresent⟩
  refine ⟨tables, rfl, ?_⟩
  intro flow
  have hstep : ∀ flows flows' row, connStep tables flows row = .ok flows' →
      (flow ∈ flows' ↔ flow ∈ flows ∨ IsFlowOf tables row flow) :=
    fun _ _ _ h => mem_connStep_iff h
  rw [List.mem_insertionSort, foldlM_collect hstep hrun]
  simp

theorem uid_flowOf (connection : Connection) (facts : ReconstructionFacts) :
    (flowOf connection facts).uid = connection.uid := rfl

theorem proto_flowOf (connection : Connection) (facts : ReconstructionFacts) :
    (flowOf connection facts).proto = facts.proto := rfl

theorem factsOf_eq_ok {logs row : Record} {tables : Tables} {connection : Connection}
    {facts : ReconstructionFacts} (htable : tables.reconByUid = reconTable logs)
    (h : factsOf tables row connection = .ok facts) :
    facts.proto = protoOf (asStr (row.get "proto") maxProtoLen) ∧
      (facts.conflictingRanges ≠ [] ↔ ConflictKept (keptEvents logs connection.uid)) := by
  unfold factsOf at h
  obtain ⟨missed, -, h⟩ := bind_eq_ok.mp h
  obtain ⟨origBytes, -, h⟩ := bind_eq_ok.mp h
  obtain ⟨respBytes, -, h⟩ := bind_eq_ok.mp h
  obtain ⟨recon, hrecon, h⟩ := bind_eq_ok.mp h
  obtain rfl := pure_eq_ok.mp h
  rw [htable, getD_reconTable] at hrecon
  exact ⟨rfl, conflictingRanges_ne_nil_iff_kept hrecon⟩

/-- A TCP flow is conflicting exactly when a conflict of its connection is kept. -/
theorem conflicting_iff_kept {logs : Record} {preflight : CapturePreflight} {flows : List Flow}
    (h : normalizeFlows logs preflight = .ok flows) {flow : Flow} (hflow : flow ∈ flows)
    (htcp : flow.proto = .tcp) :
    flow.reconstructionQuality = .conflicting ↔ ConflictKept (keptEvents logs flow.uid) := by
  obtain ⟨tables, htable, hmem⟩ := mem_normalizeFlows_iff h
  obtain ⟨row, -, connection, facts, -, hfacts, rfl⟩ := (hmem flow).mp hflow
  rw [uid_flowOf, ← (factsOf_eq_ok htable hfacts).2]
  exact reconstructionQuality_eq_conflicting_iff.trans (and_iff_right htcp)

/-- The log holds a conflict of the connection. It is asked of the log as it is, without the cap and
before any reading of numbers. -/
def HasConflict (logs : Record) (uid : String) : Prop :=
  ∃ event ∈ eventsOf logs uid, isConflict event = true

/-- The connection has its flow, and its flows are conflicting. A connection without a flow has no
report to be in, which the condition rules out by the row of `conn.log`. -/
def ReportsConflict (logs : Record) (preflight : CapturePreflight) (uid : String) : Prop :=
  ∃ flows, normalizeFlows logs preflight = .ok flows ∧
    (∃ flow ∈ flows, flow.uid = uid ∧ flow.proto = .tcp) ∧
    ∀ flow ∈ flows, flow.uid = uid → flow.proto = .tcp → flow.reconstructionQuality = .conflicting

/-- **When a conflict is not lost.** A TCP connection with a conflict has its flow, and the flow is
conflicting, exactly when the logs are readable and the conflict is kept: it is among the first 256
events, and it has a length or stands beside an overlap or retransmission with a range. -/
theorem conflict_reported_iff (logs : Record) (preflight : CapturePreflight) (row : Record)
    (hrow : row ∈ rowsOf logs "conn.log") (connection : Connection)
    (hconnection : connectionOf row = .ok (some connection))
    (htcp : protoOf (asStr (row.get "proto") maxProtoLen) = .tcp) :
    (HasConflict logs connection.uid → ReportsConflict logs preflight connection.uid) ↔
      (HasConflict logs connection.uid →
        LogsReadable logs ∧ ConflictKept (keptEvents logs connection.uid)) := by
  refine imp_congr_right fun _ => ?_
  rw [← @returns_normalizeFlows_iff logs preflight]
  constructor
  · rintro ⟨flows, hflows, ⟨flow, hflow, huid, hproto⟩, hall⟩
    have hkept := (conflicting_iff_kept hflows hflow hproto).mp (hall flow hflow huid hproto)
    rw [huid] at hkept
    exact ⟨⟨flows, hflows⟩, hkept⟩
  · rintro ⟨⟨flows, hflows⟩, hkept⟩
    refine ⟨flows, hflows, ?_, ?_⟩
    · obtain ⟨tables, htable, hmem⟩ := mem_normalizeFlows_iff hflows
      have hreadable := returns_normalizeFlows_iff.mp ⟨flows, hflows⟩
      have hfactsReadable := (hreadable.conn row hrow).facts connection hconnection
      obtain ⟨facts, hfacts⟩ := (returns_factsOf_iff htable).mpr hfactsReadable
      refine ⟨flowOf connection facts, ?_, rfl, ?_⟩
      · exact (hmem _).mpr ⟨row, hrow, connection, facts, hconnection, hfacts, rfl⟩
      · rw [proto_flowOf, (factsOf_eq_ok htable hfacts).1, htcp]
    · intro flow hflow huid hproto
      rw [conflicting_iff_kept hflows hflow hproto, huid]
      exact hkept

/-- A connection between two mail hosts. -/
def mailRow : Record :=
  [("uid", .str "C1"), ("id.orig_h", .str "192.0.2.10"), ("id.orig_p", .int 49152),
    ("id.resp_h", .str "192.0.2.25"), ("id.resp_p", .int 25), ("proto", .str "tcp"),
    ("history", .str "ShADadFf")]

/-- The logs of that connection with these events. -/
def mailLogs (events : List Record) : Record :=
  [("conn.log", .list [.dict mailRow]), ("sm_tcp_recon.log", .list (events.map Py.Val.dict))]

def duplicateEvent : Record := [("uid", .str "C1"), ("event_type", .str "duplicate")]

def conflictEvent : Record :=
  [("uid", .str "C1"), ("event_type", .str "rexmit_inconsistency"), ("len", .int 150)]

theorem conflict_reported_mail :
    (HasConflict (mailLogs [duplicateEvent, conflictEvent]) "C1" →
      ReportsConflict (mailLogs [duplicateEvent, conflictEvent]) ⟨false, none⟩ "C1") ↔
    (HasConflict (mailLogs [duplicateEvent, conflictEvent]) "C1" →
      LogsReadable (mailLogs [duplicateEvent, conflictEvent]) ∧
        ConflictKept (keptEvents (mailLogs [duplicateEvent, conflictEvent]) "C1")) :=
  conflict_reported_iff (mailLogs [duplicateEvent, conflictEvent]) ⟨false, none⟩ mailRow
    List.mem_cons_self ⟨"C1", ⟨"192.0.2.10", 49152⟩, ⟨"192.0.2.25", 25⟩⟩ (by decide +kernel)
    (by decide +kernel)

/-- After 256 duplicates the conflict is not kept. -/
theorem flooded_conflict_lost :
    mailRow ∈ rowsOf (mailLogs (List.replicate 256 duplicateEvent ++ [conflictEvent])) "conn.log" ∧
    HasConflict (mailLogs (List.replicate 256 duplicateEvent ++ [conflictEvent])) "C1" ∧
    ¬ ReportsConflict (mailLogs (List.replicate 256 duplicateEvent ++ [conflictEvent])) ⟨false, none⟩
      "C1" := by
  refine ⟨List.mem_cons_self, ?_, ?_⟩
  · have hany : (eventsOf (mailLogs (List.replicate 256 duplicateEvent ++ [conflictEvent]))
        "C1").any isConflict = true := by decide +kernel
    exact List.any_eq_true.mp hany
  · rintro ⟨flows, hflows, ⟨flow, hflow, huid, hproto⟩, hall⟩
    obtain ⟨last, hlast, -⟩ := (conflicting_iff_kept hflows hflow hproto).mp
      (hall flow hflow huid hproto)
    have hnone : ((keptEvents (mailLogs (List.replicate 256 duplicateEvent ++ [conflictEvent]))
        "C1").filter isConflict).getLast?.isNone = true := by decide +kernel
    rw [huid] at hlast
    rw [hlast] at hnone
    cases hnone

end Flows
end Normalize
end SecureMail
