import SecureMail.Normalize.Coerce
import SecureMail.Evidence.Reconstruction
import SecureMail.Py.Dict
import Mathlib.Data.List.Sort

/-!
# `normalize_flows`

One `Flow` for each row of `conn.log` that names both endpoints. The other three logs are read into
tables first: the gaps the capture lost, the names of the oddities of a connection, and the events
of the reconstruction script, which are folded into the facts the classifier judges.

A row that does not name both ends is passed over. A row that does is a flow, even if nothing else
in it can be read, since a missing number is a fact that is missing. The verdict on the
reconstruction is made of the facts alone (`classifyReconstruction`); here the facts are gathered,
with the lengths and the caps of the source. The rows of all connections go into one table of events
by uid, and a flow reads its own entry.
-/

namespace SecureMail
namespace Normalize
namespace Flows

open Py (Val Dict)

def maxUidLen : Nat := 64
def maxHostLen : Nat := 253
def maxHistoryLen : Nat := 256
def maxConnStateLen : Nat := 16
def maxProtoLen : Nat := 16
def maxWeirdNameLen : Nat := 128
def maxEventsPerFlow : Nat := 256

def protoMap : List (String × TransportProto) :=
  [("tcp", .tcp), ("udp", .udp), ("icmp", .icmp), ("icmp6", .icmp6), ("ipv6-icmp", .icmp6)]

/-! ## Readers -/

/-- `_proto`. -/
def protoOf (raw : Option String) : TransportProto :=
  (raw.bind fun r => protoMap.lookup (Py.lower r)).getD .unknown

/-- `_as_str`. -/
def asStr (value : Val) (maxLen : Nat) : Option String :=
  match value with
  | .str s => if s = "" ∨ maxLen < s.length then none else some s
  | _ => none

/-- `_record_get`, for one key: the field itself, or under its short name in the nested `id`. -/
def recordGet (record : Record) (key : String) : Val :=
  match record.lookup key with
  | some value => value
  | none =>
      match record.get "id" with
      | .dict nested => Py.lookup nested (Py.removePrefix key "id.")
      | _ => .none

/-- `_direction`. -/
def direction (isOrig : Option Bool) : StreamDirection :=
  if isOrig = some false then .resp else .orig

/-- `_byte_range`. -/
def byteRange (start «end» length : Option Nat) (isOrig : Option Bool) (exact : Bool) :
    Option ByteRange :=
  let resolvedStart := start.getD 0
  match «end».or (length.map (resolvedStart + ·)) with
  | none => none
  | some resolvedEnd =>
      if resolvedEnd < resolvedStart then none
      else some
        { start := resolvedStart
          «end» := resolvedEnd
          direction := direction isOrig
          exact := exact && start.isSome }

/-! ## The events of a connection -/

/-- What the events of the reconstruction script add up to. -/
structure Recon where
  gapRanges : List ByteRange := []
  overlapRanges : List ByteRange := []
  rexmitRanges : List ByteRange := []
  retransmissionCount : Nat := 0
  outOfOrder : Bool := false
  duplicateSegments : Bool := false
  inconsistency : Bool := false
  pendingConflictLen : Option Nat := none
  deriving DecidableEq

/-- The numbers of an event. -/
structure ReconNumbers where
  seq : Option Nat
  length : Option Nat
  rangeStart : Option Nat
  rangeEnd : Option Nat
  deriving DecidableEq

/-- The numbers are read whatever the event is. -/
def reconNumbers (event : Record) : Result ReconNumbers := do
  let seq ← asInt (event.get "seq")
  let length ← asInt (event.get "len")
  let rangeStart ← asInt (event.get "range_start")
  let rangeEnd ← asInt (event.get "range_end")
  pure ⟨seq, length, rangeStart, rangeEnd⟩

/-- The range of an event. -/
def ReconNumbers.range (n : ReconNumbers) (isOrig : Option Bool) (exact : Bool) :
    Option ByteRange :=
  byteRange (n.rangeStart.or n.seq) n.rangeEnd n.length isOrig exact

/-- One event, its numbers read. -/
def Recon.event (s : Recon) (eventType : String) (isOrig : Option Bool) (n : ReconNumbers) :
    Recon :=
  if eventType = "seq_gap" then
    { s with gapRanges := s.gapRanges ++ (n.range isOrig true).toList }
  else if eventType = "out_of_order" then { s with outOfOrder := true }
  else if eventType = "duplicate" then { s with duplicateSegments := true }
  else if eventType = "overlap" then
    { s with
      overlapRanges := s.overlapRanges ++
        (n.range isOrig (n.seq.isSome || n.rangeStart.isSome)).toList }
  else if eventType = "rexmit" then
    { s with
      retransmissionCount := s.retransmissionCount + 1
      rexmitRanges := s.rexmitRanges ++ (n.range isOrig n.seq.isSome).toList }
  else if eventType = "rexmit_inconsistency" then
    { s with inconsistency := true, pendingConflictLen := n.length }
  else s

/-- One row of `sm_tcp_recon.log`. -/
def reconStep (s : Recon) (event : Record) : Result Recon := do
  let numbers ← reconNumbers event
  pure (s.event ((asStr (event.get "event_type") maxWeirdNameLen).getD "")
    (asBool (event.get "is_orig")) numbers)

/-- The ranges that were retransmitted with other content. -/
def Recon.conflictingRanges (s : Recon) : List ByteRange :=
  if s.inconsistency then
    if !s.overlapRanges.isEmpty then s.overlapRanges
    else if !s.rexmitRanges.isEmpty then s.rexmitRanges
    else match s.pendingConflictLen with
      | some length => (byteRange (some 0) (some length) (some length) (some true) false).toList
      | none => []
  else []

/-! ## The tables -/

/-- The sum of the gaps of `capture_loss.log`. -/
def lossStep (gaps : Nat) (row : Record) : Result Nat := do
  pure (gaps + (← asInt (row.get "gaps")).getD 0)

/-- A connection keeps its first 256 entries. -/
def appendBounded {α : Type} (l : List α) (a : α) : List α :=
  if l.length < maxEventsPerFlow then l ++ [a] else l

/-- One row of `weird.log`. -/
def weirdStep (weirdByUid : Dict String (List String)) (row : Record) :
    Dict String (List String) :=
  match asStr (row.get "uid") maxUidLen, asStr (row.get "name") maxWeirdNameLen with
  | some uid, some name => weirdByUid.update uid [] (appendBounded · name)
  | _, _ => weirdByUid

/-- One row of `sm_tcp_recon.log`, under its connection. -/
def reconRowStep (reconByUid : Dict String (List Record)) (row : Record) :
    Dict String (List Record) :=
  match asStr (row.get "uid") maxUidLen with
  | some uid => reconByUid.update uid [] (appendBounded · row)
  | none => reconByUid

/-- What the rows of the other logs say. -/
structure Tables where
  captureLossGaps : Nat
  weirdByUid : Dict String (List String)
  reconByUid : Dict String (List Record)
  truncatedPackets : Bool

/-- The rows of a log. -/
def rowsOf (logs : Record) (name : String) : List Record :=
  boundedRecords (getLog logs name) maxRecords

def weirdTable (logs : Record) : Dict String (List String) :=
  (rowsOf logs "weird.log").foldl weirdStep ∅

def reconTable (logs : Record) : Dict String (List Record) :=
  (rowsOf logs "sm_tcp_recon.log").foldl reconRowStep ∅

/-! ## One flow for each connection -/

/-- The connection of a row, when it names both of its ends. -/
structure Connection where
  uid : String
  orig : FlowEndpoint
  resp : FlowEndpoint
  deriving DecidableEq

/-- One end: a host, and a port that is one. -/
def endpoint (host : Option String) (port : Option Nat) : Option FlowEndpoint :=
  match host, port with
  | some host, some port => if h : port < 65536 then some ⟨host, ⟨port, h⟩⟩ else none
  | _, _ => none

/-- The first fields of a row of `conn.log`. -/
def connectionOf (row : Record) : Result (Option Connection) := do
  let uid := asStr (row.get "uid") maxUidLen
  let origHost := asStr (recordGet row "id.orig_h") maxHostLen
  let respHost := asStr (recordGet row "id.resp_h") maxHostLen
  let origPort ← asInt (recordGet row "id.orig_p")
  let respPort ← asInt (recordGet row "id.resp_p")
  match uid, endpoint origHost origPort, endpoint respHost respPort with
  | some uid, some orig, some resp => pure (some ⟨uid, orig, resp⟩)
  | _, _, _ => pure none

/-- The facts of a connection. -/
def factsOf (tables : Tables) (row : Record) (connection : Connection) :
    Result ReconstructionFacts := do
  let missed ← asInt (row.get "missed_bytes")
  let origBytes ← asInt (row.get "orig_bytes")
  let respBytes ← asInt (row.get "resp_bytes")
  let recon ← ((tables.reconByUid.get? connection.uid).getD []).foldlM reconStep {}
  pure
    { proto := protoOf (asStr (row.get "proto") maxProtoLen)
      history := (asStr (row.get "history") maxHistoryLen).getD ""
      connState := (asStr (row.get "conn_state") maxConnStateLen).getD ""
      missedBytes := missed.getD 0
      origBytes := origBytes.getD 0
      respBytes := respBytes.getD 0
      weirdNames := (tables.weirdByUid.get? connection.uid).getD []
      captureLossGaps := tables.captureLossGaps
      truncatedPackets := tables.truncatedPackets
      gapRanges := recon.gapRanges
      conflictingRanges := recon.conflictingRanges
      retransmissionCount := recon.retransmissionCount
      outOfOrder := recon.outOfOrder
      duplicateSegments := recon.duplicateSegments }

/-- The flow of a connection, from its facts and the verdict on them. -/
def flowOf (connection : Connection) (facts : ReconstructionFacts) : Flow :=
  let verdict := facts.classifyReconstruction
  { uid := connection.uid
    orig := connection.orig
    resp := connection.resp
    proto := facts.proto
    history := facts.history
    connState := facts.connState
    missedBytes := facts.missedBytes
    origBytes := facts.origBytes
    respBytes := facts.respBytes
    reconstructionQuality := verdict.reconstructionQuality
    reasonCode := verdict.reasonCode
    observedConditions := verdict.observedConditions
    gapBytes := verdict.gapBytes
    gapBytesExact := verdict.gapBytesExact
    conflictingByteRanges := verdict.conflictingByteRanges
    evidenceState := verdict.evidenceState }

/-- One row of `conn.log`. -/
def connStep (tables : Tables) (flows : List Flow) (row : Record) : Result (List Flow) := do
  match ← connectionOf row with
  | none => pure flows
  | some connection => do
      let facts ← factsOf tables row connection
      pure (flows ++ [flowOf connection facts])

/-- The order of emission. -/
def flowOrdering (a b : Flow) : Ordering :=
  (Ord.compare a.proto.value b.proto.value).then <|
    (Ord.compare a.orig.host b.orig.host).then <|
      (Ord.compare a.orig.port.val b.orig.port.val).then <|
        (Ord.compare a.resp.host b.resp.host).then <|
          (Ord.compare a.resp.port.val b.resp.port.val).then (Ord.compare a.uid b.uid)

/-- `normalize_flows`. -/
def normalizeFlows (logs : Record) (preflight : CapturePreflight) : Result (List Flow) := do
  let captureLossGaps ← (rowsOf logs "capture_loss.log").foldlM lossStep 0
  let tables : Tables :=
    { captureLossGaps := captureLossGaps
      weirdByUid := weirdTable logs
      reconByUid := reconTable logs
      truncatedPackets := preflight.truncatedPacketsPresent }
  let flows ← (rowsOf logs "conn.log").foldlM (connStep tables) []
  pure (flows.insertionSort fun a b => (flowOrdering a b).isLE = true)

end Flows
end Normalize
end SecureMail
