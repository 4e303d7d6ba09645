import SecureMail.Py.Value
import SecureMail.Evidence.Flow
import Mathlib.Data.Finset.Card
import Mathlib.Data.Finset.Insert
import Mathlib.Data.Finset.Dedup

/-!
# Reading a log row

The conversions the normalizers share, and the join of a frame to its flow. A conversion answers
`none` for a value it cannot use. Three inputs make it raise instead: a string of digits `int`
refuses (a superscript, or more than 4300 of them), and an integer no float is near. Those are
`Result` errors here, so that what a normalizer does on a hostile row is visible in its type.

A string of digits is not always a number to Python: `isdigit` holds of characters that `int`
refuses, and `int` refuses a string of digits past a length. Both are followed, because a capture
can contain either. A text is read as the double that `float` makes of it, and an integer becomes
the nearest double if there is one. Lists that are joined by commas are split as the source splits
them, empty parts included.
-/

namespace SecureMail
namespace Normalize

open Py (Val)

/-- The items of one log row or frame. -/
abbrev Record := List (String × Val)

/-- `record.get(key)`. -/
def Record.get (r : Record) (key : String) : Val := Py.lookup r key

/-- `logs.get(name, [])`. -/
def getLog (logs : Record) (name : String) : Val := (logs.lookup name).getD (.list [])

def maxRecords : Nat := 10000

/-- `_as_int`. -/
def asInt : Val → Result (Option Nat)
  | .int n => pure (if 0 ≤ n then some n.toNat else none)
  | .float x =>
      match x.toInt? with
      | some n => pure (if 0 ≤ n then some n.toNat else none)
      | none => pure none
  | .str s =>
      if Py.isDigit s then
        match Py.parseInt s with
        | some n => pure (some n.toNat)
        | none => throw .valueError
      else pure none
  | _ => pure none

/-- `_as_float`. -/
def asFloat : Val → Result (Option Py.Float)
  | .int n =>
      match Py.Float.ofInt? n with
      | some x => pure (some x)
      | none => throw .overflowError
  | .float x => pure (some x)
  | .str s => pure (Py.parseFloat s)
  | _ => pure none

/-- `_as_bool`. -/
def asBool : Val → Option Bool
  | .bool b => some b
  | _ => none

/-- `_bounded_records`: the mappings among the first `limit` items of a list. -/
def boundedRecords (rows : Val) (limit : Nat) : List Record :=
  match rows with
  | .list items =>
      (items.take limit).filterMap fun item =>
        match item with
        | .dict kvs => some kvs
        | _ => none
  | _ => []

/-! ## Frames and flows -/

/-- `_flow_addresses`. -/
def flowAddresses (flow : Flow) : Finset (String × Nat) :=
  {(flow.orig.host, flow.orig.port.val), (flow.resp.host, flow.resp.port.val)}

/-- One side of a frame: a host under either address family, with the port when it is one. -/
def endpointsOf (hosts : List (Option String)) (port : Option Nat) : List (String × Nat) :=
  hosts.filterMap fun host =>
    match host, port with
    | some h, some p => if p ≤ 65535 then some (h, p) else none
    | _, _ => none

/-- `_frame_endpoints`, for the host reader of the normalizer that calls it. -/
def frameEndpoints (asHost : Val → Option String) (frame : Record) :
    Result (List (String × Nat)) := do
  let srcPort ← asInt (frame.get "tcp.srcport")
  let dstPort ← asInt (frame.get "tcp.dstport")
  pure (endpointsOf [asHost (frame.get "ip.src"), asHost (frame.get "ipv6.src")] srcPort ++
    endpointsOf [asHost (frame.get "ip.dst"), asHost (frame.get "ipv6.dst")] dstPort)

/-- `_match_frame_uid`: the one flow with the frame's two endpoints, if there is exactly one. -/
def matchFrameUid (asHost : Val → Option String) (frame : Record) (flows : List Flow) :
    Result (Option String) := do
  let endpoints := (← frameEndpoints asHost frame).toFinset
  if endpoints.card < 2 then return none
  match flows.filter fun flow =>
      decide (endpoints ⊆ flowAddresses flow) || decide (endpoints = flowAddresses flow) with
  | [flow] => return some flow.uid
  | _ => return none

end Normalize
end SecureMail
