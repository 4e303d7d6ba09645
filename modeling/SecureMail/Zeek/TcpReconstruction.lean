import Mathlib.Data.List.Induction
import Mathlib.Logic.Function.Basic
import SecureMail.Py.Str

/-!
# `tcp-reconstruction.zeek`

The script keeps three numbers for each direction of a connection: the sequence number it expects
next, the highest end of a segment that came early, and whether any did. From these alone it says
of a segment that it is a duplicate, overlaps what was there, or came out of order; the payload is
never looked at.

The three are tables over the uid and the direction, and a packet touches the entry of its own
direction only (`run_streams`), so everything else here is about one direction.

The handler is kept as the script has it, with the sequence numbers it is given: these are relative
to the first number of the direction, and its comparisons are those of natural numbers without a
wrap. A segment is a packet with data and no SYN, which is what the branches after the first two are
about, so that the case split of a segment (`tcpPacket_cases`) has four cases and not seven.
Everything that is said of a run is said of the three numbers after the SYN and a list of segments,
and `expected_append` says how one segment changes them.
-/

namespace SecureMail
namespace Zeek

open Py (isIn)

inductive EventType
  | outOfOrder | duplicate | overlap
deriving DecidableEq, Repr

def EventType.text : EventType → String
  | .outOfOrder => "out_of_order"
  | .duplicate => "duplicate"
  | .overlap => "overlap"

/-- The arguments a record is written from. -/
structure Note where
  eventType : EventType
  seq : Nat
  len : Nat
deriving DecidableEq, Repr

/-- `Info`; the time and the addresses are left out. -/
structure Info where
  uid : String
  isOrig : Bool
  eventType : String
  seq : Option Nat := none
  len : Option Nat := none
  rangeStart : Option Nat := none
  rangeEnd : Option Nat := none
deriving DecidableEq, Repr

/-- `write_evt`: a number that is 0 is left out. -/
def writeEvt (uid : String) (isOrig : Bool) (note : Note) : Info where
  uid := uid
  isOrig := isOrig
  eventType := note.eventType.text
  seq := if 0 < note.seq then some note.seq else none
  len := if 0 < note.len then some note.len else none
  rangeStart := if 0 < note.seq ∧ 0 < note.len then some note.seq else none
  rangeEnd := if 0 < note.seq ∧ 0 < note.len then some (note.seq + note.len) else none

structure Packet where
  flags : String
  seq : Nat
  len : Nat
deriving DecidableEq, Repr

/-- The entries of the three tables for one direction. -/
structure Stream where
  nextSeq : Option Nat := none
  highWater : Option Nat := none
  sawFuture : Bool := false
deriving DecidableEq, Repr

/-- `event tcp_packet`, with the record it writes if it writes one. -/
def Stream.tcpPacket (s : Stream) (p : Packet) : Stream × Option Note :=
  if isIn "S" p.flags then ({ s with nextSeq := some 1 }, none)
  else if p.len = 0 then (s, none)
  else
    match s.nextSeq with
    | none => ({ s with nextSeq := some (p.seq + p.len) }, none)
    | some expected =>
      if p.seq = expected then
        let nxt := match s.highWater with
          | some highWater => if p.seq + p.len < highWater then highWater else p.seq + p.len
          | none => p.seq + p.len
        ({ s with nextSeq := some nxt },
          if s.sawFuture then some ⟨.outOfOrder, p.seq, p.len⟩ else none)
      else if expected < p.seq then
        let hw := match s.highWater with
          | some highWater => if highWater < p.seq + p.len then p.seq + p.len else highWater
          | none => p.seq + p.len
        ({ s with sawFuture := true, highWater := some hw }, none)
      else if p.seq + p.len ≤ expected then (s, some ⟨.duplicate, p.seq, p.len⟩)
      else (s, some ⟨.overlap, p.seq, expected - p.seq⟩)

/-! ## All connections -/

/-- A direction of a connection: its uid, and whether it is the originator's. -/
abbrev Direction := String × Bool

/-- The three tables. -/
abbrev Streams := Direction → Stream

/-- A packet of some direction, with the row it adds to the log. -/
def tcpPacket (streams : Streams) (direction : Direction) (p : Packet) : Streams × Option Info :=
  let (stream, note) := (streams direction).tcpPacket p
  (Function.update streams direction stream, note.map (writeEvt direction.1 direction.2))

/-- **Directions do not interfere**: the entry of one is what its own packets make of it. -/
theorem run_streams (packets : List (Direction × Packet)) (streams : Streams)
    (direction : Direction) :
    (packets.foldl (fun streams p => (tcpPacket streams p.1 p.2).1) streams) direction =
      ((packets.filter fun p => p.1 = direction).map Prod.snd).foldl
        (fun s p => (s.tcpPacket p).1) (streams direction) := by
  induction packets generalizing streams with
  | nil => rfl
  | cons packet rest ih =>
    rw [List.foldl_cons, ih, List.filter_cons]
    by_cases hdirection : packet.1 = direction
    · subst hdirection
      simp [tcpPacket]
    · have hother : (tcpPacket streams packet.1 packet.2).1 direction = streams direction :=
        Function.update_of_ne (Ne.symm hdirection) _ _
      simp [hdirection, hother]

/-! ## One direction after its SYN -/

/-- A packet with data that is no SYN. Empty packets and repeated SYNs change nothing that matters
here, so a list of segments is the whole history of a direction. -/
structure Segment extends Packet where
  pos : 0 < len
  data : isIn "S" flags = false

/-- The byte is one of the segment's. -/
def Segment.Covers (g : Segment) (b : Nat) : Prop := g.seq ≤ b ∧ b < g.seq + g.len

/-- The byte has come with one of the segments. It is about bytes and not about segments, since a
segment may bring some that were there. -/
def Arrived (segs : List Segment) (b : Nat) : Prop := ∃ g ∈ segs, g.Covers b

def afterSyn : Stream where
  nextSeq := some 1

/-- The state after the SYN and these segments. -/
def stateAfter (segs : List Segment) : Stream :=
  segs.foldl (fun s g => (s.tcpPacket g.toPacket).1) afterSyn

/-- What is written of a segment that comes after these. -/
def written (segs : List Segment) (g : Segment) : Option Note :=
  ((stateAfter segs).tcpPacket g.toPacket).2

/-- `next_seq`. -/
def expected (segs : List Segment) : Nat := (stateAfter segs).nextSeq.getD 0

/-- `high_water`; 0 while no segment came early. -/
def highWater (segs : List Segment) : Nat := (stateAfter segs).highWater.getD 0

theorem stateAfter_append (segs : List Segment) (g : Segment) :
    stateAfter (segs ++ [g]) = ((stateAfter segs).tcpPacket g.toPacket).1 := by
  rw [stateAfter, List.foldl_append]
  rfl

/-- What the script does with a segment: in order, early, behind, or across. -/
theorem tcpPacket_cases {s : Stream} {e : Nat} (hs : s.nextSeq = some e) (g : Segment) :
    (g.seq = e ∧ s.tcpPacket g.toPacket =
      ({ s with nextSeq := some (max (g.seq + g.len) (s.highWater.getD 0)) },
        if s.sawFuture then some ⟨.outOfOrder, g.seq, g.len⟩ else none)) ∨
    (e < g.seq ∧ s.tcpPacket g.toPacket =
      ({ s with sawFuture := true, highWater := some (max (s.highWater.getD 0) (g.seq + g.len)) },
        none)) ∨
    (g.seq < e ∧ g.seq + g.len ≤ e ∧
      s.tcpPacket g.toPacket = (s, some ⟨.duplicate, g.seq, g.len⟩)) ∨
    (g.seq < e ∧ e < g.seq + g.len ∧
      s.tcpPacket g.toPacket = (s, some ⟨.overlap, g.seq, e - g.seq⟩)) := by
  unfold Stream.tcpPacket
  rw [if_neg (by rw [g.data]; exact Bool.false_ne_true), if_neg (Nat.pos_iff_ne_zero.mp g.pos), hs]
  simp only
  rcases Nat.lt_trichotomy g.seq e with hbehind | horder | hearly
  · rw [if_neg (Nat.ne_of_lt hbehind), if_neg (Nat.lt_asymm hbehind)]
    by_cases hend : g.seq + g.len ≤ e
    · rw [if_pos hend]
      exact Or.inr (Or.inr (Or.inl ⟨hbehind, hend, rfl⟩))
    · rw [if_neg hend]
      exact Or.inr (Or.inr (Or.inr ⟨hbehind, Nat.not_le.mp hend, rfl⟩))
  · refine Or.inl ⟨horder, ?_⟩
    rw [if_pos horder]
    congr 3
    cases s.highWater with
    | none => simp
    | some hw =>
      simp only [Option.getD_some]
      split <;> omega
  · refine Or.inr (Or.inl ⟨hearly, ?_⟩)
    rw [if_neg (Nat.ne_of_gt hearly), if_pos hearly]
    congr 3
    cases s.highWater with
    | none => simp
    | some hw =>
      simp only [Option.getD_some]
      split <;> omega

section

variable (segs : List Segment) (g : Segment)

theorem nextSeq_stateAfter : (stateAfter segs).nextSeq = some (expected segs) := by
  have hsome : ∃ e, (stateAfter segs).nextSeq = some e := by
    induction segs using List.reverseRecOn with
    | nil => exact ⟨1, rfl⟩
    | append_singleton segs g ih =>
      obtain ⟨e, he⟩ := ih
      rw [stateAfter_append]
      rcases tcpPacket_cases he g with ⟨-, hstep⟩ | ⟨-, hstep⟩ | ⟨-, -, hstep⟩ | ⟨-, -, hstep⟩
      · rw [hstep]
        exact ⟨_, rfl⟩
      all_goals
        rw [hstep]
        exact ⟨e, he⟩
  obtain ⟨e, he⟩ := hsome
  rw [expected, he]
  rfl

theorem expected_append : expected (segs ++ [g]) =
    if g.seq = expected segs then max (g.seq + g.len) (highWater segs) else expected segs := by
  rw [expected, stateAfter_append]
  rcases tcpPacket_cases (nextSeq_stateAfter segs) g with
    ⟨horder, hstep⟩ | ⟨hearly, hstep⟩ | ⟨hbehind, -, hstep⟩ | ⟨hbehind, -, hstep⟩
  · rw [hstep, if_pos horder]
    rfl
  · rw [hstep, if_neg (Nat.ne_of_gt hearly)]
    rfl
  all_goals
    rw [hstep, if_neg (Nat.ne_of_lt hbehind)]
    rfl

theorem highWater_append : highWater (segs ++ [g]) =
    if expected segs < g.seq then max (highWater segs) (g.seq + g.len) else highWater segs := by
  rw [highWater, stateAfter_append]
  rcases tcpPacket_cases (nextSeq_stateAfter segs) g with
    ⟨horder, hstep⟩ | ⟨hearly, hstep⟩ | ⟨hbehind, -, hstep⟩ | ⟨hbehind, -, hstep⟩
  · have hnot : ¬ expected segs < g.seq := by omega
    rw [hstep, if_neg hnot]
    rfl
  · rw [hstep, if_pos hearly]
    rfl
  all_goals
    rw [hstep, if_neg (Nat.lt_asymm hbehind)]
    rfl

theorem sawFuture_append : (stateAfter (segs ++ [g])).sawFuture =
    ((stateAfter segs).sawFuture || decide (expected segs < g.seq)) := by
  rw [stateAfter_append]
  rcases tcpPacket_cases (nextSeq_stateAfter segs) g with
    ⟨horder, hstep⟩ | ⟨hearly, hstep⟩ | ⟨hbehind, -, hstep⟩ | ⟨hbehind, -, hstep⟩
  · simp [hstep, horder]
  · simp [hstep, hearly]
  all_goals simp [hstep, Nat.le_of_lt hbehind]

/-- A record is written of a segment in order if one ever came early, and of one that starts behind. -/
theorem written_eq : written segs g =
    if g.seq = expected segs then
      if (stateAfter segs).sawFuture then some ⟨.outOfOrder, g.seq, g.len⟩ else none
    else if expected segs < g.seq then none
    else if g.seq + g.len ≤ expected segs then some ⟨.duplicate, g.seq, g.len⟩
    else some ⟨.overlap, g.seq, expected segs - g.seq⟩ := by
  rw [written]
  rcases tcpPacket_cases (nextSeq_stateAfter segs) g with
    ⟨horder, hstep⟩ | ⟨hearly, hstep⟩ | ⟨hbehind, hend, hstep⟩ | ⟨hbehind, hend, hstep⟩
  · rw [hstep, if_pos horder]
  · rw [hstep, if_neg (Nat.ne_of_gt hearly), if_pos hearly]
  · rw [hstep, if_neg (Nat.ne_of_lt hbehind), if_neg (Nat.lt_asymm hbehind), if_pos hend]
  · rw [hstep, if_neg (Nat.ne_of_lt hbehind), if_neg (Nat.lt_asymm hbehind),
      if_neg (Nat.not_le.mpr hend)]

end

/-- The number expected next never goes back. -/
theorem expected_mono (segs more : List Segment) : expected segs ≤ expected (segs ++ more) := by
  induction more using List.reverseRecOn with
  | nil => rw [List.append_nil]
  | append_singleton more g ih =>
    rw [← List.append_assoc, expected_append]
    split
    · next horder =>
      have hmax := Nat.le_max_left (g.seq + g.len) (highWater (segs ++ more))
      omega
    · exact ih

end Zeek
end SecureMail
