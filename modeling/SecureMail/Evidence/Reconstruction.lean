import SecureMail.Evidence.Flow
import SecureMail.Py.Str
import SecureMail.Py.Datetime

/-!
# Reconstruction quality

`classify_reconstruction` maps what the analyzers said of one connection to a quality, a reason and
an evidence state. The order of the branches is the precedence of the reasons: a conflict first,
then a cut capture, then gaps, then lost packets, then missing ends. A connection that is not TCP is
asked one question only, whether the capture is cut.

Every branch ends in the one `verdict`, which adds what does not depend on the branch: the state
that belongs to the quality, and the conditions that were observed but do not lower it. The number
of missing bytes is Zeek's own where Zeek counted and the sum of the gap ranges otherwise, and a
flag says if the number is exact. What that flag is worth is the subject of `Evidence.GapAccounting`,
and that more damage never gives a better quality that of `Evidence.Damage`.
-/

namespace SecureMail

open Py (isIn)

def TransportProto.value : TransportProto → String
  | .tcp => "tcp"
  | .udp => "udp"
  | .icmp => "icmp"
  | .icmp6 => "icmp6"
  | .unknown => "unknown"

/-- The facts of `capinfos` that an analysis reads. -/
structure CapturePreflight where
  truncatedPacketsPresent : Bool
  captureStartTime : Option Py.Datetime := none
  deriving DecidableEq

structure ReconstructionFacts where
  proto : TransportProto
  history : String
  connState : String
  missedBytes : Nat
  origBytes : Nat
  respBytes : Nat
  weirdNames : List String
  captureLossGaps : Nat
  truncatedPackets : Bool
  gapRanges : List ByteRange
  conflictingRanges : List ByteRange
  retransmissionCount : Nat
  outOfOrder : Bool
  duplicateSegments : Bool
  deriving DecidableEq

structure ReconstructionVerdict where
  reconstructionQuality : ReconstructionQuality
  reasonCode : Option ReconstructionReasonCode
  observedConditions : List ObservedCondition
  gapBytes : Nat
  gapBytesExact : Bool
  conflictingByteRanges : List ByteRange
  evidenceState : EvidenceState
  deriving DecidableEq

/-- `_QUALITY_TO_STATE`. -/
def qualityToState : ReconstructionQuality → EvidenceState
  | .complete => .observed
  | .incomplete => .incomplete
  | .conflicting => .conflicting

def hasOrigSyn (history : String) : Bool := isIn "S" history
def hasRespSynack (history : String) : Bool := isIn "h" history
def hasFin (history : String) : Bool := isIn "F" history || isIn "f" history
def hasRst (history : String) : Bool := isIn "R" history || isIn "r" history
def hasData (history : String) : Bool := isIn "D" history || isIn "d" history

/-- `_range_bytes`: a range the wrong way round counts for nothing, and one that is listed twice counts
twice. -/
def rangeBytes (ranges : List ByteRange) : Nat :=
  ranges.foldl (fun total item =>
    if item.start ≤ item.end then total + (item.end - item.start) else total) 0

/-- `_gap_at_stream_start`. -/
def gapAtStreamStart (gapRanges : List ByteRange) : Bool := gapRanges.any (·.start ≤ 1)

namespace ReconstructionFacts

variable (facts : ReconstructionFacts)

/-- `_observed_conditions`. -/
def observedConditions (conflicting : Bool) : List ObservedCondition :=
  (if facts.outOfOrder then [.outOfOrderSegments] else []) ++
    (if (facts.duplicateSegments || 0 < facts.retransmissionCount) && !conflicting then
      [.duplicateSegments] else [])

/-- `_verdict`. The evidence state is derived from the quality here and nowhere else, so the two
cannot come apart. -/
def verdict (quality : ReconstructionQuality) (reason : Option ReconstructionReasonCode)
    (gapBytes : Nat) (gapBytesExact : Bool) (conflictingRanges : List ByteRange := []) :
    ReconstructionVerdict where
  reconstructionQuality := quality
  reasonCode := reason
  observedConditions := facts.observedConditions (quality = .conflicting)
  gapBytes := gapBytes
  gapBytesExact := gapBytesExact
  conflictingByteRanges := conflictingRanges
  evidenceState := qualityToState quality

/-- The bytes that are missing: Zeek's own count, or else the gaps added up. -/
def gapTotal : Nat :=
  if 0 < facts.missedBytes then facts.missedBytes else rangeBytes facts.gapRanges

/-- `classify_reconstruction`. The branches exclude each other by their order: what damages a
connection most is asked first. -/
def classifyReconstruction : ReconstructionVerdict :=
  if facts.proto ≠ .tcp then
    if facts.truncatedPackets then
      facts.verdict .incomplete (some .snaplenTruncation) 0 false
    else facts.verdict .complete none 0 true
  else if !facts.conflictingRanges.isEmpty then
    facts.verdict .conflicting (some .overlappingRetransmissionConflict) 0 true
      facts.conflictingRanges
  else if facts.truncatedPackets then
    facts.verdict .incomplete (some .snaplenTruncation) facts.gapTotal (0 < facts.gapTotal)
  else if 0 < facts.missedBytes || !facts.gapRanges.isEmpty then
    let exact := 0 < facts.missedBytes ||
      (!facts.gapRanges.isEmpty && facts.gapRanges.all (·.exact))
    if !hasOrigSyn facts.history || gapAtStreamStart facts.gapRanges then
      facts.verdict .incomplete (some .midstreamStart) facts.gapTotal exact
    else facts.verdict .incomplete (some .segmentGap) facts.gapTotal exact
  else if 0 < facts.captureLossGaps then
    facts.verdict .incomplete (some .captureLoss) 0 false
  else if !hasOrigSyn facts.history then
    facts.verdict .incomplete (some .missingSyn) 0 true
  else
    let established :=
      hasRespSynack facts.history || hasData facts.history || isIn "A" facts.history
    if established && !hasFin facts.history && !hasRst facts.history then
      facts.verdict .incomplete (some .missingFin) 0 true
    else facts.verdict .complete none 0 true

end ReconstructionFacts

end SecureMail
