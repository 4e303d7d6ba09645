import SecureMail.Evidence.Run

/-!
# Flow evidence

One record for each connection: its ends, what Zeek saw of its life as the letters of `history`, and
the verdict on its reconstruction. The uid is the key by which sessions, handshakes and certificates
refer to the flow they were seen on.

The bounds pydantic puts on the fields are in the types. A port is a `Fin 65536` and every count a
natural number, so a flow that exists is one that passed its validation, and the normalizer has to
show the bound at the one place where a flow is built.

A range is half open and counts relative sequence numbers of one direction. Nothing in the source
makes its end at least its start; a range the wrong way round has no positions, and every sum over
ranges has to say what it does with one.
-/

namespace SecureMail

inductive ReconstructionQuality where
  | complete
  | incomplete
  | conflicting
  deriving DecidableEq, Repr

inductive ReconstructionReasonCode where
  | missingSyn
  | missingFin
  | midstreamStart
  | snaplenTruncation
  | overlappingRetransmissionConflict
  | segmentGap
  | captureLoss
  deriving DecidableEq, Repr

inductive ObservedCondition where
  | outOfOrderSegments
  | duplicateSegments
  deriving DecidableEq, Repr

inductive StreamDirection where
  | orig
  | resp
  deriving DecidableEq, Repr

inductive TransportProto where
  | tcp
  | udp
  | icmp
  | icmp6
  | unknown
  deriving DecidableEq, Repr

/-- A half-open range of relative sequence numbers, in one direction. `exact` says that the
range is where it stands: its start was in the log, and was not put at zero for want of one. -/
structure ByteRange where
  start : Nat
  «end» : Nat
  direction : StreamDirection
  exact : Bool := true
  deriving DecidableEq, Repr

structure FlowEndpoint where
  host : String
  port : Fin 65536
  deriving DecidableEq, Repr

structure Flow where
  uid : String
  orig : FlowEndpoint
  resp : FlowEndpoint
  proto : TransportProto
  history : String
  connState : String
  missedBytes : Nat
  origBytes : Nat
  respBytes : Nat
  reconstructionQuality : ReconstructionQuality
  reasonCode : Option ReconstructionReasonCode := none
  observedConditions : List ObservedCondition := []
  gapBytes : Nat
  gapBytesExact : Bool := true
  conflictingByteRanges : List ByteRange := []
  evidenceState : EvidenceState
  deriving DecidableEq, Repr

/-- Port `0` is a number too, so that a port can be written as one. -/
instance instNeZeroPorts : @NeZero Nat Zero.ofOfNat0 65536 := ⟨by decide⟩

/-- A TCP connection seen whole, from one host to a port of another. -/
def Flow.toPort (uid : String) (port : Fin 65536) : Flow :=
  { uid := uid, orig := ⟨"10.0.0.1", 50000⟩, resp := ⟨"10.0.0.2", port⟩, proto := .tcp,
    history := "ShADadFf", connState := "SF", missedBytes := 0, origBytes := 900, respBytes := 4000,
    reconstructionQuality := .complete, gapBytes := 0, evidenceState := .observed }

end SecureMail
