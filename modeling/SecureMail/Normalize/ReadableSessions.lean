import SecureMail.Normalize.Readable
import SecureMail.Normalize.SessionTables

/-!
# Logs and frames `normalize_sessions` can read

A row of `sm_email.log` is read once its connection is known and its kind has a name, and a frame
once it is matched. What can go wrong then is a number: the reply code of the row, or the ports, the
number and the reply code of the frame. The time stamps are read as well, so the condition here is
for rows and frames whose times are floats.

The two passes are independent in what they read, and the step of each raises exactly if its own row
does, but for one thing: a time that cannot be read is looked at only where the row makes an event.
With times that are floats this cannot come up, and the condition is one for each row by itself. The
module on times does without the assumption, and pays with a condition that looks at the row before.
-/

namespace SecureMail
namespace Normalize
namespace Sessions

open Py (Val Dict)
open Fallible (Returns returns_pure returns_bind returns_bind_pure returns_foldlM_iff_forall)

/-! ## One row, one frame -/

theorem returns_eventFromEmailRow_iff {row : Record} :
    Returns (eventFromEmailRow row) ↔
      ((kindFromName (asStr (row.get "event_type") 32)).isSome = true →
        IntReadable (row.get "reply_code")) := by
  unfold eventFromEmailRow
  cases kindFromName (asStr (row.get "event_type") 32) with
  | none => simp [returns_pure]
  | some kind =>
    rw [Option.isSome_some, ← returns_asInt_iff]
    simp only [returns_bind_pure, true_implies]

theorem returns_frameNumber_iff {frame : Record} :
    Returns (frameNumber frame) ↔ IntReadable (frame.get "frame.number") := by
  unfold frameNumber
  rw [returns_bind, returns_asInt_iff]
  refine and_iff_left fun number _ => ?_
  cases number with
  | none => exact returns_pure _
  | some n => exact returns_pure _

theorem returns_tsharkEvent_iff {frame : Record} {protocol : MailProtocol} :
    Returns (tsharkEvent frame protocol) ↔
      IntReadable (frame.get "frame.number") ∧
        (protocol = .smtp → frameStr frame (requestField .smtp) = none →
          IntReadable (frame.get (replyField .smtp))) := by
  unfold tsharkEvent
  rw [returns_bind, returns_frameNumber_iff]
  refine and_congr_right fun hnumber => ?_
  obtain ⟨number, hnumber⟩ := returns_frameNumber_iff.mpr hnumber
  rw [hnumber]
  simp only [Except.ok.injEq, forall_eq']
  cases hrequest : frameStr frame (requestField protocol) with
  | some request =>
    refine ⟨?_, fun _ => returns_pure _⟩
    rintro - rfl hnone
    rw [hrequest] at hnone
    cases hnone
  | none =>
    cases protocol with
    | smtp =>
      simp only [hrequest, true_implies]
      rw [returns_bind, returns_asInt_iff]
      refine and_iff_left fun code _ => ?_
      cases code with
      | none => exact returns_pure _
      | some n => exact returns_pure _
    | imap =>
      simp only [reduceCtorEq, false_implies, iff_true]
      cases frameStr frame (replyField .imap) with
      | none => exact returns_pure _
      | some status => exact returns_pure _
    | pop3 =>
      simp only [reduceCtorEq, false_implies, iff_true]
      cases frameStr frame (replyField .pop3) with
      | none => exact returns_pure _
      | some status => exact returns_pure _

/-! ## One step -/

theorem returns_zeekStep_iff {flowByUid : Dict String Flow} {s : ZeekPass} {row : Record} :
    Returns (zeekStep flowByUid s row) ↔
      ∀ uid, asStr (row.get "uid") maxUidLen = some uid → (flowByUid.get? uid).isSome = true →
        Returns (eventFromEmailRow row) ∧
          ∀ event, eventFromEmailRow row = .ok (some event) →
            isDuplicateCapability (s.previousByUid.get? uid) event = false →
              FloatReadable (row.get "ts") := by
  unfold zeekStep
  cases asStr (row.get "uid") maxUidLen with
  | none => simp [returns_pure]
  | some uid =>
    simp only [Option.some.injEq, forall_eq']
    cases hflow : flowByUid.get? uid with
    | none => simp [returns_pure]
    | some flow =>
      simp only [Option.isNone_some, Bool.false_eq_true, if_false, Option.isSome_some, true_implies]
      rw [returns_bind]
      refine and_congr_right fun _ => ?_
      constructor
      · intro h event hevent hnew
        have hstep := h (some event) hevent
        simp only [hnew, Bool.false_eq_true, if_false] at hstep
        exact returns_asFloat_iff.mp (returns_bind_pure.mp hstep)
      · intro h made hmade
        cases made with
        | none => exact returns_pure _
        | some event =>
          cases hdup : isDuplicateCapability (s.previousByUid.get? uid) event with
          | true =>
            simp only [hdup, if_true]
            exact returns_pure _
          | false =>
            simp only [hdup, Bool.false_eq_true, if_false]
            exact returns_bind_pure.mpr (returns_asFloat_iff.mpr (h event hmade hdup))

theorem returns_noteHello_iff {uid : String} {frame : Record} {s : TsharkPass} :
    Returns (noteHello uid frame s) ↔
      (isClientHelloFrame frame = true → IntReadable (frame.get "frame.number")) := by
  unfold noteHello
  cases isClientHelloFrame frame with
  | false => simp [returns_pure]
  | true =>
    simp only [if_true, true_implies]
    rw [returns_bind, returns_asInt_iff]
    refine and_iff_left fun number _ => ?_
    cases number with
    | none => exact returns_pure _
    | some n =>
      simp only
      split
      · exact returns_pure _
      · exact returns_pure _

theorem returns_noteMail_iff {zeekByUid : Dict String (List Stamped)} {uid : String}
    {frame : Record} {s : TsharkPass} :
    Returns (noteMail zeekByUid uid frame s) ↔
      ∀ protocol, tsharkProtocol frame = some protocol →
        Returns (tsharkEvent frame protocol) ∧
          ∀ event, tsharkEvent frame protocol = .ok (some event) →
            FloatReadable (frame.get "frame.time_epoch") := by
  unfold noteMail
  cases tsharkProtocol frame with
  | none => simp [returns_pure]
  | some protocol =>
    simp only [Option.some.injEq, forall_eq']
    rw [returns_bind]
    refine and_congr_right fun _ => ?_
    constructor
    · intro h event hevent
      exact returns_asFloat_iff.mp (returns_bind_pure.mp (h (some event) hevent))
    · intro h made hmade
      cases made with
      | none => exact returns_pure _
      | some event => exact returns_bind_pure.mpr (returns_asFloat_iff.mpr (h event hmade))

theorem returns_tsharkStep_iff {zeekByUid : Dict String (List Stamped)} {flows : List Flow}
    {frame : Record} {s : TsharkPass} :
    Returns (tsharkStep zeekByUid flows s frame) ↔
      Returns (matchFrameUid frame flows) ∧
        ∀ uid, matchFrameUid frame flows = .ok (some uid) →
          (isClientHelloFrame frame = true → IntReadable (frame.get "frame.number")) ∧
            ∀ protocol, tsharkProtocol frame = some protocol →
              Returns (tsharkEvent frame protocol) ∧
                ∀ event, tsharkEvent frame protocol = .ok (some event) →
                  FloatReadable (frame.get "frame.time_epoch") := by
  unfold tsharkStep
  rw [returns_bind]
  refine and_congr_right fun _ => ?_
  constructor
  · intro h uid huid
    have hnotes := h (some uid) huid
    simp only at hnotes
    obtain ⟨⟨s', hs'⟩, hmail⟩ := returns_bind.mp hnotes
    exact ⟨returns_noteHello_iff.mp ⟨s', hs'⟩, returns_noteMail_iff.mp (hmail s' hs')⟩
  · intro h uid? huid
    cases uid? with
    | none => exact returns_pure _
    | some uid =>
      obtain ⟨hhello, hmail⟩ := h uid huid
      exact returns_bind.mpr ⟨returns_noteHello_iff.mpr hhello, fun _ _ =>
        returns_noteMail_iff.mpr hmail⟩

/-! ## The whole run -/

/-- The rows of `sm_email.log` that are read. -/
def emailRows (logs : Record) : List Record :=
  boundedRecords (getLog logs "sm_email.log") maxRecords

/-- The frames that are read. -/
def keptFrames (tsharkFrames : Option (List Val)) : List Record :=
  boundedRecords (.list (tsharkFrames.getD [])) maxFrames

/-- The row has a reply code that is read, once its flow is known and its kind has a name. -/
def RowReadable (flows : List Flow) (row : Record) : Prop :=
  (∃ flow ∈ flows, asStr (row.get "uid") maxUidLen = some flow.uid) →
    (kindFromName (asStr (row.get "event_type") 32)).isSome = true →
      IntReadable (row.get "reply_code")

/-- The frame has ports that are read and, once it is matched, a number and an SMTP code that are
read where they are looked at. -/
structure FrameReadable (flows : List Flow) (frame : Record) : Prop where
  srcPort : IntReadable (frame.get "tcp.srcport")
  dstPort : IntReadable (frame.get "tcp.dstport")
  number : ∀ uid, matchFrameUid frame flows = .ok (some uid) →
    isClientHelloFrame frame = true ∨ (tsharkProtocol frame).isSome = true →
      IntReadable (frame.get "frame.number")
  code : ∀ uid, matchFrameUid frame flows = .ok (some uid) → tsharkProtocol frame = some .smtp →
    frameStr frame (requestField .smtp) = none → IntReadable (frame.get (replyField .smtp))

/-- Every row and every frame that is read can be. -/
structure InputReadable (logs : Record) (flows : List Flow) (tsharkFrames : Option (List Val)) :
    Prop where
  rows : ∀ row ∈ emailRows logs, RowReadable flows row
  frames : ∀ frame ∈ keptFrames tsharkFrames, FrameReadable flows frame

theorem returns_zeekPass_iff {logs : Record} {flows : List Flow}
    (htimes : ∀ row ∈ emailRows logs, FloatReadable (row.get "ts")) :
    Returns (zeekPass logs (flowsByUid flows)) ↔ ∀ row ∈ emailRows logs, RowReadable flows row := by
  unfold zeekPass
  refine returns_foldlM_iff_forall fun s row hrow => ?_
  rw [returns_zeekStep_iff]
  simp only [flowsByUid_isSome, returns_eventFromEmailRow_iff]
  constructor
  · rintro h ⟨flow, hflow, huid⟩
    exact (h flow.uid huid ⟨flow, hflow, rfl⟩).1
  · rintro h uid huid ⟨flow, hflow, rfl⟩
    exact ⟨h ⟨flow, hflow, huid⟩, fun _ _ _ => htimes row hrow⟩

/-- The time of a frame is one that is read, if the frame makes an event. -/
def FrameTimed (flows : List Flow) (frame : Record) : Prop :=
  ∀ uid, matchFrameUid frame flows = .ok (some uid) →
    ∀ protocol, tsharkProtocol frame = some protocol →
      ∀ event, tsharkEvent frame protocol = .ok (some event) →
        FloatReadable (frame.get "frame.time_epoch")

theorem returns_tsharkStep_iff_timed {flows : List Flow} {zeekByUid : Dict String (List Stamped)}
    {frame : Record} {s : TsharkPass} :
    Returns (tsharkStep zeekByUid flows s frame) ↔
      FrameReadable flows frame ∧ FrameTimed flows frame := by
  rw [returns_tsharkStep_iff, matchFrameUid, returns_matchFrameUid_iff]
  constructor
  · rintro ⟨⟨hsrc, hdst⟩, h⟩
    refine ⟨⟨hsrc, hdst, ?_, ?_⟩, ?_⟩
    · rintro uid huid (hhello | hmail)
      · exact (h uid huid).1 hhello
      · obtain ⟨protocol, hprotocol⟩ := Option.isSome_iff_exists.mp hmail
        exact (returns_tsharkEvent_iff.mp ((h uid huid).2 protocol hprotocol).1).1
    · intro uid huid hprotocol
      exact (returns_tsharkEvent_iff.mp ((h uid huid).2 .smtp hprotocol).1).2 rfl
    · intro uid huid protocol hprotocol event hevent
      exact ((h uid huid).2 protocol hprotocol).2 event hevent
  · rintro ⟨hreadable, htimed⟩
    refine ⟨⟨hreadable.srcPort, hreadable.dstPort⟩, fun uid huid => ⟨?_, ?_⟩⟩
    · exact fun hhello => hreadable.number uid huid (Or.inl hhello)
    · intro protocol hprotocol
      have hmail : (tsharkProtocol frame).isSome = true := by
        rw [hprotocol]
        rfl
      refine ⟨returns_tsharkEvent_iff.mpr ⟨hreadable.number uid huid (Or.inr hmail), ?_⟩, ?_⟩
      · rintro rfl
        exact hreadable.code uid huid hprotocol
      · exact htimed uid huid protocol hprotocol

theorem returns_tsharkPass_iff_timed {flows : List Flow} {zeek : ZeekPass}
    {tsharkFrames : Option (List Val)} :
    Returns (tsharkPass flows zeek tsharkFrames) ↔
      ∀ frame ∈ keptFrames tsharkFrames, FrameReadable flows frame ∧ FrameTimed flows frame :=
  returns_foldlM_iff_forall fun _ _ _ => returns_tsharkStep_iff_timed

theorem returns_tsharkPass_iff {flows : List Flow} {zeek : ZeekPass}
    {tsharkFrames : Option (List Val)}
    (htimes : ∀ frame ∈ keptFrames tsharkFrames, (tsharkProtocol frame).isSome = true →
      FloatReadable (frame.get "frame.time_epoch")) :
    Returns (tsharkPass flows zeek tsharkFrames) ↔
      ∀ frame ∈ keptFrames tsharkFrames, FrameReadable flows frame := by
  rw [returns_tsharkPass_iff_timed]
  refine forall₂_congr fun frame hframe => and_iff_left fun uid _ protocol hprotocol _ _ => ?_
  refine htimes frame hframe ?_
  rw [hprotocol]
  rfl

/-- **Where the times are floats, `normalize_sessions` returns on the input it can read, and on no
other.** -/
theorem returns_normalizeSessions_iff {logs : Record} {flows : List Flow}
    {tsharkFrames : Option (List Val)}
    (hrows : ∀ row ∈ emailRows logs, FloatReadable (row.get "ts"))
    (hframes : ∀ frame ∈ keptFrames tsharkFrames, (tsharkProtocol frame).isSome = true →
      FloatReadable (frame.get "frame.time_epoch")) :
    Returns (normalizeSessions logs flows tsharkFrames) ↔ InputReadable logs flows tsharkFrames := by
  unfold normalizeSessions readTables
  rw [returns_bind_pure, returns_bind, returns_zeekPass_iff hrows]
  simp only [returns_bind_pure, returns_tsharkPass_iff hframes]
  constructor
  · rintro ⟨hzeek, h⟩
    obtain ⟨zeek, hrun⟩ := (returns_zeekPass_iff hrows).mpr hzeek
    exact ⟨hzeek, h zeek hrun⟩
  · exact fun h => ⟨h.rows, fun _ _ => h.frames⟩

end Sessions
end Normalize
end SecureMail
