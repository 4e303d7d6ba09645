import SecureMail.Normalize.Sessions
import SecureMail.Lib.Fallible

/-!
# What one row and one frame do to the tables

`zeekStep` and `tsharkStep` are each a chain of tests that ends in one of a few updates. `RowCase`
and `FrameCase` list those updates with everything the tests established on the way, and every fact
about a pass is a case split on one of them under `Fallible.foldlM_invariant` or
`Fallible.foldlM_collect`. A step that raises is in neither: what is proved here is about passes
that return.

The tests of the two steps are in the order of the source, and that order matters, since a row that
fails an early test leaves no trace at all. A case records the tests it has passed as hypotheses,
and the update as an equation on the tables, field by field. There are more cases than any one fact
needs, and the lemmas about folds take a predicate so that a fact can pass over the cases it has no
interest in.
-/

namespace SecureMail
namespace Normalize
namespace Sessions

open Py (Val Dict)

/-! ## A row of `sm_email.log` -/

/-- What a row leaves behind: the tables as they were, or one more event of a connection. -/
inductive RowCase (flowByUid : Dict String Flow) (s : ZeekPass) (row : Record) : ZeekPass → Prop
  | ignored (h : ∀ uid, asStr (row.get "uid") maxUidLen = some uid → (flowByUid.get? uid).isSome →
        eventFromEmailRow row = .ok none ∨ ∃ event, eventFromEmailRow row = .ok (some event) ∧
          isDuplicateCapability (s.previousByUid.get? uid) event = true) :
      RowCase flowByUid s row s
  | recorded (stamped : Stamped) (huid : asStr (row.get "uid") maxUidLen = some stamped.uid)
      (hflow : (flowByUid.get? stamped.uid).isSome)
      (hevent : eventFromEmailRow row = .ok (some stamped.event))
      (hnew : isDuplicateCapability (s.previousByUid.get? stamped.uid) stamped.event = false) :
      RowCase flowByUid s row (s.record stamped)

theorem zeekStep_cases {flowByUid : Dict String Flow} {s s' : ZeekPass} {row : Record}
    (h : zeekStep flowByUid s row = .ok s') : RowCase flowByUid s row s' := by
  unfold zeekStep at h
  cases huid : asStr (row.get "uid") maxUidLen with
  | none =>
    rw [huid] at h
    -- A row without a uid is of no connection, so there is nothing to account for.
    obtain rfl : s = s' := Fallible.pure_eq_ok.mp h
    refine RowCase.ignored fun uid hrow => ?_
    rw [huid] at hrow
    exact absurd hrow (by simp)
  | some uid =>
    rw [huid] at h
    dsimp only at h
    split at h
    · rename_i hflow
      obtain rfl : s = s' := Fallible.pure_eq_ok.mp h
      refine RowCase.ignored fun uid' hrow hsome => ?_
      obtain rfl : uid = uid' := Option.some.inj (huid.symm.trans hrow)
      rw [← Option.not_isSome, hsome] at hflow
      exact absurd hflow (by simp)
    · rename_i hflow
      have hsome : (flowByUid.get? uid).isSome = true := by
        simpa [Option.isSome_iff_ne_none] using hflow
      obtain ⟨made, hmade, h⟩ := Fallible.bind_eq_ok.mp h
      cases made with
      | none =>
        obtain rfl : s = s' := Fallible.pure_eq_ok.mp h
        exact RowCase.ignored fun uid' _ _ => Or.inl hmade
      | some event =>
        dsimp only at h
        split at h
        · rename_i hdup
          obtain rfl : s = s' := Fallible.pure_eq_ok.mp h
          refine RowCase.ignored fun uid' hrow _ => Or.inr ⟨event, hmade, ?_⟩
          obtain rfl : uid = uid' := Option.some.inj (huid.symm.trans hrow)
          exact hdup
        · rename_i hnew
          obtain ⟨ts, _, h⟩ := Fallible.bind_eq_ok.mp h
          obtain rfl := Fallible.pure_eq_ok.mp h
          exact RowCase.recorded _ huid hsome hmade (by simpa using hnew)

namespace ZeekPass

variable (s : ZeekPass) (stamped : Stamped)

/-- Every table after the event. An ambiguous banner is not of a confirming kind, so the protocol
that is confirmed is asked of the kind alone. -/
theorem record_eq :
    s.record stamped =
      { previousByUid := s.previousByUid.set stamped.uid stamped.event
        seenUids :=
          if (s.zeekByUid.get? stamped.uid).isSome then s.seenUids
          else s.seenUids ++ [stamped.uid]
        zeekByUid := s.zeekByUid.update stamped.uid [] (· ++ [stamped])
        order := s.order + 1
        ambiguousUids :=
          if stamped.event.kind = .ambiguousBanner then stamped.uid :: s.ambiguousUids
          else s.ambiguousUids
        confirmingByUid :=
          match stamped.protocol.filter fun _ => stamped.event.kind ∈ confirmingKinds with
          | some p => s.confirmingByUid.update stamped.uid ∅ (insert p)
          | none => s.confirmingByUid } := by
  unfold record
  by_cases hbanner : stamped.event.kind = .ambiguousBanner
  · simp [hbanner, confirmingKinds]
  · rw [if_neg hbanner]
    cases stamped.protocol with
    | none => simp [hbanner]
    | some p =>
      by_cases hkind : stamped.event.kind ∈ confirmingKinds
      · simp [hbanner, hkind, Option.filter]
      · simp [hbanner, hkind]

@[simp] theorem record_zeekByUid :
    (s.record stamped).zeekByUid = s.zeekByUid.update stamped.uid [] (· ++ [stamped]) := by
  rw [record_eq]

@[simp] theorem record_order : (s.record stamped).order = s.order + 1 := by
  rw [record_eq]

end ZeekPass

/-! ## A frame -/

/-- What a frame leaves behind. A frame that is matched marks the run as corroborated and may add a
ClientHello; one that speaks a protocol names it for the connection; and one that makes an event
adds it. -/
inductive FrameCase (zeekByUid : Dict String (List Stamped)) (flows : List Flow) (s : TsharkPass)
    (frame : Record) : TsharkPass → Prop
  | unmatched (hmatch : matchFrameUid frame flows = .ok none) :
      FrameCase zeekByUid flows s frame s
  | silent (uid : String) (hello : Dict String (List Nat))
      (hmatch : matchFrameUid frame flows = .ok (some uid))
      (hprotocol : tsharkProtocol frame = none) :
      FrameCase zeekByUid flows s frame { s with usedTshark := true, helloFrames := hello }
  | noted (uid : String) (protocol : MailProtocol) (hello : Dict String (List Nat))
      (hmatch : matchFrameUid frame flows = .ok (some uid))
      (hprotocol : tsharkProtocol frame = some protocol)
      (hevent : tsharkEvent frame protocol = .ok none) :
      FrameCase zeekByUid flows s frame
        { s with usedTshark := true, helloFrames := hello
                 tsharkByUid := s.tsharkByUid.update uid ∅ (insert protocol) }
  | event (stamped : Stamped) (protocol : MailProtocol) (hello : Dict String (List Nat))
      (hmatch : matchFrameUid frame flows = .ok (some stamped.uid))
      (hprotocol : tsharkProtocol frame = some protocol)
      (hevent : tsharkEvent frame protocol = .ok (some stamped.event)) :
      FrameCase zeekByUid flows s frame
        { usedTshark := true
          tsharkByUid := s.tsharkByUid.update stamped.uid ∅ (insert protocol)
          tsharkEvents := s.tsharkEvents.update stamped.uid [] (· ++ [stamped])
          helloFrames := hello
          seenUids :=
            if (zeekByUid.get? stamped.uid).isNone ∧ (s.tsharkEvents.get? stamped.uid).isNone then
              s.seenUids ++ [stamped.uid]
            else s.seenUids
          order := s.order + 1 }

/-- Noting a ClientHello touches the one table. -/
theorem noteHello_eq_ok {uid : String} {frame : Record} {s s' : TsharkPass}
    (h : noteHello uid frame s = .ok s') : ∃ hello, s' = { s with helloFrames := hello } := by
  unfold noteHello at h
  split at h
  · obtain ⟨number, _, h⟩ := Fallible.bind_eq_ok.mp h
    cases number with
    | none =>
      obtain rfl := Fallible.pure_eq_ok.mp h
      exact ⟨s.helloFrames, rfl⟩
    | some n =>
      dsimp only at h
      split at h
      · obtain rfl := Fallible.pure_eq_ok.mp h
        exact ⟨_, rfl⟩
      · obtain rfl := Fallible.pure_eq_ok.mp h
        exact ⟨s.helloFrames, rfl⟩
  · obtain rfl := Fallible.pure_eq_ok.mp h
    exact ⟨s.helloFrames, rfl⟩

theorem tsharkStep_cases {zeekByUid : Dict String (List Stamped)} {flows : List Flow}
    {s s' : TsharkPass} {frame : Record} (h : tsharkStep zeekByUid flows s frame = .ok s') :
    FrameCase zeekByUid flows s frame s' := by
  unfold tsharkStep at h
  obtain ⟨uid?, hmatch, h⟩ := Fallible.bind_eq_ok.mp h
  cases uid? with
  | none =>
    obtain rfl := Fallible.pure_eq_ok.mp h
    exact FrameCase.unmatched hmatch
  | some uid =>
    obtain ⟨noted, hnoted, h⟩ := Fallible.bind_eq_ok.mp h
    obtain ⟨hello, rfl⟩ := noteHello_eq_ok hnoted
    unfold noteMail at h
    cases hprotocol : tsharkProtocol frame with
    | none =>
      rw [hprotocol] at h
      obtain rfl := Fallible.pure_eq_ok.mp h
      exact FrameCase.silent uid hello hmatch hprotocol
    | some protocol =>
      rw [hprotocol] at h
      obtain ⟨made, hmade, h⟩ := Fallible.bind_eq_ok.mp h
      cases made with
      | none =>
        obtain rfl := Fallible.pure_eq_ok.mp h
        exact FrameCase.noted uid protocol hello hmatch hprotocol hmade
      | some extra =>
        obtain ⟨ts, _, h⟩ := Fallible.bind_eq_ok.mp h
        obtain rfl := Fallible.pure_eq_ok.mp h
        exact FrameCase.event
          { ts := ts.getD (.ofNat s.order), order := s.order, uid := uid,
            protocol := some protocol, event := extra }
          protocol hello hmatch hprotocol hmade

/-! ## The frame pass only adds -/

/-- A connection that Zeek named stays named. -/
theorem seenUids_subset {flows : List Flow} {zeek : ZeekPass} {tsharkFrames : Option (List Val)}
    {tshark : TsharkPass} (h : tsharkPass flows zeek tsharkFrames = .ok tshark) :
    zeek.seenUids ⊆ tshark.seenUids := by
  refine Fallible.foldlM_invariant h (P := fun s => zeek.seenUids ⊆ s.seenUids)
    (List.Subset.refl _) ?_
  intro s s' frame _ hstep hs
  cases tsharkStep_cases hstep with
  | unmatched => exact hs
  | silent => exact hs
  | noted => exact hs
  | event stamped =>
    intro uid huid
    dsimp only
    split
    · exact List.mem_append_left _ (hs huid)
    · exact hs huid

end Sessions
end Normalize
end SecureMail
