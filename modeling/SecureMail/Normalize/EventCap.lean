import SecureMail.Normalize.Sessions
import SecureMail.Starttls.Strength

/-!
# The cap on a session's events

The events of a session are the merged ones with repeated capabilities dropped, and of those the
first 256. So they are a prefix of what they would be without the cap, and an upgrade verdict on a
prefix never says more than the verdict on the whole: the cap can hide a violation but not invent
one.

The machines read a trace from its start, and the verdict after a prefix is one they held on the way
to the end. So the statement about the cap is one about machines: a verdict of a violation, once
reached, stays, and it stays by the lemma of the machine and not by a look at the events. The drop
of repeated capabilities comes before the cap, so a flood of capabilities alone does not fill it.
-/

namespace SecureMail
namespace Normalize
namespace Sessions

open Starttls (Strengthens UpgradeMachine)

/-! ## What the bound leaves -/

/-- The events without repeated capabilities. -/
def collapse (last : Option ProtocolEvent) : List ProtocolEvent → List ProtocolEvent
  | [] => []
  | e :: rest =>
      if isDuplicateCapability last e then collapse last rest else e :: collapse (some e) rest

/-- The bound is the collapsed events, cut at the cap. -/
theorem boundEvents_eq_take {items : List Stamped} {last : Option ProtocolEvent}
    {bounded : List ProtocolEvent} : boundEvents last bounded items =
      bounded ++ (collapse last (items.map (·.event))).take
        (maxEventsPerSession - bounded.length) := by
  induction items generalizing last bounded with
  | nil => simp [boundEvents, collapse]
  | cons item rest ih =>
    rw [List.map_cons]
    unfold boundEvents collapse
    split
    · exact ih
    · split
      · rename_i hfull
        rw [Nat.sub_eq_zero_of_le hfull, List.take_zero, List.append_nil]
      · rename_i hroom
        have hcap : maxEventsPerSession - bounded.length =
            maxEventsPerSession - (bounded ++ [item.event]).length + 1 := by
          rw [List.length_append, List.length_singleton]
          omega
        rw [ih, hcap, List.take_succ_cons, List.append_assoc, List.singleton_append]

/-- The events of a session: a prefix of the collapsed ones. -/
theorem boundEvents_none (items : List Stamped) : boundEvents none [] items =
    (collapse none (items.map (·.event))).take maxEventsPerSession := by
  rw [boundEvents_eq_take]
  simp

theorem collapse_sublist (events : List ProtocolEvent) (last : Option ProtocolEvent) :
    (collapse last events).Sublist events := by
  induction events generalizing last with
  | nil => exact List.Sublist.refl _
  | cons e rest ih =>
    unfold collapse
    split
    · exact (ih last).cons e
    · exact (ih (some e)).cons_cons e

/-- No event repeats the one before it. -/
theorem collapse_isChain (events : List ProtocolEvent) (last : Option ProtocolEvent) :
    (∀ e ∈ (collapse last events).head?, isDuplicateCapability last e = false) ∧
      (collapse last events).IsChain fun a b => isDuplicateCapability (some a) b = false := by
  induction events generalizing last with
  | nil => simp [collapse]
  | cons e rest ih =>
    unfold collapse
    split
    · exact ih last
    · rename_i hnew
      refine ⟨by simpa using hnew, ?_⟩
      rw [List.isChain_cons]
      exact ih (some e)

/-! ## What the cap hides -/

/-- A longer list of events gives a stronger verdict, whatever the protocol. -/
theorem explicitUpgradeOf_append (protocol : Option MailProtocol) (events more : List ProtocolEvent)
    (hello : Bool) (helloFrames : List Nat) :
    Strengthens (explicitUpgradeOf protocol events hello helloFrames)
      (explicitUpgradeOf protocol (events ++ more) hello helloFrames) := by
  cases protocol with
  | none => exact Strengthens.refl _
  | some p => cases p <;> exact UpgradeMachine.strengthens_append _ events more hello helloFrames

/-- **Verdicts only strengthen with more evidence**: on each machine a longer trace has a state at
least as strong and cites every frame the shorter one cites. So a session that is cut at the cap has
at most the verdict it would have had uncut. -/
theorem verdict_strengthens :
    (∀ (events more : List ProtocolEvent) (hello : Bool) (helloFrames : List Nat),
      Strengthens (Starttls.smtpUpgrade events hello helloFrames)
          (Starttls.smtpUpgrade (events ++ more) hello helloFrames) ∧
        Strengthens (Starttls.imapUpgrade events hello helloFrames)
          (Starttls.imapUpgrade (events ++ more) hello helloFrames) ∧
        Strengthens (Starttls.pop3Upgrade events hello helloFrames)
          (Starttls.pop3Upgrade (events ++ more) hello helloFrames)) ∧
      ∀ (protocol : Option MailProtocol) (items : List Stamped) (hello : Bool)
        (helloFrames : List Nat),
        Strengthens (explicitUpgradeOf protocol (boundEvents none [] items) hello helloFrames)
          (explicitUpgradeOf protocol (collapse none (items.map (·.event))) hello helloFrames) := by
  constructor
  · intro events more hello helloFrames
    exact ⟨UpgradeMachine.strengthens_append _ events more hello helloFrames,
      UpgradeMachine.strengthens_append _ events more hello helloFrames,
      UpgradeMachine.strengthens_append _ events more hello helloFrames⟩
  · intro protocol items hello helloFrames
    have hcut := List.take_append_drop maxEventsPerSession (collapse none (items.map (·.event)))
    have hmore := explicitUpgradeOf_append protocol
      ((collapse none (items.map (·.event))).take maxEventsPerSession)
      ((collapse none (items.map (·.event))).drop maxEventsPerSession) hello helloFrames
    rw [hcut] at hmore
    rw [boundEvents_none]
    exact hmore

end Sessions
end Normalize
end SecureMail
