import SecureMail.Starttls.Machines
import SecureMail.Lib.Run

/-!
# What one event does, and when the upgrade counts as accepted

The flags of the loop are read here one at a time. A pass through the body does one thing to each of
them, and the lemma that says which is stated for an arbitrary machine: five of the flags are
latches, and the pending request is a slot, written by a request and cleared by the reply that
answers it. With that, `Run` turns the loop into positions of the trace, and the question the whole
assessment hangs on, *was the upgrade accepted before this event?*, gets an answer that mentions no
variable of the loop: `AcceptedBefore`.

The body is a chain of tests each ending in `continue`, and proofs that unfold it split into all of
its ways every time. They are split once, in the lemmas named after the tests; `AdvanceSpec` collects
what the ways have in common, and every later module cites that record. The order of the tests shows
in one place only: a credential command is also a harmful one, and which of the two tests it meets
first decides the flag it raises.

Everything after this module is about traces. The three machines enter through `pendingTag` and
`verdict` alone, so a fact about positions is proved once for all of them.
-/

namespace SecureMail
namespace Starttls
namespace UpgradeMachine

variable (m : UpgradeMachine) (hello : Bool) (s : UpgradeRun) (e : ProtocolEvent)

/-- The request that is waiting for its reply, as the tag it carries. -/
def pending (s : UpgradeRun) : Option (Option String) :=
  if s.awaitingReply then some s.pendingTag else none

/-- The event makes the upgrade accepted, in this state. It is the one test of the body that reads the
slot, and so the one place where an earlier event decides what a later one means. -/
def acceptsNow (s : UpgradeRun) (e : ProtocolEvent) : Bool :=
  e.kind == .starttls ||
    (e.kind == .reply && (pending s).any fun tag => m.verdict tag e == .accept)

/-- The tag the event leaves pending, if it is a request for the upgrade. -/
def writesPending (e : ProtocolEvent) : Option (Option String) :=
  if m.isUpgradeRequest e then some (m.pendingTag e) else none

/-- The event ends the wait of a request with this tag. -/
def answers (tag : Option String) (e : ProtocolEvent) : Bool :=
  e.kind == .reply && m.verdict tag e != .ignore

/-- Plaintext that may not be sent once the upgrade has been accepted. -/
def isInjection (e : ProtocolEvent) : Bool := e.kind == .unexpected || m.isHarmfulRequest e

/-! ## The first lines of the loop body -/

theorem observe_eq : ∃ saw adv frames, m.observe s e =
    { s with sawCapabilityExchange := saw, advertised := adv, frames := frames } := by
  unfold observe
  cases m.exchangesCapability e <;> cases m.advertises e <;> exact ⟨_, _, _, rfl⟩

@[simp] theorem observe_advertised :
    (m.observe s e).advertised = (s.advertised || m.advertises e) := by
  unfold observe
  cases m.exchangesCapability e <;> cases m.advertises e <;> simp

@[simp] theorem observe_sawCapabilityExchange : (m.observe s e).sawCapabilityExchange =
    (s.sawCapabilityExchange || m.exchangesCapability e) := by
  unfold observe
  cases m.exchangesCapability e <;> cases m.advertises e <;> simp

@[simp] theorem observe_accepted : (m.observe s e).accepted = s.accepted := by
  obtain ⟨_, _, _, h⟩ := m.observe_eq s e
  rw [h]

@[simp] theorem observe_requested : (m.observe s e).requested = s.requested := by
  obtain ⟨_, _, _, h⟩ := m.observe_eq s e
  rw [h]

@[simp] theorem observe_violation : (m.observe s e).violation = s.violation := by
  obtain ⟨_, _, _, h⟩ := m.observe_eq s e
  rw [h]

@[simp] theorem observe_plaintextFallback :
    (m.observe s e).plaintextFallback = s.plaintextFallback := by
  obtain ⟨_, _, _, h⟩ := m.observe_eq s e
  rw [h]

@[simp] theorem pending_observe : pending (m.observe s e) = pending s := by
  obtain ⟨_, _, _, h⟩ := m.observe_eq s e
  rw [h]
  rfl

@[simp] theorem acceptsNow_observe : m.acceptsNow (m.observe s e) e = m.acceptsNow s e := by
  simp [acceptsNow]

/-! ## The command sets -/

theorem not_harmful_of_upgradeRequest (h : m.isUpgradeRequest e = true) :
    m.isHarmfulRequest e = false := by
  simp only [isUpgradeRequest, Bool.and_eq_true, beq_iff_eq] at h
  simp [isHarmfulRequest, h.2, m.upgrade_harmless]

theorem harmful_of_credentialRequest (h : m.isCredentialRequest e = true) :
    m.isHarmfulRequest e = true := by
  simp only [isCredentialRequest, Bool.and_eq_true, List.contains_iff_mem] at h
  simp [isHarmfulRequest, h.1, m.credential_harmful _ h.2]

theorem not_credential_of_upgradeRequest (h : m.isUpgradeRequest e = true) :
    m.isCredentialRequest e = false := by
  by_contra hc
  have hh := m.harmful_of_credentialRequest e (by simpa using hc)
  rw [m.not_harmful_of_upgradeRequest e h] at hh
  exact absurd hh (by simp)

/-! ## The chain of tests, one lemma for each way through it

`advance` is a chain of tests that each end the pass, so what an event does is decided by the first
test it meets. These are the cases, with the tests before each already discharged. -/

theorem advance_request (h : m.isUpgradeRequest e = true) : m.advance hello s e =
    { s with requested := true, pendingTag := m.pendingTag e, awaitingReply := true,
             frames := addFrame s.frames e } := by
  unfold advance
  rw [if_pos h]

theorem advance_reply (h : e.kind = .reply) :
    m.advance hello s e = if s.awaitingReply then m.answer s e else s := by
  have hu : m.isUpgradeRequest e = false := by simp [isUpgradeRequest, h]
  have hc : m.isCredentialRequest e = false := by simp [isCredentialRequest, h]
  have hh : m.isHarmfulRequest e = false := by simp [isHarmfulRequest, h]
  simp [advance, hu, hc, hh, h]

theorem advance_starttls (h : e.kind = .starttls) :
    m.advance hello s e = { s with accepted := true, frames := addFrame s.frames e } := by
  have hu : m.isUpgradeRequest e = false := by simp [isUpgradeRequest, h]
  simp [advance, hu, h]

theorem advance_unexpected (h : e.kind = .unexpected) : m.advance hello s e =
    if s.accepted && !hello then { s with violation := true, frames := addFrame s.frames e }
    else s := by
  have hu : m.isUpgradeRequest e = false := by simp [isUpgradeRequest, h]
  simp [advance, hu, h]

theorem advance_command (h : e.kind = .request) (hu : m.isUpgradeRequest e = false) :
    m.advance hello s e =
      if m.isCredentialRequest e then credential hello s e
      else if m.isHarmfulRequest e && s.accepted && !hello then
        { s with violation := true, frames := addFrame s.frames e }
      else s := by
  simp [advance, hu, h]

theorem advance_other (hreq : e.kind ≠ .request) (hrep : e.kind ≠ .reply)
    (hst : e.kind ≠ .starttls) (hun : e.kind ≠ .unexpected) : m.advance hello s e = s := by
  have hu : m.isUpgradeRequest e = false := by simp [isUpgradeRequest, hreq]
  have hc : m.isCredentialRequest e = false := by simp [isCredentialRequest, hreq]
  have hh : m.isHarmfulRequest e = false := by simp [isHarmfulRequest, hreq]
  simp [advance, hu, hc, hh, hrep, hst, hun]

/-- Only a reply answers. -/
theorem filter_answers (h : e.kind ≠ .reply) (o : Option (Option String)) :
    o.filter (fun tag => !m.answers tag e) = o := by
  cases o with
  | none => rfl
  | some tag => simp [answers, h]

/-- **Everything a pass can do to the flags**, in one record: the flags of `advance` are those of
the state before, each latch raised on its own condition. -/
structure AdvanceSpec (s' : UpgradeRun) : Prop where
  advertised : s'.advertised = s.advertised
  sawCapabilityExchange : s'.sawCapabilityExchange = s.sawCapabilityExchange
  requested : s'.requested = (s.requested || m.isUpgradeRequest e)
  accepted : s'.accepted = (s.accepted || m.acceptsNow s e)
  violation : s'.violation = (s.violation || (s.accepted && !hello && m.isInjection e))
  plaintextFallback :
    s'.plaintextFallback = (s.plaintextFallback || (!s.accepted && m.isCredentialRequest e))
  pending : pending s' = (m.writesPending e).or ((pending s).filter fun tag => !m.answers tag e)

theorem advance_spec : AdvanceSpec m hello s e (m.advance hello s e) := by
  cases hk : e.kind with
  | request =>
    have hf := m.filter_answers e (by simp [hk])
    cases hu : m.isUpgradeRequest e with
    | true =>
      -- The request for the upgrade is tested first, and no other test is for it.
      rw [advance_request _ _ _ _ hu]
      have hh := m.not_harmful_of_upgradeRequest e hu
      have hc := m.not_credential_of_upgradeRequest e hu
      constructor <;> simp [acceptsNow, isInjection, writesPending, UpgradeMachine.pending, hk, hu,
        hh, hc]
    | false =>
      rw [advance_command _ _ _ _ hk hu]
      cases hc : m.isCredentialRequest e with
      | true =>
        -- A credential is harmful too, and is tested first: the acceptance decides which it counts as.
        have hh := m.harmful_of_credentialRequest e hc
        cases ha : s.accepted <;> cases hello <;> constructor <;>
          simp [credential, acceptsNow, isInjection, writesPending, UpgradeMachine.pending, hk, hu,
            hc, hh, ha, hf]
      | false =>
        cases hh : m.isHarmfulRequest e <;> cases ha : s.accepted <;> cases hello <;>
          constructor <;> simp [acceptsNow, isInjection, writesPending, UpgradeMachine.pending, hk,
            hu, hc, hh, ha, hf]
  | reply =>
    rw [advance_reply _ _ _ _ hk]
    have hu : m.isUpgradeRequest e = false := by simp [isUpgradeRequest, hk]
    have hc : m.isCredentialRequest e = false := by simp [isCredentialRequest, hk]
    have hh : m.isHarmfulRequest e = false := by simp [isHarmfulRequest, hk]
    cases ha : s.awaitingReply with
    | false =>
      constructor <;> simp [acceptsNow, isInjection, writesPending, UpgradeMachine.pending, hk, hu,
        hc, hh, ha]
    | true =>
      -- The four things a reply can say.
      cases hv : m.verdict s.pendingTag e <;> constructor <;>
        simp [answer, acceptsNow, isInjection, writesPending, answers, UpgradeMachine.pending, hk,
          hu, hc, hh, ha, hv, Option.filter_some]
  | starttls =>
    rw [advance_starttls _ _ _ _ hk]
    have hf := m.filter_answers e (by simp [hk])
    constructor <;> simp [acceptsNow, isInjection, writesPending, isUpgradeRequest,
      isCredentialRequest, isHarmfulRequest, UpgradeMachine.pending, hk, hf]
  | unexpected =>
    rw [advance_unexpected _ _ _ _ hk]
    have hf := m.filter_answers e (by simp [hk])
    cases ha : s.accepted <;> cases hello <;> constructor <;>
      simp [acceptsNow, isInjection, writesPending, isUpgradeRequest, isCredentialRequest,
        UpgradeMachine.pending, hk, ha, hf]
  | capability | confirmation | ambiguousBanner =>
    rw [advance_other _ _ _ _ (by simp [hk]) (by simp [hk]) (by simp [hk]) (by simp [hk])]
    have hf := m.filter_answers e (by simp [hk])
    constructor <;> simp [acceptsNow, isInjection, writesPending, isUpgradeRequest,
      isCredentialRequest, isHarmfulRequest, hk, hf]

/-! ## The whole pass -/

theorem step_advertised :
    (m.step hello s e).advertised = (s.advertised || m.advertises e) := by
  rw [step, (m.advance_spec _ _ e).advertised, observe_advertised]

theorem step_sawCapabilityExchange : (m.step hello s e).sawCapabilityExchange =
    (s.sawCapabilityExchange || m.exchangesCapability e) := by
  rw [step, (m.advance_spec _ _ e).sawCapabilityExchange, observe_sawCapabilityExchange]

theorem step_requested :
    (m.step hello s e).requested = (s.requested || m.isUpgradeRequest e) := by
  rw [step, (m.advance_spec _ _ e).requested, observe_requested]

theorem step_accepted : (m.step hello s e).accepted = (s.accepted || m.acceptsNow s e) := by
  rw [step, (m.advance_spec _ _ e).accepted, observe_accepted, acceptsNow_observe]

theorem step_violation : (m.step hello s e).violation =
    (s.violation || (s.accepted && !hello && m.isInjection e)) := by
  rw [step, (m.advance_spec _ _ e).violation, observe_violation, observe_accepted]

theorem step_plaintextFallback : (m.step hello s e).plaintextFallback =
    (s.plaintextFallback || (!s.accepted && m.isCredentialRequest e)) := by
  rw [step, (m.advance_spec _ _ e).plaintextFallback, observe_plaintextFallback, observe_accepted]

theorem pending_step : pending (m.step hello s e) =
    (m.writesPending e).or ((pending s).filter fun tag => !m.answers tag e) := by
  rw [step, (m.advance_spec _ _ e).pending, pending_observe]

end UpgradeMachine

/-! ## The trace, with no loop variable in sight -/

section Trace

variable (m : UpgradeMachine) (events : List ProtocolEvent)

/-- The event at `j` makes the upgrade accepted: it is the analyzer's own report of the upgrade, or
a positive reply to a request that nothing before it has replaced or answered. -/
def AcceptedAt (j : Nat) : Prop :=
  ∃ e, events[j]? = some e ∧
    (e.kind = .starttls ∨
      e.kind = .reply ∧ ∃ r q, r < j ∧ events[r]? = some q ∧ m.isUpgradeRequest q = true ∧
        m.verdict (m.pendingTag q) e = .accept ∧
        ∀ k d, r < k → k < j → events[k]? = some d →
          m.isUpgradeRequest d = false ∧ m.answers (m.pendingTag q) d = false)

/-- Some event before `i` makes it accepted. The flag is a latch, so this is all there is to it. -/
def AcceptedBefore (i : Nat) : Prop := ∃ j < i, AcceptedAt m events j

end Trace

namespace UpgradeMachine

variable {m : UpgradeMachine} {hello : Bool} {events : List ProtocolEvent}

theorem writesPending_eq_some {e : ProtocolEvent} {tag : Option String} :
    m.writesPending e = some tag ↔ m.isUpgradeRequest e = true ∧ m.pendingTag e = tag := by
  cases hu : m.isUpgradeRequest e <;> simp [writesPending, hu]

theorem writesPending_eq_none {e : ProtocolEvent} :
    m.writesPending e = none ↔ m.isUpgradeRequest e = false := by
  cases hu : m.isUpgradeRequest e <;> simp [writesPending, hu]

/-- The pending request, by position. -/
theorem pending_run {tag : Option String} : pending (m.run hello events) = some tag ↔
    ∃ (r : Nat) (q : ProtocolEvent), events[r]? = some q ∧ m.isUpgradeRequest q = true ∧
      m.pendingTag q = tag ∧
      ∀ (k : Nat) (d : ProtocolEvent), r < k → events[k]? = some d →
        m.isUpgradeRequest d = false ∧ m.answers tag d = false := by
  unfold run
  rw [Run.foldl_slot_iff (m.pending_step hello)]
  simp only [writesPending_eq_some, writesPending_eq_none, and_assoc]
  constructor
  · rintro (⟨h, -⟩ | h)
    · exact absurd h (by simp [pending])
    · exact h
  · exact Or.inr

/-- An event is accepting, in the state the loop is in when it meets it, iff `AcceptedAt` says so. -/
theorem acceptsNow_iff (hello : Bool) {j : Nat} {e : ProtocolEvent} (he : events[j]? = some e) :
    m.acceptsNow (m.run hello (events.take j)) e = true ↔ AcceptedAt m events j := by
  unfold acceptsNow AcceptedAt
  simp only [Bool.or_eq_true, beq_iff_eq, Bool.and_eq_true, Option.any_eq_true, pending_run,
    List.getElem?_take]
  constructor
  · rintro (hk | ⟨hk, tag, ⟨r, q, hq, hreq, rfl, hafter⟩, hv⟩)
    · exact ⟨e, he, Or.inl hk⟩
    · obtain ⟨hrj, hq⟩ : r < j ∧ events[r]? = some q := by simpa using hq
      refine ⟨e, he, Or.inr ⟨hk, r, q, hrj, hq, hreq, hv, fun k d hrk hkj hd => ?_⟩⟩
      exact hafter k d hrk (by simpa [hkj] using hd)
  · rintro ⟨e', he', hcase⟩
    obtain rfl : e' = e := Option.some.inj (he'.symm.trans he)
    rcases hcase with hk | ⟨hk, r, q, hrj, hq, hreq, hv, hafter⟩
    · exact Or.inl hk
    · refine Or.inr ⟨hk, m.pendingTag q, ⟨r, q, by simpa [hrj] using hq, hreq, rfl, ?_⟩, hv⟩
      intro k d hrk hd
      obtain ⟨hkj, hd⟩ : k < j ∧ events[k]? = some d := by simpa using hd
      exact hafter k d hrk hkj hd

/-- **The loop has accepted iff the trace says so**, at every position. The position of the
acceptance is so a fact about the trace, to be used without the machine. -/
theorem accepted_run_take (hello : Bool) {i : Nat} :
    (m.run hello (events.take i)).accepted = true ↔ AcceptedBefore m events i := by
  unfold run
  rw [Run.foldl_latch_iff (m.step_accepted hello)]
  constructor
  · rintro (h | ⟨j, e, he, ha⟩)
    · exact absurd h (by simp)
    · obtain ⟨hji, he⟩ : j < i ∧ events[j]? = some e := by simpa [List.getElem?_take] using he
      rw [List.take_take, Nat.min_eq_left (by omega)] at ha
      exact ⟨j, hji, (acceptsNow_iff hello he).mp ha⟩
  · rintro ⟨j, hji, hat⟩
    obtain ⟨e, he, -⟩ := id hat
    refine Or.inr ⟨j, e, by simpa [List.getElem?_take, hji] using he, ?_⟩
    rw [List.take_take, Nat.min_eq_left (by omega)]
    exact (acceptsNow_iff hello he).mpr hat

theorem accepted_run (hello : Bool) :
    (m.run hello events).accepted = true ↔ AcceptedBefore m events events.length := by
  rw [← accepted_run_take hello, List.take_length]

/-- The other flags of a whole run. -/
theorem violation_run : (m.run hello events).violation = true ↔
    hello = false ∧ ∃ i e, events[i]? = some e ∧ AcceptedBefore m events i ∧
      m.isInjection e = true := by
  unfold run
  rw [Run.foldl_latch_iff (m.step_violation hello)]
  have hrun : ∀ i, ((events.take i).foldl (m.step hello) {}).accepted = true ↔
      AcceptedBefore m events i := fun _ => accepted_run_take hello
  simp only [Bool.and_eq_true, Bool.not_eq_true', hrun]
  constructor
  · rintro (h | ⟨i, e, he, ⟨ha, hh⟩, hi⟩)
    · exact absurd h (by simp)
    · exact ⟨hh, i, e, he, ha, hi⟩
  · rintro ⟨hh, i, e, he, ha, hi⟩
    exact Or.inr ⟨i, e, he, ⟨ha, hh⟩, hi⟩

theorem plaintextFallback_run (hello : Bool) : (m.run hello events).plaintextFallback = true ↔
    ∃ i e, events[i]? = some e ∧ m.isCredentialRequest e = true ∧ ¬ AcceptedBefore m events i := by
  unfold run
  rw [Run.foldl_latch_iff (m.step_plaintextFallback hello)]
  have hrun : ∀ i, ((events.take i).foldl (m.step hello) {}).accepted = false ↔
      ¬ AcceptedBefore m events i := by
    intro i
    rw [← accepted_run_take hello, Bool.not_eq_true]
    rfl
  simp only [Bool.and_eq_true, Bool.not_eq_true', hrun]
  constructor
  · rintro (h | ⟨i, e, he, ha, hc⟩)
    · exact absurd h (by simp)
    · exact ⟨i, e, he, hc, ha⟩
  · rintro ⟨i, e, he, hc, ha⟩
    exact Or.inr ⟨i, e, he, ha, hc⟩

theorem requested_run :
    (m.run hello events).requested = true ↔ ∃ e ∈ events, m.isUpgradeRequest e = true := by
  unfold run
  rw [Run.foldl_any_iff (m.step_requested hello)]
  simp

theorem advertised_run :
    (m.run hello events).advertised = true ↔ ∃ e ∈ events, m.advertises e = true := by
  unfold run
  rw [Run.foldl_any_iff (m.step_advertised hello)]
  simp

theorem sawCapabilityExchange_run : (m.run hello events).sawCapabilityExchange = true ↔
    ∃ e ∈ events, m.exchangesCapability e = true := by
  unfold run
  rw [Run.foldl_any_iff (m.step_sawCapabilityExchange hello)]
  simp

/-- What the downgrade flag is made of, in terms of the trace. -/
theorem downgradeConsistent_iff (frames : List Nat) :
    (m.upgrade events hello frames).downgradeConsistent = true ↔
      (∃ e ∈ events, m.exchangesCapability e = true) ∧
        (¬ ∃ e ∈ events, m.advertises e = true) ∧
        (∃ e ∈ events, m.isUpgradeRequest e = true) ∧
        AcceptedBefore m events events.length := by
  have hadvertised : (m.run hello events).advertised = false ↔
      ¬ ∃ e ∈ events, m.advertises e = true := by
    rw [← @advertised_run m hello, Bool.not_eq_true]
  unfold upgrade conclude
  simp only [Bool.and_eq_true, Bool.not_eq_true', sawCapabilityExchange_run, requested_run,
    accepted_run, hadvertised, and_assoc]

/-- The second guard never fires: `terminal` has already tested the flag it tests. -/
theorem upgrade_state (frames : List Nat) :
    (m.upgrade events hello frames).state = terminal hello (m.run hello events) := by
  unfold upgrade conclude
  cases hello with
  | true => simp
  | false =>
    have hne : terminal false (m.run false events) ≠ some .tlsEstablished := by
      unfold terminal
      split_ifs <;> simp_all
    simp [hne]

/-- Once a ClientHello is known no test that raises the violation flag fires. -/
theorem no_violation_after_hello (m : UpgradeMachine) (events : List ProtocolEvent)
    (frames : List Nat) : (m.upgrade events true frames).state ≠ some .violation := by
  have hflag : (m.run true events).violation = false := by
    rw [← Bool.not_eq_true, violation_run]
    simp
  rw [upgrade_state, terminal, hflag]
  split_ifs <;> simp_all

/-- And an upgrade that was accepted was followed by TLS. -/
theorem no_bare_acceptance_after_hello (m : UpgradeMachine) (events : List ProtocolEvent)
    (frames : List Nat) : (m.upgrade events true frames).state ≠ some .accepted := by
  rw [upgrade_state, terminal]
  split_ifs <;> simp_all

end UpgradeMachine
end Starttls
end SecureMail
