import SecureMail.Starttls.ClosedForm

/-!
# Whose reply accepts an SMTP upgrade

With pipelining, the replies to earlier commands arrive after the request for the upgrade. Zeek pairs
them: a reply carries the command it answers, and the machine reads that command where it looks for
advertisements and capabilities. Where it looks for the acceptance it does not, and takes the first
2xx reply after the request for the answer to it, whatever it answers. A server that advertises
nothing and answers `EHLO` can so be reported to have accepted an upgrade it never spoke of.

The law has two halves, since a verdict can be right for a wrong reason: what is reported as accepted
has a reply to rest on, and no reply that answers something else is ever what makes the difference.
Only the second can be lost while the state comes out the same.

So the verdict rests on the right reply exactly where no 2xx reply to another command comes first
after a request, before any acceptance (`repliesAttributed_iff`). The condition is on the trace; from
left to right the reply in question would itself be the difference.
-/

namespace SecureMail
namespace Starttls
namespace Smtp

/-- The reply says which command it answers, and it is not the request for the upgrade. A reply that
says nothing may answer anything, and is not counted against the machine. -/
def AnswersOther (e : ProtocolEvent) : Prop := e.upperCommand ≠ "" ∧ e.upperCommand ≠ starttls

instance : DecidablePred AnswersOther := fun e => by
  unfold AnswersOther
  infer_instance

/-- The states that say the server accepted the upgrade. All of them are reached through an
accepting reply, whatever is made of what follows. -/
def ReportsAcceptance (verdict : ExplicitUpgrade) : Prop :=
  verdict.state = some .accepted ∨ verdict.state = some .tlsEstablished ∨
    verdict.state = some .violation

/-- There is something to rest an acceptance on: the analyzer's own report, or after a request a 2xx
reply that answers it as far as it says. -/
def Justified (events : List ProtocolEvent) : Prop :=
  (∃ e ∈ events, e.kind = .starttls) ∨
    ∃ (r : Nat) (q : ProtocolEvent) (j : Nat) (e : ProtocolEvent), r < j ∧
      events[r]? = some q ∧ machine.isUpgradeRequest q = true ∧ events[j]? = some e ∧
      e.kind = .reply ∧ Positive e ∧ ¬AnswersOther e

/-- The verdict rests on replies to the request for the upgrade, and no other reply is ever taken for
one. -/
structure RepliesAttributed (events : List ProtocolEvent) (hello : Bool)
    (helloFrames : List Nat) : Prop where
  justified : ReportsAcceptance (smtpUpgrade events hello helloFrames) → Justified events
  others : ∀ j e, events[j]? = some e → e.kind = .reply → AnswersOther e →
    (machine.run hello (events.take (j + 1))).accepted =
      (machine.run hello (events.take j)).accepted

/-- A 2xx reply to another command is not the first reply after a request, except where the upgrade
had been accepted before it. -/
def OthersKeptApart (events : List ProtocolEvent) : Prop :=
  ∀ j e, events[j]? = some e → e.kind = .reply → Positive e → AnswersOther e →
    (∃ r q, r < j ∧ events[r]? = some q ∧ machine.isUpgradeRequest q = true ∧
      ∀ k d, r < k → k < j → events[k]? = some d → d.kind ≠ .reply) →
    AcceptedEarlier machine Positive events j

variable {events : List ProtocolEvent} {hello : Bool} {helloFrames : List Nat}

/-! ## Acceptance, by position -/

theorem accepted_iff_earlier (hello : Bool) (i : Nat) :
    (machine.run hello (events.take i)).accepted = true ↔
    AcceptedEarlier machine Positive events i := by
  rw [UpgradeMachine.accepted_run_take, settlesOnReply.acceptedBefore_iff]

theorem acceptedEarlier_mono {i j : Nat} (hij : i ≤ j)
    (h : AcceptedEarlier machine Positive events i) : AcceptedEarlier machine Positive events j := by
  obtain ⟨k, e, hki, hrest⟩ := h
  exact ⟨k, e, hki.trans_le hij, hrest⟩

/-- A verdict of acceptance comes from a trace with one. -/
theorem accepted_of_reports (h : ReportsAcceptance (smtpUpgrade events hello helloFrames)) :
    AcceptedEarlier machine Positive events events.length := by
  unfold ReportsAcceptance smtpUpgrade at h
  rw [UpgradeMachine.upgrade_state] at h
  by_cases hviolation : (machine.run hello events).violation = true
  · obtain ⟨-, i, e, he, haccepted, -⟩ := UpgradeMachine.violation_run.mp hviolation
    rw [settlesOnReply.acceptedBefore_iff] at haccepted
    have hi : i < events.length := (List.getElem?_eq_some_iff.mp he).1
    exact acceptedEarlier_mono hi.le haccepted
  · rw [← accepted_iff_earlier hello, List.take_length]
    by_contra hnot
    have haccepted : (machine.run hello events).accepted = false := by simpa using hnot
    simp only [UpgradeMachine.terminal, hviolation, haccepted, Bool.false_eq_true, if_false,
      Bool.false_and] at h
    split_ifs at h <;> simp at h

/-! ## From the condition to the law -/

/-- Where others are kept apart, whatever was accepted was justified. The first acceptance decides: a
reply to another command has an acceptance before it, and the induction is on the position. -/
theorem OthersKeptApart.justified (h : OthersKeptApart events) :
    ∀ i, AcceptedEarlier machine Positive events i → Justified events := by
  intro i
  induction i using Nat.strong_induction_on with
  | _ i ih =>
    intro haccepted
    obtain ⟨j, e, hji, he, hkind | ⟨hkind, hpositive, r, q, hrj, hq, hreq, hbetween⟩⟩ := haccepted
    · exact Or.inl ⟨e, List.mem_of_getElem? he, hkind⟩
    · by_cases hother : AnswersOther e
      · exact ih j hji (h j e he hkind hpositive hother ⟨r, q, hrj, hq, hreq, hbetween⟩)
      · exact Or.inr ⟨r, q, j, e, hrj, hq, hreq, he, hkind, hpositive, hother⟩

/-- What the event at `j` adds to the acceptance. -/
theorem acceptedEarlier_succ {j : Nat} {e : ProtocolEvent} (he : events[j]? = some e)
    (hkind : e.kind = .reply) : AcceptedEarlier machine Positive events (j + 1) ↔
      AcceptedEarlier machine Positive events j ∨
        Positive e ∧ ∃ r q, r < j ∧ events[r]? = some q ∧ machine.isUpgradeRequest q = true ∧
          ∀ k d, r < k → k < j → events[k]? = some d → d.kind ≠ .reply := by
  constructor
  · intro h
    obtain ⟨k, d, hk, hd, hcase⟩ := h
    by_cases hkj : k = j
    · subst hkj
      obtain rfl : d = e := Option.some.inj (hd.symm.trans he)
      rcases hcase with hstarttls | ⟨-, hpositive, hrequest⟩
      · rw [hkind] at hstarttls
        exact absurd hstarttls (by simp)
      · exact Or.inr ⟨hpositive, hrequest⟩
    · exact Or.inl ⟨k, d, by omega, hd, hcase⟩
  · intro h
    rcases h with h | ⟨hpositive, hrequest⟩
    · exact acceptedEarlier_mono (Nat.le_succ j) h
    · exact ⟨j, e, Nat.lt_succ_self j, he, Or.inr ⟨hkind, hpositive, hrequest⟩⟩

/-- **An SMTP acceptance rests on the reply to its request exactly where no other 2xx reply comes
first after one.** -/
theorem repliesAttributed_iff (events : List ProtocolEvent) (hello : Bool)
    (helloFrames : List Nat) :
    RepliesAttributed events hello helloFrames ↔ OthersKeptApart events := by
  constructor
  · intro h j e he hkind hpositive hother hrequest
    have hnow : AcceptedEarlier machine Positive events (j + 1) :=
      (acceptedEarlier_succ he hkind).mpr (Or.inr ⟨hpositive, hrequest⟩)
    rw [← accepted_iff_earlier hello, h.others j e he hkind hother] at hnow
    exact (accepted_iff_earlier hello j).mp hnow
  · intro h
    constructor
    · intro hreports
      exact h.justified events.length (accepted_of_reports hreports)
    · intro j e he hkind hother
      rw [Bool.eq_iff_iff, accepted_iff_earlier, accepted_iff_earlier, acceptedEarlier_succ he hkind]
      constructor
      · intro hcase
        rcases hcase with hbefore | ⟨hpositive, hrequest⟩
        · exact hbefore
        · exact h j e he hkind hpositive hother hrequest
      · exact Or.inl

/-- `EHLO` and `STARTTLS` sent together, and the reply to `EHLO`. -/
def pipelinedHello : List ProtocolEvent :=
  [{ direction := .orig, kind := .request, command := some "EHLO" },
   { direction := .orig, kind := .request, command := some "STARTTLS" },
   { direction := .resp, kind := .reply, command := some "EHLO", replyCode := some 250 }]

/-- The server has said nothing of the upgrade yet, and it is reported accepted. -/
theorem hello_reply_accepts :
    (smtpUpgrade pipelinedHello false []).state = some .accepted ∧ ¬Justified pipelinedHello ∧
      ¬∀ events hello helloFrames, RepliesAttributed events hello helloFrames := by
  have hstate : (smtpUpgrade pipelinedHello false []).state = some .accepted := by decide
  have hnone : ¬Justified pipelinedHello := by
    intro h
    rcases h with ⟨e, he, hkind⟩ | ⟨-, -, j, e, -, -, -, he, hkind, -, hown⟩
    · revert e
      decide
    · have hall : ∀ e ∈ pipelinedHello, e.kind = .reply → AnswersOther e := by decide
      exact hown (hall e (List.mem_of_getElem? he) hkind)
  exact ⟨hstate, hnone, fun h => hnone ((h pipelinedHello false []).justified (Or.inl hstate))⟩

end Smtp
end Starttls
end SecureMail
