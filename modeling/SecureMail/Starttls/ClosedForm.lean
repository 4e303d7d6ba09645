import SecureMail.Starttls.Acceptance

/-!
# The SMTP and POP3 verdicts in closed form

Neither protocol tags its replies, so the machine takes the first reply after a request for its
answer, and acceptance has a shorter description than `AcceptedAt`: a positive reply with some
request before it and no reply in between. `SettlesOnReply` is that property of a machine, and
`acceptedBefore_iff` the shorter description.

With it the verdict is a nest of questions about positions of the trace. `closedForm` is that nest,
written without the machine's loop and without a slot for the pending request. The theorem at the
end says that with no ClientHello the machine computes exactly it, and what a ClientHello changes.

IMAP is left out because the description is false there. A reply with another tag does not settle the
request, so the request that was pending need not be the last before the reply; its form is in
`Starttls.Tags`.
-/

namespace SecureMail
namespace Starttls

/-- The first reply after a request answers it, and accepts iff it is positive. `settles` is what
makes the tag immaterial: no reply is ever passed over, so the slot is empty after the first one. -/
structure SettlesOnReply (m : UpgradeMachine) (positive : ProtocolEvent → Prop) : Prop where
  accept_iff : ∀ tag e, m.verdict tag e = .accept ↔ positive e
  settles : ∀ tag e, m.verdict tag e ≠ .ignore

namespace Smtp

/-- A 2xx reply. -/
def Positive (e : ProtocolEvent) : Prop := ∃ code, e.replyCode = some code ∧ 200 ≤ code ∧ code < 300

theorem machine_verdict (tag : Option String) (e : ProtocolEvent) :
    machine.verdict tag e = verdict e := by
  simp only [machine]

theorem settlesOnReply : SettlesOnReply machine Positive where
  accept_iff tag e := by
    rw [machine_verdict]
    unfold verdict Positive
    cases hc : e.replyCode with
    | none => simp
    | some code =>
      by_cases hpos : 200 ≤ code ∧ code < 300
      · simp [hpos]
      · by_cases hneg : 400 ≤ code
        · simp [hneg, hpos]
        · simp [hneg, hpos]
  settles tag e := by
    rw [machine_verdict]
    unfold verdict
    split
    · split_ifs <;> simp
    · simp

end Smtp

namespace Pop3

/-- The text, upper-cased, starts with `+OK` or `OK`. -/
def Positive (e : ProtocolEvent) : Prop :=
  Py.startsWith e.upperText "+OK" = true ∨ Py.startsWith e.upperText "OK" = true

theorem machine_verdict (tag : Option String) (e : ProtocolEvent) :
    machine.verdict tag e = verdict e := by
  simp only [machine]

theorem settlesOnReply : SettlesOnReply machine Positive where
  accept_iff tag e := by
    rw [machine_verdict]
    unfold verdict Positive
    cases hok : isOk e with
    | true => simpa [isOk] using hok
    | false =>
      have hne : ¬ (Py.startsWith e.upperText "+OK" = true ∨ Py.startsWith e.upperText "OK" = true) := by
        simpa [isOk] using hok
      simp only [hne, iff_false, Bool.false_eq_true, if_false]
      split_ifs <;> simp
  settles tag e := by
    rw [machine_verdict]
    unfold verdict
    split_ifs <;> simp

end Pop3

/-! ## Acceptance without tags -/

section Trace

variable (m : UpgradeMachine) (positive : ProtocolEvent → Prop) (events : List ProtocolEvent)

/-- Some event before position `i` is the analyzer's report of the upgrade, or a positive reply
that has some request for the upgrade before it and no reply in between. -/
def AcceptedEarlier (i : Nat) : Prop :=
  ∃ j e, j < i ∧ events[j]? = some e ∧
    (e.kind = .starttls ∨
      e.kind = .reply ∧ positive e ∧ ∃ r q, r < j ∧ events[r]? = some q ∧
        m.isUpgradeRequest q = true ∧
        ∀ k d, r < k → k < j → events[k]? = some d → d.kind ≠ .reply)

open Classical in
/-- The verdict without a ClientHello, as a nest of questions about the trace. -/
noncomputable def closedForm : Option UpgradeState :=
  if ∃ i e, events[i]? = some e ∧ AcceptedEarlier m positive events i ∧
      (e.kind = .unexpected ∨ m.isHarmfulRequest e = true) then some .violation
  else if ∃ i e, events[i]? = some e ∧ m.isCredentialRequest e = true ∧
      ¬ AcceptedEarlier m positive events i then some .plaintextFallback
  else if AcceptedEarlier m positive events events.length then some .accepted
  else if ∃ e ∈ events, m.isUpgradeRequest e = true then some .requested
  else if ∃ e ∈ events, m.advertises e = true then some .advertised
  else none

end Trace

variable {m : UpgradeMachine} {positive : ProtocolEvent → Prop} {events : List ProtocolEvent}

theorem SettlesOnReply.answers_iff (h : SettlesOnReply m positive) (tag : Option String)
    (e : ProtocolEvent) : m.answers tag e = false ↔ e.kind ≠ .reply := by
  simp [UpgradeMachine.answers, h.settles tag e]

/-- **Where every reply settles, acceptance needs no bookkeeping.** From right to left the last
request before the reply is the one that was pending: no request stands after it by choice, and no
reply because none stands after the request given. -/
theorem SettlesOnReply.acceptedBefore_iff (h : SettlesOnReply m positive) (i : Nat) :
    AcceptedBefore m events i ↔ AcceptedEarlier m positive events i := by
  constructor
  · rintro ⟨j, hji, e, he, hk | ⟨hk, r, q, hrj, hq, hreq, hv, hafter⟩⟩
    · exact ⟨j, e, hji, he, Or.inl hk⟩
    · refine ⟨j, e, hji, he, Or.inr ⟨hk, (h.accept_iff _ e).mp hv, r, q, hrj, hq, hreq, ?_⟩⟩
      intro k d hrk hkj hd
      exact (h.answers_iff _ d).mp (hafter k d hrk hkj hd).2
  · rintro ⟨j, e, hji, he, hk | ⟨hk, hpos, r, q, hrj, hq, hreq, hafter⟩⟩
    · exact ⟨j, hji, e, he, Or.inl hk⟩
    · obtain ⟨r', hrr', hr'j, ⟨q', hq', hreq'⟩, hlast⟩ :=
        Run.exists_last_before (P := fun r => ∃ q, events[r]? = some q ∧ m.isUpgradeRequest q = true)
          hrj ⟨q, hq, hreq⟩
      refine ⟨j, hji, e, he, Or.inr ⟨hk, r', q', hr'j, hq', hreq', (h.accept_iff _ e).mpr hpos, ?_⟩⟩
      intro k d hrk hkj hd
      refine ⟨?_, (h.answers_iff _ d).mpr (hafter k d (by omega) hkj hd)⟩
      by_contra hu
      exact hlast k hrk hkj ⟨d, hd, by simpa using hu⟩

/-- Without a ClientHello the machine computes the closed form. -/
theorem SettlesOnReply.upgrade_state (h : SettlesOnReply m positive) (frames : List Nat) :
    (m.upgrade events false frames).state = closedForm m positive events := by
  classical
  rw [UpgradeMachine.upgrade_state, UpgradeMachine.terminal, closedForm]
  refine if_congr ?_ rfl (if_congr ?_ rfl ?_)
  · rw [UpgradeMachine.violation_run]
    simp only [true_and, h.acceptedBefore_iff, UpgradeMachine.isInjection, Bool.or_eq_true,
      beq_iff_eq]
  · rw [UpgradeMachine.plaintextFallback_run]
    simp only [h.acceptedBefore_iff]
  · rw [Bool.and_false, if_neg Bool.false_ne_true]
    refine if_congr ?_ rfl (if_congr ?_ rfl (if_congr ?_ rfl rfl))
    · rw [UpgradeMachine.accepted_run, h.acceptedBefore_iff]
    · exact UpgradeMachine.requested_run
    · exact UpgradeMachine.advertised_run

/-- With one, `tls_established` is acceptance without a credential before it. -/
theorem SettlesOnReply.tlsEstablished_iff (h : SettlesOnReply m positive) (frames : List Nat) :
    (m.upgrade events true frames).state = some .tlsEstablished ↔
      AcceptedEarlier m positive events events.length ∧
        ¬ ∃ i e, events[i]? = some e ∧ m.isCredentialRequest e = true ∧
          ¬ AcceptedEarlier m positive events i := by
  have hviolation : (m.run true events).violation = false := by
    rw [← Bool.not_eq_true, UpgradeMachine.violation_run]
    simp
  simp only [← h.acceptedBefore_iff]
  rw [UpgradeMachine.upgrade_state, ← UpgradeMachine.plaintextFallback_run true,
    ← UpgradeMachine.accepted_run true, UpgradeMachine.terminal, hviolation]
  cases (m.run true events).plaintextFallback <;> cases (m.run true events).accepted <;>
    cases (m.run true events).requested <;> cases (m.run true events).advertised <;> simp

/-- Without a ClientHello no machine reports established TLS. -/
theorem UpgradeMachine.tlsEstablished_needs_hello (frames : List Nat) :
    (m.upgrade events false frames).state ≠ some .tlsEstablished := by
  rw [UpgradeMachine.upgrade_state, UpgradeMachine.terminal]
  split_ifs <;> simp_all

/-- **The SMTP and POP3 verdicts are exactly the closed form**, over every trace: with no
ClientHello the state is `closedForm`, which never is `tls_established`, and with one it is
`tls_established` iff the upgrade was accepted and no credential command came before that. -/
theorem smtp_pop3_closedForm (events : List ProtocolEvent) (frames : List Nat) :
    ((smtpUpgrade events false frames).state = closedForm Smtp.machine Smtp.Positive events ∧
      (pop3Upgrade events false frames).state = closedForm Pop3.machine Pop3.Positive events) ∧
    (((smtpUpgrade events true frames).state = some .tlsEstablished ↔
        AcceptedEarlier Smtp.machine Smtp.Positive events events.length ∧
          ¬ ∃ i e, events[i]? = some e ∧ Smtp.machine.isCredentialRequest e = true ∧
            ¬ AcceptedEarlier Smtp.machine Smtp.Positive events i) ∧
      ((pop3Upgrade events true frames).state = some .tlsEstablished ↔
        AcceptedEarlier Pop3.machine Pop3.Positive events events.length ∧
          ¬ ∃ i e, events[i]? = some e ∧ Pop3.machine.isCredentialRequest e = true ∧
            ¬ AcceptedEarlier Pop3.machine Pop3.Positive events i)) ∧
    ((smtpUpgrade events false frames).state ≠ some .tlsEstablished ∧
      (pop3Upgrade events false frames).state ≠ some .tlsEstablished) :=
  ⟨⟨Smtp.settlesOnReply.upgrade_state frames, Pop3.settlesOnReply.upgrade_state frames⟩,
    ⟨Smtp.settlesOnReply.tlsEstablished_iff frames, Pop3.settlesOnReply.tlsEstablished_iff frames⟩,
    ⟨UpgradeMachine.tlsEstablished_needs_hello frames,
      UpgradeMachine.tlsEstablished_needs_hello frames⟩⟩

end Starttls
end SecureMail
