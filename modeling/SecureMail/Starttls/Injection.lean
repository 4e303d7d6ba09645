import SecureMail.Starttls.Acceptance

/-!
# Plaintext between the acceptance and the handshake

The state table calls plaintext after the acceptance and before the ClientHello a violation, and the
machines are given what it takes to see it: the frame number of each event and of each ClientHello.
They do not compare them. Every test that raises the violation flag asks for `client_hello_observed`
to be false, and that is one fact about the whole session, so the first ClientHello seen anywhere
switches all of those tests off, for the events before it as much as for those after it.

So the machines report an injection of this kind on no trace at all, and the law holds of exactly
the traces that contain none. That makes the condition look like the law once more; it is not a
choice, since with a ClientHello known the state is never `violation` (`no_violation_after_hello`),
and a law that asks for it can only be met where it asks for nothing.
-/

namespace SecureMail
namespace Starttls

/-- There is a ClientHello, and after the acceptance the trace has plaintext that may not be there,
in a frame before every one of them. The frames are compared, as the machine could have: an event
without a frame number is no injection, since nothing says on which side of the ClientHello it was. -/
def InjectedBeforeHello (m : UpgradeMachine) (events : List ProtocolEvent)
    (helloFrames : List Nat) : Prop :=
  helloFrames ≠ [] ∧ ∃ i e n, events[i]? = some e ∧ AcceptedBefore m events i ∧ m.isInjection e = true ∧
    e.frameNumber = some n ∧ ∀ f ∈ helloFrames, (n : Nat) < f

/-- A law that can only be met by reporting, and is never met that way, is met where it is idle. -/
theorem UpgradeMachine.reports_injection_iff (m : UpgradeMachine) (events : List ProtocolEvent)
    (frames : List Nat) :
    (InjectedBeforeHello m events frames →
        (m.upgrade events true frames).state = some .violation) ↔
      ¬ InjectedBeforeHello m events frames := by
  constructor
  · intro hreport hinj
    exact m.no_violation_after_hello events frames (hreport hinj)
  · intro hnone hinj
    exact absurd hinj hnone

/-- **No injection before a ClientHello is ever reported**, by any of the three machines: once a
ClientHello is known the state is never `violation`, so the law fails on every trace with such an
injection. -/
theorem injection_before_hello_unreported (events : List ProtocolEvent) (frames : List Nat) :
    ((smtpUpgrade events true frames).state ≠ some .violation ∧
      (imapUpgrade events true frames).state ≠ some .violation ∧
      (pop3Upgrade events true frames).state ≠ some .violation) ∧
    ((InjectedBeforeHello Smtp.machine events frames →
        (smtpUpgrade events true frames).state = some .violation) ↔
      ¬ InjectedBeforeHello Smtp.machine events frames) ∧
    ((InjectedBeforeHello Imap.machine events frames →
        (imapUpgrade events true frames).state = some .violation) ↔
      ¬ InjectedBeforeHello Imap.machine events frames) ∧
    ((InjectedBeforeHello Pop3.machine events frames →
        (pop3Upgrade events true frames).state = some .violation) ↔
      ¬ InjectedBeforeHello Pop3.machine events frames) :=
  ⟨⟨Smtp.machine.no_violation_after_hello events frames,
      Imap.machine.no_violation_after_hello events frames,
      Pop3.machine.no_violation_after_hello events frames⟩,
    Smtp.machine.reports_injection_iff events frames,
    Imap.machine.reports_injection_iff events frames,
    Pop3.machine.reports_injection_iff events frames⟩

/-- An SMTP session that accepts in frame 6, sends `MAIL` in the clear in frame 7 and starts the
handshake in frame 9. -/
def injectedMail : List ProtocolEvent :=
  [{ direction := .orig, kind := .request, command := some "STARTTLS", frameNumber := some 5 },
   { direction := .resp, kind := .reply, replyCode := some 220, frameNumber := some 6 },
   { direction := .orig, kind := .request, command := some "MAIL", frameNumber := some 7 }]

theorem injected_mail_unreported :
    ¬ (InjectedBeforeHello Smtp.machine injectedMail [9] →
        (smtpUpgrade injectedMail true [9]).state = some .violation) ∧
      (smtpUpgrade injectedMail true [9]).state = some .tlsEstablished := by
  have hinj : InjectedBeforeHello Smtp.machine injectedMail [9] := by
    refine ⟨by decide, 2, _, 7, rfl, ?_, by decide, rfl, by decide⟩
    exact (UpgradeMachine.accepted_run_take true).mp (by decide)
  have hstate : (smtpUpgrade injectedMail true [9]).state = some .tlsEstablished := by decide
  refine ⟨fun hreport => ?_, hstate⟩
  rw [hreport hinj] at hstate
  exact absurd hstate (by decide)

end Starttls
end SecureMail
