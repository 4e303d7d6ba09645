import SecureMail.Starttls.ClosedForm

/-!
# A stripped capability

`downgrade_consistent` is the one trace capability stripping leaves: the server never advertised
STARTTLS and then accepted it. The state table says what an advertisement is, a capability line or
the reply to EHLO, HELO or LHLO that has the word, or a 250 that answers STARTTLS. The machine takes
the word in any reply. So a server that repeats the command in its answer, `220 2.0.0 STARTTLS go
ahead`, takes the indicator away that its own answer to EHLO should have raised.

Of the two readings the machine's is the wider one, and the verdicts differ on exactly the traces
that show the pattern and have such a reply. The wider reading is only ever wrong in one direction:
it never raises the indicator where the table would not, and lowers it where the table would have
it, by a text that accuses no one.
-/

namespace SecureMail
namespace Starttls
namespace Smtp

/-- The text has the word STARTTLS. -/
def hasStarttlsWord (event : ProtocolEvent) : Prop := starttls ∈ Py.split event.upperText

/-- An advertisement as the state table has it. It is written from the table of the documentation,
to be compared with the test in the code. -/
def DocumentedAdvertisement (event : ProtocolEvent) : Prop :=
  event.kind = .capability ∧ hasStarttlsWord event ∨
    event.kind = .reply ∧ event.upperCommand ∈ capabilityCommands ∧ hasStarttlsWord event ∨
    event.kind = .reply ∧ event.upperCommand = starttls ∧ event.replyCode = some 250

/-- A reply with the word that is not the answer to EHLO, HELO or LHLO: what the machine counts as an
advertisement and the table does not. -/
def EchoesStarttls (event : ProtocolEvent) : Prop :=
  event.kind = .reply ∧ event.upperCommand ∉ capabilityCommands ∧ hasStarttlsWord event

/-- The trace of a stripped capability: an exchange without an advertisement, and all the same a
request that was accepted. -/
structure Stripped (events : List ProtocolEvent) : Prop where
  exchanged : ∃ e ∈ events, isCapabilityReply e = true
  requested : ∃ e ∈ events, machine.isUpgradeRequest e = true
  accepted : AcceptedEarlier machine Positive events events.length
  not_advertised : ¬ ∃ e ∈ events, DocumentedAdvertisement e

/-- The machine's advertisements are the documented ones and the echoes. -/
theorem isStarttlsAdvertisement_iff (e : ProtocolEvent) :
    isStarttlsAdvertisement e = true ↔ DocumentedAdvertisement e ∨ EchoesStarttls e := by
  unfold isStarttlsAdvertisement DocumentedAdvertisement EchoesStarttls hasStarttlsWord
  cases hk : e.kind with
  | capability => by_cases hword : starttls ∈ Py.split e.upperText <;> simp [hword]
  | reply =>
    by_cases hword : starttls ∈ Py.split e.upperText
    · by_cases hcommand : e.upperCommand ∈ capabilityCommands <;> simp [hword, hcommand]
    · simp [hword]
  | _ => simp

theorem downgradeConsistent_iff_stripped {events : List ProtocolEvent} {hello : Bool}
    {frames : List Nat} : (smtpUpgrade events hello frames).downgradeConsistent = true ↔
      Stripped events ∧ ¬ ∃ e ∈ events, EchoesStarttls e := by
  rw [smtpUpgrade, UpgradeMachine.downgradeConsistent_iff, settlesOnReply.acceptedBefore_iff]
  have hadvertises : (∃ e ∈ events, machine.advertises e = true) ↔
      (∃ e ∈ events, DocumentedAdvertisement e) ∨ ∃ e ∈ events, EchoesStarttls e := by
    rw [← exists_or]
    refine exists_congr fun e => ?_
    rw [← and_or_left]
    exact and_congr_right fun _ => isStarttlsAdvertisement_iff e
  rw [hadvertises, not_or]
  constructor
  · rintro ⟨hexchanged, ⟨hnone, hecho⟩, hrequested, haccepted⟩
    exact ⟨⟨hexchanged, hrequested, haccepted, hnone⟩, hecho⟩
  · rintro ⟨h, hecho⟩
    exact ⟨h.exchanged, ⟨h.not_advertised, hecho⟩, h.requested, h.accepted⟩

/-- **The indicator is right exactly where no echo hides the pattern.** The condition is on the
trace alone and does not run the machine. -/
theorem stripping_reported_iff (events : List ProtocolEvent) (hello : Bool) (frames : List Nat) :
    ((smtpUpgrade events hello frames).downgradeConsistent = true ↔ Stripped events) ↔
      (Stripped events → ∀ e ∈ events, ¬ EchoesStarttls e) := by
  rw [downgradeConsistent_iff_stripped]
  constructor
  · intro h hstripped e he hecho
    exact (h.mpr hstripped).2 ⟨e, he, hecho⟩
  · intro h
    refine ⟨And.left, fun hstripped => ⟨hstripped, ?_⟩⟩
    rintro ⟨e, he, hecho⟩
    exact h hstripped e he hecho

/-- An answer to EHLO that lists nothing, and a server that takes STARTTLS all the same. -/
def strippedTrace : List ProtocolEvent :=
  [{ direction := .resp, kind := .reply, command := some "EHLO", replyCode := some 250,
     text := some "mail.example.org" },
   { direction := .orig, kind := .request, command := some "STARTTLS" },
   { direction := .resp, kind := .reply, command := some "STARTTLS", replyCode := some 220,
     text := some "2.0.0 STARTTLS go ahead" }]

theorem stripping_hidden_by_go_ahead :
    Stripped strippedTrace ∧ (smtpUpgrade strippedTrace true [9]).downgradeConsistent = false := by
  refine ⟨⟨?_, ?_, ?_, ?_⟩, by decide⟩
  · exact ⟨_, List.mem_cons_self .., by decide⟩
  · exact ⟨_, List.mem_cons_of_mem _ (List.mem_cons_self ..), by decide⟩
  · rw [← settlesOnReply.acceptedBefore_iff, ← UpgradeMachine.accepted_run true]
    decide
  · unfold DocumentedAdvertisement hasStarttlsWord
    decide

end Smtp
end Starttls
end SecureMail
