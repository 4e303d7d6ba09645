import SecureMail.Starttls.Acceptance

/-!
# IMAP tag discipline

An IMAP client may send the next command before the last is answered, so the replies between a
STARTTLS and its answer are the replies of other commands, in any order. The machine tells them
apart by their tags. Where every request for the upgrade and every reply has one, what accepts is
the first OK, NO or BAD with the tag of the request, and a reply with the tag of no request might
as well not be in the trace.

The hypothesis that there are tags is not for convenience. The machine takes a missing tag on either
side for a match, so that a reply without one answers whatever is pending; on such a trace the
discipline is SMTP's. And a tag that a client uses twice is two requests with one name, of which the
later one is pending: `AnsweredOk` asks that no other request stands in between, which says so.
-/

namespace SecureMail
namespace Starttls
namespace Imap

/-- Every request for the upgrade and every reply carries a tag. A reply without a tag is one to
whoever asked last, and no discipline of tags can be asked of it. -/
def Tagged (events : List ProtocolEvent) : Prop :=
  ∀ e ∈ events, machine.isUpgradeRequest e = true ∨ e.kind = .reply → e.tag ≠ none

/-- An OK, NO or BAD reply with the tag. Anything else with the tag, an untagged line of progress or a
word of no known meaning, leaves the request pending. -/
def Concludes (tag : Option String) (e : ProtocolEvent) : Prop :=
  e.kind = .reply ∧ e.tag = tag ∧ (isOk e = true ∨ isNoOrBad e = true)

/-- Some request for the upgrade is answered OK: of the replies after it that conclude its tag the
first one is, and no other request comes in between. -/
def AnsweredOk (events : List ProtocolEvent) : Prop :=
  ∃ (r j : Nat) (q e : ProtocolEvent), r < j ∧ events[r]? = some q ∧
    machine.isUpgradeRequest q = true ∧ events[j]? = some e ∧ Concludes q.tag e ∧ isOk e = true ∧
    ∀ k d, r < k → k < j → events[k]? = some d →
      machine.isUpgradeRequest d = false ∧ ¬ Concludes q.tag d

/-- A reply to some other command that advertises nothing. What such a reply says is no business of
the upgrade, and an interleaving may put it anywhere. -/
structure Foreign (events : List ProtocolEvent) (e : ProtocolEvent) : Prop where
  reply : e.kind = .reply
  tag_ne : ∀ q ∈ events, machine.isUpgradeRequest q = true → q.tag ≠ e.tag
  no_starttls : starttls ∉ tokens e

/-! ## Tags that are there -/

theorem machine_verdict (tag : Option String) (e : ProtocolEvent) :
    machine.verdict tag e = verdict tag e := by
  simp only [machine]

theorem machine_pendingTag (e : ProtocolEvent) : machine.pendingTag e = e.tag := by
  simp only [machine]

theorem tagMatches_iff {tag : Option String} {e : ProtocolEvent} (htag : tag ≠ none)
    (he : e.tag ≠ none) : tagMatches tag e = true ↔ e.tag = tag := by
  cases tag with
  | none => exact absurd rfl htag
  | some t =>
    cases hetag : e.tag with
    | none => exact absurd hetag he
    | some u => simp [tagMatches, hetag]

theorem verdict_eq_accept_iff {tag : Option String} {e : ProtocolEvent} (htag : tag ≠ none)
    (he : e.tag ≠ none) : machine.verdict tag e = .accept ↔ e.tag = tag ∧ isOk e = true := by
  rw [machine_verdict, ← tagMatches_iff htag he]
  unfold verdict
  cases tagMatches tag e <;> cases isOk e <;> cases isNoOrBad e <;> simp

theorem answers_iff_concludes {tag : Option String} {e : ProtocolEvent} (htag : tag ≠ none)
    (he : e.kind = .reply → e.tag ≠ none) : machine.answers tag e = true ↔ Concludes tag e := by
  unfold UpgradeMachine.answers Concludes
  cases hk : e.kind with
  | reply =>
    rw [machine_verdict, ← tagMatches_iff htag (he hk)]
    unfold verdict
    cases tagMatches tag e <;> cases isOk e <;> cases isNoOrBad e <;> simp
  | _ => simp

/-! ## Acceptance -/

section Acceptance

variable {events : List ProtocolEvent} (htagged : Tagged events)
include htagged

theorem request_tag {k : Nat} {q : ProtocolEvent} (hq : events[k]? = some q)
    (hrequest : machine.isUpgradeRequest q = true) : q.tag ≠ none :=
  htagged q (List.mem_of_getElem? hq) (Or.inl hrequest)

theorem reply_tag {k : Nat} {e : ProtocolEvent} (he : events[k]? = some e)
    (hk : e.kind = .reply) : e.tag ≠ none :=
  htagged e (List.mem_of_getElem? he) (Or.inr hk)

theorem accepted_iff_answeredOk : AcceptedBefore machine events events.length ↔
    (∃ e ∈ events, e.kind = .starttls) ∨ AnsweredOk events := by
  constructor
  · rintro ⟨j, hj, e, he, hk | ⟨hk, r, q, hrj, hq, hrequest, hverdict, hafter⟩⟩
    · exact Or.inl ⟨e, List.mem_of_getElem? he, hk⟩
    · have hqtag := request_tag htagged hq hrequest
      rw [machine_pendingTag, verdict_eq_accept_iff hqtag (reply_tag htagged he hk)] at hverdict
      refine Or.inr ⟨r, j, q, e, hrj, hq, hrequest, he, ⟨hk, hverdict.1, Or.inl hverdict.2⟩,
        hverdict.2, ?_⟩
      intro k d hrk hkj hd
      obtain ⟨hnot, hanswers⟩ := hafter k d hrk hkj hd
      rw [machine_pendingTag] at hanswers
      refine ⟨hnot, fun hconcludes => ?_⟩
      rw [(answers_iff_concludes hqtag (reply_tag htagged hd)).mpr hconcludes] at hanswers
      exact absurd hanswers (by simp)
  · rintro (⟨e, he, hk⟩ | ⟨r, j, q, e, hrj, hq, hrequest, he, ⟨hk, htag, -⟩, hok, hafter⟩)
    · obtain ⟨j, hj⟩ := List.mem_iff_getElem?.mp he
      obtain ⟨hlt, -⟩ := List.getElem?_eq_some_iff.mp hj
      exact ⟨j, hlt, e, hj, Or.inl hk⟩
    · have hqtag := request_tag htagged hq hrequest
      obtain ⟨hlt, -⟩ := List.getElem?_eq_some_iff.mp he
      refine ⟨j, hlt, e, he, Or.inr ⟨hk, r, q, hrj, hq, hrequest, ?_, ?_⟩⟩
      · rw [machine_pendingTag, verdict_eq_accept_iff hqtag (reply_tag htagged he hk)]
        exact ⟨htag, hok⟩
      · intro k d hrk hkj hd
        obtain ⟨hnot, hopen⟩ := hafter k d hrk hkj hd
        refine ⟨hnot, ?_⟩
        rw [machine_pendingTag, ← Bool.not_eq_true,
          answers_iff_concludes hqtag (reply_tag htagged hd)]
        exact hopen

end Acceptance

/-! ## Replies to other commands -/

/-- The first lines of the loop body pass over a reply without the word. -/
theorem observe_of_no_starttls {s : UpgradeRun} {e : ProtocolEvent} (hk : e.kind = .reply)
    (hword : starttls ∉ tokens e) : machine.observe s e = s := by
  have hexchange : machine.exchangesCapability e = false := by simp [machine, hk, hword]
  have hadvertises : machine.advertises e = false := by simp [machine, hk, hword]
  simp [UpgradeMachine.observe, hexchange, hadvertises]

/-- A reply that does not answer the pending request changes nothing. -/
theorem step_of_unanswered {hello : Bool} {s : UpgradeRun} {e : ProtocolEvent}
    (hk : e.kind = .reply) (hword : starttls ∉ tokens e)
    (hpending : ∀ tag, UpgradeMachine.pending s = some tag → machine.verdict tag e = .ignore) :
    machine.step hello s e = s := by
  rw [UpgradeMachine.step, observe_of_no_starttls hk hword, UpgradeMachine.advance_reply _ _ _ _ hk]
  cases hawaiting : s.awaitingReply with
  | false => rfl
  | true =>
    have hignore := hpending s.pendingTag (by simp [UpgradeMachine.pending, hawaiting])
    simp [UpgradeMachine.answer, hignore]

/-- **A foreign reply may be deleted.** The pending tag is that of a request before it, whatever the
replies in between did, and a reply with another tag is ignored. -/
theorem run_of_foreign {before after : List ProtocolEvent} {e : ProtocolEvent} {hello : Bool}
    (htagged : Tagged (before ++ e :: after)) (hforeign : Foreign (before ++ e :: after) e) :
    machine.run hello (before ++ e :: after) = machine.run hello (before ++ after) := by
  have hstep : machine.step hello (machine.run hello before) e = machine.run hello before := by
    apply step_of_unanswered hforeign.reply hforeign.no_starttls
    intro tag hpending
    obtain ⟨r, q, hq, hrequest, rfl, -⟩ := UpgradeMachine.pending_run.mp hpending
    have hmem : q ∈ before ++ e :: after := List.mem_append_left _ (List.mem_of_getElem? hq)
    have hetag : e.tag ≠ none := htagged e (by simp) (Or.inr hforeign.reply)
    have hnot : ¬ tagMatches q.tag e = true := by
      rw [tagMatches_iff (htagged q hmem (Or.inl hrequest)) hetag]
      exact fun heq => hforeign.tag_ne q hmem hrequest heq.symm
    rw [machine_pendingTag, machine_verdict]
    simp [verdict, hnot]
  unfold UpgradeMachine.run at hstep ⊢
  rw [List.foldl_append, List.foldl_cons, hstep, List.foldl_append]

/-- **IMAP tag discipline.** On a tagged trace the upgrade is accepted iff the analyzer reports it
or some request is answered OK, and the reply to another command may be deleted without any change
to the verdict. -/
theorem imap_tag_discipline {events : List ProtocolEvent} (htagged : Tagged events) (hello : Bool)
    (frames : List Nat) :
    ((machine.run hello events).accepted = true ↔
      (∃ e ∈ events, e.kind = .starttls) ∨ AnsweredOk events) ∧
    ∀ before e after, events = before ++ e :: after → Foreign events e →
      imapUpgrade (before ++ after) hello frames = imapUpgrade events hello frames := by
  refine ⟨?_, ?_⟩
  · rw [UpgradeMachine.accepted_run]
    exact accepted_iff_answeredOk htagged
  · rintro before e after rfl hforeign
    unfold imapUpgrade UpgradeMachine.upgrade
    rw [run_of_foreign htagged hforeign]

/-- A NOOP sent after STARTTLS and answered before it. -/
def pipelinedNoop : List ProtocolEvent :=
  [{ direction := .orig, kind := .request, command := some "STARTTLS", tag := some "a1" },
   { direction := .resp, kind := .reply, text := some "OK NOOP completed", tag := some "a2" },
   { direction := .resp, kind := .reply, text := some "OK begin TLS", tag := some "a1" }]

theorem pipelined_noop_discipline :
    ((machine.run true pipelinedNoop).accepted = true ↔
      (∃ e ∈ pipelinedNoop, e.kind = .starttls) ∨ AnsweredOk pipelinedNoop) ∧
    ∀ before e after, pipelinedNoop = before ++ e :: after → Foreign pipelinedNoop e →
      imapUpgrade (before ++ after) true [9] = imapUpgrade pipelinedNoop true [9] :=
  imap_tag_discipline (by unfold Tagged; decide) true [9]

end Imap
end Starttls
end SecureMail
