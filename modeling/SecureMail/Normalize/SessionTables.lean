import SecureMail.Normalize.Sessions
import SecureMail.Lib.Fallible

/-!
# From the tables to one session

After the passes a connection is decided by one set, `Tables.evidence`: the protocols its Zeek events
confirm, the ones its frames speak and the one its ALPN selected. The branches of
`_resolve_identity` are a case split on the size of that set, so `IdentityCase` says what each of
them is for, and `SessionCase` says the same of the session that is emitted. What is proved about
whole runs goes through these two and never looks at the branches again.

This is where the fields of a session come together that are proved about apart: the identity is a
function of the set, the events are the merged lists of the connection, the verdict on the upgrade
is a machine run on these, and whether the session is emitted is decided last. A fact about an
emitted session has the reason for its emission among its cases.
-/

namespace SecureMail
namespace Normalize
namespace Sessions

open Py (Dict Val)

/-! ## Identity -/

/-- The four things `_resolve_identity` can answer, by the set of all the evidence. -/
inductive IdentityCase (evidence : Finset MailProtocol) (sawAmbiguous : Bool) : Identity → Prop
  | conflicting (confidence : Option Confidence) (h : 1 < evidence.card) :
      IdentityCase evidence sawAmbiguous ⟨none, .indeterminate, .conflicting, confidence⟩
  | identified (p : MailProtocol) (h : evidence = {p}) :
      IdentityCase evidence sawAmbiguous ⟨some p, .ofProtocol p, .observed, none⟩
  | ambiguous (h : evidence = ∅) (ha : sawAmbiguous = true) :
      IdentityCase evidence sawAmbiguous ⟨none, .indeterminate, .indeterminate, none⟩
  | nothing (h : evidence = ∅) (ha : sawAmbiguous = false) :
      IdentityCase evidence sawAmbiguous ⟨none, .none, .indeterminate, none⟩

theorem onlyProtocol_singleton (p : MailProtocol) : onlyProtocol {p} = some p := by
  cases p <;> rfl

theorem onlyProtocol_empty : onlyProtocol ∅ = none := rfl

theorem resolveIdentity_cases (confirming : Finset MailProtocol) (sawAmbiguous : Bool)
    (tsharkProtocols : Finset MailProtocol) (alpnProtocol : Option MailProtocol) :
    IdentityCase (confirming ∪ tsharkProtocols ∪ alpnProtocol.toFinset) sawAmbiguous
      (resolveIdentity confirming sawAmbiguous tsharkProtocols alpnProtocol) := by
  generalize hev : confirming ∪ tsharkProtocols ∪ alpnProtocol.toFinset = evidence
  unfold resolveIdentity
  simp only [hev]
  split
  · -- Two analyzers that name different sets name two protocols between them.
    rename_i hdisagree
    obtain ⟨ht, hc, hne⟩ := hdisagree
    refine IdentityCase.conflicting _ ?_
    by_contra hcard
    obtain ⟨p, hp⟩ := Finset.nonempty_iff_ne_empty.mpr hc
    have hsub : confirming ∪ tsharkProtocols ⊆ evidence := by
      rw [← hev]
      exact Finset.subset_union_left
    have hone : ∀ q ∈ evidence, q = p := fun q hq =>
      Finset.card_le_one.mp (Nat.le_of_not_lt hcard) q hq p
        (hsub (Finset.mem_union_left _ hp))
    have hconf : confirming = {p} :=
      Finset.eq_singleton_iff_nonempty_unique_mem.mpr
        ⟨⟨p, hp⟩, fun q hq => hone q (hsub (Finset.mem_union_left _ hq))⟩
    have htshark : tsharkProtocols = {p} :=
      Finset.eq_singleton_iff_nonempty_unique_mem.mpr
        ⟨Finset.nonempty_iff_ne_empty.mpr ht,
          fun q hq => hone q (hsub (Finset.mem_union_right _ hq))⟩
    exact hne (hconf.trans htshark.symm)
  · split
    · rename_i hcard
      exact IdentityCase.conflicting _ hcard
    · rename_i hcard
      rcases Nat.lt_or_eq_of_le (Nat.le_of_not_lt hcard) with hzero | hone
      · have hempty : evidence = ∅ := Finset.card_eq_zero.mp (Nat.lt_one_iff.mp hzero)
        rw [hempty, onlyProtocol_empty]
        cases sawAmbiguous with
        | true => exact IdentityCase.ambiguous rfl rfl
        | false => exact IdentityCase.nothing rfl rfl
      · obtain ⟨p, hp⟩ := Finset.card_eq_one.mp hone
        rw [hp, onlyProtocol_singleton]
        exact IdentityCase.identified p rfl

namespace Tables

variable {t : Tables} {uid : String} {flow : Flow} {s : EmailSession}

/-- Everything that names a protocol for the connection. -/
def evidence (t : Tables) (uid : String) : Finset MailProtocol :=
  (t.zeek.confirmingByUid.get? uid).getD ∅ ∪ (t.tshark.tsharkByUid.get? uid).getD ∅ ∪
    (t.alpnOf uid).toFinset

theorem identityOf_cases (t : Tables) (uid : String) :
    IdentityCase (t.evidence uid) (t.zeek.ambiguousUids.contains uid) (t.identityOf uid) :=
  resolveIdentity_cases _ _ _ _

theorem alpnOf_of_evidence_empty (h : t.evidence uid = ∅) : t.alpnOf uid = none := by
  cases halpn : t.alpnOf uid with
  | none => rfl
  | some p =>
    have hp : p ∈ t.evidence uid := by simp [evidence, halpn]
    rw [h] at hp
    exact absurd hp (Finset.notMem_empty p)

theorem ofProtocol_ne_none (p : MailProtocol) : PayloadEvidence.ofProtocol p ≠ .none := by
  cases p <;> decide

/-! ## The session that is emitted -/

/-- The identity fields of a session, with the reason it is there. -/
inductive SessionCase (t : Tables) (uid : String) (flow : Flow) : Identity → Prop
  | conflicting (confidence : Option Confidence) (h : 1 < (t.evidence uid).card) :
      SessionCase t uid flow ⟨none, .indeterminate, .conflicting, confidence⟩
  | identified (p : MailProtocol) (h : t.evidence uid = {p}) :
      SessionCase t uid flow ⟨some p, .ofProtocol p, .observed, none⟩
  | ambiguous (h : t.evidence uid = ∅) (ha : t.zeek.ambiguousUids.contains uid = true) :
      SessionCase t uid flow ⟨none, .indeterminate, .indeterminate, none⟩
  | implicit (h : t.evidence uid = ∅) (ha : t.zeek.ambiguousUids.contains uid = false)
      (hport : t.implicitCandidate uid flow = true) :
      SessionCase t uid flow ⟨none, .indeterminate, .indeterminate, none⟩

theorem settleIdentity_of_payload {identity : Identity} (h : identity.payload ≠ .none) :
    t.settleIdentity uid flow identity = identity := by
  simp [settleIdentity, h]

theorem settleIdentity_cases {identity : Identity}
    (hcase : IdentityCase (t.evidence uid) (t.zeek.ambiguousUids.contains uid) identity)
    (hport : identity.payload = .none → t.implicitCandidate uid flow = true) :
    SessionCase t uid flow (t.settleIdentity uid flow identity) := by
  cases hcase with
  | conflicting confidence hcard =>
    rw [settleIdentity_of_payload (by simp)]
    exact SessionCase.conflicting confidence hcard
  | identified p hp =>
    rw [settleIdentity_of_payload (ofProtocol_ne_none p)]
    exact SessionCase.identified p hp
  | ambiguous hempty ha =>
    rw [settleIdentity_of_payload (by simp)]
    exact SessionCase.ambiguous hempty ha
  | nothing hempty ha =>
    have hport := hport rfl
    simp only [settleIdentity, hport, alpnOf_of_evidence_empty hempty]
    exact SessionCase.implicit hempty ha hport

/-- What the session of a connection says of its identity. -/
def settled (t : Tables) (uid : String) (flow : Flow) : Identity :=
  t.settleIdentity uid flow (t.identityOf uid)

theorem skips_iff : t.skips uid flow = true ↔
    t.evidence uid = ∅ ∧ t.zeek.ambiguousUids.contains uid = false ∧
      t.implicitCandidate uid flow = false := by
  unfold skips
  have hcase := t.identityOf_cases uid
  generalize t.identityOf uid = identity at hcase
  cases hcase with
  | conflicting confidence hcard =>
    have hne : t.evidence uid ≠ ∅ := by
      intro h
      rw [h] at hcard
      exact absurd hcard (by simp)
    simp [hne]
  | identified p hp => simp [hp, ofProtocol_ne_none]
  | ambiguous hempty ha =>
    rw [ha]
    simp
  | nothing hempty ha =>
    rw [ha, hempty]
    simp

/-- A connection that is kept with nothing identified is kept for its port. -/
theorem implicitCandidate_of_payload (h : t.skips uid flow = false)
    (hpayload : (t.identityOf uid).payload = .none) : t.implicitCandidate uid flow = true := by
  by_contra hport
  have hcase := t.identityOf_cases uid
  generalize t.identityOf uid = identity at hcase hpayload
  cases hcase with
  | conflicting => exact absurd hpayload (by simp)
  | identified p => exact absurd hpayload (ofProtocol_ne_none p)
  | ambiguous => exact absurd hpayload (by simp)
  | nothing hempty ha =>
    have hskip : t.skips uid flow = true := skips_iff.mpr ⟨hempty, ha, by simpa using hport⟩
    rw [h] at hskip
    exact absurd hskip (by simp)

theorem settled_cases (h : t.skips uid flow = false) :
    SessionCase t uid flow (t.settled uid flow) :=
  settleIdentity_cases (t.identityOf_cases uid) (implicitCandidate_of_payload h)

/-! ## Membership -/

theorem sessionFor_eq_some : t.sessionFor uid = some s ↔
    ∃ flow, t.flowByUid.get? uid = some flow ∧ t.skips uid flow = false ∧
      t.buildSession uid flow = s := by
  unfold sessionFor
  cases t.flowByUid.get? uid with
  | none => simp
  | some flow => cases hskip : t.skips uid flow <;> simp [hskip]

theorem sessionFor_uid (h : t.sessionFor uid = some s) : s.uid = uid := by
  obtain ⟨flow, _, _, rfl⟩ := sessionFor_eq_some.mp h
  rfl

/-- A session is in the output iff it is its connection's session. -/
theorem mem_sessions : s ∈ t.sessions ↔ s.uid ∈ t.sessionUids ∧ t.sessionFor s.uid = some s := by
  unfold sessions
  rw [(List.perm_insertionSort _ _).mem_iff, List.mem_filterMap]
  constructor
  · rintro ⟨uid, hmem, hs⟩
    rw [sessionFor_uid hs]
    exact ⟨hmem, hs⟩
  · intro h
    exact ⟨s.uid, h.1, h.2⟩

theorem mem_sessionUids : uid ∈ t.sessionUids ↔
    uid ∈ t.tshark.seenUids ∨ uid ∈ t.tshark.tsharkByUid.keys ∨
      (t.flowByUid.get? uid).isSome ∧ (t.sslByUid.get? uid).isSome := by
  simp only [sessionUids, Dict.mem_fromKeys, List.mem_append, List.mem_filter, Dict.mem_keys_iff,
    or_assoc]

end Tables

theorem normalizeSessions_eq_ok {logs : Record} {flows : List Flow}
    {tsharkFrames : Option (List Val)} {out : List EmailSession} :
    normalizeSessions logs flows tsharkFrames = .ok out ↔
      ∃ t, readTables logs flows tsharkFrames = .ok t ∧ t.sessions = out := by
  unfold normalizeSessions
  rw [Fallible.bind_eq_ok]
  simp

/-- What `readTables` leaves behind, one pass at a time. -/
theorem readTables_eq_ok {logs : Record} {flows : List Flow} {tsharkFrames : Option (List Val)}
    {t : Tables} : readTables logs flows tsharkFrames = .ok t ↔
      t.flowByUid = flowsByUid flows ∧ t.sslByUid = sslFacts logs ∧
        zeekPass logs (flowsByUid flows) = .ok t.zeek ∧
        tsharkPass flows t.zeek tsharkFrames = .ok t.tshark := by
  unfold readTables
  simp only [Fallible.bind_eq_ok, Fallible.pure_eq_ok]
  constructor
  · rintro ⟨zeek, hzeek, tshark, htshark, rfl⟩
    exact ⟨rfl, rfl, hzeek, htshark⟩
  · rintro ⟨hflow, hssl, hzeek, htshark⟩
    exact ⟨t.zeek, hzeek, t.tshark, htshark, by rw [← hflow, ← hssl]⟩

/-! ## The tables that are not of a pass -/

theorem flowsByUid_isSome {flows : List Flow} {uid : String} :
    ((flowsByUid flows).get? uid).isSome = true ↔ ∃ flow ∈ flows, flow.uid = uid := by
  rw [← Dict.mem_keys_iff, flowsByUid, Dict.mem_keys_ofList]

theorem sslStep_get? (facts : Dict String SslFacts) (r : Record) (uid : String) :
    (sslStep facts r).get? uid =
      if asStr (r.get "uid") maxUidLen = some uid then
        some (sslFactsOf r)
      else facts.get? uid := by
  unfold sslStep
  cases asStr (r.get "uid") maxUidLen with
  | none => simp
  | some owner =>
    rw [Dict.get?_set]
    by_cases huid : uid = owner
    · simp [huid]
    · simp [huid, Ne.symm huid]

/-- A connection keeps the facts of its last row. -/
theorem foldl_sslStep_get? {uid : String} :
    ∀ {rows : List Record} {facts : Dict String SslFacts},
      (rows.foldl sslStep facts).get? uid =
        (((rows.filter fun r =>
          asStr (r.get "uid") maxUidLen = some uid).getLast?.map
            sslFactsOf).or (facts.get? uid))
  | [], _ => by simp
  | r :: rest, facts => by
    rw [List.foldl_cons, foldl_sslStep_get?, sslStep_get?]
    by_cases hr : asStr (r.get "uid") maxUidLen = some uid
    · rw [if_pos hr, List.filter_cons_of_pos (by simpa using hr), List.getLast?_cons]
      cases (rest.filter fun r =>
        asStr (r.get "uid") maxUidLen = some uid).getLast? <;> simp
    · rw [if_neg hr, List.filter_cons_of_neg (by simpa using hr)]

end Sessions
end Normalize
end SecureMail
