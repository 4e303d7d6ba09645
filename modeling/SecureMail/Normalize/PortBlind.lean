import SecureMail.Normalize.SessionTables
import SecureMail.Lib.Run

/-!
# Port is never proof

Two runs over one set of logs, on flow lists that differ in their ports. The port enters a session
in two places besides the hint: it makes a connection with TLS a candidate for implicit TLS, and it
is an input of the implicit-TLS correlation. Neither is an identity. So the tables of the two runs
are the same but for the flows in them, every connection with a session in both has the same
identity, events and upgrade verdict, and a connection with a session in one only is there for its
port alone and says that nothing was identified.

Only the connections the flows name matter to the argument, so it is about any two tables that
agree on those (`SameEvidence`), and nothing in it needs the uids to be unique.
-/

namespace SecureMail
namespace Normalize
namespace Sessions

open Py (Dict)
open Starttls (implicitTlsPorts)

/-! ## The relation between the runs -/

/-- Two flows that are equal except for their port numbers. Ports may differ on either side, and
nothing is asked of how. -/
def EqualButPorts (flow flow' : Flow) : Prop :=
  flow' = { flow with orig := { flow.orig with port := flow'.orig.port },
                      resp := { flow.resp with port := flow'.resp.port } }

/-- What a session says besides its port hint and its implicit-TLS correlation. What is left out is
what is allowed to depend on a port. -/
structure SamePayload (s s' : EmailSession) : Prop where
  protocol : s.protocol = s'.protocol
  payloadEvidence : s.payloadEvidence = s'.payloadEvidence
  evidenceState : s.evidenceState = s'.evidenceState
  identificationConfidence : s.identificationConfidence = s'.identificationConfidence
  corroboration : s.corroboration = s'.corroboration
  events : s.events = s'.events
  explicitUpgrade : s.explicitUpgrade = s'.explicitUpgrade

/-- The connection has a row in `ssl.log`. -/
def HasSslRow (logs : Record) (uid : String) : Prop :=
  ∃ row ∈ boundedRecords (getLog logs "ssl.log") maxRecords,
    asStr (row.get "uid") maxUidLen = some uid

/-- Every session of the first run without one in the second is there for an implicit-TLS port, and
identifies nothing. -/
def OnlyForPort (logs : Record) (flows : List Flow) (run other : List EmailSession) : Prop :=
  ∀ s ∈ run, (∀ s' ∈ other, s'.uid ≠ s.uid) →
    (∃ flow ∈ flows, flow.uid = s.uid ∧ (flow.resp.port : Nat) ∈ implicitTlsPorts) ∧
      HasSslRow logs s.uid ∧ s.protocol = none ∧ s.payloadEvidence = .indeterminate ∧
      s.evidenceState = .indeterminate

/-- The two runs raise the same exception, or both return and agree on everything that is not the
port's own. -/
def AgreeButForPort (logs : Record) (flows flows' : List Flow) : Prop :=
  (∃ e, normalizeSessions logs flows none = .error e ∧
      normalizeSessions logs flows' none = .error e) ∨
    ∃ run run', normalizeSessions logs flows none = .ok run ∧
      normalizeSessions logs flows' none = .ok run' ∧
      (∀ s ∈ run, ∀ s' ∈ run', s.uid = s'.uid → SamePayload s s') ∧
      OnlyForPort logs flows run run' ∧ OnlyForPort logs flows' run' run

/-! ## Tables that differ in their flows -/

namespace Tables

/-- The tables agree on everything that was read, and on which connections have a flow. -/
structure SameEvidence (t t' : Tables) : Prop where
  sslByUid : t.sslByUid = t'.sslByUid
  zeek : t.zeek = t'.zeek
  tshark : t.tshark = t'.tshark
  flow : ∀ uid, (t.flowByUid.get? uid).isSome = (t'.flowByUid.get? uid).isSome

variable {t t' : Tables} {uid : String} {flow flow' : Flow}

theorem SameEvidence.symm (h : SameEvidence t t') : SameEvidence t' t :=
  ⟨h.sslByUid.symm, h.zeek.symm, h.tshark.symm, fun uid => (h.flow uid).symm⟩

theorem SameEvidence.evidence (h : SameEvidence t t') : t.evidence uid = t'.evidence uid := by
  unfold Tables.evidence alpnOf
  rw [h.zeek, h.tshark, h.sslByUid]

theorem SameEvidence.identityOf (h : SameEvidence t t') : t.identityOf uid = t'.identityOf uid := by
  unfold Tables.identityOf alpnOf
  rw [h.zeek, h.tshark, h.sslByUid]

theorem SameEvidence.alpnOf (h : SameEvidence t t') : t.alpnOf uid = t'.alpnOf uid := by
  unfold Tables.alpnOf
  rw [h.sslByUid]

theorem SameEvidence.sessionUids (h : SameEvidence t t') :
    uid ∈ t.sessionUids ↔ uid ∈ t'.sessionUids := by
  rw [mem_sessionUids, mem_sessionUids, h.tshark, h.sslByUid, h.flow]

/-- Of two sessions of one connection, neither has an identity of its own. -/
theorem SameEvidence.settled (h : SameEvidence t t') (hs : t.skips uid flow = false)
    (hs' : t'.skips uid flow' = false) : t.settled uid flow = t'.settled uid flow' := by
  unfold Tables.settled
  by_cases hpayload : (t.identityOf uid).payload = .none
  · have hpayload' : (t'.identityOf uid).payload = .none := by rwa [← h.identityOf]
    unfold settleIdentity
    rw [implicitCandidate_of_payload hs hpayload, implicitCandidate_of_payload hs' hpayload',
      h.identityOf, h.alpnOf]
  · have hpayload' : (t'.identityOf uid).payload ≠ .none := by rwa [← h.identityOf]
    rw [settleIdentity_of_payload hpayload, settleIdentity_of_payload hpayload', h.identityOf]

theorem SameEvidence.buildSession (h : SameEvidence t t') (hs : t.skips uid flow = false)
    (hs' : t'.skips uid flow' = false) :
    SamePayload (t.buildSession uid flow) (t'.buildSession uid flow') := by
  have hsettled := h.settled hs hs'
  have hevents : t.eventsOf uid = t'.eventsOf uid := by
    unfold eventsOf
    rw [h.zeek, h.tshark]
  have hhello : t.helloOf uid = t'.helloOf uid := by
    unfold helloOf
    rw [h.tshark]
  have hcorroboration : t.corroborationOf uid = t'.corroborationOf uid := by
    unfold corroborationOf
    rw [h.tshark, hhello]
  exact
    { protocol := congrArg Identity.protocol hsettled
      payloadEvidence := congrArg Identity.payload hsettled
      evidenceState := congrArg Identity.state hsettled
      identificationConfidence := congrArg Identity.confidence hsettled
      corroboration := hcorroboration
      events := hevents
      explicitUpgrade := by
        show some (explicitUpgradeOf (t.settled uid flow).protocol (t.eventsOf uid)
            (clientHelloObserved (t.sslByUid.get? uid) (t.helloOf uid)) (t.helloOf uid)) =
          some (explicitUpgradeOf (t'.settled uid flow').protocol (t'.eventsOf uid)
            (clientHelloObserved (t'.sslByUid.get? uid) (t'.helloOf uid)) (t'.helloOf uid))
        rw [hsettled, hevents, hhello, h.sslByUid] }

theorem SameEvidence.samePayload (h : SameEvidence t t') {s s' : EmailSession}
    (hs : s ∈ t.sessions) (hs' : s' ∈ t'.sessions) (huid : s.uid = s'.uid) : SamePayload s s' := by
  obtain ⟨flow, _, hskip, hbuild⟩ := sessionFor_eq_some.mp (mem_sessions.mp hs).2
  obtain ⟨flow', _, hskip', hbuild'⟩ := sessionFor_eq_some.mp (mem_sessions.mp hs').2
  rw [← huid] at hskip' hbuild'
  rw [← hbuild, ← hbuild']
  exact h.buildSession hskip hskip'

/-- The connection that is kept in one run and dropped in the other. -/
theorem SameEvidence.kept_for_port (h : SameEvidence t t') {s : EmailSession} (hs : s ∈ t.sessions)
    (hother : ∀ s' ∈ t'.sessions, s'.uid ≠ s.uid) :
    ∃ flow, t.flowByUid.get? s.uid = some flow ∧ t.implicitCandidate s.uid flow = true ∧
      s.protocol = none ∧ s.payloadEvidence = .indeterminate ∧ s.evidenceState = .indeterminate := by
  obtain ⟨huid, hsession⟩ := mem_sessions.mp hs
  obtain ⟨flow, hflow, hskip, hbuild⟩ := sessionFor_eq_some.mp hsession
  -- The other run has the flow too, so it must have skipped the connection.
  obtain ⟨flow', hflow'⟩ : ∃ flow', t'.flowByUid.get? s.uid = some flow' := by
    rw [← Option.isSome_iff_exists, ← h.flow, hflow]
    rfl
  have hskip' : t'.skips s.uid flow' = true := by
    by_contra hkept
    have hmem : t'.buildSession s.uid flow' ∈ t'.sessions := by
      have hkept : t'.skips s.uid flow' = false := by simpa using hkept
      rw [mem_sessions]
      exact ⟨h.sessionUids.mp huid, sessionFor_eq_some.mpr ⟨flow', hflow', hkept, rfl⟩⟩
    exact hother _ hmem rfl
  obtain ⟨hempty, hclear, _⟩ := skips_iff.mp hskip'
  rw [← h.evidence] at hempty
  rw [← h.zeek] at hclear
  -- Here it was kept, with nothing to name a protocol: the port is what is left.
  have hcase := settled_cases hskip
  have hprotocol : s.protocol = (t.settled s.uid flow).protocol := by rw [← hbuild]; rfl
  have hpayload : s.payloadEvidence = (t.settled s.uid flow).payload := by rw [← hbuild]; rfl
  have hstate : s.evidenceState = (t.settled s.uid flow).state := by rw [← hbuild]; rfl
  rw [hprotocol, hpayload, hstate]
  generalize t.settled s.uid flow = identity at hcase
  cases hcase with
  | conflicting _ hcard =>
    rw [hempty] at hcard
    exact absurd hcard (by simp)
  | identified p hp =>
    rw [hempty] at hp
    exact absurd hp.symm (Finset.singleton_ne_empty p)
  | ambiguous _ ha =>
    rw [hclear] at ha
    exact absurd ha (by simp)
  | implicit _ _ hport => exact ⟨flow, hflow, hport, rfl, rfl, rfl⟩

end Tables

/-! ## The tables of the two runs -/

/-- The pass over `sm_email.log` asks of the flows only which connections they name. -/
theorem zeekPass_congr (logs : Record) {d d' : Dict String Flow}
    (h : ∀ uid, (d.get? uid).isSome = (d'.get? uid).isSome) : zeekPass logs d = zeekPass logs d' := by
  have hstep : zeekStep d = zeekStep d' := by
    funext s row
    unfold zeekStep
    cases asStr (row.get "uid") maxUidLen with
    | none => rfl
    | some uid =>
      have hnone : (d.get? uid).isNone = (d'.get? uid).isNone := by
        rw [← Option.not_isSome, ← Option.not_isSome, h]
      simp only [hnone]
  unfold zeekPass
  rw [hstep]

/-- Without frames there is no frame pass. -/
theorem tsharkPass_none (flows : List Flow) (zeek : ZeekPass) :
    tsharkPass flows zeek none = .ok { seenUids := zeek.seenUids, order := zeek.order } := rfl

theorem flowsByUid_congr {flows flows' : List Flow} (h : List.Forall₂ EqualButPorts flows flows')
    (uid : String) :
    ((flowsByUid flows).get? uid).isSome = ((flowsByUid flows').get? uid).isSome := by
  have huids : flows.map (·.uid) = flows'.map (·.uid) := by
    induction h with
    | nil => rfl
    | cons hports _ ih =>
      rw [List.map_cons, List.map_cons, ih, hports]
  rw [Bool.eq_iff_iff, flowsByUid_isSome, flowsByUid_isSome, ← List.mem_map, ← List.mem_map, huids]

/-- The table has facts for the connection. -/
def knows (uid : String) (facts : Dict String SslFacts) : Bool := (facts.get? uid).isSome

theorem knows_sslStep (uid : String) (facts : Dict String SslFacts) (row : Record) :
    knows uid (sslStep facts row) =
      (knows uid facts || (asStr (row.get "uid") maxUidLen == some uid)) := by
  unfold knows sslStep
  cases asStr (row.get "uid") maxUidLen with
  | none => simp
  | some rowUid =>
    dsimp only
    rw [Dict.get?_set]
    by_cases hrow : uid = rowUid
    · simp [hrow]
    · simp [hrow, Ne.symm hrow]

theorem sslFacts_isSome {logs : Record} {uid : String} :
    ((sslFacts logs).get? uid).isSome = true ↔ HasSslRow logs uid := by
  have hrun := Run.foldl_any_iff (knows_sslStep uid) ∅
    (boundedRecords (getLog logs "ssl.log") maxRecords)
  simpa [knows, HasSslRow, sslFacts] using hrun

theorem onlyForPort_of_sameEvidence {logs : Record} {flows : List Flow} {t t' : Tables}
    (h : Tables.SameEvidence t t') (hflow : t.flowByUid = flowsByUid flows)
    (hssl : t.sslByUid = sslFacts logs) : OnlyForPort logs flows t.sessions t'.sessions := by
  intro s hs hother
  obtain ⟨flow, hget, hport, hrest⟩ := h.kept_for_port hs hother
  rw [Tables.implicitCandidate, Bool.and_eq_true, List.contains_iff_mem, hssl,
    sslFacts_isSome] at hport
  rw [hflow] at hget
  obtain ⟨flow', hmem, huid, rfl⟩ := Dict.mem_of_get?_ofList hget
  exact ⟨⟨flow', hmem, huid, hport.1⟩, hport.2, hrest⟩

/-- **Port is never proof.** On flow lists that differ in their ports only, and without frames, the
normalizer either raises the same exception on both or returns on both; connections with a session
in both say the same of everything but the port, and a connection with a session in one only is
there for an implicit-TLS port and identifies nothing. -/
theorem port_is_not_proof (logs : Record) {flows flows' : List Flow}
    (hports : List.Forall₂ EqualButPorts flows flows') : AgreeButForPort logs flows flows' := by
  have hzeek := zeekPass_congr logs (flowsByUid_congr hports)
  -- Without frames the log pass is all that can raise, and it is the same pass in both runs.
  cases hrun : zeekPass logs (flowsByUid flows) with
  | error e =>
    refine Or.inl ⟨e, ?_, ?_⟩
    · rw [normalizeSessions, readTables, hrun]
      rfl
    · rw [normalizeSessions, readTables, ← hzeek, hrun]
      rfl
  | ok zeek =>
    let tshark : TsharkPass := { seenUids := zeek.seenUids, order := zeek.order }
    let t : Tables := ⟨flowsByUid flows, sslFacts logs, zeek, tshark⟩
    let t' : Tables := ⟨flowsByUid flows', sslFacts logs, zeek, tshark⟩
    have ht : readTables logs flows none = .ok t :=
      readTables_eq_ok.mpr ⟨rfl, rfl, hrun, tsharkPass_none flows zeek⟩
    have ht' : readTables logs flows' none = .ok t' :=
      readTables_eq_ok.mpr ⟨rfl, rfl, hzeek ▸ hrun, tsharkPass_none flows' zeek⟩
    have hsame : Tables.SameEvidence t t' := ⟨rfl, rfl, rfl, flowsByUid_congr hports⟩
    refine Or.inr ⟨t.sessions, t'.sessions, ?_, ?_, ?_, ?_, ?_⟩
    · exact normalizeSessions_eq_ok.mpr ⟨t, ht, rfl⟩
    · exact normalizeSessions_eq_ok.mpr ⟨t', ht', rfl⟩
    · intro s hs s' hs' huid
      exact hsame.samePayload hs hs' huid
    · exact onlyForPort_of_sameEvidence hsame rfl rfl
    · exact onlyForPort_of_sameEvidence hsame.symm rfl rfl

/-- TLS on one connection, and a greeting on another. -/
def tlsAndGreetingLogs : Record :=
  [("ssl.log", .list [.dict [("uid", .str "C1")]]),
   ("sm_email.log", .list [.dict [("uid", .str "C2"), ("protocol", .str "smtp"),
     ("event_type", .str "request"), ("command", .str "EHLO"), ("ts", .int 1)]])]

/-- With the usual ports both connections have a session; off them the greeting alone does. -/
theorem implicit_port_agreement :
    (normalizeSessions tlsAndGreetingLogs [Flow.toPort "C1" 465, Flow.toPort "C2" 25]
        none).toOption.map (·.map (·.uid)) = some ["C1", "C2"] ∧
      (normalizeSessions tlsAndGreetingLogs [Flow.toPort "C1" 2465, Flow.toPort "C2" 2525]
        none).toOption.map (·.map (·.uid)) = some ["C2"] ∧
      AgreeButForPort tlsAndGreetingLogs [Flow.toPort "C1" 465, Flow.toPort "C2" 25]
        [Flow.toPort "C1" 2465, Flow.toPort "C2" 2525] :=
  ⟨by decide +kernel, by decide +kernel,
    port_is_not_proof _ (List.Forall₂.cons rfl (List.Forall₂.cons rfl List.Forall₂.nil))⟩

end Sessions
end Normalize
end SecureMail
