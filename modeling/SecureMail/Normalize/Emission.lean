import SecureMail.Normalize.EventCap
import SecureMail.Normalize.Isolation
import SecureMail.Normalize.Pipelined

/-!
# Which connections get a session

Four logs can name a connection, and each does it through a table of its own. What a table holds of
a connection after a pass is read off its rows, so `Evident` states over the logs alone what makes a
mail session of a connection, and `exists_session_iff` says that it does and that nothing else does.

The tables are filled from the first entries of a log, up to a limit, and a row past it is not seen.

`Evident` is a disjunction of reasons, each of which names the row or frame that is the reason, so
it can be checked against a log by hand. Below the limits it is what an analyst would say; past them
the rows that are read are the first ones. The events of a session are followed from the same tables
(`sessions_emitted`), for those rows that no rule drops.
-/

namespace SecureMail
namespace Normalize
namespace Sessions

open Py (Val Dict)
open Starttls (protocolFromAlpn implicitTlsPorts)

/-! ## The rows of a connection -/

/-- An event as a row makes it, with the protocol the row names. -/
abbrev RowEvent := ProtocolEvent × Option MailProtocol

/-- What a row makes. -/
def rowEvent (row : Record) : Option RowEvent :=
  match eventFromEmailRow row with
  | .ok (some event) => some (event, protocolFromName (asStr (row.get "protocol") 16))
  | _ => none

/-- The events the rows of the connection make. -/
def rowEvents (uid : String) (rows : List Record) : List RowEvent :=
  (rows.filter (rowIsOf uid)).filterMap rowEvent

/-- Those that do not repeat the capability before them. -/
def uncollapsed (last : Option ProtocolEvent) : List RowEvent → List RowEvent
  | [] => []
  | e :: rest =>
      if isDuplicateCapability last e.1 then uncollapsed last rest
      else e :: uncollapsed (some e.1) rest

/-- The events of the connection that enter the tables. -/
def loggedEvents (logs : Record) (uid : String) : List RowEvent :=
  uncollapsed none (rowEvents uid (boundedRecords (getLog logs "sm_email.log") maxRecords))

/-- The last row of `ssl.log` for the connection. -/
def lastSsl (logs : Record) (uid : String) : Option SslFacts :=
  ((boundedRecords (getLog logs "ssl.log") maxRecords).filter (rowIsOf uid)).getLast?.map sslFactsOf

/-- The event shows its protocol. -/
def Confirms (e : RowEvent) (p : MailProtocol) : Prop := e.1.kind ∈ confirmingKinds ∧ e.2 = some p

/-- What makes a mail session of a connection. The last reason is not an identification: it lets a
session be emitted that says that nothing was identified, for a TLS connection to a port of implicit
TLS. -/
inductive Evident (logs : Record) (flows : List Flow) (tsharkFrames : Option (List Val))
    (uid : String) (flow : Flow) : Prop
  | confirmed (e : RowEvent) (p : MailProtocol) (he : e ∈ loggedEvents logs uid)
      (hconfirms : Confirms e p)
  | ambiguous (e : RowEvent) (he : e ∈ loggedEvents logs uid)
      (hkind : e.1.kind = .ambiguousBanner)
  | matched (frame : Record) (p : MailProtocol)
      (hframe : frame ∈ boundedRecords (.list (tsharkFrames.getD [])) maxFrames)
      (hmatch : matchFrameUid frame flows = .ok (some uid)) (hprotocol : tsharkProtocol frame = some p)
  | selected (ssl : SslFacts) (p : MailProtocol) (hssl : lastSsl logs uid = some ssl)
      (halpn : protocolFromAlpn ssl.nextProtocol = some p)
  | implicit (hssl : (lastSsl logs uid).isSome = true)
      (hport : (flow.resp.port : Nat) ∈ implicitTlsPorts)

variable {uid : String} {flowByUid : Dict String Flow} {p : MailProtocol}

/-! ## One row -/

/-- What a row of a connection does: nothing, or one more event of it. -/
theorem zeekStep_row {s s' : ZeekPass} {row : Record} (hown : rowIsOf uid row = true)
    (hflow : (flowByUid.get? uid).isSome = true) (h : zeekStep flowByUid s row = .ok s') :
    rowEvent row = none ∧ s' = s ∨
      ∃ e, rowEvent row = some e ∧
        (isDuplicateCapability (s.previousByUid.get? uid) e.1 = true ∧ s' = s ∨
          isDuplicateCapability (s.previousByUid.get? uid) e.1 = false ∧
            ∃ ts order, s' = s.record
              { ts := ts, order := order, uid := uid, protocol := e.2, event := e.1 }) := by
  have huid : asStr (row.get "uid") maxUidLen = some uid := by simpa [rowIsOf] using hown
  unfold zeekStep at h
  rw [huid] at h
  dsimp only at h
  rw [if_neg (by simpa [Option.isSome_iff_ne_none] using hflow)] at h
  obtain ⟨made, hmade, h⟩ := Fallible.bind_eq_ok.mp h
  unfold rowEvent
  rw [hmade]
  cases made with
  | none => exact Or.inl ⟨rfl, (Fallible.pure_eq_ok.mp h).symm⟩
  | some event =>
    refine Or.inr ⟨_, rfl, ?_⟩
    dsimp only at h
    split at h
    · rename_i hdup
      exact Or.inl ⟨hdup, (Fallible.pure_eq_ok.mp h).symm⟩
    · rename_i hnew
      obtain ⟨ts, -, h⟩ := Fallible.bind_eq_ok.mp h
      exact Or.inr ⟨by simpa using hnew, _, _, (Fallible.pure_eq_ok.mp h).symm⟩

/-! ## The pass over `sm_email.log` -/

theorem mem_confirming_record {s : ZeekPass} {x : Stamped} (huid : x.uid = uid) :
    p ∈ ((s.record x).confirmingByUid.get? uid).getD ∅ ↔
      p ∈ (s.confirmingByUid.get? uid).getD ∅ ∨ Confirms (x.event, x.protocol) p := by
  subst huid
  rw [ZeekPass.record_eq]
  unfold Confirms
  cases hprotocol : x.protocol with
  | none => simp
  | some q =>
    by_cases hkind : x.event.kind ∈ confirmingKinds
    · simp [hkind, Option.filter, Dict.update, Dict.get?_set_self, or_comm, eq_comm]
    · simp [hkind]

theorem mem_ambiguous_record {s : ZeekPass} {x : Stamped} (huid : x.uid = uid) :
    uid ∈ (s.record x).ambiguousUids ↔
      uid ∈ s.ambiguousUids ∨ x.event.kind = .ambiguousBanner := by
  subst huid
  rw [ZeekPass.record_eq]
  by_cases hkind : x.event.kind = .ambiguousBanner
  · simp [hkind]
  · simp [hkind]

theorem previous_record {s : ZeekPass} {x : Stamped} (huid : x.uid = uid) :
    (s.record x).previousByUid.get? uid = some x.event := by
  subst huid
  rw [ZeekPass.record_eq]
  exact Dict.get?_set_self _ _ _

theorem rowEvents_other {row : Record} {rest : List Record} (h : rowIsOf uid row = false) :
    rowEvents uid (row :: rest) = rowEvents uid rest := by
  unfold rowEvents
  rw [List.filter_cons_of_neg (by simp [h])]

theorem rowEvents_own {row : Record} {rest : List Record} (h : rowIsOf uid row = true) :
    rowEvents uid (row :: rest) = (rowEvent row).toList ++ rowEvents uid rest := by
  unfold rowEvents
  rw [List.filter_cons_of_pos h, List.filterMap_cons]
  cases rowEvent row <;> rfl

/-- **What the pass holds of a connection** is what its events show, less the repeats. The tables
are built by a fold, and this reads each of their entries off the rows. -/
theorem tables_of_zeekRun (hflow : (flowByUid.get? uid).isSome = true) {rows : List Record}
    {s s' : ZeekPass} (h : rows.foldlM (zeekStep flowByUid) s = .ok s') :
    (∀ p, p ∈ (s'.confirmingByUid.get? uid).getD ∅ ↔ p ∈ (s.confirmingByUid.get? uid).getD ∅ ∨
        ∃ e ∈ uncollapsed (s.previousByUid.get? uid) (rowEvents uid rows), Confirms e p) ∧
      (uid ∈ s'.ambiguousUids ↔ uid ∈ s.ambiguousUids ∨
        ∃ e ∈ uncollapsed (s.previousByUid.get? uid) (rowEvents uid rows),
          e.1.kind = .ambiguousBanner) := by
  induction rows generalizing s with
  | nil =>
    obtain rfl := Fallible.pure_eq_ok.mp h
    simp [rowEvents, uncollapsed]
  | cons row rest ih =>
    obtain ⟨t, ht, hrest⟩ := Fallible.foldlM_cons_eq_ok.mp h
    obtain ⟨hconfirming, hambiguous⟩ := ih hrest
    cases hown : rowIsOf uid row with
    | false =>
      have hshare := spares_zeekStep flowByUid uid s t row hown ht
      have hc : t.confirmingByUid.get? uid = s.confirmingByUid.get? uid :=
        congrArg ZeekShare.confirming hshare
      have hp : t.previousByUid.get? uid = s.previousByUid.get? uid :=
        congrArg ZeekShare.previous hshare
      have ha : uid ∈ s.ambiguousUids ↔ uid ∈ t.ambiguousUids := by
        rw [← List.contains_iff_mem, ← List.contains_iff_mem]
        exact Bool.eq_iff_iff.mp (congrArg ZeekShare.ambiguous hshare).symm
      rw [rowEvents_other hown, ha, ← hc, ← hp]
      exact ⟨hconfirming, hambiguous⟩
    | true =>
      rw [rowEvents_own hown]
      rcases zeekStep_row hown hflow ht with ⟨hnone, rfl⟩ | ⟨e, he, ⟨hdup, rfl⟩ | ⟨hnew, ts, order, rfl⟩⟩
      · rw [hnone]
        exact ⟨hconfirming, hambiguous⟩
      · rw [he, Option.toList_some, List.singleton_append, uncollapsed, if_pos hdup]
        exact ⟨hconfirming, hambiguous⟩
      · rw [he, Option.toList_some, List.singleton_append, uncollapsed, if_neg (by simp [hnew])]
        rw [previous_record rfl] at hconfirming hambiguous
        simp only [mem_confirming_record rfl] at hconfirming
        rw [mem_ambiguous_record rfl] at hambiguous
        simp only [List.exists_mem_cons_iff, ← or_assoc]
        exact ⟨hconfirming, hambiguous⟩

theorem isSome_of_mem_getD {o : Option (Finset MailProtocol)} (h : p ∈ o.getD ∅) :
    o.isSome = true := by
  cases o with
  | none => exact absurd h (Finset.notMem_empty p)
  | some _ => rfl

/-- A connection that a table names is among those seen. -/
theorem seen_of_named {logs : Record} {zeek : ZeekPass} (h : zeekPass logs flowByUid = .ok zeek)
    (hnamed : (zeek.confirmingByUid.get? uid).isSome = true ∨ uid ∈ zeek.ambiguousUids) :
    uid ∈ zeek.seenUids := by
  have hinvariant := Fallible.foldlM_invariant h
    (P := fun s : ZeekPass => (s.share uid).events.isSome = true ∨
      (s.share uid).confirming.isSome = true ∨ (s.share uid).ambiguous = true →
        (s.share uid).seen = true) ?_ ?_
  · rw [← List.contains_iff_mem]
    apply hinvariant
    rcases hnamed with hconfirming | hambiguous
    · exact Or.inr (Or.inl hconfirming)
    · exact Or.inr (Or.inr (List.contains_iff_mem.mpr hambiguous))
  · rintro (hevents | hconfirming | hambiguous)
    · exact absurd hevents (by simp [ZeekPass.share])
    · exact absurd hconfirming (by simp [ZeekPass.share])
    · exact absurd hambiguous (by simp [ZeekPass.share])
  · intro s s' row _ hstep hs
    cases zeekStep_cases hstep with
    | ignored => exact hs
    | recorded x =>
      by_cases huid : x.uid = uid
      · intro _
        subst huid
        unfold ZeekPass.share
        rw [ZeekPass.record_eq]
        dsimp only
        split
        · rename_i hknown
          exact hs (Or.inl (by simpa [ZeekPass.share] using hknown))
        · simp
      · rw [share_record_other huid]
        exact hs

/-! ## The tables after both passes -/

variable {logs : Record} {flows : List Flow} {tsharkFrames : Option (List Val)} {t : Tables}

theorem sslFacts_get? (logs : Record) (uid : String) :
    (sslFacts logs).get? uid = lastSsl logs uid := by
  unfold sslFacts lastSsl
  rw [foldl_sslStep_get?]
  exact Option.or_none

theorem mem_evidence (hread : readTables logs flows tsharkFrames = .ok t)
    (hflow : (t.flowByUid.get? uid).isSome = true) :
    p ∈ t.evidence uid ↔ (∃ e ∈ loggedEvents logs uid, Confirms e p) ∨
      (∃ frame ∈ boundedRecords (.list (tsharkFrames.getD [])) maxFrames,
        matchFrameUid frame flows = .ok (some uid) ∧ tsharkProtocol frame = some p) ∨
      ∃ ssl, lastSsl logs uid = some ssl ∧ protocolFromAlpn ssl.nextProtocol = some p := by
  obtain ⟨hflows, hssl, hzeek, htshark⟩ := readTables_eq_ok.mp hread
  rw [hflows] at hflow
  have hlogged := (tables_of_zeekRun hflow hzeek).1 p
  have hframes : p ∈ (t.tshark.tsharkByUid.get? uid).getD ∅ ↔
      ∃ frame ∈ boundedRecords (.list (tsharkFrames.getD [])) maxFrames,
        matchFrameUid frame flows = .ok (some uid) ∧ tsharkProtocol frame = some p :=
    mem_tsharkByUid htshark
  have halpn : p ∈ (t.alpnOf uid).toFinset ↔
      ∃ ssl, lastSsl logs uid = some ssl ∧ protocolFromAlpn ssl.nextProtocol = some p := by
    rw [Option.mem_toFinset, Tables.alpnOf, hssl, sslFacts_get?]
    exact Option.bind_eq_some_iff
  unfold Tables.evidence
  rw [Finset.mem_union, Finset.mem_union, hlogged, hframes, halpn, or_assoc]
  refine or_congr ⟨?_, Or.inr⟩ Iff.rfl
  rintro (hnone | hlogged)
  · exact absurd hnone (Finset.notMem_empty p)
  · exact hlogged

theorem mem_ambiguousUids (hread : readTables logs flows tsharkFrames = .ok t)
    (hflow : (t.flowByUid.get? uid).isSome = true) :
    uid ∈ t.zeek.ambiguousUids ↔
      ∃ e ∈ loggedEvents logs uid, e.1.kind = .ambiguousBanner := by
  obtain ⟨hflows, -, hzeek, -⟩ := readTables_eq_ok.mp hread
  rw [hflows] at hflow
  rw [(tables_of_zeekRun hflow hzeek).2]
  exact ⟨fun h => h.elim (fun h => absurd h List.not_mem_nil) id, Or.inr⟩

theorem implicitCandidate_iff (hread : readTables logs flows tsharkFrames = .ok t) {flow : Flow} :
    t.implicitCandidate uid flow = true ↔
      (lastSsl logs uid).isSome = true ∧ (flow.resp.port : Nat) ∈ implicitTlsPorts := by
  obtain ⟨-, hssl, -, -⟩ := readTables_eq_ok.mp hread
  unfold Tables.implicitCandidate
  rw [hssl, sslFacts_get?, Bool.and_eq_true, List.contains_iff_mem, and_comm]

/-- **What is not skipped is what is evident.** The test for skipping is on the identity that was
resolved, and evidence is what resolves it. -/
theorem skips_eq_false_iff (hread : readTables logs flows tsharkFrames = .ok t) {flow : Flow}
    (hflow : t.flowByUid.get? uid = some flow) :
    t.skips uid flow = false ↔ Evident logs flows tsharkFrames uid flow := by
  have hsome : (t.flowByUid.get? uid).isSome = true := by rw [hflow]; rfl
  rw [← Bool.not_eq_true, Tables.skips_iff, Finset.eq_empty_iff_forall_notMem]
  simp only [mem_evidence hread hsome]
  rw [← Bool.not_eq_true, ← Bool.not_eq_true, implicitCandidate_iff hread, List.contains_iff_mem,
    mem_ambiguousUids hread hsome]
  constructor
  · intro h
    by_contra hnot
    refine h ⟨?_, ?_, ?_⟩
    · rintro p (⟨e, he, hconfirms⟩ | ⟨frame, hframe, hmatch, hprotocol⟩ | ⟨ssl, hssl, halpn⟩)
      · exact hnot (.confirmed e p he hconfirms)
      · exact hnot (.matched frame p hframe hmatch hprotocol)
      · exact hnot (.selected ssl p hssl halpn)
    · rintro ⟨e, he, hkind⟩
      exact hnot (.ambiguous e he hkind)
    · rintro ⟨hssl, hport⟩
      exact hnot (.implicit hssl hport)
  · rintro hevident ⟨hnone, hplain, hport⟩
    cases hevident with
    | confirmed e p he hconfirms => exact hnone p (Or.inl ⟨e, he, hconfirms⟩)
    | ambiguous e he hkind => exact hplain ⟨e, he, hkind⟩
    | matched frame p hframe hmatch hprotocol =>
      exact hnone p (Or.inr (Or.inl ⟨frame, hframe, hmatch, hprotocol⟩))
    | selected ssl p hssl halpn => exact hnone p (Or.inr (Or.inr ⟨ssl, hssl, halpn⟩))
    | implicit hssl hport' => exact hport ⟨hssl, hport'⟩

/-! ## The sessions -/

/-- An evident connection is among those the loop goes over. -/
theorem mem_sessionUids_of_evident (hread : readTables logs flows tsharkFrames = .ok t)
    {flow : Flow} (hflow : t.flowByUid.get? uid = some flow)
    (hevident : Evident logs flows tsharkFrames uid flow) : uid ∈ t.sessionUids := by
  obtain ⟨hflows, hssl, hzeek, htshark⟩ := readTables_eq_ok.mp hread
  have hsome : (t.flowByUid.get? uid).isSome = true := by rw [hflow]; rfl
  have hsome' : ((flowsByUid flows).get? uid).isSome = true := by rw [← hflows]; exact hsome
  have hnamed : (lastSsl logs uid).isSome = true → uid ∈ t.sessionUids := by
    intro hlast
    rw [Tables.mem_sessionUids, hssl, sslFacts_get?]
    exact Or.inr (Or.inr ⟨hsome, hlast⟩)
  have hseen : (t.zeek.confirmingByUid.get? uid).isSome = true ∨ uid ∈ t.zeek.ambiguousUids →
      uid ∈ t.sessionUids := by
    intro h
    rw [Tables.mem_sessionUids]
    exact Or.inl (seenUids_subset htshark (seen_of_named hzeek h))
  cases hevident with
  | confirmed e p he hconfirms =>
    apply hseen
    have hmem := ((tables_of_zeekRun hsome' hzeek).1 p).mpr (Or.inr ⟨e, he, hconfirms⟩)
    exact Or.inl (isSome_of_mem_getD hmem)
  | ambiguous e he hkind =>
    apply hseen
    exact Or.inr ((mem_ambiguousUids hread hsome).mpr ⟨e, he, hkind⟩)
  | matched frame p hframe hmatch hprotocol =>
    have hmem : p ∈ (t.tshark.tsharkByUid.get? uid).getD ∅ :=
      (mem_tsharkByUid htshark).mpr ⟨frame, hframe, hmatch, hprotocol⟩
    rw [Tables.mem_sessionUids, Dict.mem_keys_iff]
    exact Or.inr (Or.inl (isSome_of_mem_getD hmem))
  | selected ssl p hlast => exact hnamed (by rw [hlast]; rfl)
  | implicit hlast => exact hnamed hlast

/-- **A session is emitted exactly for what is evident.** The right side can be read off the logs,
the flows and the frames. -/
theorem exists_session_iff (hread : readTables logs flows tsharkFrames = .ok t) (uid : String) :
    (∃ s ∈ t.sessions, s.uid = uid) ↔
      ∃ flow, (flowsByUid flows).get? uid = some flow ∧ Evident logs flows tsharkFrames uid flow := by
  obtain ⟨hflows, -, -, -⟩ := readTables_eq_ok.mp hread
  rw [← hflows]
  constructor
  · rintro ⟨s, hs, rfl⟩
    obtain ⟨-, hsession⟩ := Tables.mem_sessions.mp hs
    obtain ⟨flow, hflow, hkept, -⟩ := Tables.sessionFor_eq_some.mp hsession
    exact ⟨flow, hflow, (skips_eq_false_iff hread hflow).mp hkept⟩
  · rintro ⟨flow, hflow, hevident⟩
    have hkept := (skips_eq_false_iff hread hflow).mpr hevident
    refine ⟨t.buildSession uid flow, Tables.mem_sessions.mpr ⟨?_, ?_⟩, rfl⟩
    · exact mem_sessionUids_of_evident hread hflow hevident
    · exact Tables.sessionFor_eq_some.mpr ⟨flow, hflow, hkept, rfl⟩

theorem nodup_session_uids (t : Tables) : (t.sessions.map (·.uid)).Nodup := by
  have hperm : (t.sessions.map (·.uid)).Perm ((t.sessionUids.filterMap t.sessionFor).map (·.uid)) :=
    (List.perm_insertionSort _ _).map _
  rw [hperm.nodup_iff, List.map_filterMap]
  have huids : t.sessionUids.Nodup := Dict.nodup_keys _
  apply huids.filterMap
  intro a a' uid ha ha'
  obtain ⟨s, hs, rfl⟩ := Option.map_eq_some_iff.mp ha
  obtain ⟨s', hs', heq⟩ := Option.map_eq_some_iff.mp ha'
  rw [← Tables.sessionFor_uid hs, ← Tables.sessionFor_uid hs', heq]

theorem events_of_session {s : EmailSession} (hs : s ∈ t.sessions) : s.events = t.eventsOf s.uid := by
  obtain ⟨-, hsession⟩ := Tables.mem_sessions.mp hs
  obtain ⟨flow, -, -, hbuild⟩ := Tables.sessionFor_eq_some.mp hsession
  rw [← hbuild]
  rfl

/-- The merged events of a connection. -/
def Tables.mergedOf (t : Tables) (uid : String) : List ProtocolEvent :=
  (mergeEvents ((t.zeek.zeekByUid.get? uid).getD [])
    ((t.tshark.tsharkEvents.get? uid).getD [])).map (·.event)

/-- The second event is the capability of the first once more. -/
def RepeatsCapability (a b : ProtocolEvent) : Prop :=
  a.kind = .capability ∧ b.kind = .capability ∧ a.text = b.text ∧ a.direction = b.direction

theorem repeatsCapability_iff {a b : ProtocolEvent} :
    RepeatsCapability a b ↔ isDuplicateCapability (some a) b = true := by
  simp only [RepeatsCapability, isDuplicateCapability, Bool.and_eq_true, beq_iff_eq]
  tauto

theorem eventsOf_bounded (t : Tables) (uid : String) :
    (t.eventsOf uid).length ≤ maxEventsPerSession ∧
      ((t.eventsOf uid).IsChain fun a b => ¬RepeatsCapability a b) ∧
      (t.eventsOf uid).Sublist (t.mergedOf uid) := by
  unfold Tables.eventsOf Tables.mergedOf
  rw [boundEvents_none]
  refine ⟨List.length_take_le _ _, ?_, (List.take_sublist _ _).trans (collapse_sublist _ _)⟩
  apply List.IsChain.take
  refine (collapse_isChain _ none).2.imp ?_
  intro a b hnew hrepeats
  rw [repeatsCapability_iff.mp hrepeats] at hnew
  exact absurd hnew (by simp)

/-- **What a run emits**: a session for each evident connection and for no other, one for each, with
events that are the merged ones in their order, at most 256 and none that repeats a capability. -/
theorem sessions_emitted {out : List EmailSession}
    (h : normalizeSessions logs flows tsharkFrames = .ok out) :
    (out.map (·.uid)).Nodup ∧
      (∀ uid, (∃ s ∈ out, s.uid = uid) ↔ ∃ flow, (flowsByUid flows).get? uid = some flow ∧
        Evident logs flows tsharkFrames uid flow) ∧
      ∃ t, readTables logs flows tsharkFrames = .ok t ∧ ∀ s ∈ out,
        s.events.length ≤ maxEventsPerSession ∧
          (s.events.IsChain fun a b => ¬RepeatsCapability a b) ∧
          s.events.Sublist (t.mergedOf s.uid) := by
  obtain ⟨t, hread, rfl⟩ := normalizeSessions_eq_ok.mp h
  refine ⟨nodup_session_uids t, exists_session_iff hread, t, hread, ?_⟩
  intro s hs
  rw [events_of_session hs]
  exact eventsOf_bounded t s.uid

/-- Mail rows of two connections, and TLS on a third. -/
def threeSourceLogs : Record :=
  [("sm_email.log", .list [replyRow "220", helloRow]),
   ("ssl.log", .list [.dict [("uid", .str "C3")]])]

def threeFlows : List Flow := twoFlows ++ [Flow.toPort "C3" 993]

/-- A frame of a command to the first connection. -/
def noopFrame : Val :=
  .dict [("frame.number", .int 7), ("frame.time_epoch", .int 9), ("ip.src", .str "10.0.0.1"),
    ("tcp.srcport", .int 50000), ("ip.dst", .str "10.0.0.2"), ("tcp.dstport", .int 25),
    ("smtp.req.command", .str "NOOP")]

/-- Each connection has the session its rows are evidence of, and the frame's event is in its own. -/
theorem greeting_emitted :
    ∃ out, normalizeSessions threeSourceLogs threeFlows (some [noopFrame]) = .ok out ∧
      out.map (fun s => (s.uid, s.events.length)) = [("C3", 0), ("C1", 2), ("C2", 1)] ∧
      (∀ uid, (∃ s ∈ out, s.uid = uid) ↔
        ∃ flow, (flowsByUid threeFlows).get? uid = some flow ∧
          Evident threeSourceLogs threeFlows (some [noopFrame]) uid flow) ∧
      ∃ t, readTables threeSourceLogs threeFlows (some [noopFrame]) = .ok t ∧ ∀ s ∈ out,
        s.events.length ≤ maxEventsPerSession ∧
          (s.events.IsChain fun a b => ¬RepeatsCapability a b) ∧
          s.events.Sublist (t.mergedOf s.uid) := by
  have hok : (normalizeSessions threeSourceLogs threeFlows (some [noopFrame])).isOk = true := by
    decide +kernel
  have hrun := Fallible.eq_ok_of_isOk [] hok
  exact ⟨_, hrun, by decide +kernel, (sessions_emitted hrun).2⟩

/-! ## Past the limit -/

/-- A greeting after as many rows of no connection as the normalizer reads. -/
def lateLogs : Record :=
  [("sm_email.log", .list (List.replicate maxRecords (.dict []) ++ [helloRow]))]

theorem foldlM_replicate_of_idle {σ α ε : Type} {step : σ → α → Except ε σ} {a : α} {s : σ}
    (h : step s a = .ok s) (n : Nat) : (List.replicate n a).foldlM step s = .ok s := by
  induction n with
  | zero => rfl
  | succ n ih =>
    rw [List.replicate_succ, List.foldlM_cons, h]
    exact ih

theorem boundedRecords_late :
    boundedRecords (getLog lateLogs "sm_email.log") maxRecords = List.replicate maxRecords [] := by
  have hlog : getLog lateLogs "sm_email.log" =
      .list (List.replicate maxRecords (.dict []) ++ [helloRow]) := rfl
  rw [hlog, boundedRecords, List.take_left' List.length_replicate]
  exact List.filterMap_replicate_of_some rfl

/-- What the greeting makes. -/
def helloEvent : RowEvent :=
  ({ direction := .orig, kind := .request, command := some "EHLO", source := some .zeek },
    some .smtp)

/-- A confirming row that is past the limit makes no session. -/
theorem late_greeting_unseen :
    (∃ row e, .dict row ∈ List.replicate maxRecords (.dict []) ++ [helloRow] ∧
      rowIsOf "C1" row = true ∧ rowEvent row = some e ∧ e.1.kind = .request ∧ Confirms e .smtp) ∧
      (∃ flow ∈ twoFlows, flow.uid = "C1") ∧
      normalizeSessions lateLogs twoFlows none = .ok [] := by
  refine ⟨⟨_, helloEvent, List.mem_append_right _ (List.mem_singleton_self _),
    by decide +kernel, by decide +kernel, rfl, by decide, rfl⟩, by decide, ?_⟩
  have hzeek : zeekPass lateLogs (flowsByUid twoFlows) = .ok {} := by
    unfold zeekPass
    rw [boundedRecords_late]
    exact foldlM_replicate_of_idle rfl _
  have hssl : sslFacts lateLogs = ∅ := rfl
  let t : Tables :=
    { flowByUid := flowsByUid twoFlows, sslByUid := ∅, zeek := {}
      tshark := { seenUids := [], order := 0 } }
  rw [normalizeSessions_eq_ok]
  exact ⟨t, readTables_eq_ok.mpr ⟨rfl, hssl.symm, hzeek, rfl⟩, by decide +kernel⟩

end Sessions
end Normalize
end SecureMail
