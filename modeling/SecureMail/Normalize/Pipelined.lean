import SecureMail.Normalize.Merge
import SecureMail.Normalize.Passes
import SecureMail.Normalize.SessionTables
import SecureMail.Starttls.Acceptance

/-!
# Pipelined commands

TShark prints every occurrence of a field in one frame, joined by commas, and two readers of its
output take the value apart again: the test for a ClientHello splits it, and so does the reader of
the handshake types. `_tshark_event` does not. A client that pipelines `LOGIN` and `NOOP` becomes
one request for the command `LOGIN,NOOP`, which no command set contains.

So a command survives iff something else carries it: a request row Zeek wrote for the connection, or
another frame of it in which the command is alone. `CarriedElsewhere` is that condition, and below
the cap on events a session has kept every command exactly when it holds.

A credential that is kept is not yet one that is reported. The client may send `LOGIN` and `NOOP` in
one frame, have the upgrade accepted, and log in again by a frame of its own: the only request for
`LOGIN` then stands after the acceptance, although the command was sent in clear before it. When a
command was sent is a matter of the frame's own place (`PlaceOf`), its time and its turn, and not of
the requests that happen to carry it; and `CarriedInTime` asks for a carrier that stands before the
acceptance too.
-/

namespace SecureMail
namespace Normalize
namespace Sessions

open Py (Val Dict upper)
open Starttls (UpgradeMachine AcceptedBefore)

/-! ## What is sent and what carries it -/

/-- The occurrences of a field, as TShark joins them. -/
def occurrences (field : Val) : List String :=
  match field with
  | .str joined => Py.splitOnChar ',' joined
  | _ => []

/-- The frame belongs to the connection, is classified as the protocol and holds the command. A
command is in a frame if it is one of the parts of the field, so a pipelined frame holds several. -/
def SentIn (flows : List Flow) (uid : String) (protocol : MailProtocol) (command : String)
    (frame : Record) : Prop :=
  matchFrameUid frame flows = .ok (some uid) ∧ tsharkProtocol frame = some protocol ∧
    command ∈ occurrences (frame.get (requestField protocol)) ∧ command ≠ "" ∧
    command.length ≤ maxCommandLen

/-- Some frame of the connection, classified as the protocol, holds the command. -/
def Sends (flows : List Flow) (frames : List Val) (uid : String) (protocol : MailProtocol)
    (command : String) : Prop :=
  ∃ frame, .dict frame ∈ frames ∧ SentIn flows uid protocol command frame

/-- Zeek wrote a request row with the command. It is the other carrier that a command can have, and
the frames have no part in it. -/
def LoggedByZeek (logs : Record) (uid command : String) : Prop :=
  ∃ row ∈ boundedRecords (getLog logs "sm_email.log") maxRecords,
    asStr (row.get "uid") maxUidLen = some uid ∧
      kindFromName (asStr (row.get "event_type") 32) = some .request ∧ rowCommand row = some command

/-- The request field of some frame that is read reads as the command. -/
def SentWhole (flows : List Flow) (frames : List Val) (uid command : String) : Prop :=
  ∃ frame ∈ boundedRecords (.list frames) maxFrames, matchFrameUid frame flows = .ok (some uid) ∧
    ∃ protocol request, tsharkProtocol frame = some protocol ∧
      frameStr frame (requestField protocol) = some request ∧ tsharkCommand protocol request = command

/-- The same, with no other command in the field. -/
def SentAlone (flows : List Flow) (frames : List Val) (uid command : String) : Prop :=
  ∃ frame ∈ boundedRecords (.list frames) maxFrames, matchFrameUid frame flows = .ok (some uid) ∧
    ∃ protocol request, tsharkProtocol frame = some protocol ∧
      frameStr frame (requestField protocol) = some request ∧ ',' ∉ request.toList ∧
      tsharkCommand protocol request = command

/-- Every command the connection sends has a carrier of its own. The condition is on the logs and
frames and not on the session: which requests Zeek logged, and which frames hold one command. -/
def CarriedElsewhere (logs : Record) (flows : List Flow) (frames : List Val) (uid : String) : Prop :=
  ∀ protocol command, Sends flows frames uid protocol command →
    LoggedByZeek logs uid (tsharkCommand protocol command) ∨
      SentAlone flows frames uid (tsharkCommand protocol command)

/-- The session requests the command. -/
def Requests (s : EmailSession) (command : String) : Prop :=
  ∃ e ∈ s.events, e.kind = .request ∧ e.command = some command

/-! ## Before the acceptance -/

/-- The events of a connection, in a table of them. -/
def eventsIn (table : Dict String (List Stamped)) (uid : String) : List Stamped :=
  (table.get? uid).getD []

/-- A place among the events of a connection. -/
structure Place where
  ts : Py.Float
  order : Nat

/-- The event stands before the place, as `(ts, order)` sorts. -/
def Stamped.isBefore (y : Stamped) (place : Place) : Bool :=
  if y.ts.eq place.ts then decide (y.order < place.order) else y.ts.lt place.ts

/-- The place of a frame: its time, and its turn among the events that are read. A frame that was read
has the turn of its own event, and one past the limit on frames comes after all of them. A frame
without a time stands where its turn is, as in the source. -/
def PlaceOf (t : Tables) (uid : String) (frame : Record) (place : Place) : Prop :=
  (∃ ts, asFloat (frame.get "frame.time_epoch") = .ok ts ∧
      place.ts = ts.getD (.ofNat place.order)) ∧
    ((∃ x ∈ eventsIn t.tshark.tsharkEvents uid, x.ts = place.ts ∧ x.order = place.order ∧
        tsharkEvent frame .imap = .ok (some x.event)) ∨
      place.order = t.tshark.order)

/-- The items of a merged list that are no repeated capabilities: those a session below the cap has
its events from. -/
def keptItems (last : Option ProtocolEvent) : List Stamped → List Stamped
  | [] => []
  | item :: rest =>
      if isDuplicateCapability last item.event then keptItems last rest
      else item :: keptItems (some item.event) rest

/-- The merged items of a connection. -/
def Tables.itemsOf (t : Tables) (uid : String) : List Stamped :=
  keptItems none (mergeEvents (eventsIn t.zeek.zeekByUid uid) (eventsIn t.tshark.tsharkEvents uid))

/-- No event that makes the upgrade accepted stands before the place. It is asked of the place of a
frame, so that a later request for the same command cannot stand in for an earlier one. -/
def PrecedesAcceptance (items : List Stamped) (place : Place) : Prop :=
  ∀ (j : Nat) (y : Stamped), items[j]? = some y →
    Starttls.AcceptedAt Starttls.Imap.machine (items.map (·.event)) j → y.isBefore place = false

/-- A frame of the connection sends a credential command before the upgrade is accepted. -/
def SendsCredential (t : Tables) (flows : List Flow) (frames : List Val) (uid : String) : Prop :=
  ∃ frame command place, .dict frame ∈ frames ∧ SentIn flows uid .imap command frame ∧
    upper command ∈ Starttls.Imap.machine.credentialCommands ∧ PlaceOf t uid frame place ∧
    PrecedesAcceptance (t.itemsOf uid) place

/-- A request for a credential command of its own stands before the acceptance; or, where no
ClientHello is known, plaintext stands after it, which is a violation anyway. -/
def CredentialInTime (t : Tables) (uid : String) : Prop :=
  (∃ (i : Nat) (y : Stamped), (t.itemsOf uid)[i]? = some y ∧
      Starttls.Imap.machine.isCredentialRequest y.event = true ∧
      ¬AcceptedBefore Starttls.Imap.machine ((t.itemsOf uid).map (·.event)) i) ∨
    clientHelloObserved (t.sslByUid.get? uid) (t.helloOf uid) = false ∧
      ∃ (i : Nat) (y : Stamped), (t.itemsOf uid)[i]? = some y ∧
        AcceptedBefore Starttls.Imap.machine ((t.itemsOf uid).map (·.event)) i ∧
        Starttls.Imap.machine.isInjection y.event = true

/-- What a connection that sends a credential command before the acceptance needs, to be reported.
It is asked only of a connection that sends one so early; after the acceptance a credential is in
order or not for other reasons. -/
def CarriedInTime (logs : Record) (flows : List Flow) (frames : List Val) (uid : String) : Prop :=
  ∀ t, readTables logs flows (some frames) = .ok t → SendsCredential t flows frames uid →
    CredentialInTime t uid

/-- What a session owes the commands of its frames: each is among its requests, and a credential
command that a frame of an IMAP session sends before the acceptance is reported. -/
structure NoCommandLost (logs : Record) (flows : List Flow) (frames : List Val) (s : EmailSession) :
    Prop where
  kept : ∀ protocol command, Sends flows frames s.uid protocol command →
    Requests s (tsharkCommand protocol command)
  reported : s.protocol = some .imap → ∀ t, readTables logs flows (some frames) = .ok t →
    SendsCredential t flows frames s.uid →
    ∃ verdict, s.explicitUpgrade = some verdict ∧
      (verdict.state = some .plaintextFallback ∨ verdict.state = some .violation)

/-! ## The readers settle what they keep -/

theorem asStr_ne_empty {value : Val} {maxLen : Nat} {s : String} (hmax : 0 < maxLen)
    (h : asStr value maxLen = some s) : s ≠ "" := by
  unfold asStr at h
  cases value with
  | str t =>
    dsimp only at h
    split at h
    · exact absurd h (by simp)
    · rename_i hok
      obtain rfl := Option.some.inj h
      exact fun hempty => hok (Or.inl hempty)
  | list items =>
    dsimp only at h
    split at h
    · exact absurd h (by simp)
    · rename_i hparts
      obtain rfl := Option.some.inj h
      have hjoined := Py.join_ne_empty "," hparts fun part hpart => by
        obtain ⟨item, _, hitem⟩ := List.mem_filterMap.mp hpart
        cases item with
        | str t =>
          by_cases ht : t = ""
          · simp [ht] at hitem
          · simp only [ht, if_false] at hitem
            exact Option.some.inj hitem ▸ ht
        | _ => exact absurd hitem (by simp)
      split
      · exact Py.takeChars_ne_empty hmax hjoined
      · exact hjoined
  | _ => exact absurd h (by simp)

theorem rowCommand_settled {row : Record} {c : String} (h : rowCommand row = some c) :
    c ≠ "" ∧ upper c = c := by
  obtain ⟨raw, hraw, rfl⟩ := Option.map_eq_some_iff.mp h
  exact ⟨Py.upper_ne_empty (asStr_ne_empty (by decide) hraw), Py.upper_upper raw⟩

theorem tsharkCommand_settled (protocol : MailProtocol) {request : String} (h : request ≠ "") :
    tsharkCommand protocol request ≠ "" ∧
      upper (tsharkCommand protocol request) = tsharkCommand protocol request := by
  unfold tsharkCommand
  split
  · decide
  · exact ⟨Py.upper_ne_empty h, Py.upper_upper request⟩

theorem comma_mem_tsharkCommand {protocol : MailProtocol} {request : String} :
    ',' ∈ (tsharkCommand protocol request).toList ↔ ',' ∈ request.toList := by
  unfold tsharkCommand
  split
  · rename_i hstar
    rw [← Py.comma_mem_upper (s := request), hstar.2]
    decide
  · exact Py.comma_mem_upper

/-! ## What the passes collect -/

theorem eventFromEmailRow_eq_ok {row : Record} {made : Option ProtocolEvent}
    (h : eventFromEmailRow row = .ok made) :
    made.map (·.kind) = kindFromName (asStr (row.get "event_type") 32) ∧
      ∀ e, made = some e → e.command = rowCommand row := by
  unfold eventFromEmailRow at h
  cases hkind : kindFromName (asStr (row.get "event_type") 32) with
  | none =>
    rw [hkind] at h
    obtain rfl := Fallible.pure_eq_ok.mp h
    exact ⟨rfl, fun e he => absurd he (by simp)⟩
  | some kind =>
    rw [hkind] at h
    obtain ⟨code, _, h⟩ := Fallible.bind_eq_ok.mp h
    obtain rfl := Fallible.pure_eq_ok.mp h
    exact ⟨rfl, fun e he => by rw [← Option.some.inj he]⟩

/-- The frame's event is the request its field reads as, or no request at all. -/
theorem tsharkEvent_eq_ok {frame : Record} {protocol : MailProtocol} {made : Option ProtocolEvent}
    (h : tsharkEvent frame protocol = .ok made) :
    match frameStr frame (requestField protocol) with
    | some request => ∃ e, made = some e ∧ e.kind = .request ∧
        e.command = some (tsharkCommand protocol request)
    | none => ∀ e, made = some e → e.kind = .reply ∧ e.command = none := by
  unfold tsharkEvent at h
  obtain ⟨number, _, h⟩ := Fallible.bind_eq_ok.mp h
  cases hrequest : frameStr frame (requestField protocol) with
  | some request =>
    rw [hrequest] at h
    obtain rfl := Fallible.pure_eq_ok.mp h
    exact ⟨_, rfl, rfl, rfl⟩
  | none =>
    rw [hrequest] at h
    intro e he
    cases protocol with
    | smtp =>
      obtain ⟨code, _, h⟩ := Fallible.bind_eq_ok.mp h
      cases code with
      | none => exact absurd (Fallible.pure_eq_ok.mp h).symm (by simp [he])
      | some code =>
        rw [← Fallible.pure_eq_ok.mp h] at he
        rw [← Option.some.inj he]
        exact ⟨rfl, rfl⟩
    | imap | pop3 =>
      dsimp only at h
      split at h
      · rw [← Fallible.pure_eq_ok.mp h] at he
        rw [← Option.some.inj he]
        exact ⟨rfl, rfl⟩
      · exact absurd (Fallible.pure_eq_ok.mp h).symm (by simp [he])

theorem eventsIn_update (table : Dict String (List Stamped)) (uid : String) (stamped : Stamped) :
    eventsIn (table.update stamped.uid [] (· ++ [stamped])) uid =
      if uid = stamped.uid then eventsIn table uid ++ [stamped] else eventsIn table uid := by
  unfold eventsIn Dict.update
  rw [Dict.get?_set]
  split
  · rename_i huid
    rw [huid, Option.getD_some]
  · rfl

theorem mem_requests_append {l : List Stamped} {stamped : Stamped} {c : String} :
    c ∈ requests (l ++ [stamped]) ↔ c ∈ requests l ∨ stamped.request = some c := by
  simp only [requests, List.filterMap_append, List.mem_append, List.mem_filterMap,
    List.mem_singleton, exists_eq_left]

theorem settled_singleton {stamped : Stamped} :
    Settled [stamped] ↔ ∀ c, stamped.event.command = some c → c ≠ "" ∧ upper c = c := by
  simp [Settled, commands, List.mem_filterMap]

section Zeek

variable {logs : Record} {flowByUid : Dict String Flow} {zeek : ZeekPass}

/-- The requests Zeek's pass holds for a connection are the request rows of its log. -/
theorem mem_requests_zeekPass (h : zeekPass logs flowByUid = .ok zeek) {uid command : String}
    (hflow : (flowByUid.get? uid).isSome) :
    command ∈ requests (eventsIn zeek.zeekByUid uid) ↔ LoggedByZeek logs uid command := by
  have hcollect := Fallible.foldlM_collect
    (P := fun s : ZeekPass => command ∈ requests (eventsIn s.zeekByUid uid))
    (Q := fun row => asStr (row.get "uid") maxUidLen = some uid ∧
      kindFromName (asStr (row.get "event_type") 32) = some .request ∧
        rowCommand row = some command) ?_ h
  · rw [hcollect]
    exact ⟨fun h => h.elim (fun h => absurd h (by simp [eventsIn, requests])) id, Or.inr⟩
  · intro s s' row hstep
    cases zeekStep_cases hstep with
    | ignored hwhy =>
      refine ⟨Or.inl, fun hadds => hadds.elim id ?_⟩
      rintro ⟨huid, hkind, _⟩
      -- A request row of a known connection makes an event, and a request is never a duplicate.
      rcases hwhy uid huid hflow with hnone | ⟨event, hevent, hdup⟩
      · have hmade := (eventFromEmailRow_eq_ok hnone).1
        rw [hkind] at hmade
        exact absurd hmade (by simp)
      · have hmade := (eventFromEmailRow_eq_ok hevent).1
        rw [hkind, Option.map_some] at hmade
        rw [isDuplicateCapability_request (Option.some.inj hmade)] at hdup
        exact absurd hdup (by simp)
    | recorded stamped huid hknown hevent hnew =>
      obtain ⟨hkind, hcommand⟩ := eventFromEmailRow_eq_ok hevent
      rw [ZeekPass.record_zeekByUid, eventsIn_update, huid, ← hkind,
        ← hcommand stamped.event rfl]
      split
      · rename_i hsame
        rw [mem_requests_append, Stamped.request]
        simp [hsame]
      · rename_i hother
        have hne : stamped.uid ≠ uid := fun heq => hother heq.symm
        simp [hne]

theorem settled_zeekPass (h : zeekPass logs flowByUid = .ok zeek) (uid : String) :
    Settled (eventsIn zeek.zeekByUid uid) := by
  refine Fallible.foldlM_invariant h (P := fun s => Settled (eventsIn s.zeekByUid uid)) ?_ ?_
  · intro c hc
    exact absurd hc (by simp [eventsIn, commands])
  · intro s s' row _ hstep hs
    cases zeekStep_cases hstep with
    | ignored => exact hs
    | recorded stamped _ _ hevent _ =>
      rw [ZeekPass.record_zeekByUid, eventsIn_update]
      split
      · refine settled_append.mpr ⟨hs, settled_singleton.mpr fun c hc => ?_⟩
        rw [(eventFromEmailRow_eq_ok hevent).2 stamped.event rfl] at hc
        exact rowCommand_settled hc
      · exact hs

end Zeek

section Tshark

variable {flows : List Flow} {zeek : ZeekPass} {frames : List Val} {tshark : TsharkPass}

/-- The requests the frame pass holds for a connection are the request fields of its frames, each
read as one command. -/
theorem mem_requests_tsharkPass (h : tsharkPass flows zeek (some frames) = .ok tshark)
    {uid command : String} :
    command ∈ requests (eventsIn tshark.tsharkEvents uid) ↔ SentWhole flows frames uid command := by
  have hcollect := Fallible.foldlM_collect
    (P := fun s : TsharkPass => command ∈ requests (eventsIn s.tsharkEvents uid))
    (Q := fun frame => matchFrameUid frame flows = .ok (some uid) ∧
      ∃ protocol request, tsharkProtocol frame = some protocol ∧
        frameStr frame (requestField protocol) = some request ∧
        tsharkCommand protocol request = command) ?_ h
  · rw [hcollect]
    exact ⟨fun h => h.elim (fun h => absurd h (by simp [eventsIn, requests])) id, Or.inr⟩
  · intro s s' frame hstep
    cases tsharkStep_cases hstep with
    | unmatched hmatch => simp [hmatch]
    | silent uid' hello hmatch hprotocol => simp [hprotocol]
    | noted uid' protocol hello hmatch hprotocol hevent =>
      -- No event was made, so there was no request field to read.
      have hmade := tsharkEvent_eq_ok hevent
      cases hrequest : frameStr frame (requestField protocol) with
      | none => simp [hprotocol, hrequest]
      | some request =>
        rw [hrequest] at hmade
        obtain ⟨e, he, _⟩ := hmade
        exact absurd he (by simp)
    | event stamped protocol hello hmatch hprotocol hevent =>
      have hmade := tsharkEvent_eq_ok hevent
      rw [eventsIn_update]
      cases hrequest : frameStr frame (requestField protocol) with
      | none =>
        -- The event is a reply and adds no request.
        rw [hrequest] at hmade
        have hreply := (hmade stamped.event rfl).1
        have hnone : stamped.request = none := by simp [Stamped.request, hreply]
        split
        · rw [mem_requests_append, hnone]
          simp [hprotocol, hrequest]
        · simp [hprotocol, hrequest]
      | some request =>
        rw [hrequest] at hmade
        obtain ⟨e, he, hkind, hcommand⟩ := hmade
        obtain rfl := Option.some.inj he
        have hsome : stamped.request = some (tsharkCommand protocol request) := by
          rw [Stamped.request, if_pos hkind, hcommand]
        split
        · rename_i hsame
          rw [mem_requests_append, hsome]
          simp [hprotocol, hrequest, hmatch, hsame]
        · rename_i hother
          have hne : stamped.uid ≠ uid := fun heq => hother heq.symm
          simp [hmatch, hne]

theorem settled_tsharkPass (h : tsharkPass flows zeek (some frames) = .ok tshark) (uid : String) :
    Settled (eventsIn tshark.tsharkEvents uid) := by
  refine Fallible.foldlM_invariant h (P := fun s => Settled (eventsIn s.tsharkEvents uid)) ?_ ?_
  · intro c hc
    exact absurd hc (by simp [eventsIn, commands])
  · intro s s' frame _ hstep hs
    cases tsharkStep_cases hstep with
    | unmatched => exact hs
    | silent => exact hs
    | noted => exact hs
    | event stamped protocol hello hmatch hprotocol hevent =>
      rw [eventsIn_update]
      split
      · refine settled_append.mpr ⟨hs, settled_singleton.mpr fun c hc => ?_⟩
        have hmade := tsharkEvent_eq_ok hevent
        cases hrequest : frameStr frame (requestField protocol) with
        | none =>
          rw [hrequest] at hmade
          rw [(hmade stamped.event rfl).2] at hc
          exact absurd hc (by simp)
        | some request =>
          rw [hrequest] at hmade
          obtain ⟨e, he, _, hcommand⟩ := hmade
          rw [← Option.some.inj he] at hcommand
          obtain rfl := Option.some.inj (hcommand.symm.trans hc)
          exact tsharkCommand_settled protocol (asStr_ne_empty (by decide) hrequest)
      · exact hs

end Tshark

/-! ## One session -/

section Session

variable {logs : Record} {flows : List Flow} {frames : List Val} {t : Tables} {s : EmailSession}

/-- Below the cap a session requests what a Zeek row or a frame's whole field says. -/
theorem requests_iff (hread : readTables logs flows (some frames) = .ok t) (hs : s ∈ t.sessions)
    (hcap : s.events.length < maxEventsPerSession) {command : String} :
    Requests s command ↔
      LoggedByZeek logs s.uid command ∨ SentWhole flows frames s.uid command := by
  obtain ⟨hflows, _, hzeek, htshark⟩ := readTables_eq_ok.mp hread
  obtain ⟨flow, hflow, _, hbuild⟩ := Tables.sessionFor_eq_some.mp (Tables.mem_sessions.mp hs).2
  have hknown : ((flowsByUid flows).get? s.uid).isSome := by rw [← hflows, hflow]; rfl
  have hevents : s.events = boundEvents none [] (mergeEvents (eventsIn t.zeek.zeekByUid s.uid)
      (eventsIn t.tshark.tsharkEvents s.uid)) := by
    rw [← hbuild]
    rfl
  rw [hevents] at hcap
  -- From the session back through the bound and the merge to the two passes.
  rw [← mem_requests_zeekPass hzeek hknown, ← mem_requests_tsharkPass htshark,
    ← mem_requests_mergeEvents (settled_zeekPass hzeek s.uid) (settled_tsharkPass htshark s.uid),
    mem_requests, Requests, hevents]
  constructor
  · rintro ⟨e, he, hkind, hcommand⟩
    rcases (mem_boundEvents hkind hcap).mp he with hnil | ⟨item, hitem, rfl⟩
    · exact absurd hnil (by simp)
    · exact ⟨item, hitem, hkind, hcommand⟩
  · rintro ⟨item, hitem, hkind, hcommand⟩
    exact ⟨item.event, (mem_boundEvents hkind hcap).mpr (Or.inr ⟨item, hitem, rfl⟩), hkind,
      hcommand⟩

/-- A command that is one occurrence of a field holds no comma, so a field that reads as it is that
command alone. -/
theorem sentAlone_of_sentWhole {uid command : String} {protocol : MailProtocol}
    (hsends : Sends flows frames uid protocol command)
    (hwhole : SentWhole flows frames uid (tsharkCommand protocol command)) :
    SentAlone flows frames uid (tsharkCommand protocol command) := by
  obtain ⟨sent, _, _, _, hoccurs, _⟩ := hsends
  have hclear : ',' ∉ command.toList := by
    unfold occurrences at hoccurs
    split at hoccurs
    · exact Py.sep_notMem_splitOnChar hoccurs
    · exact absurd hoccurs (by simp)
  obtain ⟨frame, hframe, hmatch, p, request, hp, hrequest, hreads⟩ := hwhole
  refine ⟨frame, hframe, hmatch, p, request, hp, hrequest, ?_, hreads⟩
  intro hcomma
  have hread : ',' ∈ (tsharkCommand p request).toList := comma_mem_tsharkCommand.mpr hcomma
  rw [hreads, comma_mem_tsharkCommand] at hread
  exact hclear hread

/-- Below the cap the events of a session are those of the items that are kept. -/
theorem boundEvents_eq_keptItems :
    ∀ {items : List Stamped} {last : Option ProtocolEvent} {bounded : List ProtocolEvent},
      (boundEvents last bounded items).length < maxEventsPerSession →
        boundEvents last bounded items = bounded ++ (keptItems last items).map (·.event)
  | [], last, bounded, _ => by simp [boundEvents, keptItems]
  | item :: rest, last, bounded, h => by
    unfold boundEvents keptItems at *
    split at h
    · rename_i hdup
      rw [if_pos hdup, if_pos hdup]
      exact boundEvents_eq_keptItems h
    · rename_i hnew
      rw [if_neg hnew, if_neg hnew]
      split at h
      · omega
      · rename_i hroom
        rw [if_neg hroom, boundEvents_eq_keptItems h, List.map_cons, List.append_assoc,
          List.singleton_append]

/-- An IMAP verdict is one of the two exactly if a credential request stands before the acceptance, or
plaintext after it with no ClientHello. -/
theorem imap_reports_iff (hs : s ∈ t.sessions) (himap : s.protocol = some .imap)
    (hcap : s.events.length < maxEventsPerSession) :
    (∃ verdict, s.explicitUpgrade = some verdict ∧
      (verdict.state = some .plaintextFallback ∨ verdict.state = some .violation)) ↔
      CredentialInTime t s.uid := by
  obtain ⟨flow, -, -, hbuild⟩ := Tables.sessionFor_eq_some.mp (Tables.mem_sessions.mp hs).2
  have hbound : s.events = boundEvents none [] (mergeEvents (eventsIn t.zeek.zeekByUid s.uid)
      (eventsIn t.tshark.tsharkEvents s.uid)) := by
    rw [← hbuild]
    rfl
  have hevents : s.events = (t.itemsOf s.uid).map (·.event) := by
    rw [hbound] at hcap ⊢
    rw [boundEvents_eq_keptItems hcap]
    rfl
  have hverdict : s.explicitUpgrade = some (explicitUpgradeOf s.protocol s.events
      (clientHelloObserved (t.sslByUid.get? s.uid) (t.helloOf s.uid)) (t.helloOf s.uid)) := by
    rw [← hbuild]
    rfl
  rw [himap, hevents] at hverdict
  have hitem : ∀ {i : Nat} {e : ProtocolEvent}, ((t.itemsOf s.uid).map (·.event))[i]? = some e ↔
      ∃ y, (t.itemsOf s.uid)[i]? = some y ∧ y.event = e := by
    intro i e
    rw [List.getElem?_map, Option.map_eq_some_iff]
  have hfallback := @UpgradeMachine.plaintextFallback_run Starttls.Imap.machine
    ((t.itemsOf s.uid).map (·.event)) (clientHelloObserved (t.sslByUid.get? s.uid) (t.helloOf s.uid))
  have hviolation := @UpgradeMachine.violation_run Starttls.Imap.machine
    (clientHelloObserved (t.sslByUid.get? s.uid) (t.helloOf s.uid))
    ((t.itemsOf s.uid).map (·.event))
  have hstate : ∀ verdict, s.explicitUpgrade = some verdict → verdict.state =
      UpgradeMachine.terminal (clientHelloObserved (t.sslByUid.get? s.uid) (t.helloOf s.uid))
        (Starttls.Imap.machine.run (clientHelloObserved (t.sslByUid.get? s.uid) (t.helloOf s.uid))
          ((t.itemsOf s.uid).map (·.event))) := by
    intro verdict h
    obtain rfl := Option.some.inj (h.symm.trans hverdict)
    exact UpgradeMachine.upgrade_state _
  constructor
  · rintro ⟨verdict, h, hreports⟩
    rw [hstate verdict h] at hreports
    cases hflag : (Starttls.Imap.machine.run (clientHelloObserved (t.sslByUid.get? s.uid)
        (t.helloOf s.uid)) ((t.itemsOf s.uid).map (·.event))).plaintextFallback with
    | true =>
      obtain ⟨i, e, he, hcredential, hbefore⟩ := hfallback.mp hflag
      obtain ⟨y, hy, rfl⟩ := hitem.mp he
      exact Or.inl ⟨i, y, hy, hcredential, hbefore⟩
    | false =>
      have hraised : (Starttls.Imap.machine.run (clientHelloObserved (t.sslByUid.get? s.uid)
          (t.helloOf s.uid)) ((t.itemsOf s.uid).map (·.event))).violation = true := by
        by_contra hno
        unfold UpgradeMachine.terminal at hreports
        rw [Bool.not_eq_true] at hno
        rw [hno, hflag] at hreports
        revert hreports
        simp only [Bool.false_eq_true, if_false]
        split_ifs <;> simp
      obtain ⟨hhello, i, e, he, haccepted, hinjection⟩ := hviolation.mp hraised
      obtain ⟨y, hy, rfl⟩ := hitem.mp he
      exact Or.inr ⟨hhello, i, y, hy, haccepted, hinjection⟩
  · intro h
    refine ⟨_, hverdict, ?_⟩
    rw [hstate _ hverdict, UpgradeMachine.terminal]
    rcases h with ⟨i, y, hy, hcredential, hbefore⟩ | ⟨hhello, i, y, hy, haccepted, hinjection⟩
    · rw [hfallback.mpr ⟨i, y.event, hitem.mpr ⟨y, hy, rfl⟩, hcredential, hbefore⟩]
      split <;> simp
    · rw [hviolation.mpr ⟨hhello, i, y.event, hitem.mpr ⟨y, hy, rfl⟩, haccepted, hinjection⟩]
      simp

theorem noCommandLost_iff (hread : readTables logs flows (some frames) = .ok t)
    (hs : s ∈ t.sessions) (hcap : s.events.length < maxEventsPerSession) :
    NoCommandLost logs flows frames s ↔ CarriedElsewhere logs flows frames s.uid ∧
      (s.protocol = some .imap → CarriedInTime logs flows frames s.uid) := by
  have hsame : ∀ {t'}, readTables logs flows (some frames) = .ok t' → t' = t := fun h =>
    Except.ok.inj (h.symm.trans hread)
  constructor
  · intro h
    constructor
    · intro protocol command hsends
      rcases (requests_iff hread hs hcap).mp (h.kept protocol command hsends) with hzeek | hwhole
      · exact Or.inl hzeek
      · exact Or.inr (sentAlone_of_sentWhole hsends hwhole)
    · intro himap t' hread' hsends
      obtain rfl := hsame hread'
      exact (imap_reports_iff hs himap hcap).mp (h.reported himap t' hread' hsends)
  · rintro ⟨hcarried, htime⟩
    refine ⟨fun protocol command hsends => ?_, fun himap t' hread' hsends => ?_⟩
    · rw [requests_iff hread hs hcap]
      rcases hcarried protocol command hsends with hzeek | hAlone
      · exact Or.inl hzeek
      · obtain ⟨frame, hframe, hmatch, p, request, hp, hrequest, _, hreads⟩ := hAlone
        exact Or.inr ⟨frame, hframe, hmatch, p, request, hp, hrequest, hreads⟩
    · obtain rfl := hsame hread'
      exact (imap_reports_iff hs himap hcap).mpr (htime himap t' hread' hsends)

end Session

/-! ## Every classified frame has a session -/

theorem flow_of_matchFrameUid {frame : Record} {flows : List Flow} {uid : String}
    (h : matchFrameUid frame flows = .ok (some uid)) : ∃ flow ∈ flows, flow.uid = uid := by
  obtain ⟨endpoints, _, h⟩ := Fallible.bind_eq_ok.mp h
  dsimp only at h
  split at h
  · exact absurd (Fallible.pure_eq_ok.mp h) (by simp)
  · split at h
    · rename_i flow hfilter
      refine ⟨flow, List.mem_of_mem_filter (hfilter ▸ List.mem_singleton_self flow), ?_⟩
      exact Option.some.inj (Fallible.pure_eq_ok.mp h)
    · exact absurd (Fallible.pure_eq_ok.mp h) (by simp)

/-- The protocols the frame pass notes for a connection. -/
theorem mem_tsharkByUid {flows : List Flow} {zeek : ZeekPass} {frames : List Val}
    {tshark : TsharkPass} (h : tsharkPass flows zeek (some frames) = .ok tshark) {uid : String}
    {p : MailProtocol} :
    p ∈ (tshark.tsharkByUid.get? uid).getD ∅ ↔
      ∃ frame ∈ boundedRecords (.list frames) maxFrames,
        matchFrameUid frame flows = .ok (some uid) ∧ tsharkProtocol frame = some p := by
  have hcollect := Fallible.foldlM_collect
    (P := fun s : TsharkPass => p ∈ (s.tsharkByUid.get? uid).getD ∅)
    (Q := fun frame => matchFrameUid frame flows = .ok (some uid) ∧
      tsharkProtocol frame = some p) ?_ h
  · rw [hcollect]
    exact ⟨fun h => h.elim (fun h => absurd h (Finset.notMem_empty p)) id, Or.inr⟩
  · have hupdate : ∀ (table : Dict String (Finset MailProtocol)) (owner : String)
        (q : MailProtocol), p ∈ ((table.update owner ∅ (insert q)).get? uid).getD ∅ ↔
          p ∈ (table.get? uid).getD ∅ ∨ owner = uid ∧ q = p := by
      intro table owner q
      rw [Dict.update, Dict.get?_set]
      split
      · rename_i hsame
        rw [hsame, Option.getD_some, Finset.mem_insert]
        simp [or_comm, eq_comm]
      · rename_i hother
        have hne : owner ≠ uid := fun heq => hother heq.symm
        simp [hne]
    intro s s' frame hstep
    cases tsharkStep_cases hstep with
    | unmatched hmatch => simp [hmatch]
    | silent owner hello hmatch hprotocol => simp [hprotocol]
    | noted owner protocol hello hmatch hprotocol => simp [hupdate, hmatch, hprotocol]
    | event stamped protocol hello hmatch hprotocol => simp [hupdate, hmatch, hprotocol]

theorem session_of_frame {logs : Record} {flows : List Flow} {frames : List Val} {t : Tables}
    (hread : readTables logs flows (some frames) = .ok t) {frame : Record} {uid : String}
    {p : MailProtocol} (hframe : frame ∈ boundedRecords (.list frames) maxFrames)
    (hmatch : matchFrameUid frame flows = .ok (some uid))
    (hprotocol : tsharkProtocol frame = some p) : ∃ s ∈ t.sessions, s.uid = uid := by
  obtain ⟨hflows, _, _, htshark⟩ := readTables_eq_ok.mp hread
  have hmem : p ∈ (t.tshark.tsharkByUid.get? uid).getD ∅ :=
    (mem_tsharkByUid htshark).mpr ⟨frame, hframe, hmatch, hprotocol⟩
  have hnoted : (t.tshark.tsharkByUid.get? uid).isSome := by
    cases hget : t.tshark.tsharkByUid.get? uid with
    | some _ => rfl
    | none =>
      rw [hget] at hmem
      exact absurd hmem (Finset.notMem_empty p)
  -- A noted protocol is evidence, and a connection with evidence is never skipped.
  have hevidence : t.evidence uid ≠ ∅ := by
    intro hempty
    have hp : p ∈ t.evidence uid :=
      Finset.mem_union_left _ (Finset.mem_union_right _ hmem)
    rw [hempty] at hp
    exact absurd hp (Finset.notMem_empty p)
  obtain ⟨flow, hflow⟩ : ∃ flow, t.flowByUid.get? uid = some flow := by
    obtain ⟨flow, hflow, huid⟩ := flow_of_matchFrameUid hmatch
    rw [hflows, ← Option.isSome_iff_exists, flowsByUid, ← Dict.mem_keys_iff, Dict.mem_keys_ofList]
    exact ⟨flow, hflow, huid⟩
  have hkept : t.skips uid flow = false := by
    by_contra hskip
    exact hevidence (Tables.skips_iff.mp (by simpa using hskip)).1
  refine ⟨t.buildSession uid flow, Tables.mem_sessions.mpr ⟨?_, ?_⟩, rfl⟩
  · exact Tables.mem_sessionUids.mpr (Or.inr (Or.inl (Dict.mem_keys_iff.mpr hnoted)))
  · exact Tables.sessionFor_eq_some.mpr ⟨flow, hflow, hkept, rfl⟩

/-! ## Every frame that was read has a place -/

/-- A step on an IMAP frame of the connection adds the event of the frame, at its time. -/
theorem place_of_tsharkStep {zeekByUid : Dict String (List Stamped)} {flows : List Flow}
    {s s' : TsharkPass} {frame : Record} {uid : String}
    (h : tsharkStep zeekByUid flows s frame = .ok s')
    (hmatch : matchFrameUid frame flows = .ok (some uid))
    (himap : tsharkProtocol frame = some .imap) :
    (∃ x ∈ eventsIn s'.tsharkEvents uid, tsharkEvent frame .imap = .ok (some x.event) ∧
      ∃ ts, asFloat (frame.get "frame.time_epoch") = .ok ts ∧ x.ts = ts.getD (.ofNat x.order)) ∨
    tsharkEvent frame .imap = .ok none := by
  unfold tsharkStep at h
  obtain ⟨uid?, hmatched, h⟩ := Fallible.bind_eq_ok.mp h
  obtain rfl : uid? = some uid := Except.ok.inj (hmatched.symm.trans hmatch)
  obtain ⟨noted, hnoted, h⟩ := Fallible.bind_eq_ok.mp h
  unfold noteMail at h
  rw [himap] at h
  obtain ⟨made, hmade, h⟩ := Fallible.bind_eq_ok.mp h
  cases made with
  | none => exact Or.inr hmade
  | some extra =>
    obtain ⟨ts, hts, h⟩ := Fallible.bind_eq_ok.mp h
    obtain rfl := Fallible.pure_eq_ok.mp h
    left
    refine ⟨⟨ts.getD (.ofNat noted.order), noted.order, uid, some .imap, extra, false⟩, ?_, hmade, ts,
      hts, rfl⟩
    unfold eventsIn Dict.update
    rw [Dict.get?_set, if_pos rfl, Option.getD_some]
    exact List.mem_append_right _ (List.mem_singleton_self _)

/-- An IMAP frame makes an event: what classifies it is what the event is made of. -/
theorem tsharkEvent_imap_ne_none {frame : Record} (himap : tsharkProtocol frame = some .imap) :
    tsharkEvent frame .imap ≠ .ok none := by
  intro h
  have hspeaks : speaks frame .imap = true := by
    unfold tsharkProtocol at himap
    split_ifs at himap with hspeaks
    · exact hspeaks
    all_goals cases himap
  have hmade := tsharkEvent_eq_ok h
  cases hrequest : frameStr frame (requestField .imap) with
  | some request =>
    rw [hrequest] at hmade
    obtain ⟨e, he, -⟩ := hmade
    cases he
  | none =>
    cases hstatus : frameStr frame (replyField .imap) with
    | none => simp [speaks, hrequest, hstatus] at hspeaks
    | some status =>
      unfold tsharkEvent at h
      obtain ⟨number, -, h⟩ := Fallible.bind_eq_ok.mp h
      rw [hrequest] at h
      dsimp only at h
      rw [hstatus] at h
      cases h

theorem mem_eventsIn_mono {zeekByUid : Dict String (List Stamped)} {flows : List Flow}
    {s s' : TsharkPass} {frame : Record} (h : tsharkStep zeekByUid flows s frame = .ok s')
    {x : Stamped} {uid : String} (hx : x ∈ eventsIn s.tsharkEvents uid) :
    x ∈ eventsIn s'.tsharkEvents uid := by
  cases tsharkStep_cases h with
  | unmatched => exact hx
  | silent => exact hx
  | noted => exact hx
  | event stamped protocol hello hmatch hprotocol hevent =>
    rw [eventsIn_update]
    split
    · exact List.mem_append_left _ hx
    · exact hx

theorem exists_placeOf {logs : Record} {flows : List Flow} {frames : List Val} {t : Tables}
    (hread : readTables logs flows (some frames) = .ok t) {frame : Record} {uid : String}
    (hframe : frame ∈ boundedRecords (.list frames) maxFrames)
    (hmatch : matchFrameUid frame flows = .ok (some uid))
    (himap : tsharkProtocol frame = some .imap) : ∃ place, PlaceOf t uid frame place := by
  obtain ⟨-, -, -, htshark⟩ := readTables_eq_ok.mp hread
  obtain ⟨pre, post, hsplit⟩ := List.append_of_mem hframe
  unfold tsharkPass at htshark
  rw [Option.getD_some, hsplit, List.foldlM_append] at htshark
  obtain ⟨s, -, htshark⟩ := Fallible.bind_eq_ok.mp htshark
  obtain ⟨s', hstep, hpost⟩ := Fallible.foldlM_cons_eq_ok.mp htshark
  rcases place_of_tsharkStep hstep hmatch himap with ⟨x, hx, hevent, ts, hts, hxts⟩ | hnone
  · have hlast := Fallible.foldlM_invariant hpost
      (P := fun s => x ∈ eventsIn s.tsharkEvents uid) hx fun _ _ _ _ hstep => mem_eventsIn_mono hstep
    exact ⟨⟨x.ts, x.order⟩, ⟨ts, hts, hxts⟩, Or.inl ⟨x, hlast, rfl, rfl, hevent⟩⟩
  · exact absurd hnone (tsharkEvent_imap_ne_none himap)

/-! ## The run -/

/-- An IMAP client that sends its commands in one segment, and the session that comes of it. -/
def imapFrame (commands : String) : Val :=
  .dict [("ip.src", .str "10.0.0.1"), ("tcp.srcport", .str "50000"), ("ip.dst", .str "10.0.0.2"),
    ("tcp.dstport", .str "143"), ("frame.number", .str "23"), ("frame.time_epoch", .str "1"),
    ("imap.request.command", .str commands)]

def imapSession (command : String) (upgrade : ExplicitUpgrade) : EmailSession :=
  { uid := "C1", protocol := some .imap, portHint := .imap, payloadEvidence := .imap,
    evidenceState := .observed, corroboration := .zeekTshark,
    events := [{ direction := .orig, kind := .request, command := some command,
                 frameNumber := some 23, source := some .tshark }],
    explicitUpgrade := some upgrade,
    implicitTls := some { evidenceState := .notObservable } }

/-- The same client, one command to a segment. -/
def loneLogin : EmailSession :=
  imapSession "LOGIN"
    { state := some .plaintextFallback, evidenceState := .observed, evidenceFrames := [23] }

theorem normalize_loneLogin :
    normalizeSessions [] [Flow.toPort "C1" 143] (some [imapFrame "LOGIN"]) = .ok [loneLogin] := by
  decide +kernel

theorem loneLogin_carried :
    CarriedElsewhere [] [Flow.toPort "C1" 143] [imapFrame "LOGIN"] "C1" := by
  rintro protocol command ⟨frame, hframe, hmatch, hprotocol, hoccurs, -, -⟩
  obtain rfl := Val.dict.inj (List.mem_singleton.mp hframe)
  have himap : protocol = .imap := (Option.some.inj ((show tsharkProtocol _ = some .imap by
    decide +kernel).symm.trans hprotocol)).symm
  subst himap
  obtain rfl : command = "LOGIN" := by
    have hone : occurrences (.str "LOGIN") = ["LOGIN"] := by decide
    exact List.mem_singleton.mp (hone ▸ hoccurs)
  exact Or.inr ⟨_, List.mem_singleton_self _, hmatch, .imap, "LOGIN", hprotocol, by decide +kernel,
    by decide, rfl⟩

end Sessions
end Normalize
end SecureMail
