import SecureMail.Normalize.Coerce
import SecureMail.Py.Dict
import SecureMail.Starttls.Machines
import SecureMail.Starttls.ImplicitTls
import Mathlib.Data.Finset.Option

/-!
# `normalize_sessions`

The session normalizer, pass by pass. The first pass reads `sm_email.log` into tables keyed by
connection; the second reads the TShark frames into more of them; then each connection that any
table names is merged, identified, assessed and, unless nothing at all was identified, emitted.

The tables of a pass are a record, and a pass is a fold of a step over its rows. `Tables` is what
the two passes leave behind, and everything after them is a function of it and of one connection.

The source is one function with two loops and a dozen dictionaries. Each dictionary is a field here,
under its own name, and each loop body a step. The order of the tests in a step, and which of the
dictionaries it has written to when it raises, are as in the source, but a step that raises has no
state: no caller sees the tables after an exception.
-/

namespace SecureMail
namespace Normalize
namespace Sessions

open Py (Val Dict upper lower strip split isIn startsWith truthy)
open Starttls (protocolFromAlpn correlateImplicitTls implicitTlsPorts)

def maxUidLen : Nat := 64
def maxHostLen : Nat := 253
def maxTextLen : Nat := 128
def maxCommandLen : Nat := 32
def maxTagLen : Nat := 32
def maxEventsPerSession : Nat := 256
def maxFrames : Nat := 10000
def mergeWindowSeconds : Py.Float := .ofNat 2

def secretCommands : List String :=
  ["AUTH", "LOGIN", "USER", "PASS", "APOP", "AUTHENTICATE", "AUTH_ANSWER", "**", "MAIL", "RCPT"]

def confirmingKinds : List SessionEventKind :=
  [.request, .reply, .capability, .starttls, .confirmation, .unexpected]

def protocolByName : List (String × MailProtocol) :=
  [("smtp", .smtp), ("imap", .imap), ("pop3", .pop3)]

def kindByName : List (String × SessionEventKind) :=
  [("request", .request), ("reply", .reply), ("capability", .capability), ("starttls", .starttls),
   ("confirmation", .confirmation), ("ambiguous_banner", .ambiguousBanner),
   ("unexpected", .unexpected)]

/-! ## One row -/

/-- `_as_str`: a string within the limit, or the joined strings of a list cut to it. -/
def asStr (value : Val) (maxLen : Nat) : Option String :=
  match value with
  | .str s => if s = "" ∨ maxLen < s.length then none else some s
  | .list items =>
      let parts := items.filterMap fun item =>
        match item with
        | .str s => if s = "" then none else some s
        | _ => none
      if parts = [] then none
      else
        let joined := Py.join "," parts
        some (if maxLen < joined.length then Py.takeChars maxLen joined else joined)
  | _ => none

/-- `_bound_text`. -/
def boundText (value : Option String) : Option String :=
  value.bind fun v =>
    let stripped := strip v
    if stripped = "" then none
    else some (if maxTextLen < stripped.length then Py.takeChars maxTextLen stripped else stripped)

/-- `_redact_argument` and `_redact_text`, which have one body. -/
def redact (command : Option String) (value : Option String) : Option String :=
  (boundText value).map fun bounded =>
    if command.any fun c => secretCommands.contains (upper c) then "<redacted>" else bounded

/-- `_protocol_from_name`. -/
def protocolFromName (raw : Option String) : Option MailProtocol :=
  raw.bind fun r => protocolByName.lookup (lower r)

/-- `_kind_from_name`. -/
def kindFromName (raw : Option String) : Option SessionEventKind :=
  raw.bind fun r => kindByName.lookup (lower r)

/-- `_direction`. -/
def direction (isOrig : Option Bool) : StreamDirection :=
  if isOrig = some false then .resp else .orig

/-- The command of a row, upper-cased. -/
def rowCommand (row : Record) : Option String :=
  (asStr (row.get "command") maxCommandLen).map upper

/-- `_event_from_email_row`. The secret fields are redacted as they are read, so that no event ever
has them. -/
def eventFromEmailRow (row : Record) : Result (Option ProtocolEvent) :=
  match kindFromName (asStr (row.get "event_type") 32) with
  | none => pure none
  | some kind => do
      let command := rowCommand row
      let argument := redact command (asStr (row.get "argument") maxTextLen)
      let text := redact command (asStr (row.get "text") (maxTextLen * 2))
      let replyCode ← asInt (row.get "reply_code")
      pure (some
        { direction := direction (asBool (row.get "is_orig"))
          kind := kind
          command := command
          argument := argument
          replyCode := replyCode
          text := text
          source := some .zeek })

/-! ## One frame -/

/-- The host reader of this normalizer. -/
def asHost (value : Val) : Option String := asStr value maxHostLen

/-- `_match_frame_uid`. -/
def matchFrameUid (frame : Record) (flows : List Flow) : Result (Option String) :=
  Normalize.matchFrameUid asHost frame flows

/-- The field of a frame, as a command or status. -/
def frameStr (frame : Record) (field : String) : Option String :=
  asStr (frame.get field) maxCommandLen

/-- The field TShark puts the commands of a protocol in. -/
def requestField : MailProtocol → String
  | .imap => "imap.request.command"
  | .pop3 => "pop.request.command"
  | .smtp => "smtp.req.command"

/-- The field TShark puts the replies of a protocol in. -/
def replyField : MailProtocol → String
  | .imap => "imap.response.status"
  | .pop3 => "pop.response.indicator"
  | .smtp => "smtp.response.code"

/-- The frame carries a command or a reply of the protocol. -/
def speaks (frame : Record) (protocol : MailProtocol) : Bool :=
  (frameStr frame (requestField protocol)).any truthy ||
    (frameStr frame (replyField protocol)).any truthy

/-- `_tshark_protocol`. -/
def tsharkProtocol (frame : Record) : Option MailProtocol :=
  if speaks frame .imap then some .imap
  else if speaks frame .pop3 then some .pop3
  else if speaks frame .smtp then some .smtp
  else none

/-- How a request field is read as a command: SMTP's four-letter `STAR` is `STARTTLS`. -/
def tsharkCommand (protocol : MailProtocol) (request : String) : String :=
  if protocol = .smtp ∧ upper request = "STAR" then "STARTTLS" else upper request

/-- The frame number, when it is one. -/
def frameNumber (frame : Record) : Result (Option ℕ+) := do
  match ← asInt (frame.get "frame.number") with
  | some n => pure (if h : 0 < n then some ⟨n, h⟩ else none)
  | none => pure none

/-- `_tshark_event`. A frame has a request or a reply, and where it has both fields it is read as a
request. -/
def tsharkEvent (frame : Record) (protocol : MailProtocol) : Result (Option ProtocolEvent) := do
  let number ← frameNumber frame
  -- Only IMAP carries its tag into the event.
  let tag := if protocol = .imap then asStr (frame.get "imap.tag") maxTagLen else none
  match frameStr frame (requestField protocol) with
  | some request =>
      let command := tsharkCommand protocol request
      pure (some
        { direction := .orig
          kind := .request
          command := some command
          argument := redact (some command) none
          frameNumber := number
          source := some .tshark
          tag := tag })
  | none =>
      match protocol with
      | .smtp =>
          match ← asInt (frame.get (replyField .smtp)) with
          | some code =>
              pure (some
                { direction := .resp
                  kind := .reply
                  replyCode := some code
                  frameNumber := number
                  source := some .tshark })
          | none => pure none
      | _ =>
          match frameStr frame (replyField protocol) with
          | some status =>
              pure (some
                { direction := .resp
                  kind := .reply
                  text := boundText (some (upper status))
                  frameNumber := number
                  source := some .tshark
                  tag := tag })
          | none => pure none

/-- `_is_client_hello_frame`. -/
def isClientHelloFrame (frame : Record) : Bool :=
  match frame.get "tls.handshake.type" with
  | .str s => ["1", "1.0"].contains (strip ((Py.splitOnChar ',' s).headD ""))
  | raw => raw.eq (.int 1)

/-! ## `ssl.log` -/

structure SslFacts where
  clientHello : Bool
  nextProtocol : Option String
  deriving DecidableEq

/-- What one row of `ssl.log` says. -/
def sslFactsOf (row : Record) : SslFacts where
  clientHello := isIn "C" ((asStr (row.get "ssl_history") 64).getD "")
  nextProtocol := asStr (row.get "next_protocol") 32

/-- One row of `ssl.log`: of two rows with one connection the later one stays. -/
def sslStep (facts : Dict String SslFacts) (row : Record) : Dict String SslFacts :=
  match asStr (row.get "uid") maxUidLen with
  | none => facts
  | some uid => facts.set uid (sslFactsOf row)

/-- `_ssl_facts`. -/
def sslFacts (logs : Record) : Dict String SslFacts :=
  (boundedRecords (getLog logs "ssl.log") maxRecords).foldl sslStep ∅

/-! ## Merging -/

structure Stamped where
  ts : Py.Float
  order : Nat
  uid : String
  protocol : Option MailProtocol
  event : ProtocolEvent
  «matched» : Bool := false
  deriving DecidableEq

/-- `_compatible`. The source takes the first token of what Zeek read, and would raise `IndexError` on
a text of white space alone; no event has one (`words_of_zeekText`). -/
def compatible (zeekEvent tsharkEvent : ProtocolEvent) : Bool :=
  if zeekEvent.direction ≠ tsharkEvent.direction then false
  else if zeekEvent.tag.isSome ∧ tsharkEvent.tag.isSome ∧ zeekEvent.tag ≠ tsharkEvent.tag then false
  else
    let zcmd := zeekEvent.upperCommand
    let tcmd := tsharkEvent.upperCommand
    if zeekEvent.kind = .request ∧ tsharkEvent.kind = .request then zcmd == tcmd
    else if zeekEvent.kind = .reply ∧ tsharkEvent.kind = .reply then
      match zeekEvent.replyCode, tsharkEvent.replyCode with
      | some z, some t => z == t
      | _, _ =>
          let ztext := zeekEvent.upperText
          let ttext := tsharkEvent.upperText
          let firstZeekToken := (split ztext).headD ""
          if truthy ttext && truthy ztext &&
              (isIn ttext ztext || startsWith ztext ttext || startsWith ttext firstZeekToken) then
            true
          else truthy zcmd && zcmd == tcmd
    else false

/-- `_with_tshark_evidence`. -/
def withTsharkEvidence (zeekEvent tsharkEvent : ProtocolEvent) : ProtocolEvent :=
  { zeekEvent with
    frameNumber := tsharkEvent.frameNumber.or zeekEvent.frameNumber
    tag := (tsharkEvent.tag.filter truthy).or zeekEvent.tag }

/-- `_is_duplicate_capability`. Only the event just before on the connection counts, so two
capabilities may alternate for ever. -/
def isDuplicateCapability (previous : Option ProtocolEvent) (current : ProtocolEvent) : Bool :=
  match previous with
  | none => false
  | some p =>
      current.kind == .capability && p.kind == .capability &&
        (p.text == current.text && p.direction == current.direction)

/-- The Zeek event a TShark event is matched to: the closest in time within the window among the
compatible ones not yet matched, the later one on a tie. -/
def bestMatch (zeek : List Stamped) (extra : Stamped) : Option Nat :=
  (zeek.zipIdx.foldl
    (fun (best : Option Nat × Py.Float) candidate =>
      if candidate.1.matched ∨ candidate.1.uid ≠ extra.uid then best
      else if !compatible candidate.1.event extra.event then best
      else
        let delta := (candidate.1.ts.sub extra.ts).abs
        if delta.le best.2 then (some candidate.2, delta) else best)
    (none, mergeWindowSeconds)).1

/-- The matched Zeek event, with the evidence of the frame. -/
def Stamped.absorb (best extra : Stamped) : Stamped :=
  { best with event := withTsharkEvidence best.event extra.event, «matched» := true }

/-- One TShark event: dropped, kept for the end, or folded into its match. -/
def mergeStep (acc : List Stamped × List Stamped) (extra : Stamped) :
    List Stamped × List Stamped :=
  if extra.event.kind = .request ∧ extra.event.command = none then acc
  else match bestMatch acc.1 extra with
    | none => (acc.1, acc.2 ++ [extra])
    | some i => (acc.1.modify i (·.absorb extra), acc.2)

/-- `(a.ts, a.order) < (b.ts, b.order)`. -/
def Stamped.before (a b : Stamped) : Bool :=
  if a.ts.eq b.ts then decide (a.order < b.order) else a.ts.lt b.ts

/-- `_merge_events`. Where a time stamp is NaN no order is one, and `list.sort` leaves the events in
an order of its own, which this is not. -/
def mergeEvents (zeek tshark : List Stamped) : List Stamped :=
  let (zeek, unmatched) := tshark.foldl mergeStep (zeek, [])
  (zeek ++ unmatched).insertionSort fun a b => b.before a = false

/-- The merged events without repeated capabilities, cut at the cap. -/
def boundEvents (last : Option ProtocolEvent) (bounded : List ProtocolEvent) :
    List Stamped → List ProtocolEvent
  | [] => bounded
  | item :: rest =>
      if isDuplicateCapability last item.event then boundEvents last bounded rest
      else if maxEventsPerSession ≤ bounded.length then bounded
      else boundEvents (some item.event) (bounded ++ [item.event]) rest

/-! ## Identity and assessment -/

structure Identity where
  protocol : Option MailProtocol
  payload : PayloadEvidence
  state : EvidenceState
  confidence : Option Confidence
  deriving DecidableEq

/-- `next(iter(s), None)`, for a set of at most one protocol. -/
def onlyProtocol (s : Finset MailProtocol) : Option MailProtocol :=
  [MailProtocol.smtp, .imap, .pop3].find? (· ∈ s)

/-- `_resolve_identity`. A conflict between the log and the frames has a confidence, and one that is
within a source has none. -/
def resolveIdentity (confirming : Finset MailProtocol) (sawAmbiguous : Bool)
    (tsharkProtocols : Finset MailProtocol) (alpnProtocol : Option MailProtocol) : Identity :=
  let combined := confirming ∪ tsharkProtocols ∪ alpnProtocol.toFinset
  if tsharkProtocols ≠ ∅ ∧ confirming ≠ ∅ ∧ confirming ≠ tsharkProtocols then
    ⟨none, .indeterminate, .conflicting, some .half⟩
  else if 1 < combined.card then ⟨none, .indeterminate, .conflicting, none⟩
  else match onlyProtocol combined with
    | some identified => ⟨some identified, .ofProtocol identified, .observed, none⟩
    | none =>
        if sawAmbiguous then ⟨none, .indeterminate, .indeterminate, none⟩
        else ⟨none, .none, .indeterminate, none⟩

def smtpPorts : List Nat := [25, 465, 587]
def imapPorts : List Nat := [143, 993]
def pop3Ports : List Nat := [110, 995]

/-- The service a port is well known for. -/
def portHintOf (port : Nat) : Option PortHint :=
  if smtpPorts.contains port then some .smtp
  else if imapPorts.contains port then some .imap
  else if pop3Ports.contains port then some .pop3
  else none

/-- `port_hint_for_flow`: the responder's port decides first. -/
def portHintForFlow (flow : Flow) : PortHint :=
  ((portHintOf flow.resp.port).or (portHintOf flow.orig.port)).getD .none

/-- The ClientHello flag the upgrade machines are given. -/
def clientHelloObserved (ssl : Option SslFacts) (helloFrames : List Nat) : Bool :=
  !helloFrames.isEmpty || ssl.any (·.clientHello)

/-- The machine of the protocol, on the session's events. -/
def explicitUpgradeOf (protocol : Option MailProtocol) (events : List ProtocolEvent)
    (clientHello : Bool) (helloFrames : List Nat) : ExplicitUpgrade :=
  match protocol with
  | some .smtp => Starttls.smtpUpgrade events clientHello helloFrames
  | some .imap => Starttls.imapUpgrade events clientHello helloFrames
  | some .pop3 => Starttls.pop3Upgrade events clientHello helloFrames
  | none => { state := none, evidenceState := .notObservable }

/-- `_assess_session`. Both verdicts are computed for every session, whatever was identified. -/
def assessSession (session : EmailSession) (flow : Flow) (ssl : Option SslFacts)
    (helloFrames : List Nat) : EmailSession :=
  let nextProtocol := ssl.bind (·.nextProtocol)
  { session with
    explicitUpgrade := some (explicitUpgradeOf session.protocol session.events
      (clientHelloObserved ssl helloFrames) helloFrames)
    implicitTls := some (correlateImplicitTls flow.resp.port
      (ssl.isSome || !helloFrames.isEmpty) nextProtocol
      (if (protocolFromAlpn nextProtocol).isSome then helloFrames else [])) }

/-! ## The passes -/

/-- What the pass over `sm_email.log` accumulates. The counter goes on into the pass over the
frames, so that stamps are different across the two. -/
structure ZeekPass where
  zeekByUid : Dict String (List Stamped) := ∅
  confirmingByUid : Dict String (Finset MailProtocol) := ∅
  ambiguousUids : List String := []
  seenUids : List String := []
  order : Nat := 0
  previousByUid : Dict String ProtocolEvent := ∅

/-- An event of the connection enters the tables. -/
def ZeekPass.record (s : ZeekPass) (stamped : Stamped) : ZeekPass :=
  let uid := stamped.uid
  let s :=
    { s with
      previousByUid := s.previousByUid.set uid stamped.event
      seenUids := if (s.zeekByUid.get? uid).isSome then s.seenUids else s.seenUids ++ [uid]
      zeekByUid := s.zeekByUid.update uid [] (· ++ [stamped])
      order := s.order + 1 }
  if stamped.event.kind = .ambiguousBanner then
    { s with ambiguousUids := uid :: s.ambiguousUids }
  else match stamped.protocol with
    | some p =>
        if stamped.event.kind ∈ confirmingKinds then
          { s with confirmingByUid := s.confirmingByUid.update uid ∅ (insert p) }
        else s
    | none => s

/-- One row of `sm_email.log`. A row is read only once its connection is known, and its time only
once it makes an event. -/
def zeekStep (flowByUid : Dict String Flow) (s : ZeekPass) (row : Record) : Result ZeekPass :=
  match asStr (row.get "uid") maxUidLen with
  | none => pure s
  | some uid =>
      if (flowByUid.get? uid).isNone then pure s
      else do
        match ← eventFromEmailRow row with
        | none => pure s
        | some event =>
            if isDuplicateCapability (s.previousByUid.get? uid) event then pure s
            else do
              let ts ← asFloat (row.get "ts")
              pure (s.record
                { ts := ts.getD (.ofNat s.order)
                  order := s.order
                  uid := uid
                  protocol := protocolFromName (asStr (row.get "protocol") 16)
                  event := event })

/-- What the pass over the frames accumulates. It begins with the uids and the counter of the pass
before. -/
structure TsharkPass where
  usedTshark : Bool := false
  tsharkByUid : Dict String (Finset MailProtocol) := ∅
  tsharkEvents : Dict String (List Stamped) := ∅
  helloFrames : Dict String (List Nat) := ∅
  seenUids : List String
  order : Nat

/-- A frame with a ClientHello is noted under its connection. -/
def noteHello (uid : String) (frame : Record) (s : TsharkPass) : Result TsharkPass :=
  if isClientHelloFrame frame then do
    match ← asInt (frame.get "frame.number") with
    | some n =>
        if 1 ≤ n ∧ n ∉ (s.helloFrames.get? uid).getD [] then
          pure { s with helloFrames := s.helloFrames.update uid [] (· ++ [n]) }
        else pure s
    | none => pure s
  else pure s

/-- A frame with a mail command or reply is noted under its connection. -/
def noteMail (zeekByUid : Dict String (List Stamped)) (uid : String) (frame : Record)
    (s : TsharkPass) : Result TsharkPass :=
  match tsharkProtocol frame with
  | none => pure s
  | some protocol => do
      -- The protocol is named even where the frame makes no event.
      let s := { s with tsharkByUid := s.tsharkByUid.update uid ∅ (insert protocol) }
      match ← tsharkEvent frame protocol with
      | none => pure s
      | some extra =>
          let ts ← asFloat (frame.get "frame.time_epoch")
          pure
            { s with
              seenUids :=
                if (zeekByUid.get? uid).isNone ∧ (s.tsharkEvents.get? uid).isNone then
                  s.seenUids ++ [uid]
                else s.seenUids
              tsharkEvents := s.tsharkEvents.update uid [] (· ++
                [{ ts := ts.getD (.ofNat s.order), order := s.order, uid := uid,
                   protocol := some protocol, event := extra }])
              order := s.order + 1 }

/-- One frame. The hello is noted before the mail, and a frame may be both. -/
def tsharkStep (zeekByUid : Dict String (List Stamped)) (flows : List Flow) (s : TsharkPass)
    (frame : Record) : Result TsharkPass := do
  match ← matchFrameUid frame flows with
  | none => pure s
  | some uid =>
      -- Any frame that is matched corroborates, mail or not.
      let s ← noteHello uid frame { s with usedTshark := true }
      noteMail zeekByUid uid frame s

/-- Everything the passes leave behind. -/
structure Tables where
  flowByUid : Dict String Flow
  sslByUid : Dict String SslFacts
  zeek : ZeekPass
  tshark : TsharkPass

/-- `{flow.uid: flow for flow in flows}`. -/
def flowsByUid (flows : List Flow) : Dict String Flow := Dict.ofList (·.uid) id flows

/-- The pass over `sm_email.log`. -/
def zeekPass (logs : Record) (flowByUid : Dict String Flow) : Result ZeekPass :=
  (boundedRecords (getLog logs "sm_email.log") maxRecords).foldlM (zeekStep flowByUid) {}

/-- The pass over the frames. -/
def tsharkPass (flows : List Flow) (zeek : ZeekPass) (tsharkFrames : Option (List Val)) :
    Result TsharkPass :=
  (boundedRecords (.list (tsharkFrames.getD [])) maxFrames).foldlM
    (tsharkStep zeek.zeekByUid flows) { seenUids := zeek.seenUids, order := zeek.order }

def readTables (logs : Record) (flows : List Flow) (tsharkFrames : Option (List Val)) :
    Result Tables := do
  let zeek ← zeekPass logs (flowsByUid flows)
  let tshark ← tsharkPass flows zeek tsharkFrames
  pure { flowByUid := flowsByUid flows, sslByUid := sslFacts logs, zeek := zeek, tshark := tshark }

/-! ## One session for each connection -/

namespace Tables

variable (t : Tables)

/-- The merged events of a connection. -/
def eventsOf (uid : String) : List ProtocolEvent :=
  boundEvents none [] (mergeEvents ((t.zeek.zeekByUid.get? uid).getD [])
    ((t.tshark.tsharkEvents.get? uid).getD []))

def alpnOf (uid : String) : Option MailProtocol :=
  (t.sslByUid.get? uid).bind fun ssl => protocolFromAlpn ssl.nextProtocol

def helloOf (uid : String) : List Nat := (t.tshark.helloFrames.get? uid).getD []

/-- What the tables identify the connection as. -/
def identityOf (uid : String) : Identity :=
  resolveIdentity ((t.zeek.confirmingByUid.get? uid).getD ∅) (t.zeek.ambiguousUids.contains uid)
    ((t.tshark.tsharkByUid.get? uid).getD ∅) (t.alpnOf uid)

/-- TLS on a port that expects it. -/
def implicitCandidate (uid : String) (flow : Flow) : Bool :=
  implicitTlsPorts.contains flow.resp.port && (t.sslByUid.get? uid).isSome

/-- An implicit-TLS connection on which nothing was identified takes the selected ALPN protocol, or
none. -/
def settleIdentity (uid : String) (flow : Flow) (identity : Identity) : Identity :=
  if t.implicitCandidate uid flow && identity.payload = .none then
    match t.alpnOf uid with
    | some p => { identity with protocol := some p, payload := .ofProtocol p, state := .observed }
    | none =>
        { identity with protocol := none, payload := .indeterminate, state := .indeterminate }
  else identity

def corroborationOf (uid : String) : Corroboration :=
  if t.tshark.usedTshark && (t.tshark.tsharkByUid.get? uid).isSome then .zeekTshark
  -- A ClientHello corroborates a connection with no mail frames.
  else if t.tshark.usedTshark && !(t.helloOf uid).isEmpty &&
      (t.tshark.tsharkByUid.get? uid).isNone then .zeekTshark
  else .zeek

/-- Nothing identified, nothing ambiguous and no implicit TLS: no session. -/
def skips (uid : String) (flow : Flow) : Bool :=
  (t.identityOf uid).payload = .none && !t.zeek.ambiguousUids.contains uid &&
    !t.implicitCandidate uid flow

/-- The session of a connection. It reads the share of one connection in the tables and nothing else
of them. -/
def buildSession (uid : String) (flow : Flow) : EmailSession :=
  let identity := t.settleIdentity uid flow (t.identityOf uid)
  assessSession
    { uid := uid
      protocol := identity.protocol
      portHint := portHintForFlow flow
      payloadEvidence := identity.payload
      evidenceState := identity.state
      identificationConfidence := identity.confidence
      corroboration := t.corroborationOf uid
      events := t.eventsOf uid }
    flow (t.sslByUid.get? uid) (t.helloOf uid)

/-- The body of the loop over connections. -/
def sessionFor (uid : String) : Option EmailSession :=
  (t.flowByUid.get? uid).bind fun flow =>
    if t.skips uid flow then none else some (t.buildSession uid flow)

/-- The connections some table names, in the order of first mention. -/
def sessionUids : List String :=
  Dict.fromKeys (t.tshark.seenUids ++ t.tshark.tsharkByUid.keys ++
    t.flowByUid.keys.filter fun uid => (t.sslByUid.get? uid).isSome)

/-- The order of emission. The uid comes last and makes the order one without ties. -/
def sessionKey (s : EmailSession) : String × String × Nat × String × Nat × String :=
  let protocol := (s.protocol.map (·.value)).getD ""
  match t.flowByUid.get? s.uid with
  | some flow =>
      (protocol, flow.orig.host, flow.orig.port, flow.resp.host, flow.resp.port, s.uid)
  | none => (protocol, "", 0, "", 0, s.uid)

/-- `a <= b` on those keys, component by component. -/
def keyLe (a b : String × String × Nat × String × Nat × String) : Bool :=
  if a.1 ≠ b.1 then a.1 < b.1
  else if a.2.1 ≠ b.2.1 then a.2.1 < b.2.1
  else if a.2.2.1 ≠ b.2.2.1 then a.2.2.1 < b.2.2.1
  else if a.2.2.2.1 ≠ b.2.2.2.1 then a.2.2.2.1 < b.2.2.2.1
  else if a.2.2.2.2.1 ≠ b.2.2.2.2.1 then a.2.2.2.2.1 < b.2.2.2.2.1
  else a.2.2.2.2.2 ≤ b.2.2.2.2.2

def sessions : List EmailSession :=
  (t.sessionUids.filterMap t.sessionFor).insertionSort fun a b =>
    keyLe (t.sessionKey a) (t.sessionKey b) = true

end Tables

/-- `normalize_sessions`. -/
def normalizeSessions (logs : Record) (flows : List Flow) (tsharkFrames : Option (List Val)) :
    Result (List EmailSession) := do
  pure (← readTables logs flows tsharkFrames).sessions

end Sessions
end Normalize
end SecureMail
