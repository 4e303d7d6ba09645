import Mathlib.Data.Finset.Erase
import Mathlib.Data.Finset.Insert
import SecureMail.Evidence.Session
import SecureMail.Lib.Journal

/-!
# `securemail-email.zeek`

The script writes a row of `sm_email.log` for each command, reply and capability line it is told of,
with the argument of a secret command blacked out. It keeps three sets of connections: those with a
row, those whose greeting a signature matched, and those that are between a `CAPA` and the end of its
answer, since a line of POP3 data is a capability there and the text of a mail anywhere else.

A text is a string of bytes here, and its length is their number.

The script is the one place where credentials are in reach of the program, and the one place where a
line of a mail could be mistaken for a word of the server. Both are questions about a run and not
about an event: the window of a `CAPA` is opened by one event and closed by another, and a greeting
is reported only when its connection is removed. So the script is a function from a state and an
event to a state, the log is a part of the state, and what is proved is about the log after any list
of events. `writes` says what an event adds to the log in a state, and `capaMove` what it does to
the window of a connection; no proof after these two looks at a handler again.
-/

namespace SecureMail
namespace Zeek
namespace Email

abbrev Text := List UInt8

/-- A literal of the script. -/
def ascii (s : String) : Text := s.toList.map fun c => UInt8.ofNat c.toNat

/-- `Info`; the time and the addresses are left out. The protocol of no analyzer is `"unknown"`. -/
structure Info where
  uid : String
  protocol : Option MailProtocol
  isOrig : Bool
  eventType : SessionEventKind
  command : Option Text := none
  argument : Option Text := none
  replyCode : Option Nat := none
  text : Option Text := none
deriving DecidableEq

def maxTextLen : Nat := 128

def secretCommands : List Text :=
  ["AUTH", "LOGIN", "USER", "PASS", "APOP", "AUTHENTICATE", "AUTH_ANSWER", "**", "MAIL",
    "RCPT"].map ascii

def redacted : Text := ascii "<redacted>"

def capa : Text := ascii "CAPA"

def dot : Text := ascii "."

/-- `to_upper`, which knows the letters of ASCII. -/
def toUpper (s : Text) : Text := s.map fun b => if 97 ≤ b ∧ b ≤ 122 then b - 32 else b

def boundText (s : Text) : Text := if s.length ≤ maxTextLen then s else s.take maxTextLen

def redactArgument (command arg : Text) : Text :=
  if toUpper command ∈ secretCommands then redacted else boundText arg

/-- `join_string_vec`. -/
def joinStringVec (sep : Text) (parts : List Text) : Text := (parts.intersperse sep).flatten

/-- The events the script handles, each with the uid of its connection. -/
inductive Event
  | smtpRequest (uid : String) (isOrig : Bool) (command arg : Text)
  | smtpReply (uid : String) (isOrig : Bool) (code : Nat) (cmd msg : Text)
  | smtpStarttls (uid : String)
  | imapCapabilities (uid : String) (capabilities : List Text)
  | imapStarttls (uid : String)
  | pop3Request (uid : String) (isOrig : Bool) (command arg : Text)
  | pop3Reply (uid : String) (isOrig : Bool) (cmd msg : Text)
  | pop3Starttls (uid : String)
  | pop3Data (uid : String) (isOrig : Bool) (data : Text)
  | pop3Unexpected (uid : String) (isOrig : Bool) (msg detail : Text)
  | analyzerConfirmation (uid : Option String) (isImap : Bool)
  | signatureMatch (uid : String) (msg data : Text)
  | connectionStateRemove (uid : String)

structure State where
  confirmedUids : Finset String := ∅
  greetingUids : Finset String := ∅
  pop3CapaUids : Finset String := ∅
  log : List Info := []

namespace State

/-- `Log::write`. -/
def write (s : State) (rec : Info) : State := { s with log := s.log ++ [rec] }

def markConfirmed (s : State) (uid : String) : State :=
  { s with confirmedUids := insert uid s.confirmedUids }

/-- A row, and its connection is confirmed. -/
def writeConfirmed (s : State) (rec : Info) : State := (s.write rec).markConfirmed rec.uid

end State

/-! ## The handlers -/

/-- The row of a command, in SMTP and in POP3. -/
def requestRow (protocol : MailProtocol) (uid : String) (isOrig : Bool) (command arg : Text) :
    Info where
  uid := uid
  protocol := some protocol
  isOrig := isOrig
  eventType := .request
  command := some (boundText (toUpper command))
  argument := if 0 < arg.length then some (redactArgument command arg) else none

def smtpRequest (s : State) (uid : String) (isOrig : Bool) (command arg : Text) : State :=
  s.writeConfirmed (requestRow .smtp uid isOrig command arg)

def smtpReplyRow (uid : String) (isOrig : Bool) (code : Nat) (cmd msg : Text) : Info :=
  let command := if 0 < cmd.length then some (boundText (toUpper cmd)) else none
  { uid := uid
    protocol := some .smtp
    isOrig := isOrig
    eventType := .reply
    command := command
    replyCode := some code
    text :=
      if command.any (· ∈ secretCommands) then some redacted
      else if 0 < msg.length then some (boundText msg)
      else none }

def smtpReply (s : State) (uid : String) (isOrig : Bool) (code : Nat) (cmd msg : Text) : State :=
  s.writeConfirmed (smtpReplyRow uid isOrig code cmd msg)

/-- A row that has nothing but its type. -/
def plainRow (protocol : MailProtocol) (uid : String) (isOrig : Bool) (eventType : SessionEventKind) :
    Info where
  uid := uid
  protocol := some protocol
  isOrig := isOrig
  eventType := eventType

def smtpStarttls (s : State) (uid : String) : State :=
  s.writeConfirmed (plainRow .smtp uid true .starttls)

def imapCapabilities (s : State) (uid : String) (capabilities : List Text) : State :=
  s.writeConfirmed { plainRow .imap uid false .capability with
    text := some (boundText (joinStringVec (ascii " ") capabilities)) }

def imapStarttls (s : State) (uid : String) : State :=
  s.writeConfirmed (plainRow .imap uid true .starttls)

/-- The request decides whether the data that follows is the answer to `CAPA`. -/
def pop3Request (s : State) (uid : String) (isOrig : Bool) (command arg : Text) : State :=
  let s := s.writeConfirmed (requestRow .pop3 uid isOrig command arg)
  if boundText (toUpper command) = capa then { s with pop3CapaUids := insert uid s.pop3CapaUids }
  else { s with pop3CapaUids := s.pop3CapaUids.erase uid }

def pop3ReplyRow (uid : String) (isOrig : Bool) (cmd msg : Text) : Info :=
  let status := if 0 < cmd.length then some (boundText (toUpper cmd)) else none
  { plainRow .pop3 uid isOrig .reply with
    text :=
      if 0 < msg.length then
        match status with
        | some status => some (boundText (status ++ ascii " " ++ msg))
        | none => some (boundText msg)
      else status }

def pop3Reply (s : State) (uid : String) (isOrig : Bool) (cmd msg : Text) : State :=
  s.writeConfirmed (pop3ReplyRow uid isOrig cmd msg)

def pop3Starttls (s : State) (uid : String) : State :=
  s.writeConfirmed (plainRow .pop3 uid true .starttls)

/-- The row of a line of the answer to `CAPA`. -/
def capabilityRow (uid : String) (isOrig : Bool) (data : Text) : Info :=
  { plainRow .pop3 uid isOrig .capability with text := some (boundText data) }

def pop3Data (s : State) (uid : String) (isOrig : Bool) (data : Text) : State :=
  if uid ∉ s.pop3CapaUids then s
  else if data = dot then { s with pop3CapaUids := s.pop3CapaUids.erase uid }
  else if data.length = 0 then s
  else s.writeConfirmed (capabilityRow uid isOrig data)

/-- `detail` is not used: it may be a line with credentials. -/
def pop3Unexpected (s : State) (uid : String) (isOrig : Bool) (msg _detail : Text) : State :=
  s.writeConfirmed { plainRow .pop3 uid isOrig .unexpected with
    text := if 0 < msg.length then some (boundText msg) else none }

def analyzerConfirmation (s : State) (uid : Option String) (isImap : Bool) : State :=
  match uid with
  | none => s
  | some uid => if isImap then s.writeConfirmed (plainRow .imap uid false .confirmation) else s

/-- `data` is not used: it is payload. -/
def signatureMatch (s : State) (uid : String) (msg _data : Text) : State :=
  if msg = ascii "sm_ambiguous_greeting" then
    { s with greetingUids := insert uid s.greetingUids }
  else s

def ambiguousRow (uid : String) : Info where
  uid := uid
  protocol := none
  isOrig := false
  eventType := .ambiguousBanner

def connectionStateRemove (s : State) (uid : String) : State :=
  if uid ∈ s.confirmedUids then s
  else if uid ∈ s.greetingUids then s.write (ambiguousRow uid)
  else s

def handle (s : State) : Event → State
  | .smtpRequest uid isOrig command arg => smtpRequest s uid isOrig command arg
  | .smtpReply uid isOrig code cmd msg => smtpReply s uid isOrig code cmd msg
  | .smtpStarttls uid => smtpStarttls s uid
  | .imapCapabilities uid capabilities => imapCapabilities s uid capabilities
  | .imapStarttls uid => imapStarttls s uid
  | .pop3Request uid isOrig command arg => pop3Request s uid isOrig command arg
  | .pop3Reply uid isOrig cmd msg => pop3Reply s uid isOrig cmd msg
  | .pop3Starttls uid => pop3Starttls s uid
  | .pop3Data uid isOrig data => pop3Data s uid isOrig data
  | .pop3Unexpected uid isOrig msg detail => pop3Unexpected s uid isOrig msg detail
  | .analyzerConfirmation uid isImap => analyzerConfirmation s uid isImap
  | .signatureMatch uid msg data => signatureMatch s uid msg data
  | .connectionStateRemove uid => connectionStateRemove s uid

/-- The state after a capture's events. -/
def run (events : List Event) : State := events.foldl handle {}

/-! ## What an event writes -/

/-- The row of an event that writes one whatever the state is. -/
def Event.row? : Event → Option Info
  | .smtpRequest uid isOrig command arg => some (requestRow .smtp uid isOrig command arg)
  | .smtpReply uid isOrig code cmd msg => some (smtpReplyRow uid isOrig code cmd msg)
  | .smtpStarttls uid => some (plainRow .smtp uid true .starttls)
  | .imapCapabilities uid capabilities => some { plainRow .imap uid false .capability with
      text := some (boundText (joinStringVec (ascii " ") capabilities)) }
  | .imapStarttls uid => some (plainRow .imap uid true .starttls)
  | .pop3Request uid isOrig command arg => some (requestRow .pop3 uid isOrig command arg)
  | .pop3Reply uid isOrig cmd msg => some (pop3ReplyRow uid isOrig cmd msg)
  | .pop3Starttls uid => some (plainRow .pop3 uid true .starttls)
  | .pop3Unexpected uid isOrig msg _ => some { plainRow .pop3 uid isOrig .unexpected with
      text := if 0 < msg.length then some (boundText msg) else none }
  | .analyzerConfirmation (some uid) true => some (plainRow .imap uid false .confirmation)
  | _ => none

/-- The rows an event writes in a state. -/
def writes (s : State) : Event → List Info
  | .pop3Data uid isOrig data =>
    if uid ∈ s.pop3CapaUids ∧ data ≠ dot ∧ data ≠ [] then [capabilityRow uid isOrig data] else []
  | .connectionStateRemove uid =>
    if uid ∉ s.confirmedUids ∧ uid ∈ s.greetingUids then [ambiguousRow uid] else []
  | e => e.row?.toList

@[simp] theorem log_writeConfirmed (s : State) (rec : Info) :
    (s.writeConfirmed rec).log = s.log ++ [rec] := rfl

@[simp] theorem confirmedUids_writeConfirmed (s : State) (rec : Info) :
    (s.writeConfirmed rec).confirmedUids = insert rec.uid s.confirmedUids := rfl

@[simp] theorem greetingUids_writeConfirmed (s : State) (rec : Info) :
    (s.writeConfirmed rec).greetingUids = s.greetingUids := rfl

@[simp] theorem pop3CapaUids_writeConfirmed (s : State) (rec : Info) :
    (s.writeConfirmed rec).pop3CapaUids = s.pop3CapaUids := rfl

theorem log_handle (s : State) (e : Event) : (handle s e).log = s.log ++ writes s e := by
  cases e with
  | pop3Request uid isOrig command arg =>
    simp only [handle, pop3Request, writes, Event.row?]
    split <;> rfl
  | pop3Data uid isOrig data =>
    simp only [handle, pop3Data, writes]
    by_cases hopen : uid ∈ s.pop3CapaUids
    · by_cases hdot : data = dot
      · simp [hopen, hdot]
      · by_cases hempty : data.length = 0
        · simp [hopen, List.length_eq_zero_iff.mp hempty, show [] ≠ dot by decide]
        · simp [hopen, hdot, hempty, List.length_eq_zero_iff.not.mp hempty]
    · simp [hopen]
  | analyzerConfirmation uid isImap =>
    cases uid <;> cases isImap <;> simp [handle, analyzerConfirmation, writes, Event.row?]
  | signatureMatch uid msg data =>
    simp only [handle, signatureMatch, writes, Event.row?]
    split <;> simp
  | connectionStateRemove uid =>
    simp only [handle, connectionStateRemove, writes]
    by_cases hconfirmed : uid ∈ s.confirmedUids
    · simp [hconfirmed]
    · by_cases hgreeting : uid ∈ s.greetingUids
      · simp [hconfirmed, hgreeting, State.write]
      · simp [hconfirmed, hgreeting]
  | _ => rfl

/-! ## The answers to `CAPA` -/

/-- What an event does to the window of a connection: its requests open or close it, and the dot
closes it. -/
def capaMove (uid : String) : Event → Option Bool
  | .pop3Request u _ command _ =>
    if u = uid then some (boundText (toUpper command) = capa) else none
  | .pop3Data u _ data => if u = uid ∧ data = dot then some false else none
  | _ => none

/-- The window of a connection after some events: the last that moved it opened it. -/
def capaOpen (uid : String) (events : List Event) : Prop :=
  (events.filterMap (capaMove uid)).getLast? = some true

instance (uid : String) (events : List Event) : Decidable (capaOpen uid events) :=
  inferInstanceAs (Decidable (_ = _))

theorem pop3CapaUids_pop3Data {s : State} {u uid : String} {isOrig : Bool} {data : Text} :
    uid ∈ (pop3Data s u isOrig data).pop3CapaUids ↔
      uid ∈ s.pop3CapaUids ∧ ¬ (u = uid ∧ data = dot) := by
  simp only [pop3Data]
  by_cases hopen : u ∈ s.pop3CapaUids
  · by_cases hdot : data = dot
    · simp [hopen, hdot, Finset.mem_erase, eq_comm, and_comm]
    · by_cases hempty : data.length = 0 <;> simp [hopen, hdot, hempty]
  · simp only [hopen, not_false_eq_true, if_true, iff_self_and, not_and]
    intro huid hu
    exact absurd (hu ▸ huid) hopen

/-- A request leaves the window as its command has it, whatever it was. -/
theorem pop3CapaUids_pop3Request {s : State} {u uid : String} {isOrig : Bool} {command arg : Text} :
    uid ∈ (pop3Request s u isOrig command arg).pop3CapaUids ↔
      if u = uid then boundText (toUpper command) = capa else uid ∈ s.pop3CapaUids := by
  simp only [pop3Request]
  by_cases hcapa : boundText (toUpper command) = capa
  · by_cases huid : u = uid
    · simp [hcapa, huid]
    · simp [hcapa, huid, Ne.symm huid]
  · by_cases huid : u = uid
    · simp [hcapa, huid]
    · simp [hcapa, huid, Ne.symm huid]

theorem pop3CapaUids_handle_of_move (s : State) (e : Event) {uid : String} {b : Bool}
    (h : capaMove uid e = some b) : uid ∈ (handle s e).pop3CapaUids ↔ b = true := by
  cases e with
  | pop3Request u isOrig command arg =>
    simp only [capaMove, Option.ite_none_right_eq_some, Option.some.injEq] at h
    rw [handle, pop3CapaUids_pop3Request, if_pos h.1, ← h.2, decide_eq_true_iff]
  | pop3Data u isOrig data =>
    simp only [capaMove, Option.ite_none_right_eq_some, Option.some.injEq] at h
    rw [handle, pop3CapaUids_pop3Data, ← h.2]
    simp [h.1]
  | _ => simp [capaMove] at h

theorem pop3CapaUids_handle_of_stay (s : State) (e : Event) {uid : String}
    (h : capaMove uid e = none) : uid ∈ (handle s e).pop3CapaUids ↔ uid ∈ s.pop3CapaUids := by
  cases e with
  | pop3Request u isOrig command arg =>
    have hu : u ≠ uid := by simpa [capaMove] using h
    rw [handle, pop3CapaUids_pop3Request, if_neg hu]
  | pop3Data u isOrig data =>
    have hclose : ¬(u = uid ∧ data = dot) := by simpa [capaMove] using h
    rw [handle, pop3CapaUids_pop3Data, and_iff_left hclose]
  | analyzerConfirmation u isImap =>
    cases u <;> cases isImap <;> simp [handle, analyzerConfirmation]
  | signatureMatch u msg data =>
    simp only [handle, signatureMatch]
    split <;> rfl
  | connectionStateRemove u =>
    simp only [handle, connectionStateRemove]
    split
    · rfl
    · split <;> rfl
  | _ => rfl

theorem mem_pop3CapaUids_run (events : List Event) (uid : String) :
    uid ∈ (run events).pop3CapaUids ↔ capaOpen uid events := by
  apply Journal.flag_foldl fun s : State => uid ∈ s.pop3CapaUids
  · intro s e b h
    exact pop3CapaUids_handle_of_move s e h
  · intro s e h
    exact pop3CapaUids_handle_of_stay s e h
  · exact Finset.notMem_empty uid

/-- A row with the type of a POP3 capability is a line of POP3 data that found its window open. -/
theorem capability_mem_writes {s : State} {e : Event} {rec : Info} (h : rec ∈ writes s e)
    (hprotocol : rec.protocol = some .pop3) (htype : rec.eventType = .capability) :
    ∃ isOrig data, e = .pop3Data rec.uid isOrig data ∧ rec.uid ∈ s.pop3CapaUids ∧ data ≠ dot ∧
      data ≠ [] ∧ rec = capabilityRow rec.uid isOrig data := by
  cases e with
  | pop3Data uid isOrig data =>
    simp only [writes, List.mem_ite_nil_right, List.mem_singleton] at h
    obtain ⟨⟨hopen, hdot, hempty⟩, rfl⟩ := h
    exact ⟨isOrig, data, rfl, hopen, hdot, hempty, rfl⟩
  | connectionStateRemove uid =>
    simp only [writes, List.mem_ite_nil_right, List.mem_singleton] at h
    rw [h.2] at hprotocol
    cases hprotocol
  | analyzerConfirmation uid isImap =>
    cases uid <;> cases isImap <;>
      simp only [writes, Event.row?, Option.toList_none, Option.toList_some, List.not_mem_nil,
        List.mem_singleton] at h
    rw [h] at htype
    cases htype
  | imapCapabilities uid capabilities =>
    simp only [writes, Event.row?, Option.toList_some, List.mem_singleton] at h
    rw [h] at hprotocol
    cases hprotocol
  | signatureMatch uid msg data => simp [writes, Event.row?] at h
  | _ =>
    simp only [writes, Event.row?, Option.toList_some, List.mem_singleton] at h
    rw [h] at htype
    cases htype

/-- **Nothing but answers to `CAPA` is taken for a capability**: the log has a capability of a POP3
connection just where a line of data came that is neither empty nor the dot, and of the requests and
the dots before it on its connection the last was a `CAPA`. -/
theorem capability_mem_log_iff (events : List Event) (rec : Info) :
    (rec ∈ (run events).log ∧ rec.protocol = some .pop3 ∧ rec.eventType = .capability) ↔
      ∃ before uid isOrig data after, events = before ++ .pop3Data uid isOrig data :: after ∧
        capaOpen uid before ∧ data ≠ dot ∧ data ≠ [] ∧ rec = capabilityRow uid isOrig data := by
  have hmem := Journal.mem_foldl_iff log_handle (s := {}) (l := events) (a := rec)
  constructor
  · rintro ⟨hrec, hprotocol, htype⟩
    rcases hmem.mp hrec with hnil | ⟨before, e, after, rfl, he⟩
    · cases hnil
    · obtain ⟨isOrig, data, rfl, hopen, hdot, hempty, heq⟩ :=
        capability_mem_writes he hprotocol htype
      exact ⟨before, rec.uid, isOrig, data, after, rfl, (mem_pop3CapaUids_run _ _).mp hopen, hdot,
        hempty, heq⟩
  · rintro ⟨before, uid, isOrig, data, after, rfl, hopen, hdot, hempty, rfl⟩
    refine ⟨hmem.mpr (Or.inr ⟨before, _, after, rfl, ?_⟩), rfl, rfl⟩
    have hcapa := (mem_pop3CapaUids_run before uid).mpr hopen
    simpa only [writes, List.mem_ite_nil_right, List.mem_singleton, and_true]
      using ⟨hcapa, hdot, hempty⟩

/-! ## The greeting of a connection that says nothing else -/

/-- The connection of an event. An analyzer may be confirmed for what is no connection, and then
there is none. -/
def Event.uid? : Event → Option String
  | .smtpRequest uid .. | .smtpReply uid .. | .smtpStarttls uid | .imapCapabilities uid _
  | .imapStarttls uid | .pop3Request uid .. | .pop3Reply uid .. | .pop3Starttls uid
  | .pop3Data uid .. | .pop3Unexpected uid .. | .signatureMatch uid .. | .connectionStateRemove uid =>
    some uid
  | .analyzerConfirmation uid _ => uid

/-- The rows of a connection. -/
def rowsOf (uid : String) (log : List Info) : List Info := log.filter (·.uid = uid)

/-- An event that writes a row whatever the state is writes it of its own connection, confirms the
connection, and the row is not that of a greeting. -/
theorem handle_of_row? {s : State} {e : Event} {rec : Info} (h : e.row? = some rec) :
    e.uid? = some rec.uid ∧ rec.eventType ≠ .ambiguousBanner ∧
      (handle s e).confirmedUids = insert rec.uid s.confirmedUids := by
  cases e with
  | pop3Request uid isOrig command arg =>
    cases h
    simp only [handle, pop3Request]
    split <;> simp [Event.uid?, requestRow]
  | analyzerConfirmation uid isImap =>
    cases uid <;> cases isImap <;> cases h
    simp [Event.uid?, handle, analyzerConfirmation, plainRow]
  | pop3Data | signatureMatch | connectionStateRemove => cases h
  | _ =>
    cases h
    simp [Event.uid?, handle, smtpRequest, smtpReply, smtpStarttls, imapCapabilities, imapStarttls,
      pop3Reply, pop3Starttls, pop3Unexpected, requestRow, smtpReplyRow, pop3ReplyRow, plainRow]

/-- The three ways to a row. -/
theorem mem_writes_iff {s : State} {e : Event} {rec : Info} :
    rec ∈ writes s e ↔ e.row? = some rec ∨
      (∃ uid isOrig data, e = .pop3Data uid isOrig data ∧ uid ∈ s.pop3CapaUids ∧ data ≠ dot ∧
        data ≠ [] ∧ rec = capabilityRow uid isOrig data) ∨
      ∃ uid, e = .connectionStateRemove uid ∧ uid ∉ s.confirmedUids ∧ uid ∈ s.greetingUids ∧
        rec = ambiguousRow uid := by
  cases e with
  | pop3Data uid isOrig data =>
    simp [writes, Event.row?, and_assoc]
  | connectionStateRemove uid =>
    simp [writes, Event.row?, and_assoc]
  | _ => simp [writes]

theorem uid_of_mem_writes {s : State} {e : Event} {rec : Info} (h : rec ∈ writes s e) :
    e.uid? = some rec.uid := by
  rcases mem_writes_iff.mp h with hrow | ⟨uid, isOrig, data, rfl, -, -, -, rfl⟩ |
    ⟨uid, rfl, -, -, rfl⟩
  · exact (handle_of_row? (s := s) hrow).1
  · rfl
  · rfl

theorem rowsOf_append (uid : String) (log log' : List Info) :
    rowsOf uid (log ++ log') = rowsOf uid log ++ rowsOf uid log' := List.filter_append ..

theorem run_concat (events : List Event) (e : Event) :
    run (events ++ [e]) = handle (run events) e := by
  simp [run]

/-- The rows of a connection wait for its events. -/
theorem rowsOf_run_append {uid : String} {events after : List Event}
    (hafter : ∀ e ∈ after, e.uid? ≠ some uid) :
    rowsOf uid (run (events ++ after)).log = rowsOf uid (run events).log := by
  induction after using List.reverseRecOn with
  | nil => rw [List.append_nil]
  | append_singleton after e ih =>
    have hrest : ∀ e ∈ after, e.uid? ≠ some uid := fun e he =>
      hafter e (List.mem_append_left _ he)
    have hnone : rowsOf uid (writes (run (events ++ after)) e) = [] := by
      apply List.filter_eq_nil_iff.mpr
      intro rec hrec huid
      have he := uid_of_mem_writes hrec
      rw [of_decide_eq_true huid] at he
      exact hafter e (by simp) he
    rw [← List.append_assoc, run_concat, log_handle, rowsOf_append, hnone, List.append_nil, ih hrest]

theorem mem_confirmedUids_handle (s : State) (e : Event) (uid : String) :
    uid ∈ (handle s e).confirmedUids ↔ uid ∈ s.confirmedUids ∨
      ∃ rec ∈ writes s e, rec.uid = uid ∧ rec.eventType ≠ .ambiguousBanner := by
  cases hrow : e.row? with
  | some rec =>
    obtain ⟨-, htype, hconfirmed⟩ := handle_of_row? (s := s) hrow
    have hwrites : writes s e = [rec] := by
      cases e with
      | pop3Data | connectionStateRemove => cases hrow
      | _ => simp [writes, hrow]
    simp [hconfirmed, hwrites, htype, @eq_comm _ uid, or_comm]
  | none =>
    cases e with
    | pop3Data u isOrig data =>
      simp only [handle, pop3Data, writes]
      by_cases hopen : u ∈ s.pop3CapaUids
      · by_cases hdot : data = dot
        · simp [hopen, hdot]
        · by_cases hempty : data.length = 0
          · simp [hopen, List.length_eq_zero_iff.mp hempty, show [] ≠ dot by decide]
          · simp [hopen, hdot, hempty, List.length_eq_zero_iff.not.mp hempty, capabilityRow,
              plainRow, eq_comm, or_comm]
      · simp [hopen]
    | connectionStateRemove u =>
      have hsame : (connectionStateRemove s u).confirmedUids = s.confirmedUids := by
        simp only [connectionStateRemove]
        split
        · rfl
        · split <;> rfl
      simp [handle, hsame, writes, ambiguousRow]
    | signatureMatch u msg data =>
      simp only [handle, signatureMatch, writes, hrow]
      split <;> simp
    | analyzerConfirmation u isImap =>
      cases u <;> cases isImap <;> simp_all [handle, analyzerConfirmation, writes, Event.row?]
    | _ => cases hrow

/-- A connection is confirmed by a row, and by every row but the one of its greeting. -/
theorem mem_confirmedUids_iff (events : List Event) (uid : String) :
    uid ∈ (run events).confirmedUids ↔
      ∃ rec ∈ (run events).log, rec.uid = uid ∧ rec.eventType ≠ .ambiguousBanner := by
  induction events using List.reverseRecOn with
  | nil => simp [run]
  | append_singleton events e ih =>
    simp only [run_concat, mem_confirmedUids_handle, log_handle, List.mem_append, or_and_right,
      exists_or, ih]

theorem mem_greetingUids_handle (s : State) (e : Event) (uid : String) :
    uid ∈ (handle s e).greetingUids ↔ uid ∈ s.greetingUids ∨
      ∃ data, e = .signatureMatch uid (ascii "sm_ambiguous_greeting") data := by
  cases e with
  | signatureMatch u msg data =>
    simp only [handle, signatureMatch]
    by_cases hmsg : msg = ascii "sm_ambiguous_greeting"
    · simp [hmsg, eq_comm, or_comm]
    · simp [hmsg]
  | pop3Request u isOrig command arg =>
    simp only [handle, pop3Request]
    split <;> simp
  | pop3Data u isOrig data =>
    simp only [handle, pop3Data]
    split
    · simp
    · split
      · simp
      · split <;> simp
  | analyzerConfirmation u isImap =>
    cases u <;> cases isImap <;> simp [handle, analyzerConfirmation]
  | connectionStateRemove u =>
    simp only [handle, connectionStateRemove]
    split
    · simp
    · split <;> simp [State.write]
  | _ =>
    simp [handle, smtpRequest, smtpReply, smtpStarttls, imapCapabilities, imapStarttls, pop3Reply,
      pop3Starttls, pop3Unexpected]

theorem mem_greetingUids_iff (events : List Event) (uid : String) :
    uid ∈ (run events).greetingUids ↔
      ∃ data, .signatureMatch uid (ascii "sm_ambiguous_greeting") data ∈ events := by
  induction events using List.reverseRecOn with
  | nil => simp [run]
  | append_singleton events e ih =>
    simp only [run_concat, mem_greetingUids_handle, ih, List.mem_append, List.mem_singleton,
      exists_or, eq_comm]

/-- The row of a greeting is written where its connection is removed. -/
theorem ambiguousRow_mem_log_iff (events : List Event) (uid : String) :
    ambiguousRow uid ∈ (run events).log ↔ ∃ before after,
      events = before ++ .connectionStateRemove uid :: after ∧
        uid ∉ (run before).confirmedUids ∧ uid ∈ (run before).greetingUids := by
  have hmem := Journal.mem_foldl_iff log_handle (s := {}) (l := events) (a := ambiguousRow uid)
  constructor
  · intro h
    rcases hmem.mp h with hnil | ⟨before, e, after, rfl, he⟩
    · cases hnil
    · rcases mem_writes_iff.mp he with hrow | ⟨u, isOrig, data, -, -, -, -, hrow⟩ |
        ⟨u, rfl, hconfirmed, hgreeting, hrow⟩
      · exact absurd rfl (handle_of_row? (s := {}) hrow).2.1
      · exact absurd (congrArg Info.eventType hrow) (by simp [ambiguousRow, capabilityRow, plainRow])
      · obtain rfl : uid = u := congrArg Info.uid hrow
        exact ⟨before, after, rfl, hconfirmed, hgreeting⟩
  · intro ⟨before, after, heq, hconfirmed, hgreeting⟩
    exact hmem.mpr (Or.inr ⟨before, _, after, heq,
      mem_writes_iff.mpr (Or.inr (Or.inr ⟨uid, rfl, hconfirmed, hgreeting, rfl⟩))⟩)

theorem confirmed_of_rowsOf {events : List Event} {uid : String} :
    uid ∈ (run events).confirmedUids ↔
      ∃ rec ∈ rowsOf uid (run events).log, rec.eventType ≠ .ambiguousBanner := by
  simp only [mem_confirmedUids_iff, rowsOf, List.mem_filter, decide_eq_true_iff, and_assoc]

/-- A row of the type of a greeting is `ambiguousRow`. -/
theorem eq_ambiguousRow {events : List Event} {rec : Info} (h : rec ∈ (run events).log)
    (htype : rec.eventType = .ambiguousBanner) : rec = ambiguousRow rec.uid := by
  have hall := Journal.forall_mem_foldl log_handle (s := {})
    (P := fun rec => rec.eventType = .ambiguousBanner → rec = ambiguousRow rec.uid)
    (fun rec hrec => by cases hrec)
    (fun s e rec hrec htype => by
      rcases mem_writes_iff.mp hrec with hrow | ⟨u, isOrig, data, -, -, -, -, rfl⟩ |
        ⟨u, -, -, -, rfl⟩
      · exact absurd htype (handle_of_row? (s := s) hrow).2.1
      · cases htype
      · rfl) events
  exact hall rec h htype

/-- The removal of a connection is the last that is heard of it. Zeek removes the state of a
connection when it is done with it. -/
def RemovedLast (uid : String) (events : List Event) : Prop :=
  events.Pairwise fun e e' => e = .connectionStateRemove uid → e'.uid? ≠ some uid

/-- Where a connection is removed, the rows of it are those before and what the removal adds. -/
theorem rowsOf_removed {uid : String} {before after : List Event}
    (hlast : RemovedLast uid (before ++ .connectionStateRemove uid :: after)) :
    rowsOf uid (run (before ++ .connectionStateRemove uid :: after)).log =
      rowsOf uid (run before).log ++
        if uid ∉ (run before).confirmedUids ∧ uid ∈ (run before).greetingUids
        then [ambiguousRow uid] else [] := by
  have hafter : ∀ e ∈ after, e.uid? ≠ some uid := fun e he =>
    (List.pairwise_cons.mp (List.pairwise_append.mp hlast).2.1).1 e he rfl
  rw [List.append_cons, rowsOf_run_append hafter, run_concat, log_handle, rowsOf_append]
  congr 1
  simp only [writes]
  split
  · simp [rowsOf, ambiguousRow]
  · rfl

/-- Before its removal a connection has no row of a greeting. -/
theorem not_ambiguous_before {uid : String} {before after : List Event}
    (hlast : RemovedLast uid (before ++ .connectionStateRemove uid :: after)) {rec : Info}
    (hrec : rec ∈ rowsOf uid (run before).log) : rec.eventType ≠ .ambiguousBanner := by
  intro htype
  obtain ⟨hlog, huid⟩ := List.mem_filter.mp hrec
  have heq := eq_ambiguousRow hlog htype
  rw [of_decide_eq_true huid] at heq
  rw [heq] at hlog
  obtain ⟨before', after', rfl, -⟩ := (ambiguousRow_mem_log_iff before uid).mp hlog
  have hno := (List.pairwise_append.mp hlast).2.2 (.connectionStateRemove uid) (by simp)
    (.connectionStateRemove uid) (by simp) rfl
  exact hno rfl

theorem mem_rowsOf_ambiguousRow {events : List Event} {uid : String} :
    ambiguousRow uid ∈ rowsOf uid (run events).log ↔ ambiguousRow uid ∈ (run events).log := by
  simp [rowsOf, ambiguousRow]

/-- A greeting is seen before the removal or not at all. -/
theorem greeting_before {uid : String} {before after : List Event}
    (hlast : RemovedLast uid (before ++ .connectionStateRemove uid :: after)) :
    (∃ data, .signatureMatch uid (ascii "sm_ambiguous_greeting") data ∈
        before ++ .connectionStateRemove uid :: after) ↔
      uid ∈ (run before).greetingUids := by
  rw [mem_greetingUids_iff]
  apply exists_congr
  intro data
  have hafter : .signatureMatch uid (ascii "sm_ambiguous_greeting") data ∉ after := fun he =>
    (List.pairwise_cons.mp (List.pairwise_append.mp hlast).2.1).1 _ he rfl rfl
  simp [hafter]

/-- **A greeting is reported for a connection that nothing else is reported of**: where the removal of
a connection is the last that is heard of it, the log says that its greeting is ambiguous just if it
was removed, its greeting was seen and it has no row of another kind, and then that row is its only
one. -/
theorem ambiguous_iff_alone {events : List Event} {uid : String} (hlast : RemovedLast uid events) :
    (ambiguousRow uid ∈ (run events).log ↔ .connectionStateRemove uid ∈ events ∧
      (∃ data, .signatureMatch uid (ascii "sm_ambiguous_greeting") data ∈ events) ∧
        ∀ rec ∈ rowsOf uid (run events).log, rec = ambiguousRow uid) ∧
      (ambiguousRow uid ∈ (run events).log →
        rowsOf uid (run events).log = [ambiguousRow uid]) := by
  by_cases hremoved : .connectionStateRemove uid ∈ events
  · obtain ⟨before, after, rfl⟩ := List.append_of_mem hremoved
    have hrows := rowsOf_removed hlast
    rw [greeting_before hlast, ← mem_rowsOf_ambiguousRow, hrows]
    by_cases halone : uid ∉ (run before).confirmedUids ∧ uid ∈ (run before).greetingUids
    · have hnil : rowsOf uid (run before).log = [] := by
        apply List.eq_nil_iff_forall_not_mem.mpr
        intro rec hrec
        exact halone.1 (confirmed_of_rowsOf.mpr ⟨rec, hrec, not_ambiguous_before hlast hrec⟩)
      simp [halone.1, halone.2, hnil]
    · rw [if_neg halone, List.append_nil]
      have hnone : ambiguousRow uid ∉ rowsOf uid (run before).log := fun hrec =>
        not_ambiguous_before hlast hrec rfl
      refine ⟨⟨fun hrec => absurd hrec hnone, ?_⟩, fun hrec => absurd hrec hnone⟩
      intro ⟨_, hgreeting, hall⟩
      refine absurd ⟨?_, hgreeting⟩ halone
      intro hconfirmed
      obtain ⟨rec, hrec, htype⟩ := confirmed_of_rowsOf.mp hconfirmed
      exact htype (congrArg Info.eventType (hall rec hrec))
  · have hnone : ambiguousRow uid ∉ (run events).log := by
      intro hrec
      obtain ⟨before, after, rfl, -⟩ := (ambiguousRow_mem_log_iff events uid).mp hrec
      exact hremoved (by simp)
    exact ⟨⟨fun hrec => absurd hrec hnone, fun h => absurd h.1 hremoved⟩,
      fun hrec => absurd hrec hnone⟩

/-- A connection that greets and goes, beside one that speaks. -/
theorem ambiguous_iff_alone_of_greeting :
    rowsOf "C1" (run [.signatureMatch "C1" (ascii "sm_ambiguous_greeting") [],
        .smtpStarttls "C2", .connectionStateRemove "C1", .connectionStateRemove "C2"]).log =
      [ambiguousRow "C1"] :=
  (ambiguous_iff_alone (by simp [RemovedLast, Event.uid?])).2 (by decide)

/-! ## The log keeps no secret -/

/-- Two events that differ only in what a secret command is followed by, in what is read of a line
that is not understood, or in the payload a signature matched. -/
inductive SameButSecrets : Event → Event → Prop
  | same (e : Event) : SameButSecrets e e
  | smtpRequest {uid : String} {isOrig : Bool} {command arg arg' : Text} :
      toUpper command ∈ secretCommands → (arg = [] ↔ arg' = []) →
      SameButSecrets (.smtpRequest uid isOrig command arg) (.smtpRequest uid isOrig command arg')
  | smtpReply {uid : String} {isOrig : Bool} {code : Nat} {cmd msg msg' : Text} :
      toUpper cmd ∈ secretCommands →
      SameButSecrets (.smtpReply uid isOrig code cmd msg) (.smtpReply uid isOrig code cmd msg')
  | pop3Request {uid : String} {isOrig : Bool} {command arg arg' : Text} :
      toUpper command ∈ secretCommands → (arg = [] ↔ arg' = []) →
      SameButSecrets (.pop3Request uid isOrig command arg) (.pop3Request uid isOrig command arg')
  | pop3Unexpected {uid : String} {isOrig : Bool} {msg detail detail' : Text} :
      SameButSecrets (.pop3Unexpected uid isOrig msg detail) (.pop3Unexpected uid isOrig msg detail')
  | signatureMatch {uid : String} {msg data data' : Text} :
      SameButSecrets (.signatureMatch uid msg data) (.signatureMatch uid msg data')

theorem requestRow_secret {protocol : MailProtocol} {uid : String} {isOrig : Bool}
    {command arg arg' : Text} (hsecret : toUpper command ∈ secretCommands)
    (harg : arg = [] ↔ arg' = []) :
    requestRow protocol uid isOrig command arg = requestRow protocol uid isOrig command arg' := by
  have hlength : (0 < arg.length) = (0 < arg'.length) := by
    rw [List.length_pos_iff, List.length_pos_iff, ne_eq, ne_eq, harg]
  simp only [requestRow, redactArgument, hsecret, if_true, hlength]

/-- A secret command is short, so that its bound is itself. -/
theorem boundText_secret {command : Text} (h : command ∈ secretCommands) :
    boundText command = command := by
  have hall : ∀ command ∈ secretCommands, command.length ≤ maxTextLen := by decide
  exact if_pos (hall command h)

theorem toUpper_length (s : Text) : (toUpper s).length = s.length := List.length_map _

theorem smtpReplyRow_secret {uid : String} {isOrig : Bool} {code : Nat} {cmd msg msg' : Text}
    (hsecret : toUpper cmd ∈ secretCommands) :
    smtpReplyRow uid isOrig code cmd msg = smtpReplyRow uid isOrig code cmd msg' := by
  have hcmd : 0 < cmd.length := by
    have hall : ∀ command ∈ secretCommands, 0 < command.length := by decide
    rw [← toUpper_length]
    exact hall _ hsecret
  simp [smtpReplyRow, hcmd, boundText_secret hsecret, hsecret]

theorem handle_sameButSecrets (s : State) (e e' : Event) (h : SameButSecrets e e') :
    handle s e = handle s e' := by
  cases h with
  | same => rfl
  | smtpRequest hsecret harg =>
    simp only [handle, smtpRequest, requestRow_secret hsecret harg]
  | smtpReply hsecret =>
    simp only [handle, smtpReply]
    rw [smtpReplyRow_secret hsecret]
  | pop3Request hsecret harg =>
    simp only [handle, pop3Request, requestRow_secret hsecret harg]
  | pop3Unexpected => rfl
  | signatureMatch => rfl

/-- **The log is blind to secrets**: captures that differ in nothing else leave one log. It is for
whole runs: a secret could not come out later either. -/
theorem log_blind_to_secrets {events events' : List Event}
    (h : List.Forall₂ SameButSecrets events events') : (run events).log = (run events').log := by
  unfold run
  rw [Journal.foldl_congr handle_sameButSecrets h]

/-- Two log-ins with different passwords. -/
theorem log_blind_to_secrets_of_login :
    (run [.pop3Request "C1" true (ascii "user") (ascii "ana"),
        .pop3Request "C1" true (ascii "pass") (ascii "tiger")]).log =
      (run [.pop3Request "C1" true (ascii "user") (ascii "bob"),
        .pop3Request "C1" true (ascii "pass") (ascii "hunter2")]).log :=
  log_blind_to_secrets (.cons (.pop3Request (by decide) (by decide))
    (.cons (.pop3Request (by decide) (by decide)) .nil))

end Email
end Zeek
end SecureMail
