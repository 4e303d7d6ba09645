import SecureMail.Evidence.Session
import Mathlib.Data.List.Sort

/-!
# The three explicit-upgrade machines

`smtp_upgrade`, `imap_upgrade` and `pop3_upgrade` are one loop over the events of a session with
seven things changed: the command that asks for the upgrade, which events count as a capability
exchange and as an advertisement, whether a request carries a tag the reply must match, what a reply
says to a pending request, and the two command sets. `UpgradeMachine` is those seven; the loop body
is `step`, the part after the loop is `conclude`, and each machine below is its own values for them.
Two relations between the command sets hold of all three and are fields as well: asking for the
upgrade is harmless, and no credential command is. Without the first a request for the upgrade would
be an injection of itself.

The one structural difference between the sources is the reply. SMTP and POP3 take the first reply
after a request for its answer, whatever it says; IMAP leaves the request pending until a reply
answers its tag. `ReplyVerdict.settle` and `ReplyVerdict.ignore` are those two.

The three sources are three files that were written to look alike, and a fourth protocol would be a
fourth. Stating them as one machine is a claim about the files, to be checked line by line against
each; what it buys is that every result about the loop is proved once and holds of a machine nobody
has written yet.
-/

namespace SecureMail
namespace Starttls

open Py (split startsWith)

/-- What a reply does to a pending upgrade request: accept it, refuse it with the reply cited as
evidence, end the wait without citing anything, or leave the request pending. -/
inductive ReplyVerdict where
  | accept
  | refuse
  | settle
  | ignore
  deriving DecidableEq, Repr

structure UpgradeMachine where
  upgradeCommand : String
  exchangesCapability : ProtocolEvent → Bool
  advertises : ProtocolEvent → Bool
  pendingTag : ProtocolEvent → Option String
  verdict : Option String → ProtocolEvent → ReplyVerdict
  credentialCommands : List String
  harmlessCommands : List String
  upgrade_harmless : upgradeCommand ∈ harmlessCommands
  credential_harmful : ∀ c ∈ credentialCommands, c ∉ harmlessCommands

/-- The local variables of the loop. The pending request is two of them in the source, a tag and a
flag that a reply is awaited, because in two of the protocols a request has no tag. -/
structure UpgradeRun where
  advertised : Bool := false
  requested : Bool := false
  accepted : Bool := false
  sawCapabilityExchange : Bool := false
  violation : Bool := false
  plaintextFallback : Bool := false
  pendingTag : Option String := none
  awaitingReply : Bool := false
  frames : List Nat := []
  deriving DecidableEq

/-- `_add_frame`. -/
def addFrame (frames : List Nat) (event : ProtocolEvent) : List Nat :=
  match event.frameNumber with
  | some n => if (n : Nat) ∈ frames then frames else frames ++ [(n : Nat)]
  | none => frames

/-- `{token for token in text.replace(",", " ").split() if token}`. -/
def tokens (event : ProtocolEvent) : List String :=
  split (Py.replaceChar ',' ' ' event.upperText)

namespace UpgradeMachine

variable (m : UpgradeMachine)

/-- The request for the upgrade. -/
def isUpgradeRequest (e : ProtocolEvent) : Bool :=
  e.kind == .request && e.upperCommand == m.upgradeCommand

def isCredentialRequest (e : ProtocolEvent) : Bool :=
  e.kind == .request && m.credentialCommands.contains e.upperCommand

def isHarmfulRequest (e : ProtocolEvent) : Bool :=
  e.kind == .request && !m.harmlessCommands.contains e.upperCommand

/-- The first lines of the loop body: capability exchange and advertisement. -/
def observe (s : UpgradeRun) (e : ProtocolEvent) : UpgradeRun :=
  let s := if m.exchangesCapability e then { s with sawCapabilityExchange := true } else s
  if m.advertises e then { s with advertised := true, frames := addFrame s.frames e } else s

/-- What the answer to a pending request changes. -/
def answer (s : UpgradeRun) (e : ProtocolEvent) : UpgradeRun :=
  match m.verdict s.pendingTag e with
  | .accept =>
      { s with accepted := true, pendingTag := none, awaitingReply := false,
               frames := addFrame s.frames e }
  | .refuse =>
      { s with pendingTag := none, awaitingReply := false, frames := addFrame s.frames e }
  | .settle => { s with pendingTag := none, awaitingReply := false }
  | .ignore => s

/-- A credential command: cited always, and judged by whether the upgrade has been accepted. -/
def credential (clientHelloObserved : Bool) (s : UpgradeRun) (e : ProtocolEvent) : UpgradeRun :=
  let s := { s with frames := addFrame s.frames e }
  if s.accepted && !clientHelloObserved then { s with violation := true }
  else if !s.accepted then { s with plaintextFallback := true }
  else s

/-- The rest of the loop body, a chain of tests each ending in `continue`. -/
def advance (clientHelloObserved : Bool) (s : UpgradeRun) (e : ProtocolEvent) : UpgradeRun :=
  if m.isUpgradeRequest e then
    { s with requested := true, pendingTag := m.pendingTag e, awaitingReply := true,
             frames := addFrame s.frames e }
  else if s.awaitingReply && e.kind == .reply then m.answer s e
  else if e.kind == .starttls then
    { s with accepted := true, frames := addFrame s.frames e }
  else if e.kind == .unexpected then
    if s.accepted && !clientHelloObserved then
      { s with violation := true, frames := addFrame s.frames e }
    else s
  else if m.isCredentialRequest e then credential clientHelloObserved s e
  else if m.isHarmfulRequest e && s.accepted && !clientHelloObserved then
    { s with violation := true, frames := addFrame s.frames e }
  else s

/-- One pass through the loop body. -/
def step (clientHelloObserved : Bool) (s : UpgradeRun) (e : ProtocolEvent) : UpgradeRun :=
  m.advance clientHelloObserved (m.observe s e) e

/-- The loop. -/
def run (clientHelloObserved : Bool) (events : List ProtocolEvent) : UpgradeRun :=
  events.foldl (m.step clientHelloObserved) {}

/-- The state the flags amount to, by precedence. -/
def terminal (clientHelloObserved : Bool) (s : UpgradeRun) : Option UpgradeState :=
  if s.violation then some .violation
  else if s.plaintextFallback then some .plaintextFallback
  else if s.accepted && clientHelloObserved then some .tlsEstablished
  else if s.accepted then some .accepted
  else if s.requested then some .requested
  else if s.advertised then some .advertised
  else none

/-- Everything after the loop. -/
def conclude (clientHelloObserved : Bool) (clientHelloFrames : List Nat) (s : UpgradeRun) :
    ExplicitUpgrade :=
  let frames :=
    if s.accepted && clientHelloObserved then
      clientHelloFrames.foldl (fun fs f => if f ∈ fs then fs else fs ++ [f]) s.frames
    else s.frames
  let state := terminal clientHelloObserved s
  -- The second guard of the source: no ClientHello, no established TLS.
  let state := if state = some .tlsEstablished ∧ !clientHelloObserved then some .accepted else state
  { state := state
    evidenceState := if state.isSome then .observed else .notObservable
    evidenceFrames := frames.insertionSort (· ≤ ·)
    downgradeConsistent :=
      s.sawCapabilityExchange && !s.advertised && s.requested && s.accepted }

/-- An upgrade machine, as a function of its arguments. -/
def upgrade (events : List ProtocolEvent) (clientHelloObserved : Bool)
    (clientHelloFrames : List Nat) : ExplicitUpgrade :=
  conclude clientHelloObserved clientHelloFrames (m.run clientHelloObserved events)

end UpgradeMachine

/-! ## SMTP -/

namespace Smtp

def starttls : String := "STARTTLS"

def capabilityCommands : List String := ["EHLO", "HELO", "LHLO"]

/-- `_is_starttls_advertisement`. -/
def isStarttlsAdvertisement (event : ProtocolEvent) : Bool :=
  if event.kind == .capability && (split event.upperText).contains starttls then true
  else if event.kind == .reply && (split event.upperText).contains starttls then true
  else event.upperCommand == starttls && event.kind == .reply && event.replyCode == some 250

/-- `_is_capability_reply`. -/
def isCapabilityReply (event : ProtocolEvent) : Bool :=
  if event.kind == .reply && capabilityCommands.contains event.upperCommand then true
  else event.kind == .capability

/-- The first reply settles the request: 2xx accepts, 400 and above refuses. -/
def verdict (event : ProtocolEvent) : ReplyVerdict :=
  match event.replyCode with
  | some code => if 200 ≤ code ∧ code < 300 then .accept else if 400 ≤ code then .refuse else .settle
  | none => .settle

def machine : UpgradeMachine where
  upgradeCommand := starttls
  exchangesCapability := isCapabilityReply
  advertises := isStarttlsAdvertisement
  pendingTag := fun _ => none
  verdict := fun _ => verdict
  credentialCommands := ["AUTH"]
  harmlessCommands := ["EHLO", "HELO", "LHLO", "STARTTLS", "QUIT", "NOOP", "RSET", "HELP"]
  upgrade_harmless := by decide
  credential_harmful := by decide

end Smtp

def smtpUpgrade (events : List ProtocolEvent) (clientHelloObserved : Bool)
    (clientHelloFrames : List Nat) : ExplicitUpgrade :=
  Smtp.machine.upgrade events clientHelloObserved clientHelloFrames

/-! ## IMAP -/

namespace Imap

def starttls : String := "STARTTLS"

/-- `_is_ok`. -/
def isOk (event : ProtocolEvent) : Bool :=
  event.upperText == "OK" || startsWith event.upperText "OK "

/-- `_is_no_or_bad`. -/
def isNoOrBad (event : ProtocolEvent) : Bool :=
  startsWith event.upperText "NO" || startsWith event.upperText "BAD"

/-- A reply answers the pending request when their tags agree or one of them has none. -/
def tagMatches (pendingTag : Option String) (event : ProtocolEvent) : Bool :=
  pendingTag.isNone || event.tag.isNone || event.tag == pendingTag

def verdict (pendingTag : Option String) (event : ProtocolEvent) : ReplyVerdict :=
  if tagMatches pendingTag event && isOk event then .accept
  else if tagMatches pendingTag event && isNoOrBad event then .refuse
  else .ignore

def machine : UpgradeMachine where
  upgradeCommand := starttls
  exchangesCapability := fun e =>
    e.kind == .capability || e.kind == .request && e.upperCommand == "CAPABILITY" ||
      e.kind == .reply && (tokens e).contains starttls
  advertises := fun e =>
    e.kind == .capability && (tokens e).contains starttls ||
      e.kind == .reply && (tokens e).contains starttls
  pendingTag := fun e => e.tag
  verdict := verdict
  credentialCommands := ["LOGIN", "AUTHENTICATE"]
  harmlessCommands := ["CAPABILITY", "STARTTLS", "LOGOUT", "NOOP", "ID"]
  upgrade_harmless := by decide
  credential_harmful := by decide

end Imap

def imapUpgrade (events : List ProtocolEvent) (clientHelloObserved : Bool)
    (clientHelloFrames : List Nat) : ExplicitUpgrade :=
  Imap.machine.upgrade events clientHelloObserved clientHelloFrames

/-! ## POP3 -/

namespace Pop3

def stls : String := "STLS"

/-- `_is_ok`. -/
def isOk (event : ProtocolEvent) : Bool :=
  startsWith event.upperText "+OK" || startsWith event.upperText "OK"

/-- `_is_err`. -/
def isErr (event : ProtocolEvent) : Bool :=
  startsWith event.upperText "-ERR" || startsWith event.upperText "ERR"

def verdict (event : ProtocolEvent) : ReplyVerdict :=
  if isOk event then .accept else if isErr event then .refuse else .settle

def machine : UpgradeMachine where
  upgradeCommand := stls
  exchangesCapability := fun e =>
    e.kind == .request && e.upperCommand == "CAPA" || e.kind == .capability ||
      e.kind == .reply && (tokens e).contains stls
  advertises := fun e =>
    e.kind == .capability && ((tokens e).contains stls || e.upperCommand == stls) ||
      e.kind == .reply && (tokens e).contains stls
  pendingTag := fun _ => none
  verdict := fun _ => verdict
  credentialCommands := ["USER", "PASS", "APOP", "AUTH"]
  harmlessCommands := ["CAPA", "STLS", "QUIT", "NOOP"]
  upgrade_harmless := by decide
  credential_harmful := by decide

end Pop3

def pop3Upgrade (events : List ProtocolEvent) (clientHelloObserved : Bool)
    (clientHelloFrames : List Nat) : ExplicitUpgrade :=
  Pop3.machine.upgrade events clientHelloObserved clientHelloFrames

end Starttls
end SecureMail
