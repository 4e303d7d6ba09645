import SecureMail.Normalize.Handshakes
import SecureMail.Normalize.SessionTables
import SecureMail.Starttls.Acceptance
import SecureMail.Lib.Run

/-!
# Two readers of one history

Without frames, whether a connection began TLS is one letter in one field: `C` in the `ssl_history`
of its `ssl.log` row. The session normalizer reads the field for the upgrade machines, the handshake
normalizer reads it for the record, and each has its own `_as_str`. The first takes sixty-four
characters and joins lists; the second takes a hundred, which is the length Zeek cuts a history at,
and strings alone. On a history between the two limits the record shows the handshake and the
machine is told there was none, so a healthy upgrade is reported as accepted and never encrypted.

`ReadAlike` is the condition on the row under which the two readings cannot come apart.
-/

namespace SecureMail
namespace Normalize

open Py (Val isIn)
open Starttls (UpgradeMachine)

/-! ## The law and the condition -/

/-- Of the rows that are read, this one alone is of the connection. With two rows the two
normalizers could each read another one, and the comparison would be of two histories. -/
def OneSslRow (logs : Record) (uid : String) (row : Record) : Prop :=
  (boundedRecords (getLog logs "ssl.log") maxRecords).filter
    (fun r => Sessions.asStr (r.get "uid") Sessions.maxUidLen = some uid) = [row]

namespace OneSslRow

variable {logs : Record} {uid : String} {row : Record}

theorem mem_filter (h : OneSslRow logs uid row) :
    row ∈ (boundedRecords (getLog logs "ssl.log") maxRecords).filter
      (fun r => Sessions.asStr (r.get "uid") Sessions.maxUidLen = some uid) := by
  rw [show List.filter _ _ = [row] from h]
  exact List.mem_singleton_self row

theorem mem (h : OneSslRow logs uid row) :
    row ∈ boundedRecords (getLog logs "ssl.log") maxRecords :=
  (List.mem_filter.mp h.mem_filter).1

theorem uid_eq (h : OneSslRow logs uid row) :
    Sessions.asStr (row.get "uid") Sessions.maxUidLen = some uid :=
  of_decide_eq_true (List.mem_filter.mp h.mem_filter).2

theorem eq_of_mem (h : OneSslRow logs uid row) {r : Record}
    (hr : r ∈ boundedRecords (getLog logs "ssl.log") maxRecords)
    (huid : Sessions.asStr (r.get "uid") Sessions.maxUidLen = some uid) : r = row := by
  have hfilter : r ∈ (boundedRecords (getLog logs "ssl.log") maxRecords).filter
      (fun r => Sessions.asStr (r.get "uid") Sessions.maxUidLen = some uid) :=
    List.mem_filter.mpr ⟨hr, decide_eq_true huid⟩
  rw [show List.filter _ _ = [row] from h] at hfilter
  exact List.mem_singleton.mp hfilter

end OneSslRow

/-- The record of the connection shows a ClientHello. -/
def HandshakeShowsHello (handshakes : List TlsHandshake) (uid : String) : Prop :=
  ∃ h ∈ handshakes, h.uid = uid ∧ isIn "C" h.sslHistory = true

/-- The flag the machines are given is the one the record shows, so no upgrade with a handshake on
record is called accepted, or a violation, for want of a ClientHello. -/
structure ClientHelloAgrees (t : Sessions.Tables) (handshakes : List TlsHandshake) (uid : String) :
    Prop where
  flag : Sessions.clientHelloObserved (t.sslByUid.get? uid) (t.helloOf uid) = true ↔
    HandshakeShowsHello handshakes uid
  verdict : HandshakeShowsHello handshakes uid → ∀ s ∈ t.sessions, s.uid = uid →
    ∀ upgrade, s.explicitUpgrade = some upgrade →
      upgrade.state ≠ some .accepted ∧ upgrade.state ≠ some .violation

/-- A history of sixty-five to a hundred characters has no `C`, and where the uid or the history is
a list, what the session normalizer makes of the history has none. The condition is on the row as
Zeek wrote it. A row that Zeek writes meets it unless its history is longer than sixty-four
characters and shows a ClientHello. -/
def ReadAlike (row : Record) : Prop :=
  match row.get "uid", row.get "ssl_history" with
  | .str _, .str history => 64 < history.length → history.length ≤ 100 → isIn "C" history = false
  | _, history => isIn "C" ((Sessions.asStr history 64).getD "") = false

/-! ## What the two normalizers read -/

/-- The session normalizer's reading. -/
theorem sessions_hello {logs : Record} {flows : List Flow} {t : Sessions.Tables} {uid : String}
    {row : Record} (h : Sessions.readTables logs flows none = .ok t)
    (hrow : OneSslRow logs uid row) :
    Sessions.clientHelloObserved (t.sslByUid.get? uid) (t.helloOf uid) =
      isIn "C" ((Sessions.asStr (row.get "ssl_history") 64).getD "") := by
  obtain ⟨_, hssl, _, htshark⟩ := Sessions.readTables_eq_ok.mp h
  have hhello : t.helloOf uid = [] := by
    unfold Sessions.Tables.helloOf
    rw [← Except.ok.inj htshark]
    rfl
  have hfacts : t.sslByUid.get? uid = some (Sessions.sslFactsOf row) := by
    rw [hssl, Sessions.sslFacts, Sessions.foldl_sslStep_get?, show List.filter _ _ = [row] from hrow]
    rfl
  rw [hhello, hfacts]
  rfl

theorem asStr_sessions {value : Val} {maxLen : Nat} {s : String}
    (h : Handshakes.asStr value maxLen = some s) : Sessions.asStr value maxLen = some s := by
  obtain rfl := Handshakes.eq_str_of_asStr h
  exact h

/-- One row adds the handshake of its connection. -/
theorem rowStep_shows {flowByUid : Py.Dict String Flow} {index : Tls.TlsParameterIndex}
    {framesByUid : Py.Dict String (List Record)} {made made' : List TlsHandshake} {r : Record}
    {uid : String} (h : Handshakes.rowStep flowByUid index framesByUid made r = .ok made') :
    HandshakeShowsHello made' uid ↔ HandshakeShowsHello made uid ∨
      Handshakes.asStr (r.get "uid") Handshakes.maxUidLen = some uid ∧
        isIn "C" (Handshakes.historyOf r) = true := by
  obtain ⟨one, hone, h⟩ := Fallible.bind_eq_ok.mp h
  have hspec := Handshakes.handshakeFromRow_eq_ok hone
  cases huid : Handshakes.asStr (r.get "uid") Handshakes.maxUidLen with
  | none =>
    rw [huid] at hspec
    rw [hspec] at h
    obtain rfl := Fallible.pure_eq_ok.mp h
    simp
  | some owner =>
    rw [huid] at hspec
    obtain ⟨handshake, rfl, hmade⟩ := hspec
    obtain rfl := Fallible.pure_eq_ok.mp h
    obtain rfl : owner = handshake.uid := Option.some.inj (huid.symm.trans hmade.uid)
    simp only [HandshakeShowsHello, List.mem_append, List.mem_singleton, or_and_right, exists_or,
      exists_eq_left, hmade.sslHistory, Option.some.injEq]

/-- The handshake normalizer's reading. -/
theorem handshakes_hello {logs : Record} {flows : List Flow} {index : Tls.TlsParameterIndex}
    {handshakes : List TlsHandshake} {uid : String} {row : Record}
    (h : Handshakes.normalizeHandshakes logs flows index none = .ok handshakes)
    (hrow : OneSslRow logs uid row) :
    HandshakeShowsHello handshakes uid ↔
      Handshakes.asStr (row.get "uid") Handshakes.maxUidLen = some uid ∧
        isIn "C" (Handshakes.historyOf row) = true := by
  obtain ⟨framesByUid, _, h⟩ := Fallible.bind_eq_ok.mp h
  obtain ⟨made, hmade, h⟩ := Fallible.bind_eq_ok.mp h
  obtain rfl := Fallible.pure_eq_ok.mp h
  have hperm : HandshakeShowsHello (made.insertionSort fun a b =>
      Handshakes.uidHistoryLe a b = true) uid ↔ HandshakeShowsHello made uid := by
    simp only [HandshakeShowsHello, (List.perm_insertionSort _ _).mem_iff]
  have hcollect := Fallible.foldlM_collect (P := fun made => HandshakeShowsHello made uid)
    (Q := fun r : Record => Handshakes.asStr (r.get "uid") Handshakes.maxUidLen = some uid ∧
      isIn "C" (Handshakes.historyOf r) = true) (fun _ _ _ hstep => rowStep_shows hstep) hmade
  rw [hperm, hcollect]
  constructor
  · rintro (⟨_, hnil, _⟩ | ⟨r, hr, huid, hletter⟩)
    · exact absurd hnil (by simp)
    · -- A row of the connection here is one there, and there is one there.
      obtain rfl := hrow.eq_of_mem hr (asStr_sessions huid)
      exact ⟨huid, hletter⟩
  · intro hread
    exact Or.inr ⟨row, hrow.mem, hread⟩

/-! ## The two readings of one row -/

theorem hello_of_empty : isIn "C" "" = false := by decide

/-- The letter in what either reader makes of a string. -/
theorem hello_asStr_str (s : String) (maxLen : Nat) :
    isIn "C" ((Handshakes.asStr (.str s) maxLen).getD "") = true ↔
      s.length ≤ maxLen ∧ isIn "C" s = true := by
  rw [Handshakes.asStr_str]
  split
  · rename_i hrefused
    rw [Option.getD_none, hello_of_empty]
    constructor
    · intro h
      exact absurd h (by simp)
    · rintro ⟨hlen, hletter⟩
      rcases hrefused with rfl | hlong
      · rw [hello_of_empty] at hletter
        exact absurd hletter (by simp)
      · omega
  · rename_i hread
    rw [not_or] at hread
    rw [Option.getD_some]
    exact ⟨fun h => ⟨by omega, h⟩, fun h => h.2⟩

theorem readAlike_iff {row : Record} {uid : String}
    (huid : Sessions.asStr (row.get "uid") Sessions.maxUidLen = some uid) :
    ReadAlike row ↔
      (isIn "C" ((Sessions.asStr (row.get "ssl_history") 64).getD "") = true ↔
        Handshakes.asStr (row.get "uid") Handshakes.maxUidLen = some uid ∧
          isIn "C" (Handshakes.historyOf row) = true) := by
  unfold ReadAlike Handshakes.historyOf
  generalize row.get "uid" = owner at huid
  generalize row.get "ssl_history" = history
  cases owner with
  | str u =>
    have hread : Handshakes.asStr (.str u) Handshakes.maxUidLen = some uid := huid
    cases history with
    | str s =>
      have hsessions := hello_asStr_str s 64
      have hhandshakes := hello_asStr_str s 100
      rw [show Sessions.asStr (.str s) 64 = Handshakes.asStr (.str s) 64 from rfl, hsessions,
        show Handshakes.maxHistoryLen = 100 from rfl, hhandshakes]
      cases hletter : isIn "C" s with
      | true =>
        simp only [hread, hletter, true_and, and_true, reduceCtorEq, imp_false]
        omega
      | false => simp [hletter]
    | list items => simp [Handshakes.asStr, hello_of_empty]
    | _ => simp [Handshakes.asStr, Sessions.asStr, hello_of_empty]
  | list items => simp [Handshakes.asStr]
  | _ => exact absurd huid (by simp [Sessions.asStr])

/-! ## The law, up to the condition -/

/-- With the flag up no machine ends in `accepted` or `violation`. -/
theorem verdict_of_hello {protocol : Option MailProtocol} {events : List ProtocolEvent}
    {helloFrames : List Nat} :
    (Sessions.explicitUpgradeOf protocol events true helloFrames).state ≠ some .accepted ∧
      (Sessions.explicitUpgradeOf protocol events true helloFrames).state ≠ some .violation := by
  cases protocol with
  | none => simp [Sessions.explicitUpgradeOf]
  | some p =>
    cases p with
    | smtp =>
      exact ⟨Starttls.Smtp.machine.no_bare_acceptance_after_hello events helloFrames,
        Starttls.Smtp.machine.no_violation_after_hello events helloFrames⟩
    | imap =>
      exact ⟨Starttls.Imap.machine.no_bare_acceptance_after_hello events helloFrames,
        Starttls.Imap.machine.no_violation_after_hello events helloFrames⟩
    | pop3 =>
      exact ⟨Starttls.Pop3.machine.no_bare_acceptance_after_hello events helloFrames,
        Starttls.Pop3.machine.no_violation_after_hello events helloFrames⟩

/-- **The two normalizers agree on the ClientHello exactly where they read the row alike.** For a
connection with one row of `ssl.log`, and no frames. -/
theorem clientHello_agrees_iff {logs : Record} {flows : List Flow} {index : Tls.TlsParameterIndex}
    {t : Sessions.Tables} {handshakes : List TlsHandshake} {uid : String} {row : Record}
    (hsessions : Sessions.readTables logs flows none = .ok t)
    (hhandshakes : Handshakes.normalizeHandshakes logs flows index none = .ok handshakes)
    (hrow : OneSslRow logs uid row) :
    ClientHelloAgrees t handshakes uid ↔ ReadAlike row := by
  rw [readAlike_iff hrow.uid_eq, ← handshakes_hello hhandshakes hrow, ← sessions_hello hsessions hrow]
  refine ⟨fun h => h.flag, fun hflag => ⟨hflag, ?_⟩⟩
  rintro hshows s hs rfl upgrade hupgrade
  obtain ⟨flow, _, _, hbuild⟩ :=
    Sessions.Tables.sessionFor_eq_some.mp (Sessions.Tables.mem_sessions.mp hs).2
  have hverdict : s.explicitUpgrade = some (Sessions.explicitUpgradeOf s.protocol s.events
      (Sessions.clientHelloObserved (t.sslByUid.get? s.uid) (t.helloOf s.uid))
      (t.helloOf s.uid)) := by
    rw [← hbuild]
    rfl
  rw [hflag.mpr hshows] at hverdict
  rw [← Option.some.inj (hverdict.symm.trans hupgrade)]
  exact verdict_of_hello

/-! ## A handshake that was renegotiated -/

/-- A TLS 1.2 handshake, and so many more the server asked for. -/
def renegotiated (times : Nat) : String :=
  "CsxkngiIfF" ++ String.join (List.replicate times "hCsxkngiIfF")

def upgradeRow (history : String) : Record := [("uid", .str "C1"), ("ssl_history", .str history)]

/-- `STARTTLS`, the 220 that accepts it, and the handshake. -/
def upgradeLogs (history : String) : Record :=
  [("sm_email.log", .list
      [.dict [("uid", .str "C1"), ("protocol", .str "smtp"), ("event_type", .str "request"),
        ("command", .str "STARTTLS")],
       .dict [("uid", .str "C1"), ("protocol", .str "smtp"), ("event_type", .str "reply"),
        ("reply_code", .int 220), ("is_orig", .bool false)]]),
   ("ssl.log", .list [.dict (upgradeRow history)])]

def upgradeSession (upgrade : ExplicitUpgrade) : EmailSession :=
  { uid := "C1", protocol := some .smtp, portHint := .smtp, payloadEvidence := .smtp,
    evidenceState := .observed,
    events := [{ direction := .orig, kind := .request, command := some "STARTTLS",
                 source := some .zeek },
               { direction := .resp, kind := .reply, replyCode := some 220,
                 source := some .zeek }],
    explicitUpgrade := some upgrade,
    implicitTls := some { evidenceState := .notObservable } }

theorem renegotiated_upgrade_called_plaintext :
    ∃ t handshakes,
      Sessions.readTables (upgradeLogs (renegotiated 5)) [Flow.toPort "C1" 25] none = .ok t ∧
      Handshakes.normalizeHandshakes (upgradeLogs (renegotiated 5)) [Flow.toPort "C1" 25] .empty
        none = .ok handshakes ∧
      OneSslRow (upgradeLogs (renegotiated 5)) "C1" (upgradeRow (renegotiated 5)) ∧
      t.sessions = [upgradeSession { state := some .accepted, evidenceState := .observed }] ∧
      HandshakeShowsHello handshakes "C1" ∧ ¬ ClientHelloAgrees t handshakes "C1" := by
  have hsession : Sessions.normalizeSessions (upgradeLogs (renegotiated 5))
      [Flow.toPort "C1" 25] none =
        .ok [upgradeSession { state := some .accepted, evidenceState := .observed }] := by
    decide +kernel
  have hhandshake : ((Handshakes.normalizeHandshakes (upgradeLogs (renegotiated 5))
      [Flow.toPort "C1" 25] .empty none).toOption.any fun handshakes =>
        handshakes.any fun h => h.uid = "C1" ∧ isIn "C" h.sslHistory = true) = true := by
    decide +kernel
  obtain ⟨t, ht, hsessions⟩ := Sessions.normalizeSessions_eq_ok.mp hsession
  cases hrun : Handshakes.normalizeHandshakes (upgradeLogs (renegotiated 5))
      [Flow.toPort "C1" 25] .empty none with
  | error e =>
    rw [hrun] at hhandshake
    exact absurd hhandshake (by simp [Except.toOption])
  | ok handshakes =>
    have hshows : HandshakeShowsHello handshakes "C1" := by
      rw [hrun] at hhandshake
      simpa [Except.toOption, HandshakeShowsHello] using hhandshake
    refine ⟨t, handshakes, ht, rfl, rfl, hsessions, hshows, fun hagree => ?_⟩
    have hmem := List.mem_singleton_self
      (upgradeSession { state := some .accepted, evidenceState := .observed })
    rw [← hsessions] at hmem
    exact (hagree.verdict hshows _ hmem rfl _ rfl).1 rfl

theorem lone_handshake_agrees :
    ∃ t handshakes,
      Sessions.readTables (upgradeLogs (renegotiated 0)) [Flow.toPort "C1" 25] none = .ok t ∧
      Handshakes.normalizeHandshakes (upgradeLogs (renegotiated 0)) [Flow.toPort "C1" 25] .empty
        none = .ok handshakes ∧ ClientHelloAgrees t handshakes "C1" := by
  have hsession : Sessions.normalizeSessions (upgradeLogs (renegotiated 0))
      [Flow.toPort "C1" 25] none =
        .ok [upgradeSession { state := some .tlsEstablished, evidenceState := .observed }] := by
    decide +kernel
  have hhandshake : (Handshakes.normalizeHandshakes (upgradeLogs (renegotiated 0))
      [Flow.toPort "C1" 25] .empty none).isOk = true := by
    decide +kernel
  obtain ⟨t, ht, _⟩ := Sessions.normalizeSessions_eq_ok.mp hsession
  cases hrun : Handshakes.normalizeHandshakes (upgradeLogs (renegotiated 0))
      [Flow.toPort "C1" 25] .empty none with
  | error e =>
    rw [hrun] at hhandshake
    exact absurd hhandshake (by simp [Except.isOk, Except.toBool])
  | ok handshakes =>
    have hrow : OneSslRow (upgradeLogs (renegotiated 0)) "C1" (upgradeRow (renegotiated 0)) := rfl
    have hshort : ReadAlike (upgradeRow (renegotiated 0)) := by
      intro hlong
      exact absurd hlong (by decide)
    exact ⟨t, handshakes, ht, rfl, (clientHello_agrees_iff ht hrun hrow).mpr hshort⟩

end Normalize
end SecureMail
