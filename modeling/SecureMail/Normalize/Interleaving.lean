import SecureMail.Lib.Interleaving
import SecureMail.Normalize.Citations
import SecureMail.Normalize.FlowIsolation
import SecureMail.Normalize.ReadableHandshakes
import Mathlib.Data.Prod.Lex
import Mathlib.Data.String.Basic

/-!
# Interleaved connections

The connections of a capture run side by side, and how their rows stand to each other in the logs of
Zeek is an accident of the capture. Each connection has its own rows in order. The normalizers make
lists that are sorted by keys the connection is a part of, and what they make of a connection depends
on its own rows. So they make the same of two interleavings.

The relation between the two inputs is on the logs (`Reinterleaved`), and each normalizer has its
own theorem over it. The argument is the same for all: the tables of a connection are made of its
own rows, so they are the same; what is made of a table is sorted; and the sort key tells
connections apart, so one order is left. Where a log is cut the first step fails, and the theorems
ask that none is.
-/

namespace SecureMail
namespace Normalize

open Fallible (bind_eq_ok pure_eq_ok)
open Interleaving (Interleaved)
open Flows (allRows)
open Py (Val Dict)

/-- The logs that are read by connection. -/
def connectionLogs : List String := ["conn.log", "sm_tcp_recon.log", "sm_email.log", "ssl.log"]

/-- The logs of extracted files. A row of theirs can be about several connections. -/
def fileLogs : List String := ["sm_cert.log", "files.log"]

/-- Every connection has its own rows in the same order. Nothing is said of `weird.log`. The rows of
a file log belong to every connection they name, which may be several, and the loss of the capture
to none. -/
structure Reinterleaved (logs logs' : Record) : Prop where
  connections : ∀ name ∈ connectionLogs,
    Interleaved Sessions.rowIsOf (allRows logs name) (allRows logs' name)
  files : ∀ name ∈ fileLogs,
    Interleaved (fun uid row => Certificates.aboutUid row uid) (allRows logs name)
      (allRows logs' name)
  loss : allRows logs "capture_loss.log" = allRows logs' "capture_loss.log"

/-- No log is cut. -/
def WithinLimits (logs : Record) : Prop :=
  ∀ name ∈ "weird.log" :: "capture_loss.log" :: connectionLogs ++ fileLogs,
    (Sessions.itemsOf (getLog logs name)).length ≤ maxRecords

variable {logs logs' : Record}

theorem Reinterleaved.symm (h : Reinterleaved logs logs') : Reinterleaved logs' logs where
  connections name hname := (h.connections name hname).symm
  files name hname := (h.files name hname).symm
  loss := h.loss.symm

theorem WithinLimits.bounded (h : WithinLimits logs) {name : String}
    (hname : name ∈ "weird.log" :: "capture_loss.log" :: connectionLogs ++ fileLogs) :
    boundedRecords (getLog logs name) maxRecords = allRows logs name :=
  Sessions.boundedRecords_eq (h name hname)

theorem WithinLimits.flows (h : WithinLimits logs) : Flows.WithinLimits logs := by
  intro name hname
  refine h name ?_
  simp only [List.mem_cons, List.not_mem_nil, or_false] at hname
  rcases hname with rfl | rfl | rfl | rfl <;> decide

/-- The normalizer of sessions reads a uid wherever another one does. -/
theorem sessions_asStr {value : Val} {maxLen : Nat} {s : String}
    (h : Flows.asStr value maxLen = some s) : Sessions.asStr value maxLen = some s := by
  cases value with
  | str raw => exact h
  | _ => cases h

/-! ## Flows -/

namespace Flows

theorem rowIsOf_sessions {uid : String} {row : Record} (h : rowIsOf uid row = true) :
    Sessions.rowIsOf uid row = true := by
  unfold rowIsOf at h
  rw [decide_eq_true_iff] at h
  exact decide_eq_true (sessions_asStr h)

theorem reinterleaved_own (h : Reinterleaved logs logs') {name : String}
    (hname : name ∈ connectionLogs) :
    Interleaved rowIsOf (allRows logs name) (allRows logs' name) :=
  (h.connections name hname).of_imp fun _ _ => rowIsOf_sessions

theorem agreeOn_of_reinterleaved (h : Reinterleaved logs logs') (uid : String) :
    AgreeOn uid logs logs' :=
  ⟨(reinterleaved_own h (by decide)).own uid, (reinterleaved_own h (by decide)).own uid, h.loss⟩

theorem readable_of_reinterleaved (h : Reinterleaved logs logs') (hlimits : WithinLimits logs)
    (hlimits' : WithinLimits logs') (hread : LogsReadable logs) : LogsReadable logs' where
  loss := by
    rw [hlimits'.rowsOf (by simp), ← h.loss, ← hlimits.rowsOf (by simp)]
    exact hread.loss
  conn := by
    rw [hlimits'.rowsOf (by simp)]
    intro row hrow
    have hmem : row ∈ rowsOf logs "conn.log" := by
      rw [hlimits.rowsOf (by simp)]
      exact (reinterleaved_own h (by decide)).perm.mem_iff.mpr hrow
    have hold := hread.conn row hmem
    refine ⟨hold.origPort, hold.respPort, fun connection hconnection => ?_⟩
    have hfacts := hold.facts connection hconnection
    refine ⟨hfacts.missedBytes, hfacts.origBytes, hfacts.respBytes, ?_⟩
    rw [hlimits'.keptEvents, ← (agreeOn_of_reinterleaved h _).recon, ← hlimits.keptEvents]
    exact hfacts.events

theorem uid_of_before {a b : Flow} (hab : SortKey.Before flowOrdering a b)
    (hba : SortKey.Before flowOrdering b a) : a.uid = b.uid := by
  have heq := Std.OrientedCmp.isLE_antisymm hab hba
  unfold flowOrdering at heq
  simp only [Ordering.then_eq_eq, Std.LawfulEqCmp.compare_eq_iff_eq] at heq
  exact heq.2.2.2.2.2

theorem sorted_normalizeFlows {preflight : CapturePreflight} {flows : List Flow}
    (h : normalizeFlows logs preflight = .ok flows) :
    flows.Pairwise (SortKey.Before flowOrdering) := by
  obtain ⟨gaps, -, h⟩ := bind_eq_ok.mp h
  obtain ⟨made, -, h⟩ := bind_eq_ok.mp h
  obtain rfl := pure_eq_ok.mp h
  exact SortKey.pairwise_insertionSort made

theorem normalizeFlows_reinterleaved (h : Reinterleaved logs logs') (hlimits : WithinLimits logs)
    (hlimits' : WithinLimits logs') {preflight : CapturePreflight} {flows : List Flow}
    (hrun : normalizeFlows logs preflight = .ok flows) :
    normalizeFlows logs' preflight = .ok flows := by
  have hread := returns_normalizeFlows_iff.mp ⟨flows, hrun⟩
  have hreturns : Fallible.Returns (normalizeFlows logs' preflight) :=
    returns_normalizeFlows_iff.mpr (readable_of_reinterleaved h hlimits hlimits' hread)
  obtain ⟨flows', hrun'⟩ := hreturns
  have hsame : flows' = flows :=
    Interleaving.eq_of_pairwise (f := Flow.uid) (fun _ _ => uid_of_before)
      (sorted_normalizeFlows hrun') (sorted_normalizeFlows hrun) fun uid => (agreeOn_of_reinterleaved h uid).filter_eq hlimits hlimits' hrun hrun'
  rw [← hsame]
  exact hrun'

end Flows

/-! ## Sessions -/

namespace Sessions

/-- A key of a session, ordered part by part. -/
def keyLex (key : String × String × Nat × String × Nat × String) :
    String ×ₗ String ×ₗ Nat ×ₗ String ×ₗ Nat ×ₗ String :=
  toLex (key.1, toLex (key.2.1, toLex (key.2.2.1, toLex (key.2.2.2.1,
    toLex (key.2.2.2.2.1, key.2.2.2.2.2)))))

theorem ite_lt_iff {α : Type} [LinearOrder α] {x y : α} {b : Bool} :
    (if x ≠ y then decide (x < y) else b) = true ↔ x < y ∨ x = y ∧ b = true := by
  by_cases hxy : x = y
  · simp [hxy]
  · simp [hxy]

theorem keyLe_iff {a b : String × String × Nat × String × Nat × String} :
    Tables.keyLe a b = true ↔ keyLex a ≤ keyLex b := by
  unfold Tables.keyLe keyLex
  simp only [ite_lt_iff, Prod.Lex.toLex_le_toLex, decide_eq_true_eq]

theorem keyLex_inj {a b : String × String × Nat × String × Nat × String}
    (h : keyLex a = keyLex b) : a = b := by
  unfold keyLex at h
  simp only [toLex_inj, Prod.mk.injEq] at h
  obtain ⟨h₁, h₂, h₃, h₄, h₅, h₆⟩ := h
  exact Prod.ext h₁ (Prod.ext h₂ (Prod.ext h₃ (Prod.ext h₄ (Prod.ext h₅ h₆))))

theorem uid_sessionKey (t : Tables) (s : EmailSession) :
    (t.sessionKey s).2.2.2.2.2 = s.uid := by
  unfold Tables.sessionKey
  cases t.flowByUid.get? s.uid <;> rfl

theorem uid_of_keyLe {t : Tables} {a b : EmailSession}
    (hab : Tables.keyLe (t.sessionKey a) (t.sessionKey b) = true)
    (hba : Tables.keyLe (t.sessionKey b) (t.sessionKey a) = true) : a.uid = b.uid := by
  have hkeys := keyLex_inj (le_antisymm (keyLe_iff.mp hab) (keyLe_iff.mp hba))
  rw [← uid_sessionKey t a, ← uid_sessionKey t b, hkeys]

theorem sorted_sessions (t : Tables) :
    t.sessions.Pairwise fun a b => Tables.keyLe (t.sessionKey a) (t.sessionKey b) = true := by
  have htotal : Std.Total fun a b : EmailSession =>
      Tables.keyLe (t.sessionKey a) (t.sessionKey b) = true :=
    ⟨fun a b => by rw [keyLe_iff, keyLe_iff]; exact le_total _ _⟩
  have htrans : IsTrans EmailSession fun a b =>
      Tables.keyLe (t.sessionKey a) (t.sessionKey b) = true :=
    ⟨fun a b c => by rw [keyLe_iff, keyLe_iff, keyLe_iff]; exact le_trans⟩
  exact List.pairwise_insertionSort _ _

theorem normalizeSessions_reinterleaved (h : Reinterleaved logs logs') {flows : List Flow}
    {frames : Option (List Val)} (hadmissible : SessionInput.Admissible ⟨logs, frames⟩)
    (hadmissible' : SessionInput.Admissible ⟨logs', frames⟩) {sessions : List EmailSession}
    (hrun : normalizeSessions logs flows frames = .ok sessions) :
    normalizeSessions logs' flows frames = .ok sessions := by
  have hemail := h.connections "sm_email.log" (by decide)
  have hssl := h.connections "ssl.log" (by decide)
  have hagree : ∀ uid, SessionInput.AgreeOn flows uid ⟨logs, frames⟩ ⟨logs', frames⟩ :=
    fun uid => ⟨hemail.own uid, hssl.own uid, rfl⟩
  have hread : SessionInput.Readable flows ⟨logs, frames⟩ :=
    hadmissible.returns_iff.mp ⟨sessions, hrun⟩
  have hread' : SessionInput.Readable flows ⟨logs', frames⟩ :=
    ⟨fun row hrow => hread.1 row (hemail.perm.mem_iff.mpr hrow), hread.2⟩
  obtain ⟨sessions', hrun'⟩ := hadmissible'.returns_iff.mpr hread'
  obtain ⟨t, ht, rfl⟩ := normalizeSessions_eq_ok.mp hrun
  obtain ⟨t', ht', rfl⟩ := normalizeSessions_eq_ok.mp hrun'
  have hshare : ∀ uid, Tables.SameShare uid t t' := fun uid =>
    SessionInput.sameShare hadmissible hadmissible' (hagree uid) ht ht'
  have hkeys : t.sessionKey = t'.sessionKey := by
    funext s
    unfold Tables.sessionKey
    rw [(hshare s.uid).flowByUid]
  have hsorted := sorted_sessions t
  rw [hkeys] at hsorted
  have hsame : t.sessions = t'.sessions :=
    Interleaving.eq_of_pairwise (f := EmailSession.uid) (fun _ _ => uid_of_keyLe) hsorted
      (sorted_sessions t') fun uid => (hshare uid).sessions (regular_of_readTables ht) (regular_of_readTables ht')
  rw [hsame]
  exact hrun'

end Sessions

/-! ## Handshakes -/

namespace Handshakes

open Tls (TlsParameterIndex)

/-- The row is of this connection. -/
def rowIsOf (uid : String) (row : Record) : Bool := asStr (row.get "uid") maxUidLen = some uid

theorem rowIsOf_sessions {uid : String} {row : Record} (h : rowIsOf uid row = true) :
    Sessions.rowIsOf uid row = true := by
  unfold rowIsOf at h
  rw [decide_eq_true_iff] at h
  exact decide_eq_true (sessions_asStr h)

/-- The order of emission, as a comparison. -/
def handshakeOrdering (a b : TlsHandshake) : Ordering :=
  (Ord.compare a.uid b.uid).then (Ord.compare a.sslHistory b.sslHistory)

instance : Std.TransCmp handshakeOrdering :=
  inferInstanceAs (Std.TransCmp
    (compareLex (compareOn fun h : TlsHandshake => h.uid) (compareOn fun h => h.sslHistory)))

theorem uidHistoryLe_iff_before {a b : TlsHandshake} :
    uidHistoryLe a b = true ↔ SortKey.Before handshakeOrdering a b := by
  unfold SortKey.Before handshakeOrdering
  rw [uidHistoryLe_iff, Ordering.isLE_then_iff_or]
  simp only [compare_lt_iff_lt, Std.LawfulEqCmp.compare_eq_iff_eq, ← Ordering.ne_gt_iff_isLE,
    compare_le_iff_le]

theorem uid_of_before {a b : TlsHandshake} (hab : SortKey.Before handshakeOrdering a b)
    (hba : SortKey.Before handshakeOrdering b a) : a.uid = b.uid := by
  have heq := Std.OrientedCmp.isLE_antisymm hab hba
  unfold handshakeOrdering at heq
  simp only [Ordering.then_eq_eq, Std.LawfulEqCmp.compare_eq_iff_eq] at heq
  exact heq.1

/-- A row adds the handshake of its connection, or none, whatever was made before. -/
theorem rowStep_cases {flowByUid : Dict String Flow} {index : TlsParameterIndex}
    {framesByUid : Dict String (List Record)} {row : Record} {made made' : List TlsHandshake}
    (h : rowStep flowByUid index framesByUid made row = .ok made') :
    ∃ one : Option TlsHandshake, (∀ handshake ∈ one, rowIsOf handshake.uid row = true) ∧
      made' = made ++ one.toList ∧
        ∀ other, rowStep flowByUid index framesByUid other row = .ok (other ++ one.toList) := by
  obtain ⟨one, hone, h⟩ := bind_eq_ok.mp h
  have hsame : ∀ other, rowStep flowByUid index framesByUid other row =
      .ok (other ++ one.toList) := by
    intro other
    unfold rowStep
    simp only [hone]
    cases one with
    | none => exact congrArg Except.ok (List.append_nil other).symm
    | some handshake => rfl
  refine ⟨one, ?_, ?_, hsame⟩
  · intro handshake hmem
    obtain rfl := Option.mem_def.mp hmem
    exact decide_eq_true (madeFrom_of_eq_ok hone).uid
  · cases one with
    | none =>
      obtain rfl := pure_eq_ok.mp h
      exact (List.append_nil made).symm
    | some handshake => exact (pure_eq_ok.mp h).symm

/-- The handshakes of a connection. -/
def share (uid : String) (made : List TlsHandshake) : List TlsHandshake :=
  made.filter fun handshake => handshake.uid = uid

theorem spares_rowStep (flowByUid : Dict String Flow) (index : TlsParameterIndex)
    (framesByUid : Dict String (List Record)) (uid : String) :
    Isolation.Spares (rowStep flowByUid index framesByUid) (share uid) (rowIsOf uid) := by
  intro made made' row hother h
  obtain ⟨one, hown, rfl, -⟩ := rowStep_cases h
  unfold share
  rw [List.filter_append]
  cases one with
  | none => exact List.append_nil _
  | some handshake =>
    have huid : handshake.uid ≠ uid := by
      rintro rfl
      rw [hown handshake rfl] at hother
      cases hother
    simp [huid]

theorem share_of_run {flowByUid : Dict String Flow} {index : TlsParameterIndex}
    {framesByUid : Dict String (List Record)} {rows rows' : List Record} {uid : String}
    (hrows : rows.filter (rowIsOf uid) = rows'.filter (rowIsOf uid))
    {made made' : List TlsHandshake}
    (h : rows.foldlM (rowStep flowByUid index framesByUid) [] = .ok made)
    (h' : rows'.foldlM (rowStep flowByUid index framesByUid) [] = .ok made') :
    share uid made = share uid made' := by
  refine Isolation.share_eq_of_filter_eq (spares_rowStep _ _ _ uid) (spares_rowStep _ _ _ uid) hrows
    ?_ rfl h h'
  intro row _ _ s s' t t' hst hs ht
  obtain ⟨one, -, rfl, hsame⟩ := rowStep_cases hs
  obtain rfl := Except.ok.inj ((hsame t).symm.trans ht)
  unfold share at *
  rw [List.filter_append, List.filter_append, hst]

theorem insertionSort_uidHistoryLe (made : List TlsHandshake) :
    (made.insertionSort fun a b => uidHistoryLe a b = true) =
      made.insertionSort (SortKey.Before handshakeOrdering) :=
  SortKey.insertionSort_congr (List.pairwise_of_forall fun _ _ => uidHistoryLe_iff_before)

theorem readable_of_reinterleaved (h : Reinterleaved logs logs') (hlimits : WithinLimits logs)
    (hlimits' : WithinLimits logs') {flows : List Flow} {index : TlsParameterIndex}
    {frames : Option (List Val)} (hread : InputReadable logs flows index frames) :
    InputReadable logs' flows index frames where
  frames := hread.frames
  rows := by
    rw [hlimits'.bounded (by decide)]
    intro row hrow
    refine hread.rows row ?_
    rw [hlimits.bounded (by decide)]
    exact (h.connections "ssl.log" (by decide)).perm.mem_iff.mpr hrow

theorem normalizeHandshakes_reinterleaved (h : Reinterleaved logs logs') (hlimits : WithinLimits logs)
    (hlimits' : WithinLimits logs') {flows : List Flow} {index : TlsParameterIndex}
    {frames : Option (List Val)} {handshakes : List TlsHandshake}
    (hrun : normalizeHandshakes logs flows index frames = .ok handshakes) :
    normalizeHandshakes logs' flows index frames = .ok handshakes := by
  have hread := returns_normalizeHandshakes_iff.mp ⟨handshakes, hrun⟩
  obtain ⟨handshakes', hrun'⟩ :=
    returns_normalizeHandshakes_iff.mpr (readable_of_reinterleaved h hlimits hlimits' hread)
  obtain ⟨framesByUid, hframes, hmade⟩ := bind_eq_ok.mp hrun
  obtain ⟨framesByUid', hframes', hmade'⟩ := bind_eq_ok.mp hrun'
  obtain rfl := Except.ok.inj (hframes.symm.trans hframes')
  obtain ⟨made, hmade, hsorted⟩ := bind_eq_ok.mp hmade
  obtain ⟨made', hmade', hsorted'⟩ := bind_eq_ok.mp hmade'
  rw [hlimits.bounded (by decide)] at hmade
  rw [hlimits'.bounded (by decide)] at hmade'
  have hown : Interleaved rowIsOf (allRows logs "ssl.log") (allRows logs' "ssl.log") :=
    (h.connections "ssl.log" (by decide)).of_imp fun _ _ => rowIsOf_sessions
  have hsame : made.insertionSort (SortKey.Before handshakeOrdering) =
      made'.insertionSort (SortKey.Before handshakeOrdering) := by
    refine Interleaving.eq_of_pairwise (f := TlsHandshake.uid) (fun _ _ => uid_of_before)
      (SortKey.pairwise_insertionSort made) (SortKey.pairwise_insertionSort made') fun uid => ?_
    rw [SortKey.filter_insertionSort, SortKey.filter_insertionSort]
    exact congrArg _ (share_of_run (hown.own uid) hmade hmade')
  rw [hrun', ← pure_eq_ok.mp hsorted, ← pure_eq_ok.mp hsorted', insertionSort_uidHistoryLe,
    insertionSort_uidHistoryLe, hsame]

end Handshakes

end Normalize
end SecureMail
