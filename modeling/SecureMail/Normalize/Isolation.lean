import SecureMail.Normalize.Shares
import SecureMail.Normalize.ReadableSessions
import SecureMail.Lib.Keyed

/-!
# Session isolation

Two inputs that agree on the rows and frames of one connection, and on nothing else. The passes leave
the same share of their tables to the connection, and its session is a function of the share: the
stamps that differ are compared with each other only, and the one flag all connections share, that
some frame was matched, is asked together with a frame of the connection.

What is left of the other connections is whether they can be read at all. One row or frame that
cannot be makes the normalizer raise, and then no connection has a session. So a connection is
isolated from a change exactly if the change leaves the input readable (`session_isolated_iff`).
-/

namespace SecureMail
namespace Normalize
namespace Sessions

open Py (Val Dict)

variable {uid : String}

/-! ## The session of a connection -/

namespace Tables

/-- The tables hold the same of the connection, stamps aside. Stamps count the rows of all
connections, so they differ where others do; only their order within the connection matters. -/
structure SameShare (uid : String) (t t' : Tables) : Prop where
  flowByUid : t.flowByUid = t'.flowByUid
  ssl : t.sslByUid.get? uid = t'.sslByUid.get? uid
  zeek : t.zeek.share uid = t'.zeek.share uid
  tshark : t.tshark.share uid = t'.tshark.share uid

/-- What the passes promise of the connection: its stamps are in order, and nothing is noted of it
in a run that matched no frame. -/
structure Regular (uid : String) (t : Tables) : Prop where
  inOrder : InOrder ((t.zeek.zeekByUid.get? uid).getD [] ++ (t.tshark.tsharkEvents.get? uid).getD [])
  used : t.tshark.usedTshark = true ∨
    t.tshark.tsharkByUid.get? uid = none ∧ t.tshark.helloFrames.get? uid = none

variable {t t' : Tables}

/-- What corroborates a connection is its own frames. -/
theorem Regular.corroborationOf (h : t.Regular uid) :
    t.corroborationOf uid =
      if (t.tshark.tsharkByUid.get? uid).isSome || !(t.helloOf uid).isEmpty then .zeekTshark
      else .zeek := by
  unfold Tables.corroborationOf
  rcases h.used with hused | ⟨hnone, hhello⟩
  · rw [hused]
    cases t.tshark.tsharkByUid.get? uid with
    | some protocols => simp
    | none => simp
  · have hhelloOf : t.helloOf uid = [] := by
      unfold helloOf
      rw [hhello]
      rfl
    simp [hnone, hhelloOf]

theorem Regular.eventsOf (h : t.Regular uid) :
    t.eventsOf uid = boundEvents none []
      ((merged (unordered ((t.zeek.zeekByUid.get? uid).getD []))
        (unordered ((t.tshark.tsharkEvents.get? uid).getD []))).insertionSort
          Stamped.notLater) := by
  unfold Tables.eventsOf
  rw [← boundEvents_unordered, unordered_mergeEvents h.inOrder]

namespace SameShare

theorem eventsOf (h : SameShare uid t t') (hr : t.Regular uid) (hr' : t'.Regular uid) :
    t.eventsOf uid = t'.eventsOf uid := by
  rw [hr.eventsOf, hr'.eventsOf, getD_eq_of_unordered (congrArg ZeekShare.events h.zeek),
    getD_eq_of_unordered (congrArg TsharkShare.events h.tshark)]

theorem helloOf (h : SameShare uid t t') : t.helloOf uid = t'.helloOf uid :=
  congrArg TsharkShare.hello h.tshark

theorem protocols (h : SameShare uid t t') :
    t.tshark.tsharkByUid.get? uid = t'.tshark.tsharkByUid.get? uid :=
  congrArg TsharkShare.protocols h.tshark

theorem ambiguous (h : SameShare uid t t') :
    t.zeek.ambiguousUids.contains uid = t'.zeek.ambiguousUids.contains uid :=
  congrArg ZeekShare.ambiguous h.zeek

theorem alpnOf (h : SameShare uid t t') : t.alpnOf uid = t'.alpnOf uid := by
  unfold Tables.alpnOf
  rw [h.ssl]

theorem identityOf (h : SameShare uid t t') : t.identityOf uid = t'.identityOf uid := by
  have hconfirming : t.zeek.confirmingByUid.get? uid = t'.zeek.confirmingByUid.get? uid :=
    congrArg ZeekShare.confirming h.zeek
  unfold Tables.identityOf
  rw [hconfirming, h.ambiguous, h.protocols, h.alpnOf]

theorem implicitCandidate (h : SameShare uid t t') (flow : Flow) :
    t.implicitCandidate uid flow = t'.implicitCandidate uid flow := by
  unfold Tables.implicitCandidate
  rw [h.ssl]

theorem corroborationOf (h : SameShare uid t t') (hr : t.Regular uid) (hr' : t'.Regular uid) :
    t.corroborationOf uid = t'.corroborationOf uid := by
  rw [hr.corroborationOf, hr'.corroborationOf, h.protocols, h.helloOf]

theorem buildSession (h : SameShare uid t t') (hr : t.Regular uid) (hr' : t'.Regular uid)
    (flow : Flow) : t.buildSession uid flow = t'.buildSession uid flow := by
  unfold Tables.buildSession settleIdentity
  rw [h.identityOf, h.implicitCandidate, h.alpnOf, h.corroborationOf hr hr', h.eventsOf hr hr',
    h.ssl, h.helloOf]

theorem sessionFor (h : SameShare uid t t') (hr : t.Regular uid) (hr' : t'.Regular uid) :
    t.sessionFor uid = t'.sessionFor uid := by
  have hskips : t.skips uid = t'.skips uid := by
    funext flow
    unfold Tables.skips
    rw [h.identityOf, h.ambiguous, h.implicitCandidate]
  have hbuild : t.buildSession uid = t'.buildSession uid := funext (h.buildSession hr hr')
  unfold Tables.sessionFor
  rw [h.flowByUid, hskips, hbuild]

theorem sessionUids (h : SameShare uid t t') : uid ∈ t.sessionUids ↔ uid ∈ t'.sessionUids := by
  have hseen : uid ∈ t.tshark.seenUids ↔ uid ∈ t'.tshark.seenUids := by
    rw [← List.contains_iff_mem, ← List.contains_iff_mem,
      show t.tshark.seenUids.contains uid = _ from congrArg TsharkShare.seen h.tshark]
    rfl
  rw [mem_sessionUids, mem_sessionUids, hseen, Dict.mem_keys_iff, Dict.mem_keys_iff, h.protocols,
    h.flowByUid, h.ssl]

end SameShare

/-- What the output says of a connection is its session. -/
theorem filter_sessions (t : Tables) (uid : String) :
    t.sessions.filter (fun s => s.uid = uid) =
      if uid ∈ t.sessionUids then (t.sessionFor uid).toList else [] := by
  have hperm : (t.sessions.filter fun s => s.uid = uid).Perm
      ((t.sessionUids.filterMap t.sessionFor).filter fun s => s.uid = uid) :=
    (List.perm_insertionSort _ _).filter _
  have hnodup : (t.sessionUids.map id).Nodup := by
    rw [List.map_id]
    exact Dict.nodup_keys _
  have hkey : ∀ uid' ∈ t.sessionUids, ∀ s, t.sessionFor uid' = some s →
      (decide (s.uid = uid) = true ↔ uid' = uid) := by
    intro uid' _ s hs
    rw [sessionFor_uid hs, decide_eq_true_iff]
  split
  · rename_i hmem
    rw [Keyed.filter_filterMap_of_key hnodup hmem hkey] at hperm
    cases hsession : t.sessionFor uid with
    | none =>
      rw [hsession] at hperm
      exact hperm.eq_nil
    | some s =>
      rw [hsession] at hperm
      exact List.perm_singleton.mp hperm
  · rename_i hmem
    rw [Keyed.filter_filterMap_eq_nil] at hperm
    · exact hperm.eq_nil
    · intro uid' huid' s hs
      rw [sessionFor_uid hs, decide_eq_false_iff_not]
      rintro rfl
      exact hmem huid'

theorem SameShare.sessions (h : SameShare uid t t') (hr : t.Regular uid) (hr' : t'.Regular uid) :
    t.sessions.filter (fun s => s.uid = uid) = t'.sessions.filter (fun s => s.uid = uid) := by
  rw [filter_sessions, filter_sessions, h.sessionFor hr hr']
  simp only [h.sessionUids]

end Tables

theorem regular_of_readTables {logs : Record} {flows : List Flow}
    {tsharkFrames : Option (List Val)} {t : Tables}
    (h : readTables logs flows tsharkFrames = .ok t) : t.Regular uid := by
  obtain ⟨-, -, hzeek, htshark⟩ := readTables_eq_ok.mp h
  exact ⟨(counted_tsharkPass (counted_zeekPass hzeek) htshark).1, usedTshark_of_share htshark⟩

/-! ## Two runs -/

/-- What the normalizer is given besides the flows. -/
structure SessionInput where
  logs : Record
  tsharkFrames : Option (List Val)

/-- The items of a list. -/
def itemsOf : Val → List Val
  | .list items => items
  | _ => []

/-- The mappings among them. -/
def recordsOf (rows : Val) : List Record :=
  (itemsOf rows).filterMap fun item =>
    match item with
    | .dict kvs => some kvs
    | _ => none

theorem boundedRecords_eq {rows : Val} {limit : Nat} (h : (itemsOf rows).length ≤ limit) :
    boundedRecords rows limit = recordsOf rows := by
  cases rows with
  | list items =>
    have hitems : items.length ≤ limit := h
    unfold boundedRecords
    simp only [List.take_of_length_le hitems]
    rfl
  | _ => rfl

/-- The value is read as a finite float. -/
def finiteTime (value : Val) : Bool :=
  match asFloat value with
  | .ok (some x) => x.units?.isSome
  | _ => false

theorem finiteTime_iff {value : Val} :
    finiteTime value = true ↔ ∃ x, asFloat value = .ok (some x) ∧ x.units?.isSome = true := by
  unfold finiteTime
  cases asFloat value with
  | error e => simp
  | ok read =>
    cases read with
    | none => simp
    | some x => simp

namespace SessionInput

def email (input : SessionInput) : List Record := recordsOf (getLog input.logs "sm_email.log")

def ssl (input : SessionInput) : List Record := recordsOf (getLog input.logs "ssl.log")

def frames (input : SessionInput) : List Record := recordsOf (.list (input.tsharkFrames.getD []))

def run (flows : List Flow) (input : SessionInput) : Result (List EmailSession) :=
  normalizeSessions input.logs flows input.tsharkFrames

/-- The logs and frames are within the row limits, and every row of `sm_email.log` and every mail
frame has a finite time. Past a limit, rows of other connections decide which rows are read; and a
row without a time is given the counter for one, which counts the rows of all. -/
structure Admissible (input : SessionInput) : Prop where
  emailLimit : (itemsOf (getLog input.logs "sm_email.log")).length ≤ maxRecords
  sslLimit : (itemsOf (getLog input.logs "ssl.log")).length ≤ maxRecords
  frameLimit : (input.tsharkFrames.getD []).length ≤ maxFrames
  rowTimes : ∀ row ∈ input.email, finiteTime (row.get "ts") = true
  frameTimes : ∀ frame ∈ input.frames, (tsharkProtocol frame).isSome = true →
    finiteTime (frame.get "frame.time_epoch") = true

/-- Every row and every frame can be read. -/
def Readable (flows : List Flow) (input : SessionInput) : Prop :=
  (∀ row ∈ input.email, RowReadable flows row) ∧ ∀ frame ∈ input.frames, FrameReadable flows frame

/-- The connection's own rows and frames are the same, in the same order. The rest may differ in any
way. It is the weakest relation under which a connection could be asked to keep its session. -/
structure AgreeOn (flows : List Flow) (uid : String) (input input' : SessionInput) : Prop where
  email : input.email.filter (rowIsOf uid) = input'.email.filter (rowIsOf uid)
  ssl : input.ssl.filter (rowIsOf uid) = input'.ssl.filter (rowIsOf uid)
  frames : input.frames.filter (frameIsOf flows uid) = input'.frames.filter (frameIsOf flows uid)

/-- The output after the change says of the connection what the output before it did. It is about
the output and not about the tables, and an exception says nothing of any connection. -/
def Isolated (flows : List Flow) (uid : String) (before after : SessionInput) : Prop :=
  ∀ out, before.run flows = .ok out → ∃ out', after.run flows = .ok out' ∧
    out'.filter (fun s => s.uid = uid) = out.filter (fun s => s.uid = uid)

variable {flows : List Flow} {input input' : SessionInput}

theorem Admissible.returns_iff (h : input.Admissible) :
    Fallible.Returns (input.run flows) ↔ input.Readable flows := by
  have hrows : emailRows input.logs = input.email := boundedRecords_eq h.emailLimit
  have hframes : keptFrames input.tsharkFrames = input.frames := boundedRecords_eq h.frameLimit
  have hreads : ∀ value, finiteTime value = true → FloatReadable value := by
    intro value hvalue
    obtain ⟨x, hx, -⟩ := finiteTime_iff.mp hvalue
    exact returns_asFloat_iff.mp ⟨_, hx⟩
  unfold run
  rw [returns_normalizeSessions_iff]
  · constructor
    · exact fun hread => ⟨hrows ▸ hread.rows, hframes ▸ hread.frames⟩
    · exact fun hread => ⟨hrows ▸ hread.1, hframes ▸ hread.2⟩
  · rw [hrows]
    exact fun row hrow => hreads _ (h.rowTimes row hrow)
  · rw [hframes]
    exact fun frame hframe hmail => hreads _ (h.frameTimes frame hframe hmail)

/-- Two runs that return, on inputs that agree on a connection, hold the same of it. -/
theorem sameShare {t t' : Tables} (h : input.Admissible) (h' : input'.Admissible)
    (hagree : AgreeOn flows uid input input')
    (ht : readTables input.logs flows input.tsharkFrames = .ok t)
    (ht' : readTables input'.logs flows input'.tsharkFrames = .ok t') :
    Tables.SameShare uid t t' := by
  obtain ⟨hflow, hssl, hzeek, htshark⟩ := readTables_eq_ok.mp ht
  obtain ⟨hflow', hssl', hzeek', htshark'⟩ := readTables_eq_ok.mp ht'
  unfold zeekPass tsharkPass at *
  rw [boundedRecords_eq h.emailLimit] at hzeek
  rw [boundedRecords_eq h'.emailLimit] at hzeek'
  rw [boundedRecords_eq h.frameLimit] at htshark
  rw [boundedRecords_eq h'.frameLimit] at htshark'
  have hzeekShare : t.zeek.share uid = t'.zeek.share uid := by
    refine Isolation.share_eq_of_filter_eq (spares_zeekStep _ uid) (spares_zeekStep _ uid)
      hagree.email ?_ rfl hzeek hzeek'
    intro row hrow hown s s' u u' hshare hs hu
    obtain ⟨ts, hts, -⟩ := finiteTime_iff.mp (h.rowTimes row hrow)
    exact zeekStep_own hown hts hshare hs hu
  have hknown : (t.zeek.zeekByUid.get? uid).isNone = (t'.zeek.zeekByUid.get? uid).isNone := by
    rw [← Option.not_isSome, ← Option.not_isSome,
      isSome_eq_of_unordered (congrArg ZeekShare.events hzeekShare)]
  have hstart : TsharkPass.share uid { seenUids := t.zeek.seenUids, order := t.zeek.order } =
      TsharkPass.share uid { seenUids := t'.zeek.seenUids, order := t'.zeek.order } := by
    have hseen : t.zeek.seenUids.contains uid = t'.zeek.seenUids.contains uid :=
      congrArg ZeekShare.seen hzeekShare
    unfold TsharkPass.share
    rw [hseen]
  refine ⟨hflow.trans hflow'.symm, ?_, hzeekShare, ?_⟩
  · rw [hssl, hssl', sslFacts, sslFacts, boundedRecords_eq h.sslLimit,
      boundedRecords_eq h'.sslLimit, foldl_sslStep_get?, foldl_sslStep_get?]
    exact congrArg (fun rows => (rows.getLast?.map sslFactsOf).or none) hagree.ssl
  · refine Isolation.share_eq_of_filter_eq (spares_tsharkStep _ _ uid) (spares_tsharkStep _ _ uid)
      hagree.frames ?_ hstart htshark htshark'
    intro frame hframe hown s s' u u' hshare hs hu
    refine tsharkStep_own hown (fun hmail => ?_) hknown hshare hs hu
    obtain ⟨ts, hts, -⟩ := finiteTime_iff.mp (h.frameTimes frame hframe hmail)
    exact ⟨ts, hts⟩

end SessionInput

open SessionInput (AgreeOn Isolated)

/-- **A connection is isolated exactly if the input of the other connections can still be read.**
Where the changed input cannot be read there is no output at all, so what a change elsewhere can
take from a connection is everything or nothing. -/
theorem session_isolated_iff {flows : List Flow} {before after : SessionInput}
    (hbefore : before.Admissible) (hafter : after.Admissible)
    (hagree : AgreeOn flows uid before after) :
    Isolated flows uid before after ↔ (before.Readable flows → after.Readable flows) := by
  constructor
  · intro h hread
    obtain ⟨out, hout⟩ := hbefore.returns_iff.mpr hread
    obtain ⟨out', hout', -⟩ := h out hout
    exact hafter.returns_iff.mp ⟨out', hout'⟩
  · intro h out hout
    obtain ⟨out', hout'⟩ := hafter.returns_iff.mpr (h (hbefore.returns_iff.mp ⟨out, hout⟩))
    refine ⟨out', hout', ?_⟩
    obtain ⟨t, ht, rfl⟩ := normalizeSessions_eq_ok.mp hout
    obtain ⟨t', ht', rfl⟩ := normalizeSessions_eq_ok.mp hout'
    exact ((SessionInput.sameShare hbefore hafter hagree ht ht').sessions
      (regular_of_readTables ht) (regular_of_readTables ht')).symm

/-- A row of `sm_email.log` of another connection. -/
def replyRow (code : String) : Val :=
  .dict [("uid", .str "C2"), ("protocol", .str "smtp"), ("event_type", .str "reply"),
    ("reply_code", .str code), ("ts", .int 2)]

def helloRow : Val :=
  .dict [("uid", .str "C1"), ("protocol", .str "smtp"), ("event_type", .str "request"),
    ("command", .str "ehlo"), ("ts", .int 1)]

def twoFlows : List Flow := [Flow.toPort "C1" 25, Flow.toPort "C2" 587]

def alone : SessionInput := ⟨[("sm_email.log", .list [helloRow])], none⟩

/-- The other connection speaks first. -/
def beside (code : String) : SessionInput :=
  ⟨[("sm_email.log", .list [replyRow code, helloRow])], none⟩

theorem admissible_alone : alone.Admissible :=
  ⟨by decide +kernel, by decide +kernel, by decide +kernel, by decide +kernel, by decide +kernel⟩

def helloSession : EmailSession :=
  { uid := "C1", protocol := some .smtp, portHint := .smtp, payloadEvidence := .smtp,
    evidenceState := .observed, corroboration := .zeek,
    events := [{ direction := .orig, kind := .request, command := some "EHLO",
                 source := some .zeek }],
    explicitUpgrade := some { evidenceState := .notObservable },
    implicitTls := some { evidenceState := .notObservable } }

/-- A reply code that can be read leaves the connection alone. -/
theorem greeting_isolated :
    (beside "220").Readable twoFlows ∧ Isolated twoFlows "C1" alone (beside "220") := by
  have hbeside : (beside "220").Admissible :=
    ⟨by decide +kernel, by decide +kernel, by decide +kernel, by decide +kernel, by decide +kernel⟩
  have hruns : ((beside "220").run twoFlows).isOk = true := by decide +kernel
  have hreads := hbeside.returns_iff.mp ⟨_, Fallible.eq_ok_of_isOk [] hruns⟩
  exact ⟨hreads, (session_isolated_iff admissible_alone hbeside ⟨rfl, rfl, rfl⟩).mpr fun _ => hreads⟩

/-- A superscript digit in the reply code of another connection, and the session is gone. -/
theorem hostile_row_not_isolated :
    (twoFlows.map (·.uid)).Nodup ∧ alone.Admissible ∧ (beside "²").Admissible ∧
      AgreeOn twoFlows "C1" alone (beside "²") ∧ ¬ Isolated twoFlows "C1" alone (beside "²") := by
  refine ⟨by decide, admissible_alone, ?_, ?_, ?_⟩
  · exact ⟨by decide +kernel, by decide +kernel, by decide +kernel, by decide +kernel,
      by decide +kernel⟩
  · exact ⟨rfl, rfl, rfl⟩
  · intro h
    have hraises : (beside "²").run twoFlows = .error .valueError := by decide +kernel
    obtain ⟨out', hout', -⟩ := h [helloSession] (by decide +kernel)
    rw [hraises] at hout'
    cases hout'

end Sessions
end Normalize
end SecureMail
