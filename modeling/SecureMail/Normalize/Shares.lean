import SecureMail.Normalize.Passes
import SecureMail.Normalize.Stamps
import SecureMail.Lib.Isolation

/-!
# The share of a connection in the tables

All connections share the tables of a pass. What a connection reads of them is its *share*, stamps
aside: the rows and frames of other connections leave it as it is (`spares_zeekStep`,
`spares_tsharkStep`), and its own do the same to equal shares once their times are their own
(`zeekStep_own`, `tsharkStep_own`). A time that cannot be read is replaced by the counter, which is
where the other connections would come in.

Two facts about the tables themselves are kept beside the shares: the stamps of a connection are in
order, and a run that matched no frame has noted none.

Two runs with different logs of other connections stay comparable in this way after every row, and
not only at the end.
-/

namespace SecureMail
namespace Normalize
namespace Sessions

open Py (Val Dict)
open Isolation (Spares)

/-! ## The share of a connection in the pass over `sm_email.log` -/

/-- What the tables of the pass hold of one connection, stamps aside. -/
structure ZeekShare where
  events : Option (List Stamped)
  confirming : Option (Finset MailProtocol)
  ambiguous : Bool
  seen : Bool
  previous : Option ProtocolEvent

def ZeekPass.share (uid : String) (s : ZeekPass) : ZeekShare where
  events := (s.zeekByUid.get? uid).map unordered
  confirming := s.confirmingByUid.get? uid
  ambiguous := s.ambiguousUids.contains uid
  seen := s.seenUids.contains uid
  previous := s.previousByUid.get? uid

/-- The row is of the connection. -/
def rowIsOf (uid : String) (row : Record) : Bool := asStr (row.get "uid") maxUidLen = some uid

variable {uid : String}

theorem isSome_eq_of_unordered {o o' : Option (List Stamped)}
    (h : o.map unordered = o'.map unordered) : o.isSome = o'.isSome := by
  rw [← Option.isSome_map (f := unordered), h, Option.isSome_map]

theorem getD_eq_of_unordered {o o' : Option (List Stamped)}
    (h : o.map unordered = o'.map unordered) : unordered (o.getD []) = unordered (o'.getD []) := by
  have hgetD : ∀ o : Option (List Stamped), unordered (o.getD []) = (o.map unordered).getD [] := by
    intro o
    cases o <;> rfl
  rw [hgetD, hgetD, h]

theorem share_record_other {s : ZeekPass} {stamped : Stamped} (h : stamped.uid ≠ uid) :
    (s.record stamped).share uid = s.share uid := by
  have hset : ∀ {ν : Type} (d : Dict String ν) (v : ν), (d.set stamped.uid v).get? uid = d.get? uid := by
    intro ν d v
    rw [Dict.get?_set, if_neg (Ne.symm h)]
  unfold ZeekPass.share
  rw [ZeekPass.record_eq]
  simp only [ZeekShare.mk.injEq, Dict.update, hset, true_and, and_true]
  refine ⟨?_, ?_, ?_⟩
  · split
    · exact hset _ _
    · rfl
  · split
    · simp [Ne.symm h]
    · rfl
  · split
    · rfl
    · simp [Ne.symm h]

theorem share_record_own {s t : ZeekPass} {x : Stamped} (n : Nat)
    (hshare : s.share x.uid = t.share x.uid) :
    (s.record x).share x.uid = (t.record { x with order := n }).share x.uid := by
  unfold ZeekPass.share at *
  rw [ZeekPass.record_eq, ZeekPass.record_eq]
  simp only [ZeekShare.mk.injEq] at hshare
  obtain ⟨hevents, hconfirming, hambiguous, hseen, hprevious⟩ := hshare
  have hlist := getD_eq_of_unordered hevents
  simp only [ZeekShare.mk.injEq, Dict.update, Dict.get?_set_self, Option.map_some]
  refine ⟨?_, ?_, ?_, ?_, trivial⟩
  · unfold unordered at *
    rw [List.map_append, List.map_append, hlist]
    rfl
  · cases x.protocol.filter fun _ => x.event.kind ∈ confirmingKinds with
    | none => exact hconfirming
    | some p => simp [hconfirming]
  · split
    · simp
    · exact hambiguous
  · rw [← isSome_eq_of_unordered hevents]
    split
    · exact hseen
    · simp

theorem spares_zeekStep (flowByUid : Dict String Flow) (uid : String) :
    Spares (zeekStep flowByUid) (ZeekPass.share uid) (rowIsOf uid) := by
  intro s s' row hother hstep
  cases zeekStep_cases hstep with
  | ignored => rfl
  | recorded stamped huid =>
    refine share_record_other fun heq => ?_
    rw [heq] at huid
    simp [rowIsOf, huid] at hother

/-- A row of the connection does the same to equal shares, once its time is its own. -/
theorem zeekStep_own {flowByUid : Dict String Flow} {row : Record} {ts : Py.Float}
    (hown : rowIsOf uid row = true) (htime : asFloat (row.get "ts") = .ok (some ts))
    {s s' t t' : ZeekPass} (hshare : s.share uid = t.share uid)
    (hs : zeekStep flowByUid s row = .ok s') (ht : zeekStep flowByUid t row = .ok t') :
    s'.share uid = t'.share uid := by
  have huid : asStr (row.get "uid") maxUidLen = some uid := by simpa [rowIsOf] using hown
  have hprevious : s.previousByUid.get? uid = t.previousByUid.get? uid :=
    congrArg ZeekShare.previous hshare
  unfold zeekStep at hs ht
  rw [huid] at hs ht
  simp only [hprevious] at hs ht
  split at hs
  · obtain rfl := Fallible.pure_eq_ok.mp hs
    rename_i hflow
    rw [if_pos hflow] at ht
    obtain rfl := Fallible.pure_eq_ok.mp ht
    exact hshare
  · rename_i hflow
    rw [if_neg hflow] at ht
    obtain ⟨made, hmade, hs⟩ := Fallible.bind_eq_ok.mp hs
    rw [hmade] at ht
    obtain ⟨made', hmade', ht⟩ := Fallible.bind_eq_ok.mp ht
    obtain rfl : made = made' := Except.ok.inj hmade'
    cases made with
    | none =>
      obtain rfl := Fallible.pure_eq_ok.mp hs
      obtain rfl := Fallible.pure_eq_ok.mp ht
      exact hshare
    | some event =>
      simp only at hs ht
      split at hs
      · rename_i hdup
        rw [if_pos hdup] at ht
        obtain rfl := Fallible.pure_eq_ok.mp hs
        obtain rfl := Fallible.pure_eq_ok.mp ht
        exact hshare
      · rename_i hnew
        rw [if_neg hnew] at ht
        obtain ⟨read, hread, hs⟩ := Fallible.bind_eq_ok.mp hs
        obtain ⟨read', hread', ht⟩ := Fallible.bind_eq_ok.mp ht
        obtain rfl : some ts = read := Except.ok.inj (htime.symm.trans hread)
        obtain rfl : some ts = read' := Except.ok.inj (htime.symm.trans hread')
        rw [Option.getD_some] at hs ht
        obtain rfl := Fallible.pure_eq_ok.mp hs
        obtain rfl := Fallible.pure_eq_ok.mp ht
        exact share_record_own t.order hshare

/-- The stamps of the connection are in order, and below the counter. A new event gets the counter
for a stamp, so it comes after all that are there. -/
def Counted (l : List Stamped) (order : Nat) : Prop := InOrder l ∧ ∀ x ∈ l, x.order < order

theorem Counted.append {l : List Stamped} {x : Stamped} (h : Counted l x.order) :
    Counted (l ++ [x]) (x.order + 1) := by
  obtain ⟨horder, hbelow⟩ := h
  constructor
  · unfold InOrder at *
    rw [List.map_append, List.pairwise_append]
    refine ⟨horder, by simp, ?_⟩
    intro n hn m hm
    obtain ⟨y, hy, rfl⟩ := List.mem_map.mp hn
    obtain rfl : m = x.order := by simpa using hm
    exact hbelow y hy
  · intro y hy
    rcases List.mem_append.mp hy with hy | hy
    · exact Nat.lt_succ_of_lt (hbelow y hy)
    · rw [List.mem_singleton.mp hy]
      exact Nat.lt_succ_self _

theorem Counted.mono {l : List Stamped} {n m : Nat} (h : Counted l n) (hle : n ≤ m) :
    Counted l m := ⟨h.1, fun x hx => Nat.lt_of_lt_of_le (h.2 x hx) hle⟩

/-- An event that enters the tables is stamped with the counter. -/
theorem stamped_of_zeekStep {flowByUid : Dict String Flow} {s s' : ZeekPass} {row : Record}
    (h : zeekStep flowByUid s row = .ok s') :
    s' = s ∨ ∃ stamped : Stamped, stamped.order = s.order ∧ s' = s.record stamped := by
  unfold zeekStep at h
  split at h
  · exact Or.inl (Fallible.pure_eq_ok.mp h).symm
  · split at h
    · exact Or.inl (Fallible.pure_eq_ok.mp h).symm
    · obtain ⟨made, -, h⟩ := Fallible.bind_eq_ok.mp h
      cases made with
      | none => exact Or.inl (Fallible.pure_eq_ok.mp h).symm
      | some event =>
        dsimp only at h
        split at h
        · exact Or.inl (Fallible.pure_eq_ok.mp h).symm
        · obtain ⟨ts, -, h⟩ := Fallible.bind_eq_ok.mp h
          exact Or.inr ⟨_, rfl, (Fallible.pure_eq_ok.mp h).symm⟩

theorem counted_zeekPass {logs : Record} {flowByUid : Dict String Flow} {s : ZeekPass}
    (h : zeekPass logs flowByUid = .ok s) : Counted ((s.zeekByUid.get? uid).getD []) s.order := by
  refine Fallible.foldlM_invariant h
    (P := fun s => Counted ((s.zeekByUid.get? uid).getD []) s.order) ?_ ?_
  · exact ⟨List.Pairwise.nil, by simp⟩
  · intro s s' row _ hstep hs
    obtain rfl | ⟨stamped, horder, rfl⟩ := stamped_of_zeekStep hstep
    · exact hs
    · rw [ZeekPass.record_zeekByUid, ZeekPass.record_order, ← horder, Dict.update, Dict.get?_set]
      rw [← horder] at hs
      split
      · rename_i huid
        subst huid
        exact hs.append
      · exact hs.mono (Nat.le_succ _)

/-! ## The share of a connection in the frame pass -/

/-- What the tables of the pass hold of one connection, stamps aside. -/
structure TsharkShare where
  protocols : Option (Finset MailProtocol)
  events : Option (List Stamped)
  hello : List Nat
  seen : Bool

def TsharkPass.share (uid : String) (s : TsharkPass) : TsharkShare where
  protocols := s.tsharkByUid.get? uid
  events := (s.tsharkEvents.get? uid).map unordered
  hello := (s.helloFrames.get? uid).getD []
  seen := s.seenUids.contains uid

/-- The frame is matched to the connection. -/
def frameIsOf (flows : List Flow) (uid : String) (frame : Record) : Bool :=
  match matchFrameUid frame flows with
  | .ok owner => owner = some uid
  | .error _ => false

theorem frameIsOf_iff {flows : List Flow} {frame : Record} :
    frameIsOf flows uid frame = true ↔ matchFrameUid frame flows = .ok (some uid) := by
  unfold frameIsOf
  cases matchFrameUid frame flows with
  | ok owner => simp
  | error e => simp

/-- What noting a ClientHello does to the one table, and what it adds. -/
theorem noteHello_spec (uid : String) {owner : String} {frame : Record} {s s' : TsharkPass}
    (h : noteHello owner frame s = .ok s') :
    ∃ hello, s' = { s with helloFrames := hello } ∧
      (owner ≠ uid → hello.get? uid = s.helloFrames.get? uid) := by
  unfold noteHello at h
  split at h
  · obtain ⟨number, -, h⟩ := Fallible.bind_eq_ok.mp h
    cases number with
    | none => exact ⟨_, (Fallible.pure_eq_ok.mp h).symm, fun _ => rfl⟩
    | some n =>
      dsimp only at h
      split at h
      · refine ⟨_, (Fallible.pure_eq_ok.mp h).symm, fun hne => ?_⟩
        rw [Dict.update, Dict.get?_set, if_neg (Ne.symm hne)]
      · exact ⟨_, (Fallible.pure_eq_ok.mp h).symm, fun _ => rfl⟩
  · exact ⟨_, (Fallible.pure_eq_ok.mp h).symm, fun _ => rfl⟩

theorem noteHello_own {frame : Record} {s s' t t' : TsharkPass}
    (hshare : s.share uid = t.share uid) (hs : noteHello uid frame s = .ok s')
    (ht : noteHello uid frame t = .ok t') : s'.share uid = t'.share uid := by
  have hhello : (s.helloFrames.get? uid).getD [] = (t.helloFrames.get? uid).getD [] :=
    congrArg TsharkShare.hello hshare
  unfold noteHello at hs ht
  split at hs
  · rename_i hframe
    rw [if_pos hframe] at ht
    obtain ⟨number, hnumber, hs⟩ := Fallible.bind_eq_ok.mp hs
    obtain ⟨number', hnumber', ht⟩ := Fallible.bind_eq_ok.mp ht
    obtain rfl : number = number' := Except.ok.inj (hnumber.symm.trans hnumber')
    cases number with
    | none =>
      obtain rfl := Fallible.pure_eq_ok.mp hs
      obtain rfl := Fallible.pure_eq_ok.mp ht
      exact hshare
    | some n =>
      simp only [hhello] at hs ht
      split at hs
      · rename_i hnew
        rw [if_pos hnew] at ht
        obtain rfl := Fallible.pure_eq_ok.mp hs
        obtain rfl := Fallible.pure_eq_ok.mp ht
        unfold TsharkPass.share at *
        simp only [TsharkShare.mk.injEq] at hshare ⊢
        refine ⟨hshare.1, hshare.2.1, ?_, hshare.2.2.2⟩
        rw [Dict.update, Dict.update, Dict.get?_set_self, Dict.get?_set_self, hhello]
      · rename_i hold
        rw [if_neg hold] at ht
        obtain rfl := Fallible.pure_eq_ok.mp hs
        obtain rfl := Fallible.pure_eq_ok.mp ht
        exact hshare
  · rename_i hframe
    rw [if_neg hframe] at ht
    obtain rfl := Fallible.pure_eq_ok.mp hs
    obtain rfl := Fallible.pure_eq_ok.mp ht
    exact hshare

namespace TsharkPass

/-- A protocol is named for a connection. -/
def name (s : TsharkPass) (owner : String) (protocol : MailProtocol) : TsharkPass :=
  { s with tsharkByUid := s.tsharkByUid.update owner ∅ (insert protocol) }

/-- An event of a connection enters the tables. -/
def record (zeekByUid : Dict String (List Stamped)) (s : TsharkPass) (stamped : Stamped) :
    TsharkPass :=
  { s with
    seenUids :=
      if (zeekByUid.get? stamped.uid).isNone ∧ (s.tsharkEvents.get? stamped.uid).isNone then
        s.seenUids ++ [stamped.uid]
      else s.seenUids
    tsharkEvents := s.tsharkEvents.update stamped.uid [] (· ++ [stamped])
    order := s.order + 1 }

end TsharkPass

/-- What a frame with a mail command or reply does. -/
inductive MailCase (zeekByUid : Dict String (List Stamped)) (owner : String) (frame : Record)
    (s : TsharkPass) : TsharkPass → Prop
  | silent (h : tsharkProtocol frame = none) : MailCase zeekByUid owner frame s s
  | named (protocol : MailProtocol) (h : tsharkProtocol frame = some protocol)
      (hevent : tsharkEvent frame protocol = .ok none) :
      MailCase zeekByUid owner frame s (s.name owner protocol)
  | heard (protocol : MailProtocol) (event : ProtocolEvent) (ts : Option Py.Float)
      (h : tsharkProtocol frame = some protocol)
      (hevent : tsharkEvent frame protocol = .ok (some event))
      (htime : asFloat (frame.get "frame.time_epoch") = .ok ts) :
      MailCase zeekByUid owner frame s
        ((s.name owner protocol).record zeekByUid
          { ts := ts.getD (.ofNat s.order), order := s.order, uid := owner,
            protocol := some protocol, event := event })

theorem noteMail_cases {zeekByUid : Dict String (List Stamped)} {owner : String} {frame : Record}
    {s s' : TsharkPass} (h : noteMail zeekByUid owner frame s = .ok s') :
    MailCase zeekByUid owner frame s s' := by
  unfold noteMail at h
  cases hprotocol : tsharkProtocol frame with
  | none =>
    rw [hprotocol] at h
    obtain rfl := Fallible.pure_eq_ok.mp h
    exact MailCase.silent hprotocol
  | some protocol =>
    rw [hprotocol] at h
    obtain ⟨made, hmade, h⟩ := Fallible.bind_eq_ok.mp h
    cases made with
    | none =>
      obtain rfl := Fallible.pure_eq_ok.mp h
      exact MailCase.named protocol hprotocol hmade
    | some event =>
      obtain ⟨ts, hts, h⟩ := Fallible.bind_eq_ok.mp h
      obtain rfl := Fallible.pure_eq_ok.mp h
      exact MailCase.heard protocol event ts hprotocol hmade hts

theorem share_name_other {s : TsharkPass} {owner : String} {protocol : MailProtocol}
    (h : owner ≠ uid) : (s.name owner protocol).share uid = s.share uid := by
  unfold TsharkPass.share TsharkPass.name
  simp only [TsharkShare.mk.injEq, and_true]
  rw [Dict.update, Dict.get?_set, if_neg (Ne.symm h)]

theorem share_record_tshark_other {zeekByUid : Dict String (List Stamped)} {s : TsharkPass}
    {stamped : Stamped} (h : stamped.uid ≠ uid) :
    (s.record zeekByUid stamped).share uid = s.share uid := by
  unfold TsharkPass.share TsharkPass.record
  simp only [TsharkShare.mk.injEq, true_and]
  constructor
  · rw [Dict.update, Dict.get?_set, if_neg (Ne.symm h)]
  · split
    · simp [Ne.symm h]
    · rfl

theorem share_name_own {s t : TsharkPass} {protocol : MailProtocol}
    (hshare : s.share uid = t.share uid) :
    (s.name uid protocol).share uid = (t.name uid protocol).share uid := by
  unfold TsharkPass.share TsharkPass.name at *
  simp only [TsharkShare.mk.injEq] at hshare ⊢
  refine ⟨?_, hshare.2⟩
  rw [Dict.update, Dict.update, Dict.get?_set_self, Dict.get?_set_self, hshare.1]

theorem share_record_tshark_own {zeekByUid zeekByUid' : Dict String (List Stamped)}
    {s t : TsharkPass} {x : Stamped} (n : Nat)
    (hzeek : (zeekByUid.get? x.uid).isNone = (zeekByUid'.get? x.uid).isNone)
    (hshare : s.share x.uid = t.share x.uid) :
    (s.record zeekByUid x).share x.uid =
      (t.record zeekByUid' { x with order := n }).share x.uid := by
  unfold TsharkPass.share TsharkPass.record at *
  simp only [TsharkShare.mk.injEq] at hshare ⊢
  obtain ⟨hprotocols, hevents, hhello, hseen⟩ := hshare
  have hlist := getD_eq_of_unordered hevents
  have hknown : (s.tsharkEvents.get? x.uid).isNone = (t.tsharkEvents.get? x.uid).isNone := by
    rw [← Option.not_isSome, ← Option.not_isSome, isSome_eq_of_unordered hevents]
  refine ⟨hprotocols, ?_, hhello, ?_⟩
  · rw [Dict.update, Dict.update, Dict.get?_set_self, Dict.get?_set_self, Option.map_some,
      Option.map_some]
    unfold unordered at *
    rw [List.map_append, List.map_append, hlist]
    rfl
  · rw [hzeek, hknown]
    split
    · simp
    · exact hseen

theorem spares_tsharkStep (zeekByUid : Dict String (List Stamped)) (flows : List Flow)
    (uid : String) :
    Spares (tsharkStep zeekByUid flows) (TsharkPass.share uid) (frameIsOf flows uid) := by
  intro s s' frame hother hstep
  unfold tsharkStep at hstep
  obtain ⟨owner, hmatch, hstep⟩ := Fallible.bind_eq_ok.mp hstep
  cases owner with
  | none =>
    obtain rfl := Fallible.pure_eq_ok.mp hstep
    rfl
  | some owner =>
    have hne : owner ≠ uid := by
      rintro rfl
      rw [frameIsOf_iff.mpr hmatch] at hother
      cases hother
    obtain ⟨noted, hnoted, hstep⟩ := Fallible.bind_eq_ok.mp hstep
    obtain ⟨hello, rfl, hhello⟩ := noteHello_spec uid hnoted
    have hshare : TsharkPass.share uid { s with usedTshark := true, helloFrames := hello } =
        s.share uid := by
      unfold TsharkPass.share
      rw [hhello hne]
    cases noteMail_cases hstep with
    | silent => exact hshare
    | named protocol => exact (share_name_other hne).trans hshare
    | heard protocol =>
      exact (share_record_tshark_other hne).trans ((share_name_other hne).trans hshare)

/-- A frame of the connection does the same to equal shares, once its time is its own. -/
theorem tsharkStep_own {zeekByUid zeekByUid' : Dict String (List Stamped)} {flows : List Flow}
    {frame : Record} (hown : frameIsOf flows uid frame = true)
    (htime : (tsharkProtocol frame).isSome = true →
      ∃ ts, asFloat (frame.get "frame.time_epoch") = .ok (some ts))
    (hzeek : (zeekByUid.get? uid).isNone = (zeekByUid'.get? uid).isNone)
    {s s' t t' : TsharkPass} (hshare : s.share uid = t.share uid)
    (hs : tsharkStep zeekByUid flows s frame = .ok s')
    (ht : tsharkStep zeekByUid' flows t frame = .ok t') : s'.share uid = t'.share uid := by
  rw [frameIsOf_iff] at hown
  unfold tsharkStep at hs ht
  rw [hown] at hs ht
  obtain ⟨owner, howner, hs⟩ := Fallible.bind_eq_ok.mp hs
  obtain ⟨owner', howner', ht⟩ := Fallible.bind_eq_ok.mp ht
  obtain rfl := Except.ok.inj howner
  obtain rfl := Except.ok.inj howner'
  obtain ⟨noted, hnoted, hs⟩ := Fallible.bind_eq_ok.mp hs
  obtain ⟨noted', hnoted', ht⟩ := Fallible.bind_eq_ok.mp ht
  have hmarked : TsharkPass.share uid { s with usedTshark := true } =
      TsharkPass.share uid { t with usedTshark := true } := hshare
  have hshare' : noted.share uid = noted'.share uid := noteHello_own hmarked hnoted hnoted'
  cases noteMail_cases hs with
  | silent hprotocol =>
    cases noteMail_cases ht with
    | silent => exact hshare'
    | named _ hprotocol' => exact absurd (hprotocol.symm.trans hprotocol') (by simp)
    | heard _ _ _ hprotocol' => exact absurd (hprotocol.symm.trans hprotocol') (by simp)
  | named protocol hprotocol hevent =>
    cases noteMail_cases ht with
    | silent hprotocol' => exact absurd (hprotocol'.symm.trans hprotocol) (by simp)
    | named protocol' hprotocol' =>
      obtain rfl := Option.some.inj (hprotocol.symm.trans hprotocol')
      exact share_name_own hshare'
    | heard protocol' _ _ hprotocol' hevent' =>
      obtain rfl := Option.some.inj (hprotocol.symm.trans hprotocol')
      exact absurd (hevent.symm.trans hevent') (by simp)
  | heard protocol event ts hprotocol hevent hts =>
    cases noteMail_cases ht with
    | silent hprotocol' => exact absurd (hprotocol'.symm.trans hprotocol) (by simp)
    | named protocol' hprotocol' hevent' =>
      obtain rfl := Option.some.inj (hprotocol.symm.trans hprotocol')
      exact absurd (hevent'.symm.trans hevent) (by simp)
    | heard protocol' event' ts' hprotocol' hevent' hts' =>
      obtain rfl := Option.some.inj (hprotocol.symm.trans hprotocol')
      obtain rfl := Option.some.inj (Except.ok.inj (hevent.symm.trans hevent'))
      obtain ⟨read, hread⟩ := htime (by rw [hprotocol]; rfl)
      obtain rfl := Except.ok.inj (hts.symm.trans hread)
      obtain rfl := Except.ok.inj (hts'.symm.trans hread)
      rw [Option.getD_some, Option.getD_some]
      exact share_record_tshark_own noted'.order hzeek (share_name_own hshare')

theorem counted_tsharkPass {flows : List Flow} {zeek : ZeekPass} {tsharkFrames : Option (List Val)}
    {s : TsharkPass} (hzeek : Counted ((zeek.zeekByUid.get? uid).getD []) zeek.order)
    (h : tsharkPass flows zeek tsharkFrames = .ok s) :
    Counted ((zeek.zeekByUid.get? uid).getD [] ++ (s.tsharkEvents.get? uid).getD []) s.order := by
  refine Fallible.foldlM_invariant h
    (P := fun s => Counted ((zeek.zeekByUid.get? uid).getD [] ++ (s.tsharkEvents.get? uid).getD [])
      s.order) ?_ ?_
  · show Counted (_ ++ []) _
    rw [List.append_nil]
    exact hzeek
  · intro s s' frame _ hstep hs
    unfold tsharkStep at hstep
    obtain ⟨owner, hmatch, hstep⟩ := Fallible.bind_eq_ok.mp hstep
    cases owner with
    | none =>
      obtain rfl := Fallible.pure_eq_ok.mp hstep
      exact hs
    | some owner =>
      obtain ⟨noted, hnoted, hstep⟩ := Fallible.bind_eq_ok.mp hstep
      obtain ⟨hello, rfl⟩ := noteHello_eq_ok hnoted
      cases noteMail_cases hstep with
      | silent => exact hs
      | named => exact hs
      | heard protocol event ts =>
        unfold TsharkPass.record TsharkPass.name
        dsimp only
        rw [Dict.update, Dict.get?_set]
        split
        · rename_i huid
          subst huid
          rw [Option.getD_some, ← List.append_assoc]
          exact Counted.append hs
        · exact hs.mono (Nat.le_succ _)

/-- A matched frame marks the run, so a run that is not marked holds nothing of a connection. -/
theorem usedTshark_of_share {flows : List Flow} {zeek : ZeekPass}
    {tsharkFrames : Option (List Val)} {s : TsharkPass}
    (h : tsharkPass flows zeek tsharkFrames = .ok s) :
    s.usedTshark = true ∨ s.tsharkByUid.get? uid = none ∧ s.helloFrames.get? uid = none := by
  refine Fallible.foldlM_invariant h
    (P := fun s => s.usedTshark = true ∨
      s.tsharkByUid.get? uid = none ∧ s.helloFrames.get? uid = none) ?_ ?_
  · exact Or.inr ⟨rfl, rfl⟩
  · intro s s' frame _ hstep hs
    cases tsharkStep_cases hstep with
    | unmatched => exact hs
    | silent => exact Or.inl rfl
    | noted => exact Or.inl rfl
    | event => exact Or.inl rfl

end Sessions
end Normalize
end SecureMail
