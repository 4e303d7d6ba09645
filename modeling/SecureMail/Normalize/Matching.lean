import SecureMail.Lib.Dealing
import SecureMail.Normalize.Citations

/-!
# Which message gets which frame

A frame is read as a list of handshake messages, and the frames of a connection as one list of them,
`occurrences`. Each occurrence is given to the first message that waits for its kind, or to none. The
log of what was given is the matching: no message stands in it twice, since what is given leaves its
queue; no occurrence does, since it is read once; and since the queues are in the order of the
history, messages of one kind get their frames in that order.

A retry request may go to a ServerHello, so the kind that counts is the one the history gave.
-/

namespace SecureMail
namespace Normalize
namespace Handshakes

open Py (Val Dict)

/-! ## What is read -/

/-- A handshake message that TShark decoded: the frame it is in and its place there, what it stands
for, and the number of the frame. -/
structure Occurrence where
  frame : Nat
  place : Nat
  kind : HandshakeMessageKind
  number : ℕ+

/-- One is read before the other. -/
def Occurrence.Before (o o' : Occurrence) : Prop :=
  o.frame < o'.frame ∨ o.frame = o'.frame ∧ o.place < o'.place

/-- The occurrences in one frame. A frame that cannot be read has none, which is also what the run
gets of it, unless it raises. -/
def occurrencesIn (entry : Record × Nat) : List Occurrence :=
  match frameNumberOf entry.1, tsharkHandshakeTypes entry.1, tsharkSelectedGroup entry.1 with
  | some number, .ok types, .ok selectedGroup =>
      types.zipIdx.filterMap fun t =>
        (kindOfType t.1 selectedGroup).map fun kind =>
          { frame := entry.2, place := t.2, kind := kind, number := number }
  | _, _, _ => []

/-- The occurrences in all frames, as they are read. -/
def occurrences (frames : List Record) : List Occurrence := frames.zipIdx.flatMap occurrencesIn

/-! ## The loops as one -/

/-- An occurrence is given to the message that waits for it. -/
def Attachment.give (s : Attachment) (o : Occurrence) : Attachment :=
  match waiting s.pending o.kind with
  | none => s
  | some (list, target, rest) =>
      { pending := s.pending.set list rest
        updated := s.updated.modify target (dealTo o.kind o.number) }

theorem attach_eq_give (s : Attachment) (number : ℕ+) (selectedGroup : Option Int)
    (type frame place : Nat) : s.attach number selectedGroup type =
      (((kindOfType type selectedGroup).map fun kind =>
        { frame := frame, place := place, kind := kind, number := number }).toList).foldl
          Attachment.give s := by
  unfold Attachment.attach
  cases kindOfType type selectedGroup with
  | none => rfl
  | some kind => rfl

theorem attach_types_eq_give (number : ℕ+) (selectedGroup : Option Int) (frame : Nat)
    (types : List Nat) (n : Nat) (s : Attachment) :
    types.foldl (Attachment.attach number selectedGroup) s =
      ((types.zipIdx n).filterMap fun t =>
        (kindOfType t.1 selectedGroup).map fun kind =>
          { frame := frame, place := t.2, kind := kind, number := number }).foldl
            Attachment.give s := by
  induction types generalizing n s with
  | nil => rfl
  | cons type rest ih =>
    rw [List.foldl_cons, ih (n + 1), attach_eq_give s number selectedGroup type frame n,
      List.zipIdx_cons, List.filterMap_cons]
    cases kindOfType type selectedGroup with
    | none => rfl
    | some kind => rfl

/-- One frame. -/
theorem attachFrame_eq_give {s s' : Attachment} {frame : Record} (i : Nat)
    (h : attachFrame s frame = .ok s') :
    s' = (occurrencesIn (frame, i)).foldl Attachment.give s := by
  obtain ⟨number, hnumber, h⟩ := Fallible.bind_eq_ok.mp h
  unfold occurrencesIn frameNumberOf
  rw [hnumber]
  cases number with
  | none => exact (Fallible.pure_eq_ok.mp h).symm
  | some n =>
    dsimp only at h ⊢
    split at h
    · rename_i hpos
      obtain ⟨types, htypes, h⟩ := Fallible.bind_eq_ok.mp h
      obtain ⟨selectedGroup, hgroup, h⟩ := Fallible.bind_eq_ok.mp h
      obtain rfl := Fallible.pure_eq_ok.mp h
      rw [dif_pos hpos, htypes, hgroup]
      exact attach_types_eq_give ⟨n, hpos⟩ selectedGroup i types 0 s
    · rename_i hzero
      rw [dif_neg hzero]
      exact (Fallible.pure_eq_ok.mp h).symm

/-- **The loop over the frames gives their occurrences, one after another.** A frame with several
messages is so as good as several frames with one. -/
theorem run_eq_give {frames : List Record} {s s' : Attachment} (n : Nat)
    (h : frames.foldlM attachFrame s = .ok s') :
    s' = ((frames.zipIdx n).flatMap occurrencesIn).foldl Attachment.give s := by
  induction frames generalizing s n with
  | nil => exact (Fallible.pure_eq_ok.mp h).symm
  | cons frame rest ih =>
    obtain ⟨t, ht, hrest⟩ := Fallible.foldlM_cons_eq_ok.mp h
    rw [List.zipIdx_cons, List.flatMap_cons, List.foldl_append, ← attachFrame_eq_give n ht]
    exact ih (n + 1) hrest

/-! ## The order of what is read -/

theorem pairwise_zipIdx {α : Type*} (l : List α) (n : Nat) :
    (l.zipIdx n).Pairwise fun a b => a.2 < b.2 := by
  rw [← List.pairwise_map (f := Prod.snd) (R := (· < ·)), List.zipIdx_map_snd]
  exact List.pairwise_lt_range'

theorem mem_occurrencesIn {entry : Record × Nat} {o : Occurrence} (h : o ∈ occurrencesIn entry) :
    o.frame = entry.2 ∧ frameNumberOf entry.1 = some o.number := by
  unfold occurrencesIn at h
  split at h
  · rename_i number types selectedGroup hnumber _ _
    obtain ⟨t, -, ht⟩ := List.mem_filterMap.mp h
    obtain ⟨kind, -, rfl⟩ := Option.map_eq_some_iff.mp ht
    exact ⟨rfl, hnumber⟩
  · exact absurd h List.not_mem_nil

theorem pairwise_occurrencesIn (entry : Record × Nat) :
    (occurrencesIn entry).Pairwise Occurrence.Before := by
  unfold occurrencesIn
  split
  · rename_i number types selectedGroup _ _ _
    rw [List.pairwise_filterMap]
    refine (pairwise_zipIdx types 0).imp ?_
    intro t t' hlt o ho o' ho'
    obtain ⟨kind, -, rfl⟩ := Option.map_eq_some_iff.mp ho
    obtain ⟨kind', -, rfl⟩ := Option.map_eq_some_iff.mp ho'
    exact Or.inr ⟨rfl, hlt⟩
  · exact List.Pairwise.nil

/-- Occurrences are read one after another. -/
theorem pairwise_occurrences (frames : List Record) :
    (occurrences frames).Pairwise Occurrence.Before := by
  unfold occurrences
  rw [List.pairwise_flatMap]
  refine ⟨fun entry _ => pairwise_occurrencesIn entry, ?_⟩
  refine (pairwise_zipIdx frames 0).imp ?_
  intro entry entry' hlt o ho o' ho'
  rw [Occurrence.Before, (mem_occurrencesIn ho).1, (mem_occurrencesIn ho').1]
  exact Or.inl hlt

/-- The frames are in the order of their numbers, as far as they have one. The frames come to the
normalizer in a list, and nothing there sorts it. -/
def InCaptureOrder (frames : List Record) : Prop :=
  (frames.filterMap frameNumberOf).Pairwise (· ≤ ·)

instance (frames : List Record) : Decidable (InCaptureOrder frames) :=
  inferInstanceAs (Decidable (List.Pairwise _ _))

theorem numbers_of_captureOrder {frames : List Record} (h : InCaptureOrder frames) :
    (occurrences frames).Pairwise fun o o' => o.number ≤ o'.number := by
  unfold occurrences
  rw [List.pairwise_flatMap]
  constructor
  · intro entry _
    apply List.pairwise_of_forall_mem_list
    intro o ho o' ho'
    have hsame := (mem_occurrencesIn ho).2.symm.trans (mem_occurrencesIn ho').2
    exact le_of_eq (Option.some.inj hsame)
  · unfold InCaptureOrder at h
    rw [List.pairwise_filterMap] at h
    conv at h => rw [← List.zipIdx_map_fst 0 frames]
    rw [List.pairwise_map] at h
    refine h.imp ?_
    intro entry entry' hle o ho o' ho'
    exact hle _ (mem_occurrencesIn ho).2 _ (mem_occurrencesIn ho').2

/-! ## The matching so far -/

/-- The kind the history gave a message. -/
def originalKind (messages : List HandshakeMessage) (i : Nat) : Option HandshakeMessageKind :=
  messages[i]?.map (·.kind)

/-- The messages with what was given to them. -/
def handedOut (log : List (Nat × Occurrence)) (messages : List HandshakeMessage) :
    List HandshakeMessage :=
  Dealing.deal (fun o => dealTo o.kind o.number) log messages

/-- Of the occurrences `given`, those in the log have gone to the messages there; each kind's queue
holds the messages of that kind that are left, all behind those of the kind that are gone. The
clauses on the queues are what carries it: a message is given the next occurrence only if it stands
at the head of its queue, so what is left is always behind what is gone. -/
structure Matching (messages : List HandshakeMessage) (given : List Occurrence)
    (log : List (Nat × Occurrence)) (s : Attachment) : Prop where
  updated : s.updated = handedOut log messages
  gifts : (log.map Prod.snd).Sublist given
  suited : ∀ gift ∈ log, originalKind messages gift.1 = some gift.2.kind ∨
    gift.2.kind = .helloRetryRequest ∧ originalKind messages gift.1 = some .serverHello
  ordered : log.Pairwise fun a b =>
    originalKind messages a.1 = originalKind messages b.1 → a.1 < b.1
  waits : ∀ kind, ∀ i ∈ s.waitingFor kind, originalKind messages i = some kind
  queues : ∀ kind, (s.waitingFor kind).Pairwise (· < ·)
  behind : ∀ gift ∈ log, ∀ kind, originalKind messages gift.1 = some kind →
    ∀ i ∈ s.waitingFor kind, gift.1 < i

variable {messages : List HandshakeMessage} {given : List Occurrence} {s : Attachment}
  {log : List (Nat × Occurrence)}

theorem handedOut_append (log : List (Nat × Occurrence)) (target : Nat) (o : Occurrence)
    (messages : List HandshakeMessage) : handedOut (log ++ [(target, o)]) messages =
      (handedOut log messages).modify target (dealTo o.kind o.number) := by
  unfold handedOut
  rw [Dealing.deal_append]
  rfl

theorem Matching.start (messages : List HandshakeMessage) :
    Matching messages [] [] { pending := pendingOf messages, updated := messages } where
  updated := rfl
  gifts := List.Sublist.refl _
  suited := by simp
  ordered := List.Pairwise.nil
  waits := by
    intro kind i hi
    rw [Attachment.waitingFor, get?_pendingOf] at hi
    obtain ⟨entry, hentry, rfl⟩ := List.mem_map.mp hi
    obtain ⟨hzip, hkind⟩ := List.mem_filter.mp hentry
    rw [originalKind, List.mem_zipIdx_iff_getElem?.mp hzip, Option.map_some,
      (of_decide_eq_true hkind).1]
  queues := by
    intro kind
    rw [Attachment.waitingFor, get?_pendingOf, List.pairwise_map]
    exact (pairwise_zipIdx messages 0).filter _
  behind := by simp

/-- The queue that is served: the front leaves, the other queues stay. -/
theorem Matching.serve (h : Matching messages given log s) (o : Occurrence)
    {list : HandshakeMessageKind} {target : Nat} {rest : List Nat}
    (hfor : s.waitingFor list = target :: rest)
    (hlist : list = o.kind ∨ o.kind = .helloRetryRequest ∧ list = .serverHello) :
    Matching messages (given ++ [o]) (log ++ [(target, o)])
      { pending := s.pending.set list rest
        updated := s.updated.modify target (dealTo o.kind o.number) } := by
  have htarget : originalKind messages target = some list :=
    h.waits list target (hfor ▸ List.mem_cons_self)
  have hqueue := h.queues list
  rw [hfor, List.pairwise_cons] at hqueue
  refine ⟨?_, ?_, ?_, ?_, ?_, ?_, ?_⟩
  · rw [handedOut_append, ← h.updated]
  · rw [List.map_append]
    exact h.gifts.append (List.Sublist.refl _)
  · intro gift hgift
    rcases List.mem_append.mp hgift with hgift | hgift
    · exact h.suited gift hgift
    · rw [List.mem_singleton.mp hgift, htarget]
      rcases hlist with rfl | ⟨hretry, rfl⟩
      · exact Or.inl rfl
      · exact Or.inr ⟨hretry, rfl⟩
  · rw [List.pairwise_append]
    refine ⟨h.ordered, List.pairwise_singleton _ _, ?_⟩
    intro gift hgift new hnew hkinds
    rw [List.mem_singleton.mp hnew, htarget] at hkinds
    rw [List.mem_singleton.mp hnew]
    exact h.behind gift hgift list hkinds target (hfor ▸ List.mem_cons_self)
  · intro kind i hi
    rw [waitingFor_set] at hi
    split at hi
    · rename_i hkind
      rw [hkind]
      exact h.waits list i (hfor ▸ List.mem_cons_of_mem target hi)
    · exact h.waits kind i hi
  · intro kind
    rw [waitingFor_set]
    split
    · exact hqueue.2
    · exact h.queues kind
  · intro gift hgift kind hkind i hi
    rw [waitingFor_set] at hi
    rcases List.mem_append.mp hgift with hgift | hgift
    · split at hi
      · rename_i hsame
        subst hsame
        exact h.behind gift hgift kind hkind i (hfor ▸ List.mem_cons_of_mem target hi)
      · exact h.behind gift hgift kind hkind i hi
    · -- What is left of the served queue is behind its front.
      rw [List.mem_singleton.mp hgift] at hkind ⊢
      obtain rfl := Option.some.inj (htarget.symm.trans hkind)
      rw [if_pos rfl] at hi
      exact hqueue.1 i hi

/-- One occurrence. -/
theorem Matching.give (h : Matching messages given log s) (o : Occurrence) :
    ∃ log', Matching messages (given ++ [o]) log' (s.give o) := by
  unfold Attachment.give
  cases hwaiting : waiting s.pending o.kind with
  | none =>
    exact ⟨log, h.updated, h.gifts.trans (List.sublist_append_left _ _), h.suited, h.ordered,
      h.waits, h.queues, h.behind⟩
  | some found =>
    obtain ⟨list, target, rest⟩ := found
    obtain ⟨hget, hlist⟩ := waiting_eq_some hwaiting
    have hfor : s.waitingFor list = target :: rest := by
      rw [Attachment.waitingFor, hget]
      rfl
    exact ⟨log ++ [(target, o)], h.serve o hfor hlist⟩

/-- All of them. -/
theorem Matching.run (h : Matching messages given log s) (more : List Occurrence) :
    ∃ log', Matching messages (given ++ more) log' (more.foldl Attachment.give s) := by
  induction more generalizing given log s with
  | nil => exact ⟨log, by rw [List.append_nil]; exact h⟩
  | cons o rest ih =>
    obtain ⟨log', h'⟩ := h.give o
    obtain ⟨log'', h''⟩ := ih h'
    rw [List.append_assoc] at h''
    exact ⟨log'', h''⟩

/-! ## The matching of a run -/

/-- A log of what `_attach_frames` attached. It speaks of messages, frames and kinds, and not of the
queues by which the code finds them. -/
structure FaithfulMatching (messages : List HandshakeMessage) (frames : List Record)
    (attached : List HandshakeMessage) (log : List (Nat × Occurrence)) : Prop where
  number : attached.length = messages.length
  letters : attached.map (·.historyLetter) = messages.map (·.historyLetter)
  directions : attached.map (·.direction) = messages.map (·.direction)
  messageOnce : (log.map Prod.fst).Nodup
  occurrenceOnce : (log.map fun gift => (gift.2.frame, gift.2.place)).Nodup
  decoded : ∀ gift ∈ log, gift.2 ∈ occurrences frames
  suited : ∀ gift ∈ log, originalKind messages gift.1 = some gift.2.kind ∨
    gift.2.kind = .helloRetryRequest ∧ originalKind messages gift.1 = some .serverHello
  outcome : ∀ i m, messages[i]? = some m →
    (i ∉ log.map Prod.fst ∧ attached[i]? = some m) ∨
      ∃ o, (i, o) ∈ log ∧ attached[i]? = some (dealTo o.kind o.number m)
  monotone : InCaptureOrder frames → ∀ a ∈ log, ∀ b ∈ log,
    originalKind messages a.1 = originalKind messages b.1 → a.1 < b.1 → a.2.number ≤ b.2.number

theorem Matching.messageOnce (h : Matching messages given log s) : (log.map Prod.fst).Nodup := by
  unfold List.Nodup
  rw [List.pairwise_map]
  refine h.ordered.imp ?_
  intro a b hlt heq
  exact absurd (hlt (by rw [heq])) (by rw [heq]; exact Nat.lt_irrefl _)

theorem Matching.outcome (h : Matching messages given log s) {i : Nat} {m : HandshakeMessage}
    (hm : messages[i]? = some m) :
    (i ∉ log.map Prod.fst ∧ s.updated[i]? = some m) ∨
      ∃ o, (i, o) ∈ log ∧ s.updated[i]? = some (dealTo o.kind o.number m) := by
  rw [h.updated, handedOut]
  by_cases hmem : i ∈ log.map Prod.fst
  · obtain ⟨gift, hgift, rfl⟩ := List.mem_map.mp hmem
    refine Or.inr ⟨gift.2, hgift, ?_⟩
    rw [Dealing.getElem?_deal_of_mem h.messageOnce hgift, hm]
    rfl
  · refine Or.inl ⟨hmem, ?_⟩
    rw [Dealing.getElem?_deal_of_notMem hmem, hm]

/-- Messages of one kind get their frames in order. -/
theorem Matching.monotone (h : Matching messages given log s)
    (hgiven : given.Pairwise fun o o' => o.number ≤ o'.number) :
    ∀ a ∈ log, ∀ b ∈ log, originalKind messages a.1 = originalKind messages b.1 → a.1 < b.1 →
      a.2.number ≤ b.2.number := by
  have hnumbers : (log.map Prod.snd).Pairwise fun o o' => o.number ≤ o'.number :=
    hgiven.sublist h.gifts
  rw [List.pairwise_map] at hnumbers
  refine List.Pairwise.forall_of_forall_of_flip ?_ ?_ ?_
  · intro a _ _ hlt
    exact absurd hlt (Nat.lt_irrefl _)
  · exact hnumbers.imp fun hle _ _ => hle
  · -- The later of two gifts never goes to the earlier of two messages of a kind.
    refine h.ordered.imp ?_
    intro a b hlt hkinds hgt
    exact absurd (hlt hkinds.symm) (Nat.lt_asymm hgt)

/-- **Attaching frames is a faithful partial matching.** It holds of any history and any frames, in
whatever order they come. -/
theorem attachFrames_matching {messages attached : List HandshakeMessage} {frames : List Record}
    (h : attachFrames messages frames = .ok attached) :
    ∃ log, FaithfulMatching messages frames attached log := by
  obtain ⟨s, hrun, h⟩ := Fallible.bind_eq_ok.mp h
  obtain rfl := Fallible.pure_eq_ok.mp h
  obtain ⟨log, hlog⟩ := (Matching.start messages).run (occurrences frames)
  rw [List.nil_append, occurrences, ← run_eq_give 0 hrun, ← occurrences] at hlog
  refine ⟨log, ?_, ?_, ?_, hlog.messageOnce, ?_, ?_, hlog.suited, fun _ _ => hlog.outcome, ?_⟩
  · rw [hlog.updated]
    exact Dealing.length_deal
  · rw [hlog.updated]
    exact Dealing.map_deal fun _ _ => rfl
  · rw [hlog.updated]
    exact Dealing.map_deal fun _ _ => rfl
  · have hread : log.Pairwise fun a b => a.2.Before b.2 :=
      List.pairwise_map.mp ((pairwise_occurrences frames).sublist hlog.gifts)
    unfold List.Nodup
    rw [List.pairwise_map]
    refine hread.imp ?_
    intro a b hbefore heq
    obtain ⟨hframe, hplace⟩ := Prod.mk.inj heq
    rcases hbefore with hlt | ⟨-, hlt⟩
    · exact absurd hframe (Nat.ne_of_lt hlt)
    · exact absurd hplace (Nat.ne_of_lt hlt)
  · intro gift hgift
    exact hlog.gifts.subset (List.mem_map_of_mem hgift)
  · intro horder
    exact hlog.monotone (numbers_of_captureOrder horder)

/-- A frame of handshake messages, by its number and the types in it. -/
def handshakeFrame (number types : String) : Record :=
  [("frame.number", .str number), ("tls.handshake.type", .str types)]

/-- A client's hello and two of the server, after a retry, and a message that no frame has. -/
def retryFrames : List Record :=
  [handshakeFrame "4" "1", handshakeFrame "6" "2", handshakeFrame "9" "2"]

/-- The two messages of one kind have their frames in order. -/
theorem hellos_matched :
    InCaptureOrder retryFrames ∧
      ∃ attached, attachFrames (messagesFromSslHistory "Cssx") retryFrames = .ok attached ∧
        attached.map (·.frameNumber) = [some 4, some 6, some 9, none] ∧
        ∃ log, FaithfulMatching (messagesFromSslHistory "Cssx") retryFrames attached log := by
  have hok : (attachFrames (messagesFromSslHistory "Cssx") retryFrames).isOk = true := by
    decide +kernel
  have hrun := Fallible.eq_ok_of_isOk [] hok
  exact ⟨by decide +kernel, _, hrun, by decide +kernel, attachFrames_matching hrun⟩

end Handshakes
end Normalize
end SecureMail
