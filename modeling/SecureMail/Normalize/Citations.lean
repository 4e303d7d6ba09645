import SecureMail.Normalize.Visibility

/-!
# Whose frames a certificate cites

A certificate record cites the frames of its connection's Certificate messages. The messages come from
the history, where the case of a letter says who sent it, and the frames are dealt out to them in
order; neither the dealing nor the citing asks for the side. So what is cited is the same for both
roles: of the Certificate messages that TShark decoded on the connection, the first ones, as many as
the history has.

`Dealt` is the invariant of the dealing. It follows one kind of message through the loop over the
frames, with the frames that were dealt to it so far.

The documentation speaks of one side and the code cites both, so what is proved is which frames are
cited, as a prefix of a list that is read off the input. When that prefix holds frames of one side
only is then a question about the list, and the answer needs no further look at the loop.
-/

namespace SecureMail
namespace Normalize
namespace Handshakes

open Py (Val Dict)

/-! ## What TShark decoded -/

/-- The number of a frame, when it is one. -/
def frameNumberOf (frame : Record) : Option ℕ+ :=
  match asInt (frame.get "frame.number") with
  | .ok (some n) => if h : 0 < n then some ⟨n, h⟩ else none
  | _ => none

/-- The number of a frame, once for each Certificate message in it. -/
def certificateNumbers (frame : Record) : List ℕ+ :=
  match frameNumberOf frame, tsharkHandshakeTypes frame with
  | some n, .ok types => (types.filter (· = 11)).map fun _ => n
  | _, _ => []

/-- How many Certificate messages a history has. -/
def certificateCount (history : String) : Nat :=
  (messagesFromSslHistory history).countP (·.kind = .certificate)

/-! ## Dealing frames to messages -/

/-- The messages of a kind that no frame has been dealt to. -/
def Attachment.waitingFor (s : Attachment) (kind : HandshakeMessageKind) : List Nat :=
  (s.pending.get? kind).getD []

/-- Of `count` Certificate messages, the first ones have the frames `given` to them so far, and the
others wait. -/
structure Dealt (count : Nat) (given : List ℕ+) (s : Attachment) : Prop where
  length : (s.waitingFor .certificate).length = count - given.length
  nodup : (s.waitingFor .certificate).Nodup
  awaiting : ∀ i ∈ s.waitingFor .certificate,
    ∃ m, s.updated[i]? = some m ∧ m.kind = .certificate ∧ m.frameNumber = none
  others : ∀ kind ≠ .certificate, ∀ i ∈ s.waitingFor kind,
    ∃ m, s.updated[i]? = some m ∧ m.kind ≠ .certificate
  numbered : ∀ n, (∃ (i : Nat) (m : HandshakeMessage), s.updated[i]? = some m ∧
    m.kind = .certificate ∧ m.frameNumber = some n) ↔ n ∈ given.take count

theorem waiting_eq_some {pending : Dict HandshakeMessageKind (List Nat)}
    {kind list : HandshakeMessageKind} {target : Nat} {rest : List Nat}
    (h : waiting pending kind = some (list, target, rest)) :
    pending.get? list = some (target :: rest) ∧
      (list = kind ∨ kind = .helloRetryRequest ∧ list = .serverHello) := by
  unfold waiting at h
  split at h
  · rename_i i others hget
    cases h
    exact ⟨hget, Or.inl rfl⟩
  · split at h
    · rename_i hretry
      split at h
      · rename_i i others hget
        cases h
        exact ⟨hget, Or.inr ⟨hretry, rfl⟩⟩
      · cases h
    · cases h

/-- Type 11 and no other is a Certificate message. -/
theorem kindOfType_eq_certificate_iff (handshakeType : Nat) (selectedGroup : Option Int) :
    kindOfType handshakeType selectedGroup = some .certificate ↔ handshakeType = 11 := by
  have hlookup : ∀ entry ∈ tsharkTypeToKind, entry.2 = .certificate → entry.1 = 11 := by decide
  unfold kindOfType
  constructor
  · intro h
    split at h
    · cases h
    · obtain ⟨l₁, l₂, hsplit, -⟩ := List.lookup_eq_some_iff.mp h
      exact hlookup (handshakeType, .certificate) (hsplit ▸ by simp) rfl
  · rintro rfl
    rfl

section

variable {count : Nat} {given : List ℕ+} {s : Attachment}

/-- The message at `target` becomes the one the frame carries. -/
def dealTo (kind : HandshakeMessageKind) (frameNumber : ℕ+) (m : HandshakeMessage) :
    HandshakeMessage :=
  { m with kind := kind, frameNumber := some frameNumber, evidenceState := .observed }

theorem attach_of_waiting {frameNumber : ℕ+} {selectedGroup : Option Int} {handshakeType : Nat}
    {kind list : HandshakeMessageKind} {target : Nat} {rest : List Nat}
    (hkind : kindOfType handshakeType selectedGroup = some kind)
    (hwaiting : waiting s.pending kind = some (list, target, rest)) :
    s.attach frameNumber selectedGroup handshakeType =
      { pending := s.pending.set list rest
        updated := s.updated.modify target (dealTo kind frameNumber) } := by
  unfold Attachment.attach
  rw [hkind]
  dsimp only
  rw [hwaiting]
  rfl

/-- A type without a kind, or whose kind nothing waits for, is passed over. -/
theorem attach_of_not_waiting {frameNumber : ℕ+} {selectedGroup : Option Int} {handshakeType : Nat}
    (h : ∀ kind, kindOfType handshakeType selectedGroup = some kind →
      waiting s.pending kind = none) : s.attach frameNumber selectedGroup handshakeType = s := by
  unfold Attachment.attach
  cases hkind : kindOfType handshakeType selectedGroup with
  | none => rfl
  | some kind =>
    dsimp only
    rw [h kind hkind]

/-- A Certificate message waits for no other kind. -/
theorem waiting_certificate (s : Attachment) :
    waiting s.pending .certificate =
      match s.waitingFor .certificate with
      | [] => none
      | target :: rest => some (.certificate, target, rest) := by
  unfold waiting Attachment.waitingFor
  cases s.pending.get? .certificate with
  | none => rfl
  | some list =>
    cases list with
    | nil => rfl
    | cons target rest => rfl

theorem waitingFor_set (list kind : HandshakeMessageKind) (rest : List Nat)
    (updated : List HandshakeMessage) :
    Attachment.waitingFor { pending := s.pending.set list rest, updated := updated } kind =
      if kind = list then rest else s.waitingFor kind := by
  rw [Attachment.waitingFor, Dict.get?_set]
  split <;> rfl

theorem getElem?_dealt_of_ne {target i : Nat} (h : i ≠ target) (updated : List HandshakeMessage)
    (f : HandshakeMessage → HandshakeMessage) : (updated.modify target f)[i]? = updated[i]? := by
  simp [Ne.symm h]

theorem getElem?_dealt_self (target : Nat) (updated : List HandshakeMessage)
    (f : HandshakeMessage → HandshakeMessage) :
    (updated.modify target f)[target]? = updated[target]?.map f := by
  simp

/-- A frame of another kind is dealt past the Certificate messages. -/
theorem Dealt.attach_other (h : Dealt count given s) (frameNumber : ℕ+)
    (selectedGroup : Option Int) {handshakeType : Nat} (htype : handshakeType ≠ 11) :
    Dealt count given (s.attach frameNumber selectedGroup handshakeType) := by
  cases hkind : kindOfType handshakeType selectedGroup with
  | none =>
    rw [attach_of_not_waiting fun kind hsome => absurd (hkind.symm.trans hsome) (by simp)]
    exact h
  | some kind =>
    have hne : kind ≠ .certificate := by
      rintro rfl
      exact htype ((kindOfType_eq_certificate_iff _ _).mp hkind)
    cases hwaiting : waiting s.pending kind with
    | none =>
      rw [attach_of_not_waiting fun kind' hsome => Option.some.inj (hkind.symm.trans hsome) ▸ hwaiting]
      exact h
    | some found =>
      obtain ⟨list, target, rest⟩ := found
      rw [attach_of_waiting hkind hwaiting]
      obtain ⟨hget, hlist⟩ := waiting_eq_some hwaiting
      have hlistNe : list ≠ .certificate := by
        rcases hlist with rfl | ⟨-, rfl⟩
        · exact hne
        · decide
      have hfor : s.waitingFor list = target :: rest := by rw [Attachment.waitingFor, hget]; rfl
      obtain ⟨m₀, hm₀, hm₀kind⟩ := h.others list hlistNe target (hfor ▸ List.mem_cons_self)
      -- No Certificate message stands where the frame goes.
      have hapart : ∀ i m, s.updated[i]? = some m → m.kind = .certificate → i ≠ target := by
        rintro i m hm hcertificate rfl
        rw [hm₀] at hm
        exact hm₀kind (Option.some.inj hm ▸ hcertificate)
      refine ⟨?_, ?_, ?_, ?_, ?_⟩
      · rw [waitingFor_set, if_neg (Ne.symm hlistNe)]
        exact h.length
      · rw [waitingFor_set, if_neg (Ne.symm hlistNe)]
        exact h.nodup
      · intro i hi
        rw [waitingFor_set, if_neg (Ne.symm hlistNe)] at hi
        obtain ⟨m, hm, hcertificate, hnone⟩ := h.awaiting i hi
        exact ⟨m, (getElem?_dealt_of_ne (hapart i m hm hcertificate) _ _).trans hm,
          hcertificate, hnone⟩
      · intro other hother i hi
        have hmem : i ∈ s.waitingFor other := by
          rw [waitingFor_set] at hi
          split at hi
          · rename_i heq
            rw [heq, hfor]
            exact List.mem_cons_of_mem target hi
          · exact hi
        obtain ⟨m, hm, hmkind⟩ := h.others other hother i hmem
        by_cases htarget : i = target
        · subst htarget
          exact ⟨dealTo kind frameNumber m, by rw [getElem?_dealt_self, hm]; rfl, hne⟩
        · exact ⟨m, (getElem?_dealt_of_ne htarget _ _).trans hm, hmkind⟩
      · intro n
        rw [← h.numbered n]
        constructor
        · rintro ⟨i, m, hm, hcertificate, hnumber⟩
          by_cases htarget : i = target
          · subst htarget
            rw [getElem?_dealt_self, hm₀] at hm
            cases hm
            exact absurd hcertificate hne
          · exact ⟨i, m, (getElem?_dealt_of_ne htarget _ _).symm.trans hm, hcertificate, hnumber⟩
        · rintro ⟨i, m, hm, hcertificate, hnumber⟩
          exact ⟨i, m, (getElem?_dealt_of_ne (hapart i m hm hcertificate) _ _).trans hm,
            hcertificate, hnumber⟩

/-- A Certificate message when none waits: every message has its frame, and this one is left over. -/
theorem Dealt.attach_full (h : Dealt count given s) (frameNumber : ℕ+)
    (hfor : s.waitingFor .certificate = []) : Dealt count (given ++ [frameNumber]) s := by
  have hfull : count ≤ given.length := by
    have hlength := h.length
    rw [hfor, List.length_nil] at hlength
    omega
  refine ⟨?_, h.nodup, h.awaiting, h.others, ?_⟩
  · rw [h.length, List.length_append, List.length_singleton]
    omega
  · intro n
    rw [h.numbered n, List.take_append_of_le_length hfull]

/-- A Certificate message goes to the first one that waits. -/
theorem Dealt.attach_first (h : Dealt count given s) (frameNumber : ℕ+) {target : Nat}
    {rest : List Nat} (hfor : s.waitingFor .certificate = target :: rest) :
    Dealt count (given ++ [frameNumber])
      { pending := s.pending.set .certificate rest
        updated := s.updated.modify target (dealTo .certificate frameNumber) } := by
  have hlength := h.length
  rw [hfor, List.length_cons] at hlength
  have hroom : given.length < count := by omega
  have hnodup := h.nodup
  rw [hfor, List.nodup_cons] at hnodup
  obtain ⟨m₀, hm₀, hm₀kind, hm₀none⟩ := h.awaiting target (hfor ▸ List.mem_cons_self)
  refine ⟨?_, ?_, ?_, ?_, ?_⟩
  · rw [waitingFor_set, if_pos rfl, List.length_append, List.length_singleton]
    omega
  · rw [waitingFor_set, if_pos rfl]
    exact hnodup.2
  · intro i hi
    rw [waitingFor_set, if_pos rfl] at hi
    have hne : i ≠ target := fun heq => hnodup.1 (heq ▸ hi)
    obtain ⟨m, hm, hm'⟩ := h.awaiting i (hfor ▸ List.mem_cons_of_mem target hi)
    exact ⟨m, (getElem?_dealt_of_ne hne _ _).trans hm, hm'⟩
  · intro other hother i hi
    rw [waitingFor_set, if_neg hother] at hi
    obtain ⟨m, hm, hmkind⟩ := h.others other hother i hi
    have hne : i ≠ target := by
      rintro rfl
      rw [hm₀] at hm
      exact hmkind (Option.some.inj hm ▸ hm₀kind)
    exact ⟨m, (getElem?_dealt_of_ne hne _ _).trans hm, hmkind⟩
  · intro n
    have hnumbered := h.numbered n
    rw [List.take_of_length_le hroom.le] at hnumbered
    have hfits : (given ++ [frameNumber]).length ≤ count := by
      rw [List.length_append, List.length_singleton]
      omega
    rw [List.take_of_length_le hfits, List.mem_append, List.mem_singleton, ← hnumbered]
    constructor
    · rintro ⟨i, m, hm, hcertificate, hnumber⟩
      by_cases htarget : i = target
      · subst htarget
        rw [getElem?_dealt_self, hm₀] at hm
        cases hm
        exact Or.inr (Option.some.inj hnumber).symm
      · exact Or.inl ⟨i, m, (getElem?_dealt_of_ne htarget _ _).symm.trans hm, hcertificate,
          hnumber⟩
    · rintro (⟨i, m, hm, hcertificate, hnumber⟩ | rfl)
      · have hne : i ≠ target := by
          rintro rfl
          rw [hm₀] at hm
          cases hm
          rw [hm₀none] at hnumber
          cases hnumber
        exact ⟨i, m, (getElem?_dealt_of_ne hne _ _).trans hm, hcertificate, hnumber⟩
      · exact ⟨target, dealTo .certificate n m₀, by rw [getElem?_dealt_self, hm₀]; rfl, rfl, rfl⟩

/-- A Certificate message goes to the first one that waits, or to none. -/
theorem Dealt.attach_certificate (h : Dealt count given s) (frameNumber : ℕ+)
    (selectedGroup : Option Int) :
    Dealt count (given ++ [frameNumber]) (s.attach frameNumber selectedGroup 11) := by
  have hkind : kindOfType 11 selectedGroup = some .certificate :=
    (kindOfType_eq_certificate_iff _ _).mpr rfl
  have hwaiting := waiting_certificate s
  cases hfor : s.waitingFor .certificate with
  | nil =>
    rw [hfor] at hwaiting
    rw [attach_of_not_waiting fun kind hsome => Option.some.inj (hkind.symm.trans hsome) ▸ hwaiting]
    exact h.attach_full frameNumber hfor
  | cons target rest =>
    rw [hfor] at hwaiting
    rw [attach_of_waiting hkind hwaiting]
    exact h.attach_first frameNumber hfor

end

/-! ## The whole dealing -/

/-- The places of the messages of a kind. -/
theorem get?_pendingOf (messages : List HandshakeMessage) (kind : HandshakeMessageKind) :
    ((pendingOf messages).get? kind).getD [] =
      (messages.zipIdx.filter fun entry =>
        entry.1.kind = kind ∧ kind ≠ .directionFlip).map Prod.snd := by
  unfold pendingOf
  generalize messages.zipIdx = entries
  induction entries using List.reverseRecOn with
  | nil => rfl
  | append_singleton rest entry ih =>
    rw [List.foldl_append, List.foldl_cons, List.foldl_nil, List.filter_append, List.map_append,
      ← ih]
    by_cases hflip : entry.1.kind = .directionFlip
    · rw [if_pos hflip]
      have hout : ¬(entry.1.kind = kind ∧ kind ≠ .directionFlip) := by
        rintro ⟨rfl, hne⟩
        exact hne hflip
      simp [hout]
    · rw [if_neg hflip, Dict.update, Dict.get?_set]
      by_cases hkind : entry.1.kind = kind
      · subst hkind
        simp [hflip]
      · simp [Ne.symm hkind, hkind]

theorem Dealt.start {messages : List HandshakeMessage}
    (hnone : ∀ m ∈ messages, m.frameNumber = none) :
    Dealt (messages.countP (·.kind = .certificate)) []
      { pending := pendingOf messages, updated := messages } := by
  have hmem : ∀ kind, ∀ i ∈ Attachment.waitingFor
      { pending := pendingOf messages, updated := messages } kind,
      ∃ m, messages[i]? = some m ∧ m.kind = kind := by
    intro kind i hi
    rw [Attachment.waitingFor, get?_pendingOf] at hi
    obtain ⟨entry, hentry, rfl⟩ := List.mem_map.mp hi
    obtain ⟨hzip, hkind⟩ := List.mem_filter.mp hentry
    exact ⟨entry.1, List.mem_zipIdx_iff_getElem?.mp hzip, (of_decide_eq_true hkind).1⟩
  refine ⟨?_, ?_, ?_, ?_, ?_⟩
  · rw [Attachment.waitingFor, get?_pendingOf, List.length_map, ← List.countP_eq_length_filter]
    have hcount : messages.countP (fun m => decide (m.kind = .certificate)) =
        messages.zipIdx.countP fun entry => decide (entry.1.kind = .certificate) := by
      conv_lhs => rw [← List.zipIdx_map_fst 0 messages, List.countP_map]
      rfl
    rw [hcount]
    simp
  · rw [Attachment.waitingFor, get?_pendingOf]
    have hsublist := (List.filter_sublist (p := fun entry : HandshakeMessage × Nat =>
      entry.1.kind = HandshakeMessageKind.certificate ∧
        HandshakeMessageKind.certificate ≠ .directionFlip) (l := messages.zipIdx)).map Prod.snd
    refine hsublist.nodup ?_
    rw [List.zipIdx_map_snd]
    exact List.nodup_range'
  · intro i hi
    obtain ⟨m, hm, hkind⟩ := hmem .certificate i hi
    exact ⟨m, hm, hkind, hnone m (List.mem_of_getElem? hm)⟩
  · intro kind hne i hi
    obtain ⟨m, hm, hkind⟩ := hmem kind i hi
    exact ⟨m, hm, hkind ▸ hne⟩
  · intro n
    rw [List.take_nil]
    constructor
    · rintro ⟨i, m, hm, -, hnumber⟩
      rw [hnone m (List.mem_of_getElem? hm)] at hnumber
      cases hnumber
    · exact fun hn => absurd hn List.not_mem_nil

/-- The handshake types of one frame. -/
theorem Dealt.attach_types {count : Nat} {given : List ℕ+} {s : Attachment}
    (h : Dealt count given s) (frameNumber : ℕ+) (selectedGroup : Option Int) (types : List Nat) :
    Dealt count (given ++ (types.filter (· = 11)).map fun _ => frameNumber)
      (types.foldl (Attachment.attach frameNumber selectedGroup) s) := by
  induction types generalizing given s with
  | nil => simpa using h
  | cons t rest ih =>
    rw [List.foldl_cons]
    by_cases ht : t = 11
    · subst ht
      have hrest := ih (h.attach_certificate frameNumber selectedGroup)
      rw [List.append_assoc] at hrest
      simpa using hrest
    · have hrest := ih (h.attach_other frameNumber selectedGroup ht)
      simpa [ht] using hrest

/-- One frame. -/
theorem Dealt.attachFrame {count : Nat} {given : List ℕ+} {s s' : Attachment} {frame : Record}
    (h : Dealt count given s) (hstep : attachFrame s frame = .ok s') :
    Dealt count (given ++ certificateNumbers frame) s' := by
  obtain ⟨number, hnumber, hstep⟩ := Fallible.bind_eq_ok.mp hstep
  have hnone : frameNumberOf frame = none → s' = s →
      Dealt count (given ++ certificateNumbers frame) s' := by
    intro hframe hsame
    rw [certificateNumbers, hframe, List.append_nil, hsame]
    exact h
  cases number with
  | none =>
    refine hnone ?_ (Fallible.pure_eq_ok.mp hstep).symm
    rw [frameNumberOf, hnumber]
  | some n =>
    dsimp only at hstep
    split at hstep
    · rename_i hpos
      obtain ⟨types, htypes, hstep⟩ := Fallible.bind_eq_ok.mp hstep
      obtain ⟨selectedGroup, -, hstep⟩ := Fallible.bind_eq_ok.mp hstep
      obtain rfl := Fallible.pure_eq_ok.mp hstep
      have hframe : frameNumberOf frame = some ⟨n, hpos⟩ := by
        rw [frameNumberOf, hnumber]
        exact dif_pos hpos
      rw [certificateNumbers, hframe, htypes]
      exact h.attach_types ⟨n, hpos⟩ selectedGroup types
    · rename_i hzero
      refine hnone ?_ (Fallible.pure_eq_ok.mp hstep).symm
      rw [frameNumberOf, hnumber]
      exact dif_neg hzero

theorem Dealt.run {count : Nat} {frames : List Record} {given : List ℕ+} {s s' : Attachment}
    (h : Dealt count given s) (hrun : frames.foldlM Handshakes.attachFrame s = .ok s') :
    Dealt count (given ++ frames.flatMap certificateNumbers) s' := by
  induction frames generalizing given s with
  | nil =>
    obtain rfl := Fallible.pure_eq_ok.mp hrun
    simpa using h
  | cons frame rest ih =>
    obtain ⟨t, hstep, hrun⟩ := Fallible.foldlM_cons_eq_ok.mp hrun
    have hrest := ih (h.attachFrame hstep) hrun
    rwa [List.append_assoc] at hrest

theorem frameNumber_messageOf (letter : Char) : (messageOf letter).frameNumber = none := by
  unfold messageOf
  split <;> rfl

/-- **The Certificate messages of a history get the first frames TShark decoded one in.** How many
there are is a matter of the history, and which of them of the order of the frames. -/
theorem mem_attachFrames_iff {history : String} {frames : List Record}
    {messages : List HandshakeMessage}
    (h : attachFrames (messagesFromSslHistory history) frames = .ok messages) (n : ℕ+) :
    (∃ m ∈ messages, m.kind = .certificate ∧ m.frameNumber = some n) ↔
      n ∈ (frames.flatMap certificateNumbers).take (certificateCount history) := by
  obtain ⟨s, hrun, h⟩ := Fallible.bind_eq_ok.mp h
  obtain rfl := Fallible.pure_eq_ok.mp h
  have hnone : ∀ m ∈ messagesFromSslHistory history, m.frameNumber = none := by
    intro m hm
    obtain ⟨letter, -, rfl⟩ := List.mem_map.mp hm
    exact frameNumber_messageOf letter
  have hdealt := (Dealt.start hnone).run hrun
  rw [List.nil_append] at hdealt
  refine Iff.trans ?_ (hdealt.numbered n)
  simp only [List.mem_iff_getElem?]
  constructor
  · rintro ⟨m, ⟨i, hm⟩, hcertificate⟩
    exact ⟨i, m, hm, hcertificate⟩
  · rintro ⟨i, m, hm, hcertificate⟩
    exact ⟨m, ⟨i, hm⟩, hcertificate⟩

/-! ## The handshake of a connection -/

/-- The frames of a connection. -/
def connectionFrames (flows : List Flow) (frames : List Record) (uid : String) : List Record :=
  frames.filter fun frame => decide (matchFrameUid frame flows = .ok (some uid))

/-- The later of two histories, in the order of handshakes. -/
def laterHistory (best history : String) : String := if best ≤ history then history else best

/-- Of the histories of a connection's rows, the last in the order of handshakes. -/
def lastHistory (rows : List Record) (uid : String) : String :=
  ((rows.filter fun row => asStr (row.get "uid") maxUidLen = some uid).map historyOf).foldl
    laterHistory ""

theorem empty_le (history : String) : "" ≤ history := by
  intro h
  exact List.not_lt_nil _ (show history.toList < [] from h)

theorem foldl_laterHistory_spec (l : List String) (best : String) :
    (l.foldl laterHistory best = best ∨ l.foldl laterHistory best ∈ l) ∧
      best ≤ l.foldl laterHistory best ∧ ∀ h ∈ l, h ≤ l.foldl laterHistory best := by
  induction l generalizing best with
  | nil => exact ⟨Or.inl rfl, String.le_refl best, by simp⟩
  | cons first rest ih =>
    obtain ⟨hfrom, hbest, hall⟩ := ih (laterHistory best first)
    rw [List.foldl_cons]
    have hfirst : first ≤ laterHistory best first := by
      unfold laterHistory
      split
      · exact String.le_refl first
      · rename_i hlt
        exact (String.le_total best first).resolve_left hlt
    have hinit : best ≤ laterHistory best first := by
      unfold laterHistory
      split
      · assumption
      · exact String.le_refl best
    refine ⟨?_, String.le_trans hinit hbest, ?_⟩
    · rcases hfrom with heq | hmem
      · rw [heq, laterHistory]
        split
        · exact Or.inr List.mem_cons_self
        · exact Or.inl rfl
      · exact Or.inr (List.mem_cons_of_mem first hmem)
    · intro h hh
      rcases List.mem_cons.mp hh with rfl | hh
      · exact String.le_trans hfirst hbest
      · exact hall h hh

/-- The frames that are kept under a connection are its own, as far as Certificate messages go. -/
theorem flatMap_framesByUid {flows : List Flow} {frames : List Record}
    {before after : Dict String (List Record)}
    (h : frames.foldlM (frameStep flows) before = .ok after) (uid : String) :
    ((after.get? uid).getD []).flatMap certificateNumbers =
      ((before.get? uid).getD []).flatMap certificateNumbers ++
        (connectionFrames flows frames uid).flatMap certificateNumbers := by
  induction frames generalizing before with
  | nil =>
    obtain rfl := Fallible.pure_eq_ok.mp h
    simp [connectionFrames]
  | cons frame rest ih =>
    obtain ⟨between, hstep, h⟩ := Fallible.foldlM_cons_eq_ok.mp h
    rw [ih h]
    -- What the frame adds to the list of its connection.
    have hframe : ((between.get? uid).getD []).flatMap certificateNumbers =
        ((before.get? uid).getD []).flatMap certificateNumbers ++
          (connectionFrames flows [frame] uid).flatMap certificateNumbers := by
      obtain ⟨types, htypes, hstep⟩ := Fallible.bind_eq_ok.mp hstep
      split at hstep
      · rename_i hempty
        obtain rfl := Fallible.pure_eq_ok.mp hstep
        have hnone : certificateNumbers frame = [] := by
          rw [certificateNumbers, htypes, List.isEmpty_iff.mp hempty]
          cases frameNumberOf frame <;> rfl
        unfold connectionFrames
        by_cases hmatch : matchFrameUid frame flows = .ok (some uid) <;> simp [hmatch, hnone]
      · obtain ⟨owner, howner, hstep⟩ := Fallible.bind_eq_ok.mp hstep
        cases owner with
        | none =>
          obtain rfl := Fallible.pure_eq_ok.mp hstep
          simp [connectionFrames, howner]
        | some owner =>
          obtain rfl := Fallible.pure_eq_ok.mp hstep
          rw [Dict.update, Dict.get?_set]
          by_cases huid : uid = owner
          · subst huid
            simp [connectionFrames, howner]
          · simp [connectionFrames, howner, huid, Ne.symm huid]
    have hsplit : connectionFrames flows (frame :: rest) uid =
        connectionFrames flows [frame] uid ++ connectionFrames flows rest uid := by
      unfold connectionFrames
      rw [← List.filter_append]
      rfl
    rw [hframe, hsplit, List.flatMap_append, List.append_assoc]

/-- The messages of a handshake are its history's, with the frames of its connection. -/
theorem messages_of_mem {logs : Record} {flows : List Flow} {index : Tls.TlsParameterIndex}
    {tsharkFrames : Option (List Val)} {handshakes : List TlsHandshake}
    (h : normalizeHandshakes logs flows index tsharkFrames = .ok handshakes) :
    ∃ framesByUid : Dict String (List Record),
      (boundedRecords (.list (tsharkFrames.getD [])) maxFrames).foldlM (frameStep flows) ∅ =
        .ok framesByUid ∧
      ∀ x ∈ handshakes, attachFrames (messagesFromSslHistory x.sslHistory)
        ((framesByUid.get? x.uid).getD []) = .ok x.messages := by
  obtain ⟨framesByUid, hframes, h⟩ := Fallible.bind_eq_ok.mp h
  obtain ⟨made, hmade, h⟩ := Fallible.bind_eq_ok.mp h
  obtain rfl := Fallible.pure_eq_ok.mp h
  refine ⟨framesByUid, hframes, ?_⟩
  intro x hx
  rw [(List.perm_insertionSort _ _).mem_iff] at hx
  revert x
  refine Fallible.foldlM_invariant (P := fun made : List TlsHandshake => ∀ x ∈ made,
    attachFrames (messagesFromSslHistory x.sslHistory)
      ((framesByUid.get? x.uid).getD []) = .ok x.messages) hmade (by simp) ?_
  intro made made' row _ hstep ih x hx
  obtain ⟨one, hone, hstep⟩ := Fallible.bind_eq_ok.mp hstep
  cases one with
  | none =>
    obtain rfl := Fallible.pure_eq_ok.mp hstep
    exact ih x hx
  | some handshake =>
    obtain rfl := Fallible.pure_eq_ok.mp hstep
    rcases List.mem_append.mp hx with hx | hx
    · exact ih x hx
    · obtain rfl := List.mem_singleton.mp hx
      unfold handshakeFromRow at hone
      cases huid : asStr (row.get "uid") maxUidLen with
      | none =>
        rw [huid] at hone
        cases hone
      | some uid =>
        rw [huid] at hone
        obtain ⟨version, -, hone⟩ := Fallible.bind_eq_ok.mp hone
        obtain ⟨messages, hmessages, hone⟩ := Fallible.bind_eq_ok.mp hone
        obtain ⟨keyExchange, -, hone⟩ := Fallible.bind_eq_ok.mp hone
        obtain ⟨signature, -, hone⟩ := Fallible.bind_eq_ok.mp hone
        obtain rfl := Option.some.inj (Fallible.pure_eq_ok.mp hone)
        exact hmessages

theorem uidHistoryLe_iff {a b : TlsHandshake} :
    uidHistoryLe a b = true ↔ a.uid < b.uid ∨ a.uid = b.uid ∧ a.sslHistory ≤ b.sslHistory := by
  unfold uidHistoryLe
  by_cases huid : a.uid = b.uid
  · simp [huid]
  · simp [huid]

instance : Std.Total fun a b : TlsHandshake => uidHistoryLe a b = true where
  total a b := by
    simp only [uidHistoryLe_iff]
    by_cases huid : a.uid = b.uid
    · rcases String.le_total a.sslHistory b.sslHistory with hle | hle
      · exact Or.inl (Or.inr ⟨huid, hle⟩)
      · exact Or.inr (Or.inr ⟨huid.symm, hle⟩)
    · by_cases hlt : a.uid < b.uid
      · exact Or.inl (Or.inl hlt)
      · refine Or.inr (Or.inl ?_)
        by_contra hnot
        exact huid (String.le_antisymm hnot hlt)

instance : IsTrans TlsHandshake fun a b => uidHistoryLe a b = true where
  trans a b c := by
    simp only [uidHistoryLe_iff]
    rintro (hab | ⟨hab, hhistory⟩) (hbc | ⟨hbc, hhistory'⟩)
    · exact Or.inl (String.lt_trans hab hbc)
    · exact Or.inl (hbc ▸ hab)
    · exact Or.inl (hab ▸ hbc)
    · exact Or.inr ⟨hab.trans hbc, String.le_trans hhistory hhistory'⟩

/-- **The handshake that stands for a connection is the one of its last history.** Where a
connection has several rows, its certificates are looked up in that one. -/
theorem sslHistory_of_get? {logs : Record} {flows : List Flow} {index : Tls.TlsParameterIndex}
    {tsharkFrames : Option (List Val)} {handshakes : List TlsHandshake} {uid : String}
    {handshake : TlsHandshake}
    (h : normalizeHandshakes logs flows index tsharkFrames = .ok handshakes)
    (hget : (Dict.ofList (·.uid) id handshakes).get? uid = some handshake) :
    handshake.sslHistory = lastHistory (Certificates.rowsOf logs "ssl.log") uid := by
  have hsorted : handshakes.Pairwise fun a b => uidHistoryLe a b = true := by
    obtain ⟨framesByUid, -, h⟩ := Fallible.bind_eq_ok.mp h
    obtain ⟨made, -, h⟩ := Fallible.bind_eq_ok.mp h
    obtain rfl := Fallible.pure_eq_ok.mp h
    exact List.pairwise_insertionSort _ made
  have hhistories : ∀ history, (∃ x ∈ handshakes, x.uid = uid ∧ x.sslHistory = history) ↔
      history ∈ ((Certificates.rowsOf logs "ssl.log").filter fun row =>
        asStr (row.get "uid") maxUidLen = some uid).map historyOf := by
    intro history
    rw [Certificates.exists_handshake_iff h fun owner made => owner = uid ∧ made = history,
      List.mem_map]
    constructor
    · rintro ⟨row, hrow, owner, howner, rfl, rfl⟩
      exact ⟨row, List.mem_filter.mpr ⟨hrow, decide_eq_true howner⟩, rfl⟩
    · rintro ⟨row, hrow, rfl⟩
      obtain ⟨hmem, huid⟩ := List.mem_filter.mp hrow
      exact ⟨row, hmem, uid, of_decide_eq_true huid, rfl, rfl⟩
  rw [Dict.get?_ofList, Option.map_id_fun, id] at hget
  obtain ⟨front, hfront⟩ := List.getLast?_eq_some_iff.mp hget
  have hmem : handshake ∈ handshakes.filter (·.uid = uid) := by rw [hfront]; simp
  obtain ⟨hin, huid⟩ := List.mem_filter.mp hmem
  have huid : handshake.uid = uid := of_decide_eq_true huid
  -- Nothing of the connection stands after it, so no history of the connection is later.
  have hlast : ∀ x ∈ handshakes, x.uid = uid → x.sslHistory ≤ handshake.sslHistory := by
    intro x hx hxuid
    have hxmem : x ∈ handshakes.filter (·.uid = uid) :=
      List.mem_filter.mpr ⟨hx, decide_eq_true hxuid⟩
    have hpairs := hsorted.filter (·.uid = uid)
    rw [hfront] at hpairs hxmem
    rcases List.mem_append.mp hxmem with hbefore | hself
    · have hle := (List.pairwise_append.mp hpairs).2.2 x hbefore handshake
        (List.mem_singleton_self handshake)
      rcases uidHistoryLe_iff.mp hle with hlt | ⟨-, hle⟩
      · rw [hxuid, huid] at hlt
        exact absurd hlt (String.lt_irrefl uid)
      · exact hle
    · obtain rfl := List.mem_singleton.mp hself
      exact String.le_refl _
  obtain ⟨hfrom, -, hall⟩ := foldl_laterHistory_spec
    (((Certificates.rowsOf logs "ssl.log").filter fun row =>
      asStr (row.get "uid") maxUidLen = some uid).map historyOf) ""
  have hown := hall _ ((hhistories handshake.sslHistory).mp ⟨handshake, hin, huid, rfl⟩)
  refine String.le_antisymm hown ?_
  rcases hfrom with hempty | hmem
  · rw [lastHistory, hempty]
    exact empty_le _
  · obtain ⟨x, hx, hxuid, hhistory⟩ := (hhistories _).mpr hmem
    rw [lastHistory, ← hhistory]
    exact hlast x hx hxuid

end Handshakes

namespace Certificates

open Py (Val Dict)
open Handshakes (connectionFrames certificateNumbers certificateCount lastHistory frameNumberOf
  matchFrameUid)

/-! ## What a record cites -/

/-- The Certificate messages TShark decoded on a connection: the frame of each. -/
def decodedCertificates (flows : List Flow) (frames : List Record) (uid : String) : List ℕ+ :=
  (connectionFrames flows frames uid).flatMap certificateNumbers

/-- Of the decoded ones the first, as many as the connection's last history has. -/
def citedFrames (logs : Record) (flows : List Flow) (frames : List Record) (uid : String) :
    List ℕ+ :=
  (decodedCertificates flows frames uid).take
    (certificateCount (lastHistory (rowsOf logs "ssl.log") uid))

theorem mem_certificateFrames {handshake : TlsHandshake} {n : Nat} :
    n ∈ certificateFrames (some handshake) ↔
      ∃ m ∈ handshake.messages, m.kind = .certificate ∧ m.frameNumber.map (·.val) = some n := by
  rw [certificateFrames, Dict.mem_fromKeys, List.mem_filterMap]
  refine exists_congr fun m => and_congr_right fun _ => ?_
  split
  · rename_i hkind
    simp [hkind]
  · rename_i hkind
    simp [hkind]

/-- The frames the analyzer gave, as far as they are read. -/
def readFrames (tsharkFrames : Option (List Val)) : List Record :=
  boundedRecords (.list (tsharkFrames.getD [])) Handshakes.maxFrames

/-- **What a record cites does not depend on its role.** It is the reason why a server certificate
can cite a frame of the client. -/
theorem mem_sourceFrames_iff {env : Environment} {logs : Record} {flows : List Flow}
    {index : Tls.TlsParameterIndex} {tsharkFrames : Option (List Val)}
    {handshakes : List TlsHandshake} {extracted : List ExtractedCertificate}
    {records : List CertificateEvidence}
    (hhandshakes : Handshakes.normalizeHandshakes logs flows index tsharkFrames = .ok handshakes)
    (hrecords : env.normalizeCertificates logs extracted handshakes = .ok records)
    {item : CertificateEvidence} (hitem : item ∈ records) (n : Nat) :
    n ∈ item.sourceFrames ↔
      ∃ number ∈ citedFrames logs flows (readFrames tsharkFrames) item.uid, number.val = n := by
  obtain ⟨-, hrows⟩ := normalizeCertificates_spec hrecords
  obtain ⟨row, hrow, hgate, hcited⟩ := hrows item hitem
  obtain ⟨hread, -⟩ := Option.filter_eq_some_iff.mp hgate
  obtain ⟨x, hx, huid, hget⟩ := exists_get?_of_row hhandshakes hrow hread
  obtain ⟨framesByUid, hframes, hmessages⟩ := Handshakes.messages_of_mem hhandshakes
  have hdealt := Handshakes.flatMap_framesByUid hframes item.uid
  rw [Dict.get?_empty, Option.getD_none, List.flatMap_nil, List.nil_append] at hdealt
  have hcount := Handshakes.sslHistory_of_get? hhandshakes hget
  have hnumbered := Handshakes.mem_attachFrames_iff (hmessages x hx)
  rw [huid, hdealt, hcount] at hnumbered
  rw [hcited, hget, mem_certificateFrames]
  constructor
  · rintro ⟨m, hm, hkind, hnumber⟩
    obtain ⟨number, hsome, rfl⟩ := Option.map_eq_some_iff.mp hnumber
    exact ⟨number, (hnumbered number).mp ⟨m, hm, hkind, hsome⟩, rfl⟩
  · rintro ⟨number, hnumber, rfl⟩
    obtain ⟨m, hm, hkind, hsome⟩ := (hnumbered number).mpr hnumber
    exact ⟨m, hm, hkind, by rw [hsome]; rfl⟩

/-! ## Who sent a frame -/

/-- The side a role stands for. -/
def peer (role : CertificateRole) (flow : Flow) : FlowEndpoint :=
  match role with
  | .server => flow.resp
  | .client => flow.orig

/-- The frame comes from the endpoint. -/
def sentBy (frame : Record) (endpoint : FlowEndpoint) : Bool :=
  match asInt (frame.get "tcp.srcport") with
  | .ok port =>
      (endpointsOf [asStr (frame.get "ip.src") Handshakes.maxHostLen,
        asStr (frame.get "ipv6.src") Handshakes.maxHostLen] port).contains
          (endpoint.host, endpoint.port.val)
  | .error _ => false

/-- A frame of the connection with this number comes from the role's side. The side is read off the
addresses of the frame, as the history has no addresses and the frames have no letters. -/
def SentByPeer (flows : List Flow) (frames : List Record) (uid : String) (role : CertificateRole)
    (number : ℕ+) : Prop :=
  ∃ frame ∈ connectionFrames flows frames uid, frameNumberOf frame = some number ∧
    ∃ flow ∈ flows, flow.uid = uid ∧ sentBy frame (peer role flow) = true

/-- **A record cites frames of its own peer exactly where the Certificate messages that were decoded on
its connection are of that peer, as many as its history has.** -/
theorem citations_attributed_iff {env : Environment} {logs : Record} {flows : List Flow}
    {index : Tls.TlsParameterIndex} {tsharkFrames : Option (List Val)}
    {handshakes : List TlsHandshake} {extracted : List ExtractedCertificate}
    {records : List CertificateEvidence}
    (hhandshakes : Handshakes.normalizeHandshakes logs flows index tsharkFrames = .ok handshakes)
    (hrecords : env.normalizeCertificates logs extracted handshakes = .ok records)
    {item : CertificateEvidence} (hitem : item ∈ records) :
    (∀ n ∈ item.sourceFrames, ∃ number : ℕ+, number.val = n ∧
        SentByPeer flows (readFrames tsharkFrames) item.uid item.role number) ↔
      ∀ number ∈ citedFrames logs flows (readFrames tsharkFrames) item.uid,
        SentByPeer flows (readFrames tsharkFrames) item.uid item.role number := by
  have hcited := mem_sourceFrames_iff hhandshakes hrecords hitem
  constructor
  · intro hall number hnumber
    obtain ⟨number', heq, hsent⟩ := hall number.val ((hcited number.val).mpr ⟨number, hnumber, rfl⟩)
    rwa [PNat.eq heq] at hsent
  · intro hall n hn
    obtain ⟨number, hnumber, heq⟩ := (hcited n).mp hn
    exact ⟨number, heq, hall number hnumber⟩

/-! ## Both peers send a certificate -/

def mutualFlow : Flow where
  uid := "C1"
  orig := ⟨"192.0.2.10", 49152⟩
  resp := ⟨"192.0.2.25", 465⟩
  proto := .tcp
  history := "ShADad"
  connState := "SF"
  missedBytes := 0
  origBytes := 64
  respBytes := 64
  reconstructionQuality := .complete
  gapBytes := 0
  evidenceState := .observed

/-- A handshake with a Certificate message of each side. -/
def mutualLogs : Record :=
  let fingerprint := Val.str emptySequenceSha256.val
  [("ssl.log", .list [
    .dict [("uid", .str "C1"), ("ssl_history", .str "CsxrXkyF"), ("cert_chain_fps", fingerprint),
      ("client_cert_chain_fps", fingerprint)]])]

/-- The server's Certificate message in frame 7 and the client's in frame 9. -/
def mutualFrames : List Val :=
  [.dict [("frame.number", .str "7"), ("ip.src", .str "192.0.2.25"), ("tcp.srcport", .str "465"),
      ("ip.dst", .str "192.0.2.10"), ("tcp.dstport", .str "49152"),
      ("tls.handshake.type", .str "11")],
   .dict [("frame.number", .str "9"), ("ip.src", .str "192.0.2.10"), ("tcp.srcport", .str "49152"),
      ("ip.dst", .str "192.0.2.25"), ("tcp.dstport", .str "465"),
      ("tls.handshake.type", .str "11,16,15")]]

def mutualHandshakes (frames : List Val) : List TlsHandshake :=
  (Handshakes.normalizeHandshakes mutualLogs [mutualFlow] .empty (some frames)).toOption.getD []

def mutualRecords (frames : List Val) : List CertificateEvidence :=
  (emptySequenceRun.normalizeCertificates mutualLogs [emptySequenceFile]
    (mutualHandshakes frames)).toOption.getD []

/-- TShark saw the server's message only: the server's record cites the server. -/
theorem server_cites_server :
    ∃ item ∈ mutualRecords (mutualFrames.take 1), item.role = .server ∧
      ∀ n ∈ item.sourceFrames, ∃ number : ℕ+, number.val = n ∧
        SentByPeer [mutualFlow] (readFrames (some (mutualFrames.take 1))) item.uid item.role
          number := by
  have hhandshakes : Handshakes.normalizeHandshakes mutualLogs [mutualFlow] .empty
      (some (mutualFrames.take 1)) = .ok (mutualHandshakes (mutualFrames.take 1)) :=
    Fallible.eq_ok_of_isOk [] (by decide +kernel)
  have hrecords : emptySequenceRun.normalizeCertificates mutualLogs [emptySequenceFile]
      (mutualHandshakes (mutualFrames.take 1)) = .ok (mutualRecords (mutualFrames.take 1)) :=
    Fallible.eq_ok_of_isOk [] (by decide +kernel)
  have hfound : ∃ item ∈ mutualRecords (mutualFrames.take 1), item.role = .server ∧
      ∀ number ∈ citedFrames mutualLogs [mutualFlow]
        (readFrames (some (mutualFrames.take 1))) item.uid,
        SentByPeer [mutualFlow] (readFrames (some (mutualFrames.take 1))) item.uid item.role
          number := by
    unfold SentByPeer
    decide +kernel
  obtain ⟨item, hitem, hrole, hsent⟩ := hfound
  exact ⟨item, hitem, hrole, (citations_attributed_iff hhandshakes hrecords hitem).mpr hsent⟩

/-- Both were seen: the server's record cites frame 9, which the client sent. -/
theorem server_cites_client :
    (Handshakes.normalizeHandshakes mutualLogs [mutualFlow] .empty (some mutualFrames)).isOk ∧
      (emptySequenceRun.normalizeCertificates mutualLogs [emptySequenceFile]
        (mutualHandshakes mutualFrames)).isOk ∧
      ∃ item ∈ mutualRecords mutualFrames, item.role = .server ∧ 9 ∈ item.sourceFrames ∧
        ¬SentByPeer [mutualFlow] (readFrames (some mutualFrames)) item.uid .server 9 := by
  unfold SentByPeer
  decide +kernel

end Certificates
end Normalize
end SecureMail
