import SecureMail.Lib.Fallible
import SecureMail.Normalize.Merge
import SecureMail.Tls.Token

/-!
# Which replies are one reply

Zeek and TShark both report the replies of a server, and `_compatible` decides whether two reports are
of one reply. Where neither has a reply code it compares texts: TShark's status word, with the sign POP3
puts before it, against all that Zeek read. So it asks whether the one occurs in the other, anywhere, and
not what the reply begins with.

The text Zeek read is a status and what the server wrote after it; `Status` is the first part.

A POP3 server answers every command in one of two words, and goes on with any text. That one
sentence can hold the other word is therefore no accident, and a reply may then be folded into the
report of another. The condition is on the words and the sign of the two texts, and the containment
of strings is taken apart into containment of words where there is one word on the left.
-/

namespace SecureMail
namespace Normalize
namespace Sessions

open Py (upper split isIn startsWith truthy)

/-! ## The text of an event has a word -/

theorem words_of_mem {text : String} {c : Char} (hmem : c ∈ text.toList)
    (hc : Py.isSpaceChar c = false) : split (upper text) ≠ [] := by
  obtain ⟨d, hd⟩ := List.exists_mem_of_ne_nil _ (Py.upperChar_ne_nil c)
  refine Py.split_ne_nil (c := d) ?_ (Py.not_space_of_mem_upperChar hd hc)
  rw [Py.upper_toList]
  exact List.mem_flatMap.mpr ⟨c, hmem, hd⟩

theorem words_of_boundText {value : Option String} {text : String}
    (h : boundText value = some text) : split (upper text) ≠ [] := by
  obtain ⟨raw, -, h⟩ := Option.bind_eq_some_iff.mp h
  dsimp only at h
  split at h
  · cases h
  · rename_i hne
    obtain ⟨c, rest, hlist, hc⟩ := Py.exists_of_strip_ne_empty hne
    refine words_of_mem (c := c) ?_ hc
    obtain rfl := Option.some.inj h
    split
    · rw [Py.takeChars, String.toList_ofList, hlist, maxTextLen, List.take_succ_cons]
      exact List.mem_cons_self
    · rw [hlist]
      exact List.mem_cons_self

/-- **What Zeek read has a first word**, whether it was redacted or not. An event whose text was
blank would have no text, so no test on a first word can fail for want of one. -/
theorem words_of_zeekText {row : Record} {event : ProtocolEvent}
    (h : eventFromEmailRow row = .ok (some event)) :
    ∀ text ∈ event.text, split (upper text) ≠ [] := by
  unfold eventFromEmailRow at h
  split at h
  · cases h
  · obtain ⟨replyCode, -, h⟩ := Fallible.bind_eq_ok.mp h
    obtain rfl := Option.some.inj (Fallible.pure_eq_ok.mp h)
    intro text htext
    obtain ⟨bounded, hbounded, rfl⟩ := Option.map_eq_some_iff.mp htext
    split
    · decide +kernel
    · exact words_of_boundText hbounded

/-! ## Statuses -/

inductive StatusWord where
  | ok
  | no
  | bad
  | err
  deriving DecidableEq, Repr

def StatusWord.text : StatusWord → String
  | .ok => "OK"
  | .no => "NO"
  | .bad => "BAD"
  | .err => "ERR"

inductive Sign where
  | none
  | plus
  | minus
  deriving DecidableEq, Repr

def Sign.text : Sign → String
  | .none => ""
  | .plus => "+"
  | .minus => "-"

/-- A status word as a server writes it. -/
structure Status where
  sign : Sign
  word : StatusWord
  deriving DecidableEq, Repr

def Status.text (s : Status) : String := s.sign.text ++ s.word.text

namespace Status

def all : List Status :=
  [Sign.none, .plus, .minus].flatMap fun sign =>
    [StatusWord.ok, .no, .bad, .err].map fun word => ⟨sign, word⟩

theorem mem_all (s : Status) : s ∈ all := by
  obtain ⟨sign, word⟩ := s
  cases sign <;> cases word <;> decide

theorem upper_text (s : Status) : upper s.text = s.text := by
  have hall : ∀ s ∈ all, upper s.text = s.text := by decide +kernel
  exact hall s (mem_all s)

theorem text_ne_empty (s : Status) : s.text ≠ "" := by
  have hall : ∀ s ∈ all, s.text ≠ "" := by decide
  exact hall s (mem_all s)

theorem toList_ne_nil (s : Status) : s.text.toList ≠ [] := by
  have hall : ∀ s ∈ all, s.text.toList ≠ [] := by decide
  exact hall s (mem_all s)

theorem not_space (s : Status) : ∀ c ∈ s.text.toList, Py.isSpaceChar c = false := by
  have hall : ∀ s ∈ all, s.text.toList.any Py.isSpaceChar = false := by decide +kernel
  intro c hc
  simpa using List.any_eq_false.mp (hall s (mem_all s)) c hc

/-- No status begins with another. -/
theorem eq_of_prefix {s t : Status} (h : s.text.toList <+: t.text.toList) : s = t := by
  have hall : ∀ s ∈ all, ∀ t ∈ all, s.text.toList <+: t.text.toList → s = t := by decide +kernel
  exact hall s (mem_all s) t (mem_all t) h

/-- A signed status begins with a character that no word and no other sign has. -/
theorem signed (s : Status) (hs : s.sign ≠ .none) :
    ∃ c w, s.text.toList = c :: w ∧ ∀ t : Status, t.sign ≠ s.sign → c ∉ t.text.toList := by
  have hall : ∀ s ∈ all, s.sign ≠ .none → s.text.toList.head?.any (fun c =>
      all.all fun t => t.sign = s.sign || !t.text.toList.contains c) = true := by
    decide +kernel
  obtain ⟨c, hc, hother⟩ := (Option.any_eq_true _ _).mp (hall s (mem_all s) hs)
  obtain ⟨w, hw⟩ := List.head?_eq_some_iff.mp hc
  refine ⟨c, w, hw, fun t ht => ?_⟩
  have hcontains := List.all_eq_true.mp hother t (mem_all t)
  simpa [ht] using hcontains

end Status

/-! ## What follows a status -/

/-- A word that begins with a character the front does not have lies wholly behind it. -/
theorem infix_append_of_not_mem {α : Type*} {c : α} {w a r : List α} (h : c ∉ a) :
    (c :: w) <:+: a ++ r ↔ (c :: w) <:+: r := by
  induction a with
  | nil => rfl
  | cons x rest ih =>
    have hx : c ≠ x := fun heq => h (heq ▸ List.mem_cons_self)
    have hrest : c ∉ rest := fun hmem => h (List.mem_cons_of_mem x hmem)
    rw [List.cons_append, List.infix_cons_iff, ih hrest, List.cons_prefix_cons]
    constructor
    · rintro (⟨heq, -⟩ | hin)
      · exact absurd heq hx
      · exact hin
    · exact Or.inr

theorem head?_splitOnP {α : Type*} (p : α → Bool) (l : List α) :
    (l.splitOnP p).head? = some (l.takeWhile fun a => !p a) := by
  induction l with
  | nil => simp
  | cons a rest ih =>
    rw [List.splitOnP_cons_eq_if_modifyHead, List.takeWhile_cons]
    cases ha : p a with
    | true => simp
    | false =>
      cases hrest : rest.splitOnP p with
      | nil =>
        rw [hrest] at ih
        exact absurd ih (by simp)
      | cons first others =>
        rw [hrest, List.head?_cons, Option.some.injEq] at ih
        simp [ih]

/-- The first token of a text that begins with a status begins with it. -/
theorem prefix_first_token (s : Status) (rest : String) :
    s.text.toList <+: ((split (s.text ++ rest)).headD "").toList := by
  have hsplit := head?_splitOnP Py.isSpaceChar (s.text ++ rest).toList
  have htake : (s.text ++ rest).toList.takeWhile (fun a => !Py.isSpaceChar a) =
      s.text.toList ++ rest.toList.takeWhile fun a => !Py.isSpaceChar a := by
    rw [String.toList_append, List.takeWhile_append_of_pos]
    intro c hc
    rw [s.not_space c hc]
    rfl
  obtain ⟨others, hothers⟩ := List.head?_eq_some_iff.mp hsplit
  rw [htake] at hothers
  have hne : (s.text.toList ++ rest.toList.takeWhile fun a => !Py.isSpaceChar a).isEmpty = false := by
    have htext := s.toList_ne_nil
    simp [htext]
  rw [split, hothers, List.filter_cons, hne]
  simp

/-! ## TShark's replies -/

/-- What TShark reports with a text is a reply, with neither a command nor a reply code. -/
theorem tsharkEvent_of_text {frame : Record} {protocol : MailProtocol} {t : ProtocolEvent}
    {text : String} (h : tsharkEvent frame protocol = .ok (some t)) (ht : t.text = some text) :
    t.kind = .reply ∧ t.command = none ∧ t.replyCode = none := by
  unfold tsharkEvent at h
  obtain ⟨number, -, h⟩ := Fallible.bind_eq_ok.mp h
  dsimp only at h
  cases hrequest : frameStr frame (requestField protocol) with
  | some request =>
    rw [hrequest] at h
    cases h
    exact absurd ht (by simp)
  | none =>
    rw [hrequest] at h
    cases protocol with
    | smtp =>
      obtain ⟨code, -, h⟩ := Fallible.bind_eq_ok.mp h
      cases code with
      | none => cases h
      | some code =>
        cases h
        exact absurd ht (by simp)
    | imap | pop3 =>
      dsimp only at h
      split at h
      · cases h
        exact ⟨rfl, rfl, rfl⟩
      · cases h

/-! ## Compatible replies -/

theorem upper_append (s t : String) : upper (s ++ t) = upper s ++ upper t := by
  simp [upper]

/-- **Two replies without codes are compatible where TShark's status occurs in what Zeek read.** It
is the test of the code with its two conversions carried out. -/
theorem compatible_iff_isIn {z t : ProtocolEvent} {zstatus tstatus : Status} {rest : String}
    (hz : z.kind = .reply) (ht : t.kind = .reply) (hcommand : t.command = none)
    (hcode : t.replyCode = none) (hztext : z.text = some (zstatus.text ++ rest))
    (httext : t.text = some tstatus.text) (hdirection : z.direction = t.direction)
    (htag : z.tag = none ∨ t.tag = none ∨ z.tag = t.tag) :
    compatible z t = true ↔ isIn tstatus.text (zstatus.text ++ upper rest) = true := by
  have hzupper : z.upperText = zstatus.text ++ upper rest := by
    rw [ProtocolEvent.upperText, hztext, Option.getD_some, upper_append, zstatus.upper_text]
  have htupper : t.upperText = tstatus.text := by
    rw [ProtocolEvent.upperText, httext, Option.getD_some, tstatus.upper_text]
  have htcmd : t.upperCommand = "" := by
    rw [ProtocolEvent.upperCommand, hcommand]
    rfl
  have hzne : truthy (zstatus.text ++ upper rest) = true := by
    simp [truthy, zstatus.text_ne_empty]
  have htne : truthy tstatus.text = true := by
    simp [truthy, tstatus.text_ne_empty]
  unfold compatible
  rw [if_neg (by simp [hdirection]), if_neg (by rcases htag with h | h | h <;> simp [h])]
  dsimp only
  rw [if_neg (by simp [hz]), if_pos ⟨hz, ht⟩, hcode, htcmd, hzupper, htupper, hzne, htne]
  have hzcmd : (truthy z.upperCommand && z.upperCommand == "") = false := by
    by_cases h : z.upperCommand = "" <;> simp [truthy, h]
  have hstarts : startsWith (zstatus.text ++ upper rest) tstatus.text = true →
      isIn tstatus.text (zstatus.text ++ upper rest) = true := by
    intro h
    rw [isIn, decide_eq_true_eq]
    exact (Tls.startsWith_iff.mp h).isInfix
  have hfirst : startsWith tstatus.text ((split (zstatus.text ++ upper rest)).headD "") = true →
      isIn tstatus.text (zstatus.text ++ upper rest) = true := by
    intro h
    -- Zeek's status begins TShark's, so they are one status, and Zeek's text begins with it.
    have heq := Status.eq_of_prefix ((prefix_first_token zstatus _).trans (Tls.startsWith_iff.mp h))
    rw [isIn, decide_eq_true_eq, String.toList_append, heq]
    exact (List.prefix_append _ _).isInfix
  cases z.replyCode <;>
  · rw [hzcmd]
    simp only [Bool.true_and, Bool.or_eq_true, ite_eq_left_iff, Bool.false_eq_true, imp_false,
      not_not]
    constructor
    · rintro ((hin | hfront) | hword)
      · exact hin
      · exact hstarts hfront
      · exact hfirst hword
    · exact fun hin => Or.inl (Or.inl hin)

/-! ## Where the status decides -/

/-- Of one status word in both texts, TShark's sign is none or Zeek's, or the server wrote the signed word
itself; of two words, TShark's is nowhere in what Zeek read. -/
def Discernible (zstatus tstatus : Status) (rest : String) : Prop :=
  if zstatus.word = tstatus.word then
    tstatus.sign = .none ∨ tstatus.sign = zstatus.sign ∨ isIn tstatus.text (upper rest) = true
  else isIn tstatus.text (zstatus.text ++ upper rest) = false

theorem isIn_of_same_word {zstatus tstatus : Status} (h : zstatus.word = tstatus.word)
    (rest : String) :
    isIn tstatus.text (zstatus.text ++ rest) = true ↔
      tstatus.sign = .none ∨ tstatus.sign = zstatus.sign ∨ isIn tstatus.text rest = true := by
  simp only [isIn, decide_eq_true_eq, String.toList_append]
  constructor
  · intro hin
    by_cases hnone : tstatus.sign = .none
    · exact Or.inl hnone
    by_cases hsign : tstatus.sign = zstatus.sign
    · exact Or.inr (Or.inl hsign)
    -- A sign that is not Zeek's is a character its status does not have.
    obtain ⟨c, w, hw, hother⟩ := tstatus.signed hnone
    have hc : c ∉ zstatus.text.toList := hother zstatus (Ne.symm hsign)
    rw [hw] at hin ⊢
    exact Or.inr (Or.inr ((infix_append_of_not_mem hc).mp hin))
  · rintro (hnone | hsign | hin)
    · have htext : tstatus.text.toList = zstatus.word.text.toList := by
        rw [Status.text, hnone, h]
        rfl
      rw [htext, Status.text, String.toList_append]
      exact ⟨zstatus.sign.text.toList, rest.toList, rfl⟩
    · have heq : tstatus = zstatus := by
        cases tstatus
        cases zstatus
        simp_all
      rw [heq]
      exact (List.prefix_append _ _).isInfix
    · exact hin.trans (List.suffix_append _ _).isInfix

/-- **The statuses of two replies decide whether they are one, exactly where TShark's is discernible in
the text Zeek read.** -/
theorem compatible_by_status_iff {frame : Record} {protocol : MailProtocol} {z t : ProtocolEvent}
    {zstatus tstatus : Status} {rest : String}
    (hshark : tsharkEvent frame protocol = .ok (some t)) (httext : t.text = some tstatus.text)
    (hz : z.kind = .reply) (hztext : z.text = some (zstatus.text ++ rest))
    (hdirection : z.direction = t.direction)
    (htag : z.tag = none ∨ t.tag = none ∨ z.tag = t.tag) :
    (compatible z t = true ↔ zstatus.word = tstatus.word) ↔ Discernible zstatus tstatus rest := by
  obtain ⟨ht, hcommand, hcode⟩ := tsharkEvent_of_text hshark httext
  rw [compatible_iff_isIn hz ht hcommand hcode hztext httext hdirection htag, Discernible]
  by_cases hword : zstatus.word = tstatus.word
  · rw [if_pos hword, isIn_of_same_word hword]
    simp [hword]
  · rw [if_neg hword]
    simp [hword]

/-- A reply Zeek logged, with this text. -/
def zeekReply (text : String) : ProtocolEvent where
  direction := .resp
  kind := .reply
  text := some text
  source := some .zeek

/-- A frame with the indicator of a POP3 reply. -/
def indicatorFrame (indicator : String) : Record := [("pop.response.indicator", .str indicator)]

/-- TShark's reply of that frame. -/
def indicatorReply (indicator : String) : ProtocolEvent where
  direction := .resp
  kind := .reply
  text := some indicator
  source := some .tshark

/-- A reply whose sign both analyzers kept. -/
theorem signed_reply_by_status :
    (compatible (zeekReply "+OK ready") (indicatorReply "+OK") = true ↔
        StatusWord.ok = StatusWord.ok) ↔
      Discernible ⟨.plus, .ok⟩ ⟨.plus, .ok⟩ " ready" := by
  have hshark : tsharkEvent (indicatorFrame "+OK") .pop3 = .ok (some (indicatorReply "+OK")) := by
    decide +kernel
  have httext : (indicatorReply "+OK").text = some (Status.text ⟨.plus, .ok⟩) := by decide
  have hztext : (zeekReply "+OK ready").text = some (Status.text ⟨.plus, .ok⟩ ++ " ready") := by
    decide +kernel
  exact compatible_by_status_iff hshark httext rfl hztext rfl (Or.inl rfl)

/-- Zeek logs the POP3 status without its sign: TShark's `+OK` is not found in it, and is found in a
refusal that quotes it. -/
theorem pop3_replies_confused :
    tsharkEvent (indicatorFrame "+OK") .pop3 = .ok (some (indicatorReply "+OK")) ∧
      ¬(compatible (zeekReply "OK POP3 ready") (indicatorReply "+OK") = true ↔
        StatusWord.ok = StatusWord.ok) ∧
      ¬(compatible (zeekReply "ERR expected +OK") (indicatorReply "+OK") = true ↔
        StatusWord.err = StatusWord.ok) := by
  decide +kernel

end Sessions
end Normalize
end SecureMail
