import SecureMail.Zeek.TcpReconstruction

/-!
# What the annotations are worth

`next_seq` and `high_water` stand for the bytes that came, and with one hole they do: when the hole
is filled `next_seq` goes to the end of what is there. With two it goes past the second one, and from
then on the bytes of that hole count as received (`Jumped`). A duplicate or an overlap is right
unless it is about such bytes.

`saw_future` is never reset, so once a segment came early every segment in order is written as out of
order, whether anything was missing or not; and a late segment that is not the one expected next is
not written at all.

Neither fact can be read off one step: whether an annotation is right depends on every segment that
came before it. So both are stated of a list of segments and of the places in it, and the two
numbers of the script are compared with what arrived by one induction (`arrived_or_jumped`). The
conditions under which the log is right speak of the segments and of the number expected at an
earlier place. They do not mention what the script writes, since a condition that did would say
nothing new.
-/

namespace SecureMail
namespace Zeek

variable {segs : List Segment} {g : Segment} {b : Nat}

theorem arrived_append : Arrived (segs ++ [g]) b ↔ Arrived segs b ∨ g.Covers b := by
  unfold Arrived
  constructor
  · rintro ⟨h, hmem, hcovers⟩
    rcases List.mem_append.mp hmem with hmem | hmem
    · exact Or.inl ⟨h, hmem, hcovers⟩
    · obtain rfl := List.mem_singleton.mp hmem
      exact Or.inr hcovers
  · rintro (⟨h, hmem, hcovers⟩ | hcovers)
    · exact ⟨h, List.mem_append_left _ hmem, hcovers⟩
    · exact ⟨g, List.mem_append_right _ (List.mem_singleton_self g), hcovers⟩

/-! ## Duplicates and overlaps -/

/-- Every duplicate and overlap that is written is about bytes that had arrived. It is the meaning
of the two annotations, in words of what came and not of what the script keeps. -/
def AnnotationsSound (segs : List Segment) : Prop :=
  ∀ pre g post, segs = pre ++ g :: post → ∀ note, written pre g = some note →
    note.eventType = .duplicate ∨ note.eventType = .overlap →
    ∀ b, note.seq ≤ b → b < note.seq + note.len → Arrived pre b

/-- `next_seq` has gone past the byte without it: it is the SYN's number, or a segment in order
found it missing between its own end and `high_water`. The state of a direction is two numbers and a
flag, which can stand for one hole and for no more. This is what is lost beyond that. It names the
place where the byte was passed over, since the state keeps no trace of it: afterwards the byte is
below `next_seq` like any byte that has arrived. -/
def Jumped (segs : List Segment) (b : Nat) : Prop :=
  b = 0 ∨ ∃ pre g post, segs = pre ++ g :: post ∧ g.seq = expected pre ∧ g.seq + g.len ≤ b ∧
    b < highWater pre ∧ ¬ Arrived pre b

theorem Jumped.append (h : Jumped segs b) (g : Segment) : Jumped (segs ++ [g]) b := by
  rcases h with rfl | ⟨pre, g', post, rfl, hrest⟩
  · exact Or.inl rfl
  · exact Or.inr ⟨pre, g', post ++ [g], by simp, hrest⟩

theorem expected_pos (segs : List Segment) : 0 < expected segs := by
  have hmono := expected_mono [] segs
  have hfirst : expected [] = 1 := rfl
  rw [hfirst, List.nil_append] at hmono
  exact hmono

theorem lt_expected_of_jumped (h : Jumped segs b) : b < expected segs := by
  rcases h with rfl | ⟨pre, g, post, rfl, horder, -, hhigh, -⟩
  · exact expected_pos segs
  · have hmono := expected_mono (pre ++ [g]) post
    rw [expected_append, if_pos horder, ← List.append_cons] at hmono
    have hmax := Nat.le_max_right (g.seq + g.len) (highWater pre)
    omega

/-- **Below the number expected next every byte has arrived or was jumped over.** The induction is
on the segments, and only a segment in order moves the number. -/
theorem arrived_or_jumped (h : b < expected segs) : Arrived segs b ∨ Jumped segs b := by
  induction segs using List.reverseRecOn with
  | nil =>
    have hfirst : expected [] = 1 := rfl
    rw [hfirst] at h
    exact Or.inr (Or.inl (Nat.lt_one_iff.mp h))
  | append_singleton segs g ih =>
    have hkeep : b < expected segs → Arrived (segs ++ [g]) b ∨ Jumped (segs ++ [g]) b := by
      intro hlt
      rcases ih hlt with harrived | hjumped
      · exact Or.inl (arrived_append.mpr (Or.inl harrived))
      · exact Or.inr (hjumped.append g)
    rw [expected_append] at h
    split at h
    · next horder =>
      by_cases hlt : b < expected segs
      · exact hkeep hlt
      -- The byte is among those the number has just moved past.
      by_cases hcovers : b < g.seq + g.len
      · exact Or.inl (arrived_append.mpr (Or.inr ⟨by omega, hcovers⟩))
      by_cases harrived : Arrived segs b
      · exact Or.inl (arrived_append.mpr (Or.inl harrived))
      · exact Or.inr (Or.inr ⟨segs, g, [], rfl, horder, by omega, by omega, harrived⟩)
    · exact hkeep h

/-- A duplicate or an overlap is about the bytes of a segment below the number expected next. -/
theorem written_behind_iff {note : Note} :
    written segs g = some note ∧ (note.eventType = .duplicate ∨ note.eventType = .overlap) ↔
      g.seq < expected segs ∧ note.seq = g.seq ∧
        note.seq + note.len = min (g.seq + g.len) (expected segs) ∧
        note.eventType = if g.seq + g.len ≤ expected segs then .duplicate else .overlap := by
  rw [written_eq]
  constructor
  · rintro ⟨hwritten, htype⟩
    split_ifs at hwritten with horder hsaw hearly hend
    · obtain rfl := Option.some.inj hwritten
      simp at htype
    · obtain rfl := Option.some.inj hwritten
      exact ⟨by omega, rfl, by simp only; omega, by rw [if_pos hend]⟩
    · obtain rfl := Option.some.inj hwritten
      exact ⟨by omega, rfl, by simp only; omega, by rw [if_neg hend]⟩
  · rintro ⟨hbehind, hseq, hlen, htype⟩
    obtain ⟨eventType, seq, len⟩ := note
    simp only at hseq hlen htype ⊢
    subst hseq
    rw [if_neg (Nat.ne_of_lt hbehind), if_neg (Nat.lt_asymm hbehind)]
    by_cases hend : g.seq + g.len ≤ expected segs
    · rw [if_pos hend] at htype ⊢
      subst htype
      obtain rfl : len = g.len := by omega
      exact ⟨rfl, Or.inl rfl⟩
    · rw [if_neg hend] at htype ⊢
      subst htype
      obtain rfl : len = expected segs - g.seq := by omega
      exact ⟨rfl, Or.inr rfl⟩

/-- **When duplicates and overlaps are right.** They are about bytes that had arrived exactly when no
segment is the first to bring a byte that was jumped over. -/
theorem annotationsSound_iff (segs : List Segment) : AnnotationsSound segs ↔
    ∀ pre g post, segs = pre ++ g :: post → ∀ b, g.Covers b → Jumped pre b → Arrived pre b := by
  constructor
  · intro hsound pre g post hsplit b hcovers hjumped
    have hlt := lt_expected_of_jumped hjumped
    have hbehind : g.seq < expected pre := Nat.lt_of_le_of_lt hcovers.1 hlt
    let note : Note := ⟨if g.seq + g.len ≤ expected pre then .duplicate else .overlap, g.seq,
      min (g.seq + g.len) (expected pre) - g.seq⟩
    have hlen : note.seq + note.len = min (g.seq + g.len) (expected pre) := by
      show g.seq + (min (g.seq + g.len) (expected pre) - g.seq) = _
      omega
    obtain ⟨hwritten, htype⟩ := written_behind_iff.mpr ⟨hbehind, rfl, hlen, rfl⟩
    refine hsound pre g post hsplit note hwritten htype b hcovers.1 ?_
    rw [hlen]
    exact Nat.lt_min.mpr ⟨hcovers.2, hlt⟩
  · intro h pre g post hsplit note hwritten htype b hle hlt
    obtain ⟨-, hseq, hlen, -⟩ := written_behind_iff.mp ⟨hwritten, htype⟩
    rw [hlen, Nat.lt_min] at hlt
    rw [hseq] at hle
    rcases arrived_or_jumped hlt.2 with harrived | hjumped
    · exact harrived
    · exact h pre g post hsplit b ⟨hle, hlt.1⟩ hjumped

/-- A data segment as a packet with the acknowledgement flag. -/
def dataSegment (seq len : Nat) (h : 0 < len) : Segment :=
  ⟨⟨"A", seq, len⟩, h, show Py.isIn "S" "A" = false by decide⟩

/-- Two holes, of which the first is filled; then the second one is. -/
def secondHoleFilled : List Segment :=
  [dataSegment 5 1 (by decide), dataSegment 10 1 (by decide), dataSegment 1 4 (by decide),
    dataSegment 6 4 (by decide)]

/-- The bytes of the second hole are a duplicate when they come for the first time. -/
theorem second_hole_written_duplicate : ¬ AnnotationsSound secondHoleFilled := by
  intro hsound
  have harrived := hsound (secondHoleFilled.take 3) (dataSegment 6 4 (by decide)) [] rfl
    ⟨.duplicate, 6, 4⟩ (by decide) (Or.inl rfl) 6 (Nat.le_refl 6) (by decide)
  obtain ⟨g, hmem, hcovers⟩ := harrived
  have hnone : ∀ g ∈ secondHoleFilled.take 3, ¬ (g.seq ≤ 6 ∧ 6 < g.seq + g.len) := by decide
  exact hnone g hmem hcovers

/-! ## Segments out of order -/

/-- A segment with a higher number came while some byte of this one was missing. It is the
independent notion, of the segments alone, that the flag of the script is an attempt at: arrival out
of order is a relation between two segments and what was missing between them. -/
def Late (segs : List Segment) (g : Segment) : Prop :=
  ∃ pre h post, segs = pre ++ h :: post ∧ g.seq < h.seq ∧ ∃ b, g.Covers b ∧ ¬ Arrived pre b

/-- Some segment came early: above the number that was expected. -/
def CameEarly (segs : List Segment) : Prop :=
  ∃ pre h post, segs = pre ++ h :: post ∧ expected pre < h.seq

/-- The segments that are written as out of order are the late ones. It asks both ways: every late
segment is written so, and no other is. -/
def OutOfOrderExact (segs : List Segment) : Prop :=
  ∀ pre g post, segs = pre ++ g :: post →
    (written pre g = some ⟨.outOfOrder, g.seq, g.len⟩ ↔ Late pre g)

/-- `saw_future` is up from the first segment on that came early. -/
theorem sawFuture_iff : (stateAfter segs).sawFuture = true ↔ CameEarly segs := by
  induction segs using List.reverseRecOn with
  | nil =>
    refine ⟨fun h => Bool.noConfusion h, ?_⟩
    rintro ⟨pre, h, post, hsplit, -⟩
    exact absurd hsplit (by simp)
  | append_singleton segs g ih =>
    rw [sawFuture_append, Bool.or_eq_true, ih, decide_eq_true_iff]
    constructor
    · rintro (⟨pre, h, post, rfl, hearly⟩ | hearly)
      · exact ⟨pre, h, post ++ [g], by simp, hearly⟩
      · exact ⟨segs, g, [], rfl, hearly⟩
    · rintro ⟨pre, h, post, hsplit, hearly⟩
      rcases List.eq_nil_or_concat post with rfl | ⟨post, last, rfl⟩
      · obtain ⟨rfl, hg⟩ := List.append_inj' hsplit rfl
        obtain rfl := List.cons.inj hg |>.1
        exact Or.inr hearly
      · rw [List.concat_eq_append, ← List.cons_append, ← List.append_assoc] at hsplit
        obtain ⟨rfl, -⟩ := List.append_inj' hsplit rfl
        exact Or.inl ⟨pre, h, post, rfl, hearly⟩

/-- **What is written as out of order**: any segment in order, once one came early. The script
compares nothing else, since the flag stays up. -/
theorem written_outOfOrder_iff :
    written segs g = some ⟨.outOfOrder, g.seq, g.len⟩ ↔ g.seq = expected segs ∧ CameEarly segs := by
  rw [written_eq, ← sawFuture_iff]
  by_cases horder : g.seq = expected segs
  · rw [if_pos horder]
    simp [horder]
  · rw [if_neg horder]
    simp only [horder, false_and, iff_false]
    split_ifs <;> simp

/-- A late segment that is expected next comes after one that came early. -/
theorem cameEarly_of_late (h : Late segs g) (horder : g.seq = expected segs) : CameEarly segs := by
  obtain ⟨pre, h, post, rfl, hlt, -⟩ := h
  refine ⟨pre, h, post, rfl, ?_⟩
  have hmono := expected_mono pre (h :: post)
  omega

/-! ### Holes

A segment that comes early leaves a hole at the number expected, and as long as the number stands
the hole does. The next segment in order closes it, and every other hole with it: the number moves to
`high_water`, which no segment seen so far goes past. So whether a segment in order is late can be
read off the segments that came while its number was expected. -/

theorem highWater_mono (segs more : List Segment) : highWater segs ≤ highWater (segs ++ more) := by
  induction more using List.reverseRecOn with
  | nil => rw [List.append_nil]
  | append_singleton more g ih =>
    rw [← List.append_assoc, highWater_append]
    split
    · exact Nat.le_trans ih (Nat.le_max_left _ _)
    · exact ih

/-- While a segment lies past the number expected, the number has not moved since it came. -/
theorem expected_eq_of_lt {p q : List Segment} {h : Segment}
    (hlt : expected (p ++ h :: q) < h.seq) : expected (p ++ h :: q) = expected p := by
  have hearly : expected p < h.seq := Nat.lt_of_le_of_lt (expected_mono p (h :: q)) hlt
  induction q using List.reverseRecOn with
  | nil =>
    rw [expected_append, if_neg (Nat.ne_of_gt hearly)]
  | append_singleton q g ih =>
    rw [← List.cons_append, ← List.append_assoc] at hlt ⊢
    have hbefore := expected_mono (p ++ h :: q) [g]
    have hsame := ih (by omega)
    have hhigh : h.seq + h.len ≤ highWater (p ++ h :: q) := by
      have hmono := highWater_mono (p ++ [h]) q
      rw [highWater_append, if_pos hearly, List.append_assoc, List.singleton_append] at hmono
      omega
    rw [expected_append] at hlt ⊢
    split at hlt
    · -- A segment in order would have taken the number to `high_water`.
      have hmax := Nat.le_max_right (g.seq + g.len) (highWater (p ++ h :: q))
      omega
    · next horder => rw [if_neg horder, hsame]

/-- The segment fills a hole: while its number was the one expected, a segment with a higher number
came, and the segment brings a byte that was missing then. Of the late segments these are the ones
that the script can see: their number is the expected one when they come, so that they are compared
with the flag. All others fall behind or ahead of it. -/
def FillsHole (segs : List Segment) (g : Segment) : Prop :=
  ∃ p h q, segs = p ++ h :: q ∧ expected p = g.seq ∧ g.seq < h.seq ∧ ∃ b, g.Covers b ∧ ¬Arrived p b

/-- The segment keeps behind: its bytes were all there before any segment with a higher number. -/
def KeepsBehind (segs : List Segment) (g : Segment) : Prop :=
  ∀ p h q, segs = p ++ h :: q → g.seq < h.seq → ∀ b, g.Covers b → Arrived p b

theorem fillsHole_of_late (h : Late segs g) (horder : g.seq = expected segs) : FillsHole segs g := by
  obtain ⟨p, h, q, rfl, hlt, hmissing⟩ := h
  refine ⟨p, h, q, rfl, ?_, hlt, hmissing⟩
  rw [horder] at hlt ⊢
  exact (expected_eq_of_lt hlt).symm

theorem FillsHole.late (h : FillsHole segs g) : Late segs g := by
  obtain ⟨p, h, q, hsplit, -, hlt, hmissing⟩ := h
  exact ⟨p, h, q, hsplit, hlt, hmissing⟩

theorem keepsBehind_iff_not_late : KeepsBehind segs g ↔ ¬Late segs g := by
  constructor
  · rintro hbehind ⟨p, h, q, hsplit, hlt, b, hcovers, hmissing⟩
    exact hmissing (hbehind p h q hsplit hlt b hcovers)
  · intro hlate p h q hsplit hlt b hcovers
    by_contra hmissing
    exact hlate ⟨p, h, q, hsplit, hlt, b, hcovers, hmissing⟩

/-- A segment comes early, its gap is filled, and the next one is in order. -/
def orderRestored : List Segment :=
  [dataSegment 2 1 (by decide), dataSegment 1 1 (by decide), dataSegment 3 1 (by decide)]

end Zeek
end SecureMail
