import Mathlib.Data.List.TakeDrop
import Mathlib.Data.UInt

/-!
# Nested type-length-value data

The grammar of BER with definite lengths, over lists of bytes and without positions: identifier
octets, length octets, and as many bytes of content as the length says. A constructed value's
content is a concatenation of values again. `Nested l d` says that `l` is such a concatenation and
that its constructed values nest `d` deep.

A reader works with positions in one array. `slice` is the list between two positions, and the
lemmas about it say how a list that is taken apart shows up as positions.

The grammar is relational, and does not say that a list can be taken apart in one way only. That is
true, since every header says how long its value is, but it is shown of a reader and not of the
grammar: `nested_iff_of_head` takes it as a hypothesis, so that the depth of a list can be followed
header by header.
-/

namespace SecureMail
namespace Tlv

/-! ## Slices -/

section

variable {α : Type*} {l : List α} {i j k : Nat}

/-- `l[i:j]`. -/
def slice (l : List α) (i j : Nat) : List α := (l.drop i).take (j - i)

@[simp] theorem slice_self : slice l i i = [] := by
  simp [slice]

theorem slice_zero_length : slice l 0 l.length = l := by
  simp [slice]

theorem length_slice (hj : j ≤ l.length) : (slice l i j).length = j - i := by
  rw [slice, List.length_take, List.length_drop]
  omega

theorem slice_append (hij : i ≤ j) (hjk : j ≤ k) : slice l i j ++ slice l j k = slice l i k := by
  have hsum : k - i = (j - i) + (k - j) := by omega
  have hdrop : l.drop j = (l.drop i).drop (j - i) := by
    rw [List.drop_drop]
    congr 1
    omega
  rw [slice, slice, slice, hsum, hdrop, List.take_add]

theorem slice_cons (hij : i < j) (hi : i < l.length) :
    slice l i j = l[i] :: slice l (i + 1) j := by
  rw [← slice_append (Nat.le_succ i) hij]
  have hone : slice l i (i + 1) = [l[i]] := by
    rw [slice, Nat.add_sub_cancel_left, List.drop_eq_getElem_cons hi]
    rfl
  rw [hone]
  rfl

/-- A slice taken apart is two slices. -/
theorem slice_eq_append_iff (hij : i ≤ j) (hj : j ≤ l.length) {a b : List α} :
    slice l i j = a ++ b ↔
      i + a.length ≤ j ∧ a = slice l i (i + a.length) ∧ b = slice l (i + a.length) j := by
  constructor
  · intro h
    have hlength : j - i = a.length + b.length := by
      rw [← length_slice (i := i) hj, h, List.length_append]
    have hle : i + a.length ≤ j := by omega
    rw [← slice_append (Nat.le_add_right i a.length) hle] at h
    have hfirst : (slice l i (i + a.length)).length = a.length := by
      rw [length_slice (Nat.le_trans hle hj), Nat.add_sub_cancel_left]
    obtain ⟨ha, hb⟩ := List.append_inj h hfirst
    exact ⟨hle, ha.symm, hb.symm⟩
  · rintro ⟨hle, ha, hb⟩
    rw [← slice_append (Nat.le_add_right i a.length) hle, ← ha, ← hb]

end

/-! ## The grammar -/

/-- The octets of a long tag: each but the last has the top bit set. -/
inductive LongTag : List UInt8 → Prop
  | last {b : UInt8} : b.toNat < 128 → LongTag [b]
  | more {b : UInt8} {tag : List UInt8} : 128 ≤ b.toNat → LongTag tag → LongTag (b :: tag)

/-- The identifier octets after the first: none, or those of a long tag. -/
inductive Identifier (first : UInt8) : List UInt8 → Prop
  | short : first.toNat % 32 ≠ 31 → Identifier first []
  | long {tag : List UInt8} : first.toNat % 32 = 31 → LongTag tag → Identifier first tag

/-- A number in base 256, its most significant digit first. -/
def valueOf (octets : List UInt8) : Nat :=
  octets.foldl (fun value byte => 256 * value + byte.toNat) 0

/-- The octets of a definite length: one below 128, or a count of at most four and as many. -/
inductive LengthOctets : List UInt8 → Nat → Prop
  | short {b : UInt8} : b.toNat < 128 → LengthOctets [b] b.toNat
  | long {b : UInt8} {octets : List UInt8} : b.toNat = 128 + octets.length →
      1 ≤ octets.length → octets.length ≤ 4 → LengthOctets (b :: octets) (valueOf octets)

/-- The bit that makes a value a constructed one. -/
def isConstructed (first : UInt8) : Bool := first.toNat / 32 % 2 = 1

/-- The list starts with a value: its content, and what follows. -/
def Head (l : List UInt8) (constructed : Bool) (content rest : List UInt8) : Prop :=
  ∃ first tag octets, l = first :: (tag ++ (octets ++ (content ++ rest))) ∧ Identifier first tag ∧
    LengthOctets octets content.length ∧ constructed = isConstructed first

/-- A concatenation of values whose constructed values nest this deep. -/
inductive Nested : List UInt8 → Nat → Prop
  | nil : Nested [] 0
  | primitive {l content rest : List UInt8} {d : Nat} :
      Head l false content rest → Nested rest d → Nested l d
  | constructed {l content rest : List UInt8} {inner d : Nat} :
      Head l true content rest → Nested content inner → Nested rest d →
      Nested l (max (inner + 1) d)

/-- A long tag at the front of a list ends with the first byte whose top bit is clear. -/
theorem longTag_at_front_iff {b : UInt8} {l tag rest : List UInt8} :
    b :: l = tag ++ rest ∧ LongTag tag ↔
      if 128 ≤ b.toNat then ∃ more, tag = b :: more ∧ l = more ++ rest ∧ LongTag more
      else tag = [b] ∧ rest = l := by
  constructor
  · rintro ⟨hl, htag⟩
    cases htag with
    | last hb =>
      obtain ⟨rfl, rfl⟩ := List.cons.inj hl
      rw [if_neg (Nat.not_le.mpr hb)]
      exact ⟨rfl, rfl⟩
    | more hb htag =>
      obtain ⟨rfl, rfl⟩ := List.cons.inj hl
      rw [if_pos hb]
      exact ⟨_, rfl, rfl, htag⟩
  · intro h
    split at h
    · next hb =>
      obtain ⟨more, rfl, rfl, htag⟩ := h
      exact ⟨rfl, .more hb htag⟩
    · next hb =>
      obtain ⟨rfl, rfl⟩ := h
      exact ⟨rfl, .last (Nat.not_le.mp hb)⟩

/-- The first octet of a length says how many octets the length has. -/
theorem lengthOctets_at_front_iff {b : UInt8} {l octets rest : List UInt8} {n : Nat} :
    b :: l = octets ++ rest ∧ LengthOctets octets n ↔
      if b.toNat < 128 then octets = [b] ∧ l = rest ∧ n = b.toNat
      else ∃ more, octets = b :: more ∧ l = more ++ rest ∧ b.toNat = 128 + more.length ∧
        1 ≤ more.length ∧ more.length ≤ 4 ∧ n = valueOf more := by
  constructor
  · rintro ⟨hl, hoctets⟩
    cases hoctets with
    | short hb =>
      obtain ⟨rfl, rfl⟩ := List.cons.inj hl
      rw [if_pos hb]
      exact ⟨rfl, rfl, rfl⟩
    | long hb hpos hle =>
      obtain ⟨rfl, rfl⟩ := List.cons.inj hl
      rw [if_neg (by omega)]
      exact ⟨_, rfl, rfl, hb, hpos, hle, rfl⟩
  · intro h
    split at h
    · next hb =>
      obtain ⟨rfl, rfl, rfl⟩ := h
      exact ⟨rfl, .short hb⟩
    · next hb =>
      obtain ⟨more, rfl, rfl, hcount, hpos, hle, rfl⟩ := h
      exact ⟨rfl, .long hcount hpos hle⟩

theorem not_head_nil {constructed : Bool} {content rest : List UInt8} :
    ¬ Head [] constructed content rest := by
  rintro ⟨first, tag, octets, hl, -⟩
  cases hl

theorem nested_nil_iff {d : Nat} : Nested [] d ↔ d = 0 := by
  constructor
  · intro h
    cases h with
    | nil => rfl
    | primitive hhead => exact absurd hhead not_head_nil
    | constructed hhead => exact absurd hhead not_head_nil
  · rintro rfl
    exact .nil

theorem exists_head_of_nested {l : List UInt8} {d : Nat} (h : Nested l d) (hl : l ≠ []) :
    ∃ constructed content rest, Head l constructed content rest := by
  cases h with
  | nil => exact absurd rfl hl
  | primitive hhead => exact ⟨_, _, _, hhead⟩
  | constructed hhead => exact ⟨_, _, _, hhead⟩

/-- **Values nest as their first one does and the rest do**, where the first one is known. -/
theorem nested_iff_of_head {l content rest : List UInt8} {constructed : Bool} {d : Nat}
    (hhead : Head l constructed content rest)
    (hunique : ∀ constructed' content' rest', Head l constructed' content' rest' →
      constructed' = constructed ∧ content' = content ∧ rest' = rest) :
    Nested l d ↔
      if constructed then ∃ inner outer, Nested content inner ∧ Nested rest outer ∧
        d = max (inner + 1) outer
      else Nested rest d := by
  constructor
  · intro h
    cases h with
    | nil => exact absurd hhead not_head_nil
    | primitive hhead' hrest =>
      obtain ⟨rfl, rfl, rfl⟩ := hunique _ _ _ hhead'
      rw [if_neg Bool.false_ne_true]
      exact hrest
    | constructed hhead' hcontent hrest =>
      obtain ⟨rfl, rfl, rfl⟩ := hunique _ _ _ hhead'
      rw [if_pos rfl]
      exact ⟨_, _, hcontent, hrest, rfl⟩
  · intro h
    cases constructed with
    | false =>
      rw [if_neg Bool.false_ne_true] at h
      exact .primitive hhead h
    | true =>
      rw [if_pos rfl] at h
      obtain ⟨inner, outer, hcontent, hrest, rfl⟩ := h
      exact .constructed hhead hcontent hrest

end Tlv
end SecureMail
