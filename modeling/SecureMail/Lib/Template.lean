import Mathlib.Data.List.Basic

/-!
# Texts with holes

A template is a text in which some places are filled in by somebody else. What is filled in counts
from a certain character on, its reach: before that, any two fillings agree. A text that is cut after
`n` characters tells two fillings apart as soon as the first hole is cut behind its reach, and not
before.

Only the first hole matters. What comes before it is the same in both texts and of the same length,
so a cut that stays before its reach leaves equal texts, and one that goes past it leaves texts that
already differ there, whatever the fillings make of the rest.
-/

namespace SecureMail
namespace Template

variable {κ : Type*}

inductive Part (κ : Type*)
  | literal (text : List Char)
  | hole (k : κ)

/-- The text with its holes filled in. -/
def fill (f : κ → List Char) : List (Part κ) → List Char
  | [] => []
  | .literal text :: rest => text ++ fill f rest
  | .hole k :: rest => f k ++ fill f rest

/-- The first `n` characters go behind the reach of the first hole. -/
def shows (reach : κ → Nat) : Nat → List (Part κ) → Bool
  | _, [] => false
  | n, .literal text :: rest => shows reach (n - text.length) rest
  | n, .hole k :: _ => decide (reach k ≤ n)

/-- Two fillings that agree before the reach of every hole, and are that long. -/
structure Agree (reach : κ → Nat) (f g : κ → List Char) : Prop where
  before : ∀ k n, n < reach k → (f k).take n = (g k).take n
  left : ∀ k, reach k ≤ (f k).length
  right : ∀ k, reach k ≤ (g k).length

variable {reach : κ → Nat} {f g : κ → List Char}

/-- What is cut before it shows a filling is the same for both. -/
theorem take_fill_eq (hagree : Agree reach f g) {parts : List (Part κ)} :
    ∀ {n : Nat}, shows reach n parts = false → (fill f parts).take n = (fill g parts).take n := by
  induction parts with
  | nil =>
    intro n _
    rfl
  | cons part rest ih =>
    intro n h
    cases part with
    | literal text =>
      rw [fill, fill, List.take_append, List.take_append, ih h]
    | hole k =>
      have hcut : n < reach k := by simpa [shows] using h
      have hleft : n ≤ (f k).length := Nat.le_trans (Nat.le_of_lt hcut) (hagree.left k)
      have hright : n ≤ (g k).length := Nat.le_trans (Nat.le_of_lt hcut) (hagree.right k)
      rw [fill, fill, List.take_append_of_le_length hleft, List.take_append_of_le_length hright]
      exact hagree.before k n hcut

/-- Fillings that differ within their reach are told apart by what shows one of them. -/
theorem take_fill_ne (hagree : Agree reach f g)
    (hdiffer : ∀ k, (f k).take (reach k) ≠ (g k).take (reach k)) {parts : List (Part κ)} :
    ∀ {n : Nat}, shows reach n parts = true → (fill f parts).take n ≠ (fill g parts).take n := by
  induction parts with
  | nil =>
    intro n h
    cases h
  | cons part rest ih =>
    intro n h heq
    cases part with
    | literal text =>
      rw [fill, fill, List.take_append, List.take_append] at heq
      exact ih h (List.append_cancel_left heq)
    | hole k =>
      have hreach : reach k ≤ n := by simpa [shows] using h
      apply hdiffer k
      have hshort := congrArg (List.take (reach k)) heq
      rw [fill, fill, List.take_take, List.take_take, Nat.min_eq_left hreach,
        List.take_append_of_le_length (hagree.left k),
        List.take_append_of_le_length (hagree.right k)] at hshort
      exact hshort

/-- What shows a filling is not empty. -/
theorem fill_ne_nil (hpos : ∀ k, 0 < reach k) (hlength : ∀ k, reach k ≤ (f k).length)
    {parts : List (Part κ)} : ∀ {n : Nat}, shows reach n parts = true → fill f parts ≠ [] := by
  induction parts with
  | nil =>
    intro n h
    cases h
  | cons part rest ih =>
    intro n h hnil
    cases part with
    | literal text =>
      rw [fill, List.append_eq_nil_iff] at hnil
      exact ih h hnil.2
    | hole k =>
      rw [fill, List.append_eq_nil_iff] at hnil
      have hk := hlength k
      rw [hnil.1, List.length_nil] at hk
      exact absurd (hpos k) (Nat.not_lt.mpr hk)

end Template
end SecureMail
