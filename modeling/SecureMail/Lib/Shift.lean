import Mathlib.Data.List.Basic
import Mathlib.Data.List.Infix

/-!
# Lists read with gaps

A list is read entry by entry, and entries that cannot be read are left out before the rest is
numbered. Where an entry stands in what was read is the number of entries read before it
(`getElem?_read_iff`), so a gap moves every later entry up. Numbers are used to look an entry up in
the list as it was; `numbered_iff` says that what they find is right exactly when no gap stands
before an entry that counts.

Right is up to a relation, since what is looked up may be a value that several entries share, and an
entry counts if there is something to be looked up for it. A gap before an entry that does not count
does no harm.
-/

namespace SecureMail
namespace Shift

variable {β γ : Type*} {entries : List (Option β)}

/-- What can be read, in order. -/
def read (entries : List (Option β)) : List β := entries.filterMap id

@[simp] theorem read_nil : read ([] : List (Option β)) = [] := rfl

@[simp] theorem read_cons_none : read (none :: entries) = read entries := rfl

@[simp] theorem read_cons_some {b : β} : read (some b :: entries) = b :: read entries := rfl

/-- The place of an entry among those read is the number of those read before it. -/
theorem getElem?_read_iff {j : Nat} {b : β} :
    (read entries)[j]? = some b ↔
      ∃ p, entries[p]? = some (some b) ∧ (read (entries.take p)).length = j := by
  induction entries generalizing j with
  | nil => simp
  | cons first rest ih =>
    cases first with
    | none =>
      rw [read_cons_none, ih]
      constructor
      · rintro ⟨p, hp, hcount⟩
        exact ⟨p + 1, by simpa using hp, by simpa using hcount⟩
      · rintro ⟨p, hp, hcount⟩
        cases p with
        | zero => exact absurd hp (by simp)
        | succ p => exact ⟨p, by simpa using hp, by simpa using hcount⟩
    | some a =>
      rw [read_cons_some]
      cases j with
      | zero =>
        rw [List.getElem?_cons_zero]
        constructor
        · intro h
          exact ⟨0, by simpa using h, rfl⟩
        · rintro ⟨p, hp, hcount⟩
          cases p with
          | zero => simpa using hp
          | succ p => exact absurd hcount (by simp)
      | succ j =>
        rw [List.getElem?_cons_succ, ih]
        constructor
        · rintro ⟨p, hp, hcount⟩
          exact ⟨p + 1, by simpa using hp, by simpa using hcount⟩
        · rintro ⟨p, hp, hcount⟩
          cases p with
          | zero => exact absurd hcount (by simp)
          | succ p => exact ⟨p, by simpa using hp, by simpa using hcount⟩

/-- Where there is no gap, everything is read. -/
theorem length_read_of_full {p : Nat} (hlength : p ≤ entries.length)
    (h : ∀ i < p, entries[i]? ≠ some none) : (read (entries.take p)).length = p := by
  have htake : (entries.take p).length = p := by rw [List.length_take, Nat.min_eq_left hlength]
  have hnot : ¬ (read (entries.take p)).length < (entries.take p).length := by
    intro hlt
    obtain ⟨entry, hmem, rfl⟩ := List.length_filterMap_lt_length_iff_exists.mp hlt
    obtain ⟨i, hi⟩ := List.mem_iff_getElem?.mp hmem
    rw [List.getElem?_take] at hi
    split at hi
    · rename_i hip
      exact h i hip hi
    · exact absurd hi (by simp)
  have hle : (read (entries.take p)).length ≤ (entries.take p).length :=
    List.length_filterMap_le id _
  omega

/-- Where everything is read, there is no gap. -/
theorem full_of_length_read {p : Nat} (h : (read (entries.take p)).length = p) :
    ∀ i < p, entries[i]? ≠ some none := by
  intro i hi hgap
  have hmem : none ∈ entries.take p := by
    rw [List.mem_iff_getElem?]
    exact ⟨i, by rw [List.getElem?_take, if_pos hi, hgap]⟩
  have hlt : (read (entries.take p)).length < (entries.take p).length :=
    List.length_filterMap_lt_length_iff_exists.mpr ⟨none, hmem, rfl⟩
  have hle := List.length_take_le p entries
  omega

theorem length_read_take_mono {k p : Nat} (h : k ≤ p) :
    (read (entries.take k)).length ≤ (read (entries.take p)).length := by
  have hfront : entries.take k <+: entries.take p := by
    rw [← Nat.min_eq_left h, ← List.take_take]
    exact List.take_prefix k _
  exact (hfront.sublist.filterMap id).length_le

/-- **The numbers are right exactly when no gap stands before an entry that counts.** An entry
counts when `value` finds something for it, among the first `n`. -/
theorem numbered_iff {value : β → Option γ} {R : γ → γ → Prop} (hR : ∀ c, R c c) (n : Nat) :
    (∀ (j : Nat) b c, (read (entries.take n))[j]? = some b → value b = some c →
      ∃ b' c', entries[j]? = some (some b') ∧ value b' = some c' ∧ R c' c) ↔
    ∀ p < n, ∀ b, entries[p]? = some (some b) → (value b).isSome = true →
      ∀ i < p, entries[i]? ≠ some none := by
  constructor
  · intro h p
    -- An entry behind a gap is looked up further up, where there is an entry of the same kind.
    induction p using Nat.strong_induction_on with
    | _ p ih =>
      intro hp b hb hvalue
      obtain ⟨c, hc⟩ := Option.isSome_iff_exists.mp hvalue
      have hlength : p < entries.length := (List.getElem?_eq_some_iff.mp hb).1
      have htake : (entries.take n).take p = entries.take p := by
        rw [List.take_take, Nat.min_eq_left hp.le]
      have hj : (read (entries.take p)).length ≤ p :=
        (List.length_filterMap_le id _).trans (List.length_take_le p entries)
      obtain ⟨b', c', hb', hc', -⟩ := h (read (entries.take p)).length b c
        (getElem?_read_iff.mpr ⟨p, by rw [List.getElem?_take, if_pos hp, hb], by rw [htake]⟩) hc
      rcases Nat.lt_or_eq_of_le hj with hlt | heq
      · have hbefore := ih _ hlt (hlt.trans hp) b' hb' (by rw [hc']; rfl)
        -- Everything up to the place found was read, one more than was counted.
        have hupTo : ∀ i < (read (entries.take p)).length + 1, entries[i]? ≠ some none := by
          intro i hi
          rcases Nat.lt_succ_iff_lt_or_eq.mp hi with hi | rfl
          · exact hbefore i hi
          · rw [hb']
            simp
        have hfull := length_read_of_full (by omega) hupTo
        have hmono := @length_read_take_mono _ entries _ _ (show (read (entries.take p)).length + 1 ≤ p from hlt)
        omega
      · exact full_of_length_read heq
  · intro h j b c hb hc
    obtain ⟨p, hp, hcount⟩ := getElem?_read_iff.mp hb
    rw [List.getElem?_take] at hp
    split at hp
    · rename_i hpn
      have hfull := h p hpn b hp (by rw [hc]; rfl)
      have hlength : p < entries.length := (List.getElem?_eq_some_iff.mp hp).1
      rw [List.take_take, Nat.min_eq_left hpn.le, length_read_of_full hlength.le hfull] at hcount
      subst hcount
      exact ⟨b, c, hp, hc, hR c⟩
    · exact absurd hp (by simp)

end Shift
end SecureMail
