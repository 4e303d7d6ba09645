import Mathlib.Data.List.Sort

/-!
# Order statistics

The element at a place of a sorted list is at most `t` just where more elements than the place counts
are at most `t` (`getElem_le_iff`). So a list sorts below another where it has as many elements below
every bound (`getElem_le_getElem_of_countP`), in particular where it is below the other one element
by one (`sorted_le_of_forall₂`).

Counting is what lets two sorted lists be compared without following where the sort has put an
element: a count does not change under a permutation, and sorting is one.
-/

namespace SecureMail
namespace OrderStatistics

variable {α : Type*} [LinearOrder α]

theorem getElem_le_iff {l : List α} (hl : l.Pairwise (· ≤ ·)) {i : ℕ} (hi : i < l.length) {t : α} :
    l[i] ≤ t ↔ i < l.countP (· ≤ t) := by
  induction l generalizing i with
  | nil => exact absurd hi (Nat.not_lt_zero _)
  | cons x xs ih =>
    obtain ⟨hx, hxs⟩ := List.pairwise_cons.mp hl
    by_cases ht : x ≤ t
    · rw [List.countP_cons_of_pos (by simpa using ht)]
      cases i with
      | zero => simp [ht]
      | succ i =>
        have hi' : i < xs.length := Nat.lt_of_succ_lt_succ hi
        rw [List.getElem_cons_succ, ih hxs hi', Nat.succ_lt_succ_iff]
    · -- The list begins above `t`, and goes on above it.
      have hnone : (x :: xs).countP (· ≤ t) = 0 := by
        apply List.countP_eq_zero.mpr
        intro y hy
        rcases List.mem_cons.mp hy with rfl | hy
        · simpa using ht
        · simpa using lt_of_lt_of_le (not_le.mp ht) (hx y hy)
      rw [hnone]
      refine iff_of_false (not_le.mpr ?_) (Nat.not_lt_zero i)
      rcases List.mem_cons.mp (List.getElem_mem hi) with heq | hmem
      · rw [heq]
        exact not_le.mp ht
      · exact lt_of_lt_of_le (not_le.mp ht) (hx _ hmem)

theorem getElem_le_getElem_of_countP {l l' : List α} (hl : l.Pairwise (· ≤ ·))
    (hl' : l'.Pairwise (· ≤ ·)) (hcount : ∀ t, l'.countP (· ≤ t) ≤ l.countP (· ≤ t)) {i : ℕ}
    (hi : i < l.length) (hi' : i < l'.length) : l[i] ≤ l'[i] := by
  apply (getElem_le_iff hl hi).mpr
  exact lt_of_lt_of_le ((getElem_le_iff hl' hi').mp le_rfl) (hcount _)

theorem countP_le_of_forall₂ {l l' : List α} (h : List.Forall₂ (· ≤ ·) l l') (t : α) :
    l'.countP (· ≤ t) ≤ l.countP (· ≤ t) := by
  induction h with
  | nil => exact le_rfl
  | @cons x y xs ys hxy _ ih =>
    rw [List.countP_cons, List.countP_cons]
    refine Nat.add_le_add ih ?_
    by_cases hy : y ≤ t
    · simp [hy, hxy.trans hy]
    · simp [hy]

/-- **Sorting keeps one list below another.** The places move, and yet each order statistic goes
down with its list. -/
theorem sorted_le_of_forall₂ {l l' : List α} (h : List.Forall₂ (· ≤ ·) l l') {i : ℕ}
    (hi : i < (l.insertionSort (· ≤ ·)).length) (hi' : i < (l'.insertionSort (· ≤ ·)).length) :
    (l.insertionSort (· ≤ ·))[i] ≤ (l'.insertionSort (· ≤ ·))[i] := by
  apply getElem_le_getElem_of_countP (List.pairwise_insertionSort _ l)
    (List.pairwise_insertionSort _ l')
  intro t
  rw [(List.perm_insertionSort (· ≤ ·) l).countP_eq, (List.perm_insertionSort (· ≤ ·) l').countP_eq]
  exact countP_le_of_forall₂ h t

end OrderStatistics
end SecureMail
