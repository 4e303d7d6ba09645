import Mathlib.Data.List.Sort
import SecureMail.Lib.SortKey

/-!
# The first of a ranking

A list that is in order and has no element twice is the only one with its elements
(`eq_of_pairwise_of_mem_iff`), so a ranking is known by what is ranked. Of a ranking cut off at a
place, those before the place are before those after it (`before_of_mem_take`). A loop that goes down
a list and collects elements it has not yet collected until it has `k` finds the first `k` of the list
without its repetitions (`collect_eq_take`).

Ties are what makes a ranking more than a sort. Where the comparison ties no two elements of the list
(`Strict`) the order they came in does not matter, and there the first of these facts applies.
-/

namespace SecureMail
namespace Leaders

variable {α : Type*} {cmp : α → α → Ordering}

/-- A comparison that ties no two elements of a list. -/
def Strict (cmp : α → α → Ordering) (l : List α) : Prop :=
  ∀ a ∈ l, ∀ b ∈ l, cmp a b = .eq → a = b

theorem eq_of_pairwise_of_mem_iff [Std.TransCmp cmp] {l l' : List α}
    (hl : l.Pairwise (SortKey.Before cmp)) (hl' : l'.Pairwise (SortKey.Before cmp))
    (hnodup : l.Nodup) (hnodup' : l'.Nodup) (hmem : ∀ a, a ∈ l ↔ a ∈ l') (hstrict : Strict cmp l) :
    l = l' := by
  have hperm : l.Perm l' := (List.perm_ext_iff_of_nodup hnodup hnodup').mpr hmem
  have hsort := SortKey.insertionSort_eq_of_perm hperm hstrict
  rwa [SortKey.insertionSort_of_pairwise hl, SortKey.insertionSort_of_pairwise hl'] at hsort

/-- The place of a ranking divides it. -/
theorem before_of_mem_take [Std.TransCmp cmp] {l : List α} {k : ℕ} {a b : α}
    (ha : a ∈ (l.insertionSort (SortKey.Before cmp)).take k) (hb : b ∈ l)
    (hnot : b ∉ (l.insertionSort (SortKey.Before cmp)).take k) : SortKey.Before cmp a b := by
  have hsorted : (l.insertionSort (SortKey.Before cmp)).Pairwise (SortKey.Before cmp) :=
    SortKey.pairwise_insertionSort l
  rw [← List.take_append_drop k (l.insertionSort _)] at hsorted
  have hb' : b ∈ l.insertionSort (SortKey.Before cmp) := (List.mem_insertionSort _).mpr hb
  rw [← List.take_append_drop k (l.insertionSort _)] at hb'
  rcases List.mem_append.mp hb' with htake | hdrop
  · exact absurd htake hnot
  · exact (List.pairwise_append.mp hsorted).2.2 a ha b hdrop

section

variable [DecidableEq α]

theorem eraseDups_sublist : ∀ l : List α, l.eraseDups.Sublist l
  | [] => by simp
  | a :: l => by
    rw [List.eraseDups_cons]
    exact ((eraseDups_sublist _).trans (List.filter_sublist)).cons_cons a
termination_by l => l.length
decreasing_by exact Nat.lt_succ_of_le (List.length_filter_le _ _)

theorem nodup_eraseDups : ∀ l : List α, l.eraseDups.Nodup
  | [] => by simp
  | a :: l => by
    rw [List.eraseDups_cons, List.nodup_cons]
    refine ⟨?_, nodup_eraseDups _⟩
    simp [List.mem_eraseDups]
termination_by l => l.length
decreasing_by exact Nat.lt_succ_of_le (List.length_filter_le _ _)

/-- The elements of a list that are not yet collected, until there are `k`. -/
def collect (k : ℕ) : List α → List α → List α
  | unique, [] => unique
  | unique, a :: rest =>
    let unique := if a ∈ unique then unique else unique ++ [a]
    if k ≤ unique.length then unique else collect k unique rest

theorem collect_eq_take_append {k : ℕ} {unique : List α} (h : unique.length < k) (l : List α) :
    collect k unique l = (unique ++ (l.filter (· ∉ unique)).eraseDups).take k := by
  induction l generalizing unique with
  | nil => simp [collect, List.take_of_length_le h.le]
  | cons a rest ih =>
    by_cases ha : a ∈ unique
    · simp [collect, ha, not_le.mpr h, ih h]
    · have hnext : ((a :: rest).filter (· ∉ unique)).eraseDups =
          a :: (rest.filter (· ∉ unique ++ [a])).eraseDups := by
        rw [List.filter_cons_of_pos (by simpa using ha), List.eraseDups_cons, List.filter_filter]
        congr 3
        funext b
        by_cases hba : b = a <;> simp [hba]
      rw [hnext, List.append_cons]
      simp only [collect, ha, if_false]
      by_cases hfull : k ≤ (unique ++ [a]).length
      · -- The last place: what follows is cut off.
        have hlength : (unique ++ [a]).length = k := by
          rw [List.length_append, List.length_singleton] at hfull ⊢
          omega
        rw [if_pos hfull, ← hlength, List.take_left]
      · rw [if_neg hfull, ih (not_le.mp hfull)]

/-- **The loop finds the first `k` of the list without its repetitions.** It stops as soon as it has
them, so the rest of the list is never looked at. -/
theorem collect_eq_take {k : ℕ} (hk : 0 < k) (l : List α) : collect k [] l = l.eraseDups.take k := by
  rw [collect_eq_take_append (by simpa using hk)]
  simp

end

end Leaders
end SecureMail
