import Mathlib.Data.List.Basic

/-!
# `min` and `max` with a key

Both go through the list once and keep the first of the best. `better a b` is what a later `a` has
to be for it to replace the `b` held so far.

Of equals the first stays, so which element is found depends on the order of the list, and what is
proved is only that it is an element and that none is better. A user who needs more than that has to
show that the key tells the elements apart.
-/

namespace SecureMail
namespace Py

variable {α : Type*}

/-- One pass over the rest of the list, with the best so far. -/
def selectFrom (better : α → α → Bool) (best : α) (rest : List α) : α :=
  rest.foldl (fun best a => if better a best then a else best) best

/-- `none` where Python raises `ValueError`, on an empty list. -/
def select (better : α → α → Bool) : List α → Option α
  | [] => none
  | first :: rest => some (selectFrom better first rest)

/-- `min(l, key=key)`. -/
def minBy {κ : Type*} [LT κ] [DecidableLT κ] (key : α → κ) (l : List α) : Option α :=
  select (fun a b => key a < key b) l

/-- `max(l, key=key)`. -/
def maxBy {κ : Type*} [LT κ] [DecidableLT κ] (key : α → κ) (l : List α) : Option α :=
  select (fun a b => key b < key a) l

theorem select_isSome {better : α → α → Bool} {l : List α} :
    (select better l).isSome = true ↔ l ≠ [] := by
  cases l <;> simp [select]

theorem selectFrom_mem {better : α → α → Bool} {best : α} {rest : List α} :
    selectFrom better best rest ∈ best :: rest := by
  induction rest generalizing best with
  | nil => exact List.mem_singleton_self _
  | cons a rest ih =>
    show selectFrom better (if better a best then a else best) rest ∈ _
    have hmem := @ih (if better a best then a else best)
    by_cases h : better a best = true
    · rw [if_pos h] at hmem ⊢
      exact List.mem_cons_of_mem _ hmem
    · rw [if_neg h] at hmem ⊢
      rcases List.mem_cons.mp hmem with hbest | hrest
      · rw [hbest]
        exact List.mem_cons_self
      · exact List.mem_cons_of_mem _ (List.mem_cons_of_mem _ hrest)

theorem select_mem {better : α → α → Bool} {l : List α} {a : α} (h : select better l = some a) :
    a ∈ l := by
  cases l with
  | nil => exact absurd h (by simp [select])
  | cons first rest =>
    obtain rfl : selectFrom better first rest = a := by simpa [select] using h
    exact selectFrom_mem

theorem le_selectFrom {key : α → Nat} {best : α} {rest : List α} :
    ∀ a ∈ best :: rest, key a ≤ key (selectFrom (fun a b => key b < key a) best rest) := by
  induction rest generalizing best with
  | nil =>
    intro a ha
    rw [List.mem_singleton.mp ha]
    exact Nat.le_refl _
  | cons b rest ih =>
    intro a ha
    show key a ≤ key (selectFrom _ (if decide (key best < key b) then b else best) rest)
    have hbest := @ih (if decide (key best < key b) then b else best)
    have hheld := hbest _ List.mem_cons_self
    rcases List.mem_cons.mp ha with rfl | ha
    · refine Nat.le_trans ?_ hheld
      by_cases h : key a < key b
      · simp [h, Nat.le_of_lt h]
      · simp [h]
    · rcases List.mem_cons.mp ha with rfl | ha
      · refine Nat.le_trans ?_ hheld
        by_cases h : key best < key a
        · simp [h]
        · simp [h, Nat.not_lt.mp h]
      · exact hbest a (List.mem_cons_of_mem _ ha)

/-- What `max` selects is the largest. -/
theorem le_of_maxBy {key : α → Nat} {l : List α} {a : α} (h : maxBy key l = some a) :
    ∀ b ∈ l, key b ≤ key a := by
  cases l with
  | nil => simp
  | cons first rest =>
    obtain rfl : selectFrom (fun a b => key b < key a) first rest = a := by
      simpa [maxBy, select] using h
    exact le_selectFrom

theorem selectFrom_le {key : α → Nat} {best : α} {rest : List α} :
    ∀ a ∈ best :: rest, key (selectFrom (fun a b => key a < key b) best rest) ≤ key a := by
  induction rest generalizing best with
  | nil =>
    intro a ha
    rw [List.mem_singleton.mp ha]
    exact Nat.le_refl _
  | cons b rest ih =>
    intro a ha
    show key (selectFrom _ (if decide (key b < key best) then b else best) rest) ≤ key a
    have hbest := @ih (if decide (key b < key best) then b else best)
    have hheld := hbest _ List.mem_cons_self
    rcases List.mem_cons.mp ha with rfl | ha
    · refine Nat.le_trans hheld ?_
      by_cases h : key b < key a
      · simp [h, Nat.le_of_lt h]
      · simp [h]
    · rcases List.mem_cons.mp ha with rfl | ha
      · refine Nat.le_trans hheld ?_
        by_cases h : key a < key best
        · simp [h]
        · simp [h, Nat.not_lt.mp h]
      · exact hbest a (List.mem_cons_of_mem _ ha)

/-- What `min` selects is the smallest. -/
theorem minBy_le {key : α → Nat} {l : List α} {a : α} (h : minBy key l = some a) :
    ∀ b ∈ l, key a ≤ key b := by
  cases l with
  | nil => simp
  | cons first rest =>
    obtain rfl : selectFrom (fun a b => key a < key b) first rest = a := by
      simpa [minBy, select] using h
    exact selectFrom_le

end Py
end SecureMail
