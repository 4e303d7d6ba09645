import Mathlib.Data.List.Basic

/-!
# Dealing things out

A loop hands requests to places of a list, one at a time, and changes the element of the place it
chose. Whatever decided the choices, the result is known from their log: a list of pairs, a place
and what was dealt to it. If no place occurs twice in the log, each place has either what it was
dealt, put on its old element, or its old element as it was. That is what makes such a loop a
partial matching, and it is stated here once, over any way of putting things on elements.

The loop itself need not keep a log. Its user shows that some log explains the result, with whatever
it knows of the choices as facts about the log, and reads everything else off here.
-/

namespace SecureMail
namespace Dealing

variable {α ρ β : Type*} {put : ρ → α → α} {log log' : List (Nat × ρ)} {l : List α}

/-- What a log makes of a list. -/
def deal (put : ρ → α → α) (log : List (Nat × ρ)) (l : List α) : List α :=
  log.foldl (fun l gift => l.modify gift.1 (put gift.2)) l

@[simp] theorem deal_nil : deal put [] l = l := rfl

theorem deal_cons (gift : Nat × ρ) :
    deal put (gift :: log) l = deal put log (l.modify gift.1 (put gift.2)) := rfl

theorem deal_append : deal put (log ++ log') l = deal put log' (deal put log l) :=
  List.foldl_append

@[simp] theorem length_deal : (deal put log l).length = l.length := by
  induction log generalizing l with
  | nil => rfl
  | cons gift rest ih => rw [deal_cons, ih, List.length_modify]

/-- A place that was dealt nothing is as it was. -/
theorem getElem?_deal_of_notMem {i : Nat} (h : i ∉ log.map Prod.fst) :
    (deal put log l)[i]? = l[i]? := by
  induction log generalizing l with
  | nil => rfl
  | cons gift rest ih =>
    rw [List.map_cons, List.mem_cons, not_or] at h
    rw [deal_cons, ih h.2, List.getElem?_modify_ne _ _ (Ne.symm h.1)]

/-- A place that was dealt something has it, and nothing else. -/
theorem getElem?_deal_of_mem (hplaces : (log.map Prod.fst).Nodup) {i : Nat} {r : ρ}
    (h : (i, r) ∈ log) : (deal put log l)[i]? = l[i]?.map (put r) := by
  induction log generalizing l with
  | nil => exact absurd h List.not_mem_nil
  | cons gift rest ih =>
    rw [List.map_cons, List.nodup_cons] at hplaces
    rw [deal_cons]
    rcases List.mem_cons.mp h with rfl | h
    · rw [getElem?_deal_of_notMem hplaces.1, List.getElem?_modify_eq]
      rfl
    · have hne : gift.1 ≠ i := by
        intro heq
        exact hplaces.1 (heq ▸ List.mem_map_of_mem (f := Prod.fst) h)
      rw [ih hplaces.2 h, List.getElem?_modify_ne _ _ hne]

/-- What no gift touches is the same everywhere. -/
theorem map_deal {g : α → β} (h : ∀ r a, g (put r a) = g a) :
    (deal put log l).map g = l.map g := by
  induction log generalizing l with
  | nil => rfl
  | cons gift rest ih =>
    rw [deal_cons, ih]
    apply List.ext_getElem?
    intro i
    rw [List.getElem?_map, List.getElem?_map, List.getElem?_modify]
    cases l[i]? with
    | none => rfl
    | some a =>
      by_cases hplace : gift.1 = i
      · simp [hplace, h]
      · simp [hplace]

end Dealing
end SecureMail
