import Mathlib.Data.List.DropRight

/-!
# Bounded logs

A log that keeps its last `n` entries. What it holds is the last `n` of everything that was ever
appended, so the log forgets nothing but its oldest entries; and where something was appended, the
last of it is still there. The reason is that cutting before an append makes no difference after it,
and so a log that is cut at every append is one that was cut once at the end.

A log can also stop at a bound. Where a run ends below the bound it never met it, so it is the run of
the log without one (`foldl_below`). The measure that is bounded has only to grow, which spares the
user of the rule an invariant about every state in between.
-/

namespace SecureMail
namespace Bounded

variable {α : Type*} {n : Nat} {l m : List α}

theorem rtake_sublist (n : Nat) (l : List α) : (l.rtake n).Sublist l := List.drop_sublist _ _

theorem length_rtake_le (n : Nat) (l : List α) : (l.rtake n).length ≤ n := by
  rw [List.rtake, List.length_drop]
  omega

/-- **Cutting before an append makes no difference after it.** It is why a log that is cut at every
append can be described without its past cuts. -/
theorem rtake_append_rtake (n : Nat) (l m : List α) :
    (l.rtake n ++ m).rtake n = (l ++ m).rtake n := by
  simp only [List.rtake_eq_reverse_take_reverse, List.reverse_append, List.reverse_reverse,
    List.take_append, List.take_take]
  congr 3
  omega

@[simp] theorem rtake_rtake (n : Nat) (l : List α) : (l.rtake n).rtake n = l.rtake n := by
  have happend := rtake_append_rtake n l []
  rwa [List.append_nil, List.append_nil] at happend

/-- The last entry is kept. -/
theorem getLast?_rtake (hn : 0 < n) (l : List α) : (l.rtake n).getLast? = l.getLast? := by
  rw [List.rtake_eq_reverse_take_reverse, List.getLast?_reverse, List.getLast?_eq_head?_reverse]
  cases l.reverse with
  | nil => rw [List.take_nil]
  | cons a rest =>
    cases n with
    | zero => exact absurd hn (Nat.lt_irrefl 0)
    | succ n => rfl

/-! ## Runs that stay below a bound -/

variable {σ : Type*} {step step' : σ → α → σ} {m : σ → Nat}

theorem le_foldl (hgrows : ∀ s a, m s ≤ m (step s a)) (l : List α) (s : σ) :
    m s ≤ m (l.foldl step s) := by
  induction l generalizing s with
  | nil => exact le_refl _
  | cons a rest ih => exact (hgrows s a).trans (ih _)

/-- **Two steps that agree up to a bound have the same runs up to it.** The bound is on the number
of elements that were taken in, and past it the steps may do anything. -/
theorem foldl_below (hgrows : ∀ s a, m s ≤ m (step s a))
    (hsame : ∀ s a, m (step s a) ≤ n → step' s a = step s a) {l : List α} {s : σ}
    (h : m (l.foldl step s) ≤ n) : l.foldl step' s = l.foldl step s := by
  induction l generalizing s with
  | nil => rfl
  | cons a rest ih =>
    have hle : m (step s a) ≤ n := (le_foldl hgrows rest _).trans h
    rw [List.foldl_cons, List.foldl_cons, hsame s a hle]
    exact ih h

end Bounded
end SecureMail
