import Mathlib.Order.Basic
import Mathlib.Data.List.Basic

/-!
# Verdicts by precedence

A verdict is the value of the first test that passes, in a fixed order of tests. Where the values go
down along the order, the verdict is monotone in the tests: when every test that passed before still
passes, the verdict is at least what it was, whichever of the two runs stops first
(`firstOf_mono`). Monotone tests alone would not be enough, since a test further up may start to
pass; that is what the order of the values is for.

A cascade of conditionals is brought into this form by naming its tests in order with the values of
their branches, which is a case split over the tests and no more. After that two runs of the cascade
are never compared branch by branch.
-/

namespace SecureMail
namespace Precedence

variable {L : Type*}

/-- The value of the first test that passes. -/
def firstOf (bottom : L) : List (Bool × L) → L
  | [] => bottom
  | (test, value) :: rest => if test then value else firstOf bottom rest

/-- One ladder of tests against another: the same values, and a test that passes still does. -/
def Extends (before after : List (Bool × L)) : Prop :=
  List.Forall₂ (fun r r' => r.2 = r'.2 ∧ (r.1 = true → r'.1 = true)) before after

variable [Preorder L] {bottom : L}

/-- What bounds the values bounds the verdict. -/
theorem firstOf_le {rungs : List (Bool × L)} {bound : L} (hbottom : bottom ≤ bound)
    (h : ∀ r ∈ rungs, r.2 ≤ bound) : firstOf bottom rungs ≤ bound := by
  induction rungs with
  | nil => exact hbottom
  | cons rung rest ih =>
    obtain ⟨test, value⟩ := rung
    unfold firstOf
    split
    · exact h (test, value) List.mem_cons_self
    · exact ih fun r hr => h r (List.mem_cons_of_mem _ hr)

/-- **A ladder whose values go down is monotone in its tests.** A test that becomes true can only
move the answer to an earlier rung. -/
theorem firstOf_mono {before after : List (Bool × L)} (h : Extends before after)
    (hdown : before.Pairwise fun r r' => r'.2 ≤ r.2) (hbottom : ∀ r ∈ before, bottom ≤ r.2) :
    firstOf bottom before ≤ firstOf bottom after := by
  unfold Extends at h
  induction h with
  | nil => exact le_refl _
  | @cons r r' rest rest' hrung _ ih =>
    obtain ⟨test, value⟩ := r
    obtain ⟨test', value'⟩ := r'
    obtain ⟨rfl, htest⟩ : value = value' ∧ (test = true → test' = true) := hrung
    obtain ⟨hbelow, hdown⟩ := List.pairwise_cons.mp hdown
    have hrest := ih hdown fun r hr => hbottom r (List.mem_cons_of_mem _ hr)
    unfold firstOf
    by_cases hafter : test' = true
    · -- The second verdict is this value, and the first is this one or one below it.
      rw [if_pos hafter]
      split
      · exact le_refl _
      · exact firstOf_le (hbottom (test, value) List.mem_cons_self) hbelow
    · have hbefore : ¬test = true := fun h => hafter (htest h)
      rw [if_neg hbefore, if_neg hafter]
      exact hrest

end Precedence
end SecureMail
