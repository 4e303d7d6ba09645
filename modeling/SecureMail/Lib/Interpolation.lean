import Mathlib.Algebra.Order.Floor.Ring
import Mathlib.Data.Int.ConditionallyCompleteOrder
import Mathlib.Tactic.Linarith
import Mathlib.Tactic.Ring

/-!
# Linear interpolation between integer points

A function on the integers is extended to the field by the straight line from each integer to the
next. The extension stays between the two values it connects (`le_lerp`, `lerp_le`), and it is
monotone where the function is: within a segment because a line is, and from one segment to a later
one because the value at the integer between them is on the way.

The points are all integers, and not the places of a list, so that no statement has a bound to carry.
A list is extended to a function by repeating its ends, which is monotone if the list is sorted.
-/

namespace SecureMail
namespace Interpolation

variable {K : Type*} [Field K] [LinearOrder K] [IsStrictOrderedRing K] [FloorRing K]

/-- The value at `r`, on the line from the integer below to the next. -/
def lerp (f : ℤ → K) (r : K) : K := f ⌊r⌋ * (1 - Int.fract r) + f (⌊r⌋ + 1) * Int.fract r

variable {f : ℤ → K}

omit [IsStrictOrderedRing K] in
theorem lerp_eq_add (r : K) : lerp f r = f ⌊r⌋ + (f (⌊r⌋ + 1) - f ⌊r⌋) * Int.fract r := by
  unfold lerp
  ring

omit [IsStrictOrderedRing K] in
/-- At an integer, the line has the value of the function. -/
theorem lerp_of_floor_eq_ceil {r : K} (h : ⌊r⌋ = ⌈r⌉) : lerp f r = f ⌊r⌋ := by
  have hfract : Int.fract r = 0 := by
    have hle : r ≤ (⌊r⌋ : K) := by
      rw [h]
      exact Int.le_ceil r
    rw [Int.fract]
    exact sub_eq_zero.mpr (le_antisymm hle (Int.floor_le r))
  rw [lerp_eq_add, hfract, mul_zero, add_zero]

theorem ceil_eq_of_floor_ne {r : K} (h : ⌊r⌋ ≠ ⌈r⌉) : ⌈r⌉ = ⌊r⌋ + 1 := by
  have hle := Int.floor_le_ceil r
  have hsucc := Int.ceil_le_floor_add_one r
  omega

/-- Between two integers, it is the mean of the two values with the weights of the distances. -/
theorem lerp_of_floor_ne_ceil {r : K} (h : ⌊r⌋ ≠ ⌈r⌉) :
    lerp f r = f ⌊r⌋ * (1 - (r - ⌊r⌋)) + f ⌈r⌉ * (r - ⌊r⌋) := by
  rw [ceil_eq_of_floor_ne h]
  rfl

theorem le_lerp (hf : Monotone f) (r : K) : f ⌊r⌋ ≤ lerp f r := by
  have hstep : 0 ≤ f (⌊r⌋ + 1) - f ⌊r⌋ := sub_nonneg.mpr (hf (Int.le_add_one le_rfl))
  rw [lerp_eq_add]
  exact le_add_of_nonneg_right (mul_nonneg hstep (Int.fract_nonneg r))

theorem lerp_le (hf : Monotone f) (r : K) : lerp f r ≤ f (⌊r⌋ + 1) := by
  have hstep : 0 ≤ f (⌊r⌋ + 1) - f ⌊r⌋ := sub_nonneg.mpr (hf (Int.le_add_one le_rfl))
  have hpart := mul_le_of_le_one_right hstep (Int.fract_lt_one r).le
  rw [lerp_eq_add]
  linarith

/-- **The extension of a monotone function is monotone.** Within a piece it is a convex combination,
and at an integer two pieces meet. -/
theorem lerp_mono (hf : Monotone f) : Monotone (lerp f) := by
  intro r s hrs
  rcases eq_or_lt_of_le (Int.floor_le_floor hrs) with hsame | hlt
  · -- One segment: the line goes up.
    have hstep : 0 ≤ f (⌊s⌋ + 1) - f ⌊s⌋ := sub_nonneg.mpr (hf (Int.le_add_one le_rfl))
    have hfract : Int.fract r ≤ Int.fract s := by
      rw [Int.fract, Int.fract, hsame]
      exact sub_le_sub_right hrs _
    rw [lerp_eq_add, lerp_eq_add, hsame]
    have hpart := mul_le_mul_of_nonneg_left hfract hstep
    linarith
  · -- Two segments: the value at the integer that begins the later one lies between.
    calc lerp f r ≤ f (⌊r⌋ + 1) := lerp_le hf r
      _ ≤ f ⌊s⌋ := hf hlt
      _ ≤ lerp f s := le_lerp hf s

/-- What bounds the function bounds the extension. -/
theorem lerp_mem_Icc (hf : Monotone f) {a b : K} (ha : ∀ i, a ≤ f i) (hb : ∀ i, f i ≤ b) (r : K) :
    a ≤ lerp f r ∧ lerp f r ≤ b :=
  ⟨(ha ⌊r⌋).trans (le_lerp hf r), (lerp_le hf r).trans (hb (⌊r⌋ + 1))⟩

end Interpolation
end SecureMail
