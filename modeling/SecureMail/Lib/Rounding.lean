import Mathlib.Algebra.Order.Floor.Ring
import Mathlib.Algebra.Order.Field.Basic
import Mathlib.Data.Int.ConditionallyCompleteOrder
import Mathlib.Data.Nat.Log
import Mathlib.Tactic.Linarith
import Mathlib.Tactic.Ring
import Mathlib.Tactic.Positivity
import Mathlib.Tactic.FieldSimp

/-!
# Rounding to a number of bits

A binary floating-point format of precision `p` has the numbers `m * 2 ^ k` units, with `m` of `p`
bits, and the unit is its least positive number. An exact result is rounded to the nearest of them,
and to the one with the even `m` where two are as near. Nothing here bounds the exponent from above:
overflow is a matter of what is done with a result, not of how it is rounded.

A proof about a computation needs only three things of the rounding. It is monotone, it leaves the
numbers of the format alone, and it is off by a share `2 ^ -p` of the result at the most, or by half
a unit where the result has fewer than `p` bits. The last is `Rounds`, which a computation is then
measured by step after step; interpolation between two numbers is the one measured here
(`Rounds.abs_mean_sub_le`). Its bound is not the best one, and it is a round number: four roundings,
each of which counts as one.
-/

namespace SecureMail
namespace Rounding

variable {K : Type*} [Field K] [LinearOrder K] [IsStrictOrderedRing K] [FloorRing K]

/-! ## To an integer -/

/-- The integer nearest to `x`, and the even one of two that are as near. -/
def halfEven (x : K) : ℤ :=
  if Int.fract x < 1 / 2 ∨ Int.fract x = 1 / 2 ∧ ⌊x⌋ % 2 = 0 then ⌊x⌋ else ⌊x⌋ + 1

omit [IsStrictOrderedRing K] in
theorem floor_le_halfEven (x : K) : ⌊x⌋ ≤ halfEven x := by
  unfold halfEven
  split <;> omega

omit [IsStrictOrderedRing K] in
theorem halfEven_le_floor_add_one (x : K) : halfEven x ≤ ⌊x⌋ + 1 := by
  unfold halfEven
  split <;> omega

theorem halfEven_intCast (n : ℤ) : halfEven (n : K) = n := by
  unfold halfEven
  rw [Int.fract_intCast, if_pos (Or.inl (by norm_num)), Int.floor_intCast]

theorem halfEven_natCast (n : ℕ) : halfEven (n : K) = n := by
  have h := halfEven_intCast (K := K) (n : ℤ)
  rwa [Int.cast_natCast] at h

theorem abs_halfEven_sub_le (x : K) : |(halfEven x : K) - x| ≤ 1 / 2 := by
  have hfract : x = ⌊x⌋ + Int.fract x := (Int.floor_add_fract x).symm
  have hnonneg := Int.fract_nonneg x
  have hlt := Int.fract_lt_one x
  unfold halfEven
  rw [abs_le]
  split
  · rename_i hdown
    have hhalf : Int.fract x ≤ 1 / 2 := hdown.elim le_of_lt fun h => h.1.le
    constructor <;> linarith
  · rename_i hup
    have hhalf : 1 / 2 ≤ Int.fract x := not_lt.mp fun h => hup (Or.inl h)
    push_cast
    constructor <;> linarith

theorem halfEven_mono : Monotone (halfEven : K → ℤ) := by
  intro x y hxy
  rcases eq_or_lt_of_le (Int.floor_le_floor hxy) with hsame | hlt
  · -- Between two integers: what is rounded down takes all that is lesser with it.
    have hfract : Int.fract x ≤ Int.fract y := by
      rw [Int.fract, Int.fract, hsame]
      exact sub_le_sub_right hxy _
    by_cases hdown : Int.fract y < 1 / 2 ∨ Int.fract y = 1 / 2 ∧ ⌊y⌋ % 2 = 0
    · have hdown' : Int.fract x < 1 / 2 ∨ Int.fract x = 1 / 2 ∧ ⌊x⌋ % 2 = 0 := by
        rcases hdown with hless | ⟨hhalf, heven⟩
        · exact Or.inl (hfract.trans_lt hless)
        · rcases hfract.lt_or_eq with hless | heq
          · exact Or.inl (hless.trans_eq hhalf)
          · exact Or.inr ⟨heq.trans hhalf, hsame ▸ heven⟩
      rw [halfEven, halfEven, if_pos hdown, if_pos hdown', hsame]
    · rw [halfEven, halfEven, if_neg hdown]
      split <;> omega
  · calc halfEven x ≤ ⌊x⌋ + 1 := halfEven_le_floor_add_one x
      _ ≤ ⌊y⌋ := hlt
      _ ≤ halfEven y := floor_le_halfEven y

/-! ## To a number of bits -/

/-- How many bits of `x` are beyond the first `p`. -/
def exponent (p : ℕ) (x : K) : ℕ := Nat.log2 ⌊x⌋₊ + 1 - p

/-- `x` rounded to `p` bits, where it is not negative. -/
def magnitude (p : ℕ) (x : K) : K := halfEven (x / 2 ^ exponent p x) * 2 ^ exponent p x

/-- `x` rounded to `p` bits. -/
def toBits (p : ℕ) (x : K) : K := if x < 0 then -magnitude p (-x) else magnitude p x

variable {p : ℕ} {x y : K}

omit [IsStrictOrderedRing K] in
theorem lt_two_pow_exponent (p : ℕ) (x : K) : x < 2 ^ (exponent p x + p) := by
  have hfloor : ⌊x⌋₊ < 2 ^ (exponent p x + p) := by
    refine Nat.lt_of_lt_of_le Nat.lt_log2_self (Nat.pow_le_pow_right (by omega) ?_)
    unfold exponent
    omega
  exact_mod_cast Nat.lt_of_floor_lt hfloor

/-- Only a number with more than `p` bits has an exponent. -/
theorem two_pow_le_of_exponent (hp : 0 < p) (h : exponent p x ≠ 0) :
    (2 : K) ^ (exponent p x + p - 1) ≤ x := by
  have hlog : Nat.log2 ⌊x⌋₊ = exponent p x + p - 1 := by
    unfold exponent at h ⊢
    omega
  have hne : ⌊x⌋₊ ≠ 0 := by
    intro hzero
    have hpos : 0 < Nat.log2 ⌊x⌋₊ := by omega
    rw [hzero] at hpos
    exact absurd hpos (by decide)
  have hle : 2 ^ (exponent p x + p - 1) ≤ ⌊x⌋₊ := hlog ▸ Nat.log2_self_le hne
  have hx : (⌊x⌋₊ : K) ≤ x := Nat.floor_le (Nat.pos_of_floor_pos (Nat.pos_of_ne_zero hne)).le
  calc (2 : K) ^ (exponent p x + p - 1) ≤ (⌊x⌋₊ : K) := by exact_mod_cast hle
    _ ≤ x := hx

theorem exponent_mono (p : ℕ) : Monotone (exponent p : K → ℕ) := by
  intro x y hxy
  have hlog : Nat.log2 ⌊x⌋₊ ≤ Nat.log2 ⌊y⌋₊ := by
    simp only [Nat.log2_eq_log_two]
    exact Nat.log_mono_right (Nat.floor_mono hxy)
  unfold exponent
  omega

theorem magnitude_nonneg (p : ℕ) (hx : 0 ≤ x) : 0 ≤ magnitude p x := by
  have hfloor : 0 ≤ halfEven (x / 2 ^ exponent p x) :=
    (Int.floor_nonneg.mpr (div_nonneg hx (pow_pos two_pos _).le)).trans (floor_le_halfEven _)
  exact mul_nonneg (by exact_mod_cast hfloor) (pow_pos two_pos _).le

theorem magnitude_le_two_pow (p : ℕ) (x : K) : magnitude p x ≤ 2 ^ (exponent p x + p) := by
  have hquotient : x / 2 ^ exponent p x ≤ ((2 ^ p : ℕ) : K) := by
    rw [div_le_iff₀ (pow_pos two_pos _)]
    push_cast
    rw [← pow_add, add_comm]
    exact (lt_two_pow_exponent p x).le
  have hround : halfEven (x / 2 ^ exponent p x) ≤ ((2 ^ p : ℕ) : ℤ) :=
    halfEven_natCast (K := K) (2 ^ p) ▸ halfEven_mono hquotient
  calc magnitude p x ≤ ((2 ^ p : ℕ) : K) * 2 ^ exponent p x :=
        mul_le_mul_of_nonneg_right (by exact_mod_cast hround) (pow_pos two_pos _).le
    _ = 2 ^ (exponent p x + p) := by push_cast; rw [pow_add]; ring

theorem two_pow_le_magnitude (hp : 0 < p) (h : exponent p x ≠ 0) :
    (2 : K) ^ (exponent p x + p - 1) ≤ magnitude p x := by
  have hsplit : (2 : K) ^ (exponent p x + p - 1) = 2 ^ (p - 1) * 2 ^ exponent p x := by
    rw [← pow_add]
    congr 1
    omega
  have hquotient : ((2 ^ (p - 1) : ℕ) : K) ≤ x / 2 ^ exponent p x := by
    rw [le_div_iff₀ (pow_pos two_pos _)]
    push_cast
    rw [← hsplit]
    exact two_pow_le_of_exponent hp h
  have hround : ((2 ^ (p - 1) : ℕ) : ℤ) ≤ halfEven (x / 2 ^ exponent p x) :=
    halfEven_natCast (K := K) (2 ^ (p - 1)) ▸ halfEven_mono hquotient
  rw [hsplit]
  refine mul_le_mul_of_nonneg_right ?_ (pow_pos two_pos _).le
  exact_mod_cast hround

/-- The error of a rounding: a share of the number, and half a unit where it has few bits. -/
theorem abs_magnitude_sub_le (hp : 0 < p) (hx : 0 ≤ x) :
    |magnitude p x - x| ≤ x / 2 ^ p + 1 / 2 := by
  have hscale : magnitude p x - x =
      ((halfEven (x / 2 ^ exponent p x) : K) - x / 2 ^ exponent p x) * 2 ^ exponent p x := by
    have hne : (2 : K) ^ exponent p x ≠ 0 := (pow_pos two_pos _).ne'
    rw [magnitude, sub_mul, div_mul_cancel₀ _ hne]
  have hstep : |magnitude p x - x| ≤ 1 / 2 * 2 ^ exponent p x := by
    rw [hscale, abs_mul, abs_of_pos (pow_pos (two_pos : (0 : K) < 2) _)]
    exact mul_le_mul_of_nonneg_right (abs_halfEven_sub_le _) (pow_pos two_pos _).le
  have hshare : 0 ≤ x / 2 ^ p := div_nonneg hx (pow_pos two_pos _).le
  by_cases h : exponent p x = 0
  · rw [h, pow_zero, mul_one] at hstep
    linarith
  · have hbits : 1 / 2 * (2 : K) ^ exponent p x ≤ x / 2 ^ p := by
      rw [le_div_iff₀ (pow_pos two_pos _)]
      refine le_trans (le_of_eq ?_) (two_pow_le_of_exponent hp h)
      have hsucc : (2 : K) ^ (exponent p x + p) = 2 ^ (exponent p x + p - 1) * 2 := by
        rw [← pow_succ]
        congr 1
        omega
      rw [mul_assoc, ← pow_add, hsucc]
      ring
    linarith

theorem magnitude_le_magnitude (hp : 0 < p) (hxy : x ≤ y) : magnitude p x ≤ magnitude p y := by
  rcases eq_or_lt_of_le (exponent_mono p hxy) with hsame | hlt
  · have hquotient : x / 2 ^ exponent p x ≤ y / 2 ^ exponent p y := by
      rw [hsame]
      exact div_le_div_of_nonneg_right hxy (pow_pos two_pos _).le
    unfold magnitude
    rw [hsame] at hquotient ⊢
    refine mul_le_mul_of_nonneg_right ?_ (pow_pos two_pos _).le
    exact_mod_cast halfEven_mono hquotient
  · -- The lesser exponent: a power of two stands between the two.
    calc magnitude p x ≤ 2 ^ (exponent p x + p) := magnitude_le_two_pow p x
      _ ≤ 2 ^ (exponent p y + p - 1) := pow_le_pow_right₀ (by norm_num) (by omega)
      _ ≤ magnitude p y := two_pow_le_magnitude hp (by omega)

/-- A number of at most `p` bits is not rounded. -/
theorem magnitude_eq_self (hp : 0 < p) {m k : ℕ} (hm : m ≤ 2 ^ p) :
    magnitude p ((m : K) * 2 ^ k) = m * 2 ^ k := by
  generalize hx : (m : K) * 2 ^ k = x
  have hwhole : ∃ n : ℕ, x = n * 2 ^ exponent p x := by
    by_cases hzero : exponent p x = 0
    · exact ⟨m * 2 ^ k, by rw [hzero, pow_zero, mul_one, ← hx]; push_cast; rfl⟩
    by_cases hle : exponent p x ≤ k
    · refine ⟨m * 2 ^ (k - exponent p x), ?_⟩
      push_cast
      rw [mul_assoc, ← pow_add, Nat.sub_add_cancel hle, hx]
    · -- A number with more than `p` bits and a lesser `k` is a power of two.
      have hpower : x = 2 ^ (exponent p x + p - 1) := by
        refine le_antisymm ?_ (two_pow_le_of_exponent hp hzero)
        calc x = (m : K) * 2 ^ k := hx.symm
          _ ≤ 2 ^ p * 2 ^ k :=
            mul_le_mul_of_nonneg_right (by exact_mod_cast hm) (pow_pos two_pos _).le
          _ = 2 ^ (p + k) := (pow_add _ _ _).symm
          _ ≤ 2 ^ (exponent p x + p - 1) := pow_le_pow_right₀ (by norm_num) (by omega)
      refine ⟨2 ^ (p - 1), ?_⟩
      push_cast
      rw [← pow_add]
      refine hpower.trans ?_
      congr 1
      omega
  obtain ⟨n, hn⟩ := hwhole
  have hne : (2 : K) ^ exponent p x ≠ 0 := (pow_pos two_pos _).ne'
  have hquotient : x / 2 ^ exponent p x = (n : K) := (div_eq_iff hne).mpr hn
  rw [magnitude, hquotient, halfEven_natCast, Int.cast_natCast]
  exact hn.symm

omit [IsStrictOrderedRing K] in
theorem toBits_of_nonneg (hx : 0 ≤ x) : toBits p x = magnitude p x := if_neg (not_lt.mpr hx)

theorem magnitude_zero (hp : 0 < p) : magnitude p (0 : K) = 0 := by
  simpa using magnitude_eq_self (K := K) hp (m := 0) (k := 0) (Nat.zero_le _)

theorem toBits_neg (hp : 0 < p) (x : K) : toBits p (-x) = -toBits p x := by
  unfold toBits
  rcases lt_trichotomy x 0 with hlt | rfl | hgt
  · rw [if_neg (by linarith), if_pos hlt, neg_neg]
  · simp [magnitude_zero hp]
  · rw [if_pos (by linarith), if_neg (not_lt.mpr hgt.le), neg_neg]

theorem toBits_mono (hp : 0 < p) : Monotone (toBits p : K → K) := by
  intro x y hxy
  rcases lt_or_ge x 0 with hx | hx
  · rcases lt_or_ge y 0 with hy | hy
    · rw [toBits, toBits, if_pos hx, if_pos hy]
      exact neg_le_neg (magnitude_le_magnitude hp (neg_le_neg hxy))
    · rw [toBits, if_pos hx, toBits_of_nonneg hy]
      have hleft := magnitude_nonneg p (neg_nonneg.mpr hx.le)
      have hright := magnitude_nonneg p hy
      linarith
  · rw [toBits_of_nonneg hx, toBits_of_nonneg (hx.trans hxy)]
    exact magnitude_le_magnitude hp hxy

theorem abs_toBits_sub_le (hp : 0 < p) (x : K) : |toBits p x - x| ≤ |x| / 2 ^ p + 1 / 2 := by
  rcases lt_or_ge x 0 with hx | hx
  · have herror := abs_magnitude_sub_le hp (neg_nonneg.mpr hx.le)
    rw [toBits, if_pos hx, abs_of_neg hx]
    rwa [← abs_neg, neg_sub', neg_neg] at herror
  · rw [toBits_of_nonneg hx, abs_of_nonneg hx]
    exact abs_magnitude_sub_le hp hx

theorem toBits_eq_self (hp : 0 < p) {m k : ℕ} (hm : m ≤ 2 ^ p) :
    toBits p ((m : K) * 2 ^ k) = m * 2 ^ k := by
  have hnonneg : (0 : K) ≤ (m : K) * 2 ^ k := mul_nonneg (Nat.cast_nonneg _) (pow_pos two_pos _).le
  rw [toBits_of_nonneg hnonneg, magnitude_eq_self hp hm]

/-! ## To a format -/

/-- `x` rounded to the format of precision `p` with the least positive number `unit`. -/
def toFormat (p : ℕ) (unit x : K) : K := toBits p (x / unit) * unit

/-- A number of the format. -/
def InFormat (p : ℕ) (unit x : K) : Prop := ∃ m k : ℕ, m ≤ 2 ^ p ∧ |x| = m * 2 ^ k * unit

theorem toFormat_neg (hp : 0 < p) (unit x : K) : toFormat p unit (-x) = -toFormat p unit x := by
  rw [toFormat, neg_div, toBits_neg hp, neg_mul]
  rfl

/-- What is in the format stays as it is. -/
theorem InFormat.toFormat_eq (hp : 0 < p) {unit : K} (hunit : 0 < unit)
    (h : InFormat p unit x) : toFormat p unit x = x := by
  obtain ⟨m, k, hm, hx⟩ := h
  have hpositive : ∀ y : K, y = m * 2 ^ k * unit → toFormat p unit y = y := by
    intro y hy
    rw [toFormat, hy, mul_div_cancel_right₀ _ hunit.ne', toBits_eq_self hp hm]
  rcases abs_choice x with habs | habs
  · exact hpositive x (habs ▸ hx)
  · have hneg := hpositive (-x) (habs ▸ hx)
    rwa [toFormat_neg hp, neg_inj] at hneg

/-- What a number of the format has behind the point is in the format: it has no more bits. -/
theorem InFormat.fract {unit : K} {j : ℕ} (hone : 2 ^ j * unit = 1) (h : InFormat p unit x)
    (h0 : 0 ≤ x) : InFormat p unit (Int.fract x) := by
  obtain ⟨m, k, hm, hx⟩ := h
  rw [abs_of_nonneg h0] at hx
  by_cases hle : j ≤ k
  · -- The number is an integer.
    have hwhole : x = ((m * 2 ^ (k - j) : ℕ) : K) := by
      have hsplit : (2 : K) ^ k = 2 ^ (k - j) * 2 ^ j := by rw [← pow_add, Nat.sub_add_cancel hle]
      rw [hx, hsplit, mul_assoc, mul_assoc, hone]
      push_cast
      ring
    exact ⟨0, 0, Nat.zero_le _, by rw [hwhole, Int.fract_natCast]; simp⟩
  · have hquotient : (2 : K) ^ k * unit = 1 / ((2 ^ (j - k) : ℕ) : K) := by
      have hsplit : (2 : K) ^ j = 2 ^ (j - k) * 2 ^ k := by
        rw [← pow_add, Nat.sub_add_cancel (not_le.mp hle).le]
      have hne : ((2 ^ (j - k) : ℕ) : K) ≠ 0 := by exact_mod_cast (Nat.two_pow_pos _).ne'
      rw [eq_div_iff hne, ← hone, hsplit]
      push_cast
      ring
    refine ⟨m % 2 ^ (j - k), k, (Nat.mod_le _ _).trans hm, ?_⟩
    rw [abs_of_nonneg (Int.fract_nonneg x), hx, mul_assoc, mul_assoc, hquotient, mul_one_div,
      Int.fract_div_natCast_eq_div_natCast_mod, mul_one_div]

/-- **What a computation may count on**, of a rounding with the relative error `u` and the absolute
error `η`. The two are not alternatives: a result is off by the one and the other at the most, which
is all that a bound over several steps needs. -/
structure Rounds (fl : K → K) (u η : K) : Prop where
  mono : Monotone fl
  zero : fl 0 = 0
  one : fl 1 = 1
  error : ∀ x, |fl x - x| ≤ u * |x| + η

theorem rounds_toFormat (hp : 0 < p) {unit : K} (hunit : 0 < unit) (hone : InFormat p unit 1) :
    Rounds (toFormat p unit) (1 / 2 ^ p) (unit / 2) where
  mono := fun x y hxy => mul_le_mul_of_nonneg_right
    (toBits_mono hp (div_le_div_of_nonneg_right hxy hunit.le)) hunit.le
  zero := InFormat.toFormat_eq hp hunit ⟨0, 0, Nat.zero_le _, by simp⟩
  one := hone.toFormat_eq hp hunit
  error := by
    intro x
    have hscale : toFormat p unit x - x = (toBits p (x / unit) - x / unit) * unit := by
      rw [toFormat, sub_mul, div_mul_cancel₀ _ hunit.ne']
    rw [hscale, abs_mul, abs_of_pos hunit]
    calc |toBits p (x / unit) - x / unit| * unit
        ≤ (|x / unit| / 2 ^ p + 1 / 2) * unit :=
          mul_le_mul_of_nonneg_right (abs_toBits_sub_le hp _) hunit.le
      _ = 1 / 2 ^ p * |x| + unit / 2 := by
          rw [abs_div, abs_of_pos hunit]
          field_simp

/-! ## Interpolation -/

/-- The mean of two numbers with the weights `1 - w` and `w`, rounded but for the last step. -/
def sumOfProducts (fl : K → K) (a b w : K) : K := fl (a * fl (1 - w)) + fl (b * w)

namespace Rounds

variable {fl : K → K} {u η : K}

omit [IsStrictOrderedRing K] [FloorRing K] in
theorem mem_Icc (h : Rounds fl u η) {x : K} (h0 : 0 ≤ x) (h1 : x ≤ 1) : 0 ≤ fl x ∧ fl x ≤ 1 :=
  ⟨h.zero ▸ h.mono h0, h.one ▸ h.mono h1⟩

omit [FloorRing K] in
/-- A product with a weight is no larger than the number, and off by no more than a rounding. -/
theorem abs_product_sub_le (h : Rounds fl u η) (hu : 0 ≤ u) {a m w : K} (ha : |a| ≤ m) (h0 : 0 ≤ w) :
    |fl (a * w) - a * w| ≤ u * (m * w) + η := by
  refine (h.error _).trans (add_le_add_left (mul_le_mul_of_nonneg_left ?_ hu) η)
  rw [abs_mul, abs_of_nonneg h0]
  exact mul_le_mul_of_nonneg_right ha h0

omit [FloorRing K] in
/-- What the shares of an interpolation add up to, where `t` is the sum of its two weights. -/
theorem shares_le (hu : 0 ≤ u) (hsmall : u ≤ 1 / 8) (htiny : η ≤ u ^ 2) {t : K}
    (ht0 : 0 ≤ t) (ht : t ≤ 1 + u + η) : u * (1 + u) * t + u * t + u + η ≤ 4 * u := by
  have hsquare : u ^ 2 ≤ u * (1 / 8) := by
    rw [pow_two]
    exact mul_le_mul_of_nonneg_left hsmall hu
  have hweights : t ≤ 73 / 64 := by linarith
  have hproduct : (2 + u) * t ≤ 17 / 8 * (73 / 64) :=
    mul_le_mul (by linarith) hweights ht0 (by norm_num)
  have hscaled := mul_le_mul_of_nonneg_left hproduct hu
  calc u * (1 + u) * t + u * t + u + η = u * ((2 + u) * t) + u + η := by ring
    _ ≤ 4 * u := by linarith

omit [FloorRing K] in
/-- **The error of an interpolation**: the rounding of the one weight, of the two products and of the
sum count for `u` each, and what they do to each other for no more than a fourth. -/
theorem abs_mean_sub_le (h : Rounds fl u η) (hu : 0 ≤ u) (hη : 0 ≤ η) (hsmall : u ≤ 1 / 8)
    (htiny : η ≤ u ^ 2) {a b m w : K} (ha : |a| ≤ m) (hb : |b| ≤ m) (h0 : 0 ≤ w) (h1 : w ≤ 1) :
    |fl (sumOfProducts fl a b w) - (a * (1 - w) + b * w)| ≤ 4 * u * m + 4 * η := by
  have hm : 0 ≤ m := (abs_nonneg a).trans ha
  obtain ⟨hv0, -⟩ := h.mem_Icc (x := 1 - w) (by linarith) (by linarith)
  have hweight : |fl (1 - w) - (1 - w)| ≤ u + η := by
    refine (h.error (1 - w)).trans (add_le_add_left (mul_le_of_le_one_right hu ?_) η)
    rw [abs_of_nonneg (by linarith)]
    linarith
  have hleft := h.abs_product_sub_le hu ha hv0
  have hright := h.abs_product_sub_le hu hb h0
  have hsum := h.error (fl (a * fl (1 - w)) + fl (b * w))
  unfold sumOfProducts
  generalize fl (1 - w) = v at *
  generalize fl (a * v) = left at *
  generalize fl (b * w) = right at *
  generalize fl (left + right) = sum at *
  have hweights : v + w ≤ 1 + u + η := by
    have hv := (abs_le.mp hweight).2
    linarith
  have hmoved : |a * v - a * (1 - w)| ≤ m * (u + η) := by
    rw [← mul_sub, abs_mul]
    exact mul_le_mul ha hweight (abs_nonneg _) hm
  have hsize : |left + right| ≤ m * ((1 + u) * (v + w)) + 2 * η := by
    have hav : |a * v| ≤ m * v := by
      rw [abs_mul, abs_of_nonneg hv0]
      exact mul_le_mul_of_nonneg_right ha hv0
    have hbw : |b * w| ≤ m * w := by
      rw [abs_mul, abs_of_nonneg h0]
      exact mul_le_mul_of_nonneg_right hb h0
    rw [abs_le] at hav hbw hleft hright ⊢
    constructor <;> linarith
  have hrounded : |sum - (left + right)| ≤ u * (m * ((1 + u) * (v + w)) + 2 * η) + η :=
    hsum.trans (add_le_add_left (mul_le_mul_of_nonneg_left hsize hu) η)
  have hshares := mul_le_mul_of_nonneg_left
    (shares_le hu hsmall htiny (add_nonneg hv0 h0) hweights) hm
  have hcross : u * η ≤ 1 / 8 * η := mul_le_mul_of_nonneg_right hsmall hη
  rw [abs_le] at hleft hright hmoved hrounded ⊢
  constructor <;> linarith

omit [FloorRing K] in
/-- Larger numbers have a larger mean, in spite of the rounding. -/
theorem sumOfProducts_le (h : Rounds fl u η) {a b a' b' w : K} (ha : a ≤ a') (hb : b ≤ b')
    (h0 : 0 ≤ w) (h1 : w ≤ 1) : sumOfProducts fl a b w ≤ sumOfProducts fl a' b' w := by
  obtain ⟨hv0, -⟩ := h.mem_Icc (x := 1 - w) (by linarith) (by linarith)
  exact add_le_add (h.mono (mul_le_mul_of_nonneg_right ha hv0))
    (h.mono (mul_le_mul_of_nonneg_right hb h0))

end Rounds

end Rounding
end SecureMail
