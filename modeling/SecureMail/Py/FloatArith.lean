import Mathlib.Algebra.Order.Floor.Semifield
import Mathlib.Data.Rat.Floor
import SecureMail.Lib.Rounding
import SecureMail.Py.FloatOrder

/-!
# Arithmetic of floats

Every operation is exact up to one rounding, and each is given here the way a processor is specified
to carry it out: the exact result as a quotient of integers, in units of `2^-1074`, and then the
nearest double. Addition and multiplication of two doubles have a result of that kind by themselves.
A quotient of two integers is rounded once and not after a conversion of either side, as `int / int`
is in Python.

What is proved about the operations is one statement (`Nearest`): the result has the exact value
rounded, or is infinite, where the rounded value is beyond the largest double. Rounding itself is
that of a format with 53 bits (`Rounding.toFormat`), whose properties are not proved again here:
`roundUnits_eq_magnitude` says that the rounding of quotients of natural numbers, which evaluates, is
the one of the library, which is easy to reason about.

The two zeros stay one value. A zero of either sign divides by raising `ZeroDivisionError`, so that
no sign of a zero can be told from a result.
-/

namespace SecureMail
namespace Py
namespace Float

/-! ## The operations -/

/-- `float(n)` of an `int` that is known not to overflow. -/
def ofInt (n : Int) : Float := .nearest (decide (n < 0)) (n.natAbs * oneInUnits) 1

/-- `n / d` of two `int`s, for `d` other than zero. -/
def ofRatio (n d : Nat) : Float := .nearest false (n * oneInUnits) d

/-- `x + y`. Two infinities of different signs have no sum. -/
def add : Float → Float → Float
  | .nan, _ | _, .nan => .nan
  | .inf s, .inf t => if s = t then .inf s else .nan
  | .inf s, .fin .. => .inf s
  | .fin .., .inf t => .inf t
  | x, y => .ofUnits (x.units?.getD 0 + y.units?.getD 0)

/-- `x * y`. -/
def mul : Float → Float → Float
  | .nan, _ | _, .nan => .nan
  | .inf s, .inf t => .inf (s != t)
  | .inf s, .fin t mag | .fin t mag, .inf s => if mag.units = 0 then .nan else .inf (s != t)
  | .fin s mag, .fin t mag' => .nearest (s != t) (mag.units * mag'.units) oneInUnits

/-- `x / y`: `none` where Python raises `ZeroDivisionError`. -/
def div? (x y : Float) : Option Float :=
  if y.units? = some 0 then none
  else some <| match x, y with
    | .nan, _ | _, .nan => .nan
    | .inf _, .inf _ => .nan
    | .inf s, .fin t _ => .inf (s != t)
    | .fin .., .inf _ => .ofUnits 0
    | .fin s mag, .fin t mag' => .nearest (s != t) (mag.units * oneInUnits) mag'.units

/-- `math.floor(x)`: `none` where Python raises. -/
def floor? (x : Float) : Option Int := x.units?.map (· / (oneInUnits : Int))

/-- `math.ceil(x)`: `none` where Python raises. -/
def ceil? (x : Float) : Option Int := x.units?.map fun n => -(-n / (oneInUnits : Int))

/-- One step of `sum` over floats, which keeps what the sum has lost beside it. -/
def compensate (total : Float × Float) (x : Float) : Float × Float :=
  let t := total.1.add x
  let lost :=
    if x.abs.le total.1.abs then (total.1.sub t).add x else (x.sub t).add total.1
  (t, total.2.add lost)

/-- `sum(values)` of floats. Since Python 3.12 it gives back in the end what was lost. -/
def sum (values : List Float) : Float :=
  let total := values.foldl compensate (ofNat 0, ofNat 0)
  if total.2.units?.any (· ≠ 0) then total.1.add total.2 else total.1

/-! ## Values -/

/-- The unit, `2^-1074`. -/
def unit : ℚ := (oneInUnits : ℚ)⁻¹

/-- The value of a finite double. -/
def value (x : Float) : ℚ := (x.units?.getD 0 : ℤ) * unit

/-- The value nearest to `x` that a double with an unbounded exponent has. -/
def rounded (x : ℚ) : ℚ := Rounding.toFormat 53 unit x

/-- The least power of two that is beyond every double. -/
def overflow : ℚ := 2 ^ 1024

theorem oneInUnits_pos : 0 < oneInUnits := by
  unfold oneInUnits
  positivity

theorem unit_pos : 0 < unit := by
  unfold unit
  generalize hn : oneInUnits = n
  have hpos : 0 < n := hn ▸ oneInUnits_pos
  positivity

theorem oneInUnits_mul_unit : (oneInUnits : ℚ) * unit = 1 :=
  mul_inv_cancel₀ (Nat.cast_pos.mpr oneInUnits_pos).ne'

theorem overflow_eq : overflow = ((2 ^ 2098 : ℕ) : ℚ) * unit := by
  have hsplit : 2 ^ 2098 = 2 ^ 1024 * oneInUnits := by rw [oneInUnits, ← pow_add]
  rw [hsplit, Nat.cast_mul, mul_assoc, oneInUnits_mul_unit, mul_one, overflow, Nat.cast_pow,
    Nat.cast_ofNat]

/-! ## Rounding -/

theorem roundHalfEven_eq {a b : Nat} (hb : 0 < b) :
    (roundHalfEven a b : ℤ) = Rounding.halfEven ((a : ℚ) / b) := by
  have hfloor : ⌊(a : ℚ) / b⌋ = ((a / b : ℕ) : ℤ) := by
    rw [← Int.natCast_floor_eq_floor (by positivity), Nat.floor_div_eq_div]
  have hfract : Int.fract ((a : ℚ) / b) = (a % b : ℕ) / (b : ℚ) :=
    Int.fract_div_natCast_eq_div_natCast_mod
  have hbpos : (0 : ℚ) < b := by exact_mod_cast hb
  have hless : Int.fract ((a : ℚ) / b) < 1 / 2 ↔ 2 * (a % b) < b := by
    rw [hfract, div_lt_div_iff₀ hbpos (by norm_num), one_mul, mul_comm]
    exact_mod_cast Iff.rfl
  have hhalf : Int.fract ((a : ℚ) / b) = 1 / 2 ↔ 2 * (a % b) = b := by
    rw [hfract, div_eq_div_iff hbpos.ne' (by norm_num), one_mul, mul_comm]
    exact_mod_cast Iff.rfl
  have heven : ((a / b : ℕ) : ℤ) % 2 = 0 ↔ a / b % 2 = 0 := by omega
  unfold roundHalfEven Rounding.halfEven
  simp only [hless, hhalf, hfloor, heven]
  split <;> simp

theorem roundUnits_eq_magnitude {a b : Nat} (hb : 0 < b) :
    (roundUnits a b : ℚ) = Rounding.magnitude 53 ((a : ℚ) / b) := by
  have hexponent : Rounding.exponent 53 ((a : ℚ) / b) = roundExponent a b := by
    rw [Rounding.exponent, Nat.floor_div_eq_div, roundExponent]
    omega
  have hscale : (a : ℚ) / b / 2 ^ roundExponent a b =
      (a : ℚ) / ((b * 2 ^ roundExponent a b : ℕ) : ℚ) := by
    push_cast
    rw [div_div]
  rw [Rounding.magnitude, hexponent, hscale,
    ← roundHalfEven_eq (Nat.mul_pos hb (Nat.two_pow_pos _)), roundUnits]
  push_cast
  rfl

/-- The sign of a result. -/
def signed (neg : Bool) (x : ℚ) : ℚ := if neg then -x else x

theorem abs_signed (neg : Bool) (x : ℚ) : |signed neg x| = |x| := by
  cases neg
  · rfl
  · exact abs_neg x

theorem rounded_signed (neg : Bool) (x : ℚ) : rounded (signed neg x) = signed neg (rounded x) := by
  cases neg
  · rfl
  · exact Rounding.toFormat_neg (by norm_num) unit x

theorem rounded_quotient {a b : Nat} (hb : 0 < b) :
    rounded ((a : ℚ) / b * unit) = roundUnits a b * unit := by
  rw [rounded, Rounding.toFormat, mul_div_cancel_right₀ _ unit_pos.ne',
    Rounding.toBits_of_nonneg (by positivity), ← roundUnits_eq_magnitude hb]

/-- The double is what the exact result `x` is rounded to. -/
inductive Nearest (x : ℚ) : Float → Prop
  | finite {r : Float} (bounded : |rounded x| < overflow) (finite : r.Finite)
      (value : r.value = rounded x) : Nearest x r
  | infinite (neg : Bool) (unbounded : overflow ≤ |rounded x|) (sign : neg = true ↔ x < 0) :
      Nearest x (.inf neg)

theorem value_fin (neg : Bool) (mag : Magnitude) :
    (Float.fin neg mag).value = signed neg (mag.units * unit) := by
  cases neg <;> simp [value, units?, signed]

theorem nearest_nearest (neg : Bool) (a : Nat) {b : Nat} (hb : 0 < b) :
    Nearest (signed neg ((a : ℚ) / b * unit)) (nearest neg a b) := by
  have hrounded : rounded (signed neg ((a : ℚ) / b * unit)) = signed neg (roundUnits a b * unit) := by
    rw [rounded_signed, rounded_quotient hb]
  have habs : |rounded (signed neg ((a : ℚ) / b * unit))| = roundUnits a b * unit := by
    rw [hrounded, abs_signed, abs_of_nonneg (mul_nonneg (Nat.cast_nonneg _) unit_pos.le)]
  unfold nearest
  split
  · rename_i hlt
    refine .finite ?_ rfl ?_
    · rw [habs, overflow_eq]
      exact mul_lt_mul_of_pos_right (by exact_mod_cast hlt) unit_pos
    · rw [hrounded, value_fin]
  · rename_i hge
    refine .infinite _ ?_ ?_
    · rw [habs, overflow_eq]
      exact mul_le_mul_of_nonneg_right (by exact_mod_cast not_lt.mp hge) unit_pos.le
    · have ha : a ≠ 0 := by
        rintro rfl
        have hzero : roundUnits 0 b = 0 := by
          have h := roundUnits_eq_magnitude (a := 0) hb
          rw [Nat.cast_zero, zero_div, Rounding.magnitude_zero (by norm_num)] at h
          exact_mod_cast h
        rw [hzero] at hge
        generalize 2098 = threshold at hge
        exact hge (Nat.two_pow_pos threshold)
      have hpos : 0 < (a : ℚ) / b * unit :=
        mul_pos (div_pos (by positivity) (by exact_mod_cast hb)) unit_pos
      cases neg
      · simp [signed, hpos.le]
      · simp [signed, hpos]

theorem Nearest.of_eq {x y : ℚ} {r : Float} (h : Nearest x r) (heq : x = y) : Nearest y r := heq ▸ h

/-- A result that is rounded below the threshold is finite. -/
theorem Nearest.finite_of_lt {x : ℚ} {r : Float} (h : Nearest x r) (hlt : |rounded x| < overflow) :
    r.Finite ∧ r.value = rounded x := by
  cases h with
  | finite _ hfinite hvalue => exact ⟨hfinite, hvalue⟩
  | infinite neg hge _ => exact absurd hlt (not_lt.mpr hge)

theorem Nearest.value_of_finite {x : ℚ} {r : Float} (h : Nearest x r) (hr : r.Finite) :
    r.value = rounded x := by
  cases h with
  | finite _ _ hvalue => exact hvalue
  | infinite neg _ _ => cases hr

/-! ## The results of the operations -/

theorem nearest_ofUnits (n : Int) : Nearest (n * unit) (ofUnits n) := by
  refine (nearest_nearest (decide (n < 0)) n.natAbs Nat.one_pos).of_eq ?_
  rw [Nat.cast_one, div_one, Nat.cast_natAbs]
  rcases lt_or_ge n 0 with hneg | hnonneg
  · rw [decide_eq_true hneg, abs_of_neg hneg]
    simp [signed]
  · rw [decide_eq_false (not_lt.mpr hnonneg), abs_of_nonneg hnonneg]
    simp [signed]

theorem nearest_ofRatio (n : Nat) {d : Nat} (hd : 0 < d) : Nearest ((n : ℚ) / d) (ofRatio n d) := by
  refine (nearest_nearest false (n * oneInUnits) hd).of_eq ?_
  rw [signed, if_neg Bool.false_ne_true, Nat.cast_mul, div_mul_eq_mul_div, mul_assoc,
    oneInUnits_mul_unit, mul_one]

theorem nearest_ofNat (n : Nat) : Nearest n (ofNat n) :=
  (nearest_ofRatio n Nat.one_pos).of_eq (by rw [Nat.cast_one, div_one])

variable {x y : Float}

theorem nearest_add (hx : x.Finite) (hy : y.Finite) : Nearest (x.value + y.value) (x.add y) := by
  cases x with
  | nan => cases hx
  | inf => cases hx
  | fin s mag =>
    cases y with
    | nan => cases hy
    | inf => cases hy
    | fin t mag' =>
      refine (nearest_ofUnits _).of_eq ?_
      rw [value, value, ← add_mul]
      push_cast
      rfl

theorem nearest_sub (hx : x.Finite) (hy : y.Finite) : Nearest (x.value - y.value) (x.sub y) := by
  cases x with
  | nan => cases hx
  | inf => cases hx
  | fin s mag =>
    cases y with
    | nan => cases hy
    | inf => cases hy
    | fin t mag' =>
      refine (nearest_ofUnits _).of_eq ?_
      rw [value, value, ← sub_mul]
      push_cast
      rfl

theorem signed_mul_signed (s t : Bool) (x y : ℚ) :
    signed s x * signed t y = signed (s != t) (x * y) := by
  cases s <;> cases t <;> simp [signed]

theorem signed_div_signed (s t : Bool) (x y : ℚ) :
    signed s x / signed t y = signed (s != t) (x / y) := by
  cases s <;> cases t <;> simp [signed, neg_div, div_neg]

theorem nearest_mul (hx : x.Finite) (hy : y.Finite) : Nearest (x.value * y.value) (x.mul y) := by
  cases x with
  | nan => cases hx
  | inf => cases hx
  | fin s mag =>
    cases y with
    | nan => cases hy
    | inf => cases hy
    | fin t mag' =>
      refine (nearest_nearest (s != t) (mag.units * mag'.units) oneInUnits_pos).of_eq ?_
      rw [value_fin, value_fin, signed_mul_signed, Nat.cast_mul, unit, div_eq_mul_inv]
      congr 1
      ring

/-- A quotient, but by a zero. -/
theorem nearest_div (hx : x.Finite) (hy : y.Finite) (hne : y.units? ≠ some 0) :
    ∃ r, div? x y = some r ∧ Nearest (x.value / y.value) r := by
  unfold div?
  rw [if_neg hne]
  cases x with
  | nan => cases hx
  | inf => cases hx
  | fin s mag =>
    cases y with
    | nan => cases hy
    | inf => cases hy
    | fin t mag' =>
      have hpos : 0 < mag'.units := by
        refine Nat.pos_of_ne_zero fun hzero => hne ?_
        cases t <;> simp [units?, hzero]
      refine ⟨_, rfl, (nearest_nearest (s != t) (mag.units * oneInUnits) hpos).of_eq ?_⟩
      rw [value_fin, value_fin, signed_div_signed, Nat.cast_mul, mul_div_mul_right _ _ unit_pos.ne',
        div_mul_eq_mul_div, mul_assoc, oneInUnits_mul_unit, mul_one]

/-! ## Comparison and the integers around -/

theorem lt_iff_value (hx : x.Finite) (hy : y.Finite) : x.lt y = true ↔ x.value < y.value := by
  rw [lt_of_finite hx hy, decide_eq_true_iff, value, value, mul_lt_mul_iff_left₀ unit_pos,
    Int.cast_lt]

theorem eq_iff_value (hx : x.Finite) (hy : y.Finite) : x.eq y = true ↔ x.value = y.value := by
  rw [eq_of_finite hx hy, beq_iff_eq, value, value, mul_left_inj' unit_pos.ne', Int.cast_inj]

theorem le_iff_value (hx : x.Finite) (hy : y.Finite) : x.le y = true ↔ x.value ≤ y.value := by
  rw [le, Bool.or_eq_true, lt_iff_value hx hy, eq_iff_value hx hy, le_iff_lt_or_eq]

theorem units?_of_finite (hx : x.Finite) : x.units? = some (x.units?.getD 0) := by
  cases x with
  | nan => cases hx
  | inf => cases hx
  | fin s mag => rfl

theorem value_eq_div (x : Float) :
    x.value = ((x.units?.getD 0 : ℤ) : ℚ) / ((oneInUnits : ℕ) : ℚ) := by
  rw [value, unit, div_eq_mul_inv]

theorem floor?_eq (hx : x.Finite) : x.floor? = some ⌊x.value⌋ := by
  rw [floor?, units?_of_finite hx, Option.map_some, value_eq_div, Rat.floor_intCast_div_natCast]

theorem ceil?_eq (hx : x.Finite) : x.ceil? = some ⌈x.value⌉ := by
  rw [ceil?, units?_of_finite hx, Option.map_some, value_eq_div, Rat.ceil_intCast_div_natCast]

/-- One exact result is rounded to one number. -/
theorem Nearest.unique {v : ℚ} {r r' : Float} (h : Nearest v r) (h' : Nearest v r') :
    r.eq r' = true := by
  cases h with
  | finite hlt hr hvalue =>
    obtain ⟨hr', hvalue'⟩ := h'.finite_of_lt hlt
    exact (eq_iff_value hr hr').mpr (hvalue.trans hvalue'.symm)
  | infinite neg hge hsign =>
    cases h' with
    | finite hlt => exact absurd hlt (not_lt.mpr hge)
    | infinite neg' _ hsign' =>
      have hsame : neg = neg' := Bool.eq_iff_iff.mpr (hsign.trans hsign'.symm)
      rw [hsame]
      simp [Float.eq]

/-! ## The format -/

/-- The value of a finite double is in the format. -/
theorem inFormat_value (hx : x.Finite) : Rounding.InFormat 53 unit x.value := by
  cases x with
  | nan => cases hx
  | inf => cases hx
  | fin s mag =>
    obtain ⟨m, k, hunits, hm, -⟩ := mag.isDouble
    refine ⟨m, k, hm, ?_⟩
    rw [value_fin, abs_signed, abs_of_nonneg (mul_nonneg (Nat.cast_nonneg _) unit_pos.le), hunits]
    push_cast
    rfl

theorem abs_value_lt (hx : x.Finite) : |x.value| < overflow := by
  cases x with
  | nan => cases hx
  | inf => cases hx
  | fin s mag =>
    obtain ⟨m, k, -, -, hlt⟩ := mag.isDouble
    rw [value_fin, abs_signed, abs_of_nonneg (mul_nonneg (Nat.cast_nonneg _) unit_pos.le),
      overflow_eq]
    exact mul_lt_mul_of_pos_right (by exact_mod_cast hlt) unit_pos

/-- So is an integer of at most 53 bits. -/
theorem inFormat_natCast {n : Nat} (hn : n ≤ 2 ^ 53) : Rounding.InFormat 53 unit (n : ℚ) := by
  refine ⟨n, 1074, hn, ?_⟩
  have hone : ((2 : ℚ) ^ 1074) = oneInUnits := by rw [oneInUnits, Nat.cast_pow, Nat.cast_ofNat]
  rw [hone, mul_assoc, oneInUnits_mul_unit, mul_one, Nat.abs_cast]

theorem rounds : Rounding.Rounds rounded (1 / 2 ^ 53) (unit / 2) :=
  Rounding.rounds_toFormat (by norm_num) unit_pos (by
    simpa using inFormat_natCast (n := 1) (by norm_num))

theorem unit_le : unit ≤ (1 / 2 ^ 53) ^ 2 := by
  have hpow : ((2 ^ 53) ^ 2 : ℚ) ≤ oneInUnits := by
    rw [oneInUnits, Nat.cast_pow, Nat.cast_ofNat, ← pow_mul]
    exact pow_le_pow_right₀ (by norm_num) (by norm_num)
  rw [div_pow, one_pow, one_div, unit]
  exact inv_anti₀ (by positivity) hpow

theorem rounded_of_inFormat {v : ℚ} (h : Rounding.InFormat 53 unit v) : rounded v = v :=
  h.toFormat_eq (by norm_num) unit_pos

theorem rounded_value (hx : x.Finite) : rounded x.value = x.value :=
  rounded_of_inFormat (inFormat_value hx)

theorem rounded_neg (v : ℚ) : rounded (-v) = -rounded v := Rounding.toFormat_neg (by norm_num) unit v

/-- Rounding does not leave an interval whose ends are in the format. -/
theorem abs_rounded_le {v m : ℚ} (hm : Rounding.InFormat 53 unit m) (h : |v| ≤ m) :
    |rounded v| ≤ m := by
  obtain ⟨hlow, hhigh⟩ := abs_le.mp h
  have hlow' := rounds.mono hlow
  have hhigh' := rounds.mono hhigh
  rw [rounded_neg, rounded_of_inFormat hm] at hlow'
  rw [rounded_of_inFormat hm] at hhigh'
  exact abs_le.mpr ⟨hlow', hhigh'⟩

/-- A result no larger than a finite double is finite. -/
theorem Nearest.finite_of_abs_le {v m : ℚ} {r : Float} (h : Nearest v r)
    (hm : Rounding.InFormat 53 unit m) (hv : |v| ≤ m) (hlt : m < overflow) :
    r.Finite ∧ r.value = rounded v :=
  h.finite_of_lt ((abs_rounded_le hm hv).trans_lt hlt)

theorem two_pow_lt_overflow {k : Nat} (hk : k < 1024) : (2 : ℚ) ^ k < overflow :=
  pow_lt_pow_right₀ (by norm_num) hk

/-- The part of a double behind the point is a double. -/
theorem inFormat_fract {v : ℚ} (h : Rounding.InFormat 53 unit v) (h0 : 0 ≤ v) :
    Rounding.InFormat 53 unit (Int.fract v) := by
  refine h.fract (j := 1074) ?_ h0
  rw [← oneInUnits_mul_unit, oneInUnits, Nat.cast_pow, Nat.cast_ofNat]

/-- An integer of at most 53 bits is converted exactly. -/
theorem ofNat_exact {n : Nat} (hn : n ≤ 2 ^ 53) : (ofNat n).Finite ∧ (ofNat n).value = n := by
  have hlt : (n : ℚ) < overflow := lt_of_le_of_lt (by exact_mod_cast hn)
    (two_pow_lt_overflow (k := 53) (by norm_num))
  obtain ⟨hfinite, hvalue⟩ := (nearest_ofNat n).finite_of_abs_le (inFormat_natCast hn)
    (Nat.abs_cast n).le hlt
  exact ⟨hfinite, hvalue.trans (rounded_of_inFormat (inFormat_natCast hn))⟩

/-- So is a power of two, and an integer below one that is a double is converted without overflow. -/
theorem inFormat_two_pow (k : Nat) : Rounding.InFormat 53 unit (2 ^ k : ℚ) := by
  refine ⟨1, k + 1074, Nat.one_le_two_pow, ?_⟩
  have hone : ((2 : ℚ) ^ 1074) = oneInUnits := by rw [oneInUnits, Nat.cast_pow, Nat.cast_ofNat]
  rw [pow_add, hone, Nat.cast_one, one_mul, mul_assoc, oneInUnits_mul_unit, mul_one,
    abs_of_pos (by positivity)]

theorem finite_ofNat {n k : Nat} (hn : n ≤ 2 ^ k) (hk : k < 1024) : (ofNat n).Finite :=
  ((nearest_ofNat n).finite_of_abs_le (inFormat_two_pow k)
    (by rw [Nat.abs_cast]; exact_mod_cast hn) (two_pow_lt_overflow hk)).1

/-- A share of a whole is a double between 0 and 1. -/
theorem ofRatio_mem_Icc {n d : Nat} (hd : 0 < d) (h : n ≤ d) :
    (ofRatio n d).Finite ∧ 0 ≤ (ofRatio n d).value ∧ (ofRatio n d).value ≤ 1 := by
  have hshare0 : 0 ≤ (n : ℚ) / d := by positivity
  have hshare1 : (n : ℚ) / d ≤ 1 := (div_le_one (by exact_mod_cast hd)).mpr (by exact_mod_cast h)
  have hone : Rounding.InFormat 53 unit 1 := by simpa using inFormat_natCast (n := 1) (by norm_num)
  obtain ⟨hfinite, hvalue⟩ := (nearest_ofRatio n hd).finite_of_abs_le hone
    (by rwa [abs_of_nonneg hshare0]) (two_pow_lt_overflow (k := 0) (by norm_num))
  rw [hvalue]
  exact ⟨hfinite, rounds.mem_Icc hshare0 hshare1⟩

theorem ofRatio_of_le {n d : Nat} (hd : 0 < d) (hn : n ≤ 2 ^ 53) :
    (ofRatio n d).Finite ∧ (ofRatio n d).value = rounded ((n : ℚ) / d) := by
  have hone : (1 : ℚ) ≤ d := by exact_mod_cast hd
  have hle : |(n : ℚ) / d| ≤ ((2 ^ 53 : ℕ) : ℚ) := by
    rw [abs_of_nonneg (by positivity)]
    exact (div_le_self (Nat.cast_nonneg n) hone).trans (by exact_mod_cast hn)
  refine (nearest_ofRatio n hd).finite_of_abs_le (inFormat_natCast le_rfl) hle ?_
  rw [Nat.cast_pow, Nat.cast_ofNat]
  exact two_pow_lt_overflow (by norm_num)

/-- What is added to a number, if it is not negative, keeps it above what it is above. -/
theorem le_add_right {c x s : Float} (hc : c.Finite) (hx : x.Finite) (hs : s.Finite)
    (hnonneg : 0 ≤ s.value) (h : c.value ≤ x.value) : c.le (x.add s) = true := by
  have hmono := rounds.mono (le_add_of_nonneg_right hnonneg : x.value ≤ x.value + s.value)
  rw [rounded_value hx] at hmono
  generalize hr : x.add s = r
  have hnearest := hr ▸ nearest_add hx hs
  cases hnearest with
  | finite _ hfinite hvalue =>
    rw [le_iff_value hc hfinite, hvalue]
    exact h.trans hmono
  | infinite neg hge hsign =>
    -- A negative sum is no larger than the number itself, and does not overflow.
    cases neg with
    | true =>
      have hneg : x.value + s.value < 0 := hsign.mp rfl
      have hneg' := rounds.mono hneg.le
      rw [rounds.zero] at hneg'
      have hlt := abs_value_lt hx
      rw [abs_of_neg (by linarith)] at hlt
      rw [abs_of_nonpos hneg'] at hge
      exact absurd hge (by linarith)
    | false =>
      cases c with
      | nan => cases hc
      | inf => cases hc
      | fin neg mag => rfl

theorem ofRatio_mono {n m d : Nat} (hd : 0 < d) (h : n ≤ m) (hm : m ≤ 2 ^ 53) :
    (ofRatio n d).value ≤ (ofRatio m d).value := by
  rw [(ofRatio_of_le hd (h.trans hm)).2, (ofRatio_of_le hd hm).2]
  exact rounds.mono (div_le_div_of_nonneg_right (by exact_mod_cast h) (Nat.cast_nonneg d))

/-- The difference of two shares is a double between -1 and 1. -/
theorem abs_sub_le_one {x y : Float} (hx : x.Finite) (hy : y.Finite)
    (hx1 : 0 ≤ x.value ∧ x.value ≤ 1) (hy1 : 0 ≤ y.value ∧ y.value ≤ 1) :
    (x.sub y).Finite ∧ |(x.sub y).value| ≤ 1 := by
  have hone : Rounding.InFormat 53 unit 1 := by simpa using inFormat_natCast (n := 1) (by norm_num)
  have hle : |x.value - y.value| ≤ 1 :=
    abs_le.mpr ⟨by linarith [hx1.1, hy1.2], by linarith [hx1.2, hy1.1]⟩
  obtain ⟨hfinite, hvalue⟩ := (nearest_sub hx hy).finite_of_abs_le hone hle
    (two_pow_lt_overflow (k := 0) (by norm_num))
  rw [hvalue]
  exact ⟨hfinite, abs_rounded_le hone hle⟩

/-! ## Zeros -/

/-- No share of anything is zero. -/
theorem ofRatio_zero (d : Nat) : ofRatio 0 d = ofNat 0 := by
  have hround : ∀ b, roundUnits 0 b = 0 := by
    intro b
    have hhalf : ∀ c, roundHalfEven 0 c = 0 := by
      intro c
      rw [roundHalfEven, Nat.zero_mod, Nat.zero_div, if_pos (by omega)]
    rw [roundUnits, hhalf, Nat.zero_mul]
  simp only [ofRatio, ofNat, Nat.zero_mul, nearest, hround]

/-- The zero a difference of equals comes to. -/
theorem ofUnits_zero : ofUnits 0 = ofNat 0 := by
  simp [ofUnits, ofNat]

theorem isZero_iff {x : Float} : IsZero x ↔ x.Finite ∧ x.value = 0 := by
  rw [IsZero, value, mul_eq_zero, or_iff_left unit_pos.ne', Int.cast_eq_zero]
  cases x <;> simp [Finite, units?]

theorem isZero_ofNat_zero : IsZero (ofNat 0) := by
  obtain ⟨hfinite, hvalue⟩ := ofNat_exact (n := 0) (by norm_num)
  exact isZero_iff.mpr ⟨hfinite, by rw [hvalue, Nat.cast_zero]⟩

theorem ofNat_ne_zero {n : Nat} (hn : 0 < n) : ¬IsZero (ofNat n) := by
  intro hzero
  obtain ⟨hfinite, hvalue⟩ := isZero_iff.mp hzero
  have hone := rounds.mono (show (1 : ℚ) ≤ n by exact_mod_cast hn)
  rw [rounds.one, ← (nearest_ofNat n).value_of_finite hfinite, hvalue] at hone
  exact absurd hone (by norm_num)

theorem div?_ok (x : Float) (hy : ¬IsZero y) : ∃ r, div? x y = some r := by
  have hne : y.units? ≠ some 0 := hy
  unfold div?
  rw [if_neg hne]
  exact ⟨_, rfl⟩

theorem zero_div? {y : Float} (hfinite : y.Finite) (hy : ¬IsZero y) :
    ∃ r, div? (ofNat 0) y = some r ∧ r.IsZero := by
  obtain ⟨hzero, hvalue⟩ := ofNat_exact (n := 0) (by norm_num)
  obtain ⟨r, hr, hnearest⟩ := nearest_div hzero hfinite hy
  refine ⟨r, hr, isZero_iff.mpr ?_⟩
  rw [hvalue, Nat.cast_zero, zero_div] at hnearest
  have hrounded := rounds.zero
  obtain ⟨hdone, hresult⟩ := hnearest.finite_of_lt (by
    rw [hrounded, abs_zero]
    exact pow_pos (by norm_num) _)
  exact ⟨hdone, hresult.trans hrounded⟩

theorem sub_self_of_finite (hx : x.Finite) : x.sub x = ofNat 0 := by
  cases x with
  | nan => cases hx
  | inf => cases hx
  | fin s mag =>
    have hsub : (fin s mag).sub (fin s mag) =
        ofUnits ((fin s mag).units?.getD 0 - (fin s mag).units?.getD 0) := rfl
    rw [hsub, Int.sub_self, ofUnits_zero]

theorem sum_replicate_zero (n : Nat) : sum (List.replicate n (ofNat 0)) = ofNat 0 := by
  have hstep : compensate (ofNat 0, ofNat 0) (ofNat 0) = (ofNat 0, ofNat 0) := by decide +kernel
  have hfold : (List.replicate n (ofNat 0)).foldl compensate (ofNat 0, ofNat 0) =
      (ofNat 0, ofNat 0) := by
    induction n with
    | zero => rfl
    | succ n ih => rw [List.replicate_succ, List.foldl_cons, hstep, ih]
  rw [sum, hfold]
  decide +kernel

end Float
end Py
end SecureMail
