import SecureMail.Py.Float

/-!
# The order of floats

Between finite doubles `<=` and `==` are the order and equality of their units. A difference is
rounded, but rounding takes nothing but zero to zero, so a difference is zero exactly where the two
are equal.

That last fact is the reason why a tolerance of zero can be tested by a difference at all. For any
other tolerance the rounding shows: two time stamps can lie further apart than a bound and have a
difference that does not, and statements about a tolerance are made with the difference as the code
computes it.
-/

namespace SecureMail
namespace Py
namespace Float

variable {x y z d : Float}

/-- A finite double. -/
def Finite (x : Float) : Prop := x.units?.isSome = true

instance : DecidablePred Finite := fun x => inferInstanceAs (Decidable (x.units?.isSome = true))

theorem le_trans (h : x.le y = true) (h' : y.le z = true) : x.le z = true := by
  cases x <;> cases y <;> cases z <;> simp only [le, lt, eq] at h h' ⊢ <;> grind

/-! ## Units -/

/-- Of two finite doubles, the units decide. -/
theorem eq_of_finite (hx : Finite x) (hy : Finite y) :
    x.eq y = (x.units?.getD 0 == y.units?.getD 0) := by
  cases x with
  | nan => cases hx
  | inf => cases hx
  | fin neg mag =>
    cases y with
    | nan => cases hy
    | inf => cases hy
    | fin neg' mag' => rfl

theorem lt_of_finite (hx : Finite x) (hy : Finite y) :
    x.lt y = decide (x.units?.getD 0 < y.units?.getD 0) := by
  cases x with
  | nan => cases hx
  | inf => cases hx
  | fin neg mag =>
    cases y with
    | nan => cases hy
    | inf => cases hy
    | fin neg' mag' => rfl

/-! ## Rounding -/

theorem div_le_roundHalfEven (a b : Nat) : a / b ≤ roundHalfEven a b := by
  unfold roundHalfEven
  split
  · exact Nat.le_refl _
  · exact Nat.le_succ _

/-- Nothing but zero is rounded to zero. -/
theorem roundUnits_pos {n : Nat} (h : 0 < n) : 0 < roundUnits n 1 := by
  unfold roundUnits
  apply Nat.mul_pos _ (Nat.two_pow_pos _)
  have hexponent : 2 ^ roundExponent n 1 ≤ n := by
    refine Nat.le_trans (Nat.pow_le_pow_right (by omega) ?_) (Nat.log2_self_le (Nat.ne_of_gt h))
    unfold roundExponent
    rw [Nat.div_one]
    exact Nat.sub_le _ _
  refine Nat.lt_of_lt_of_le ?_ (div_le_roundHalfEven _ _)
  rw [Nat.one_mul]
  exact Nat.div_pos hexponent (Nat.two_pow_pos _)

theorem roundUnits_zero : roundUnits 0 1 = 0 := by decide

/-- What is rounded from a count is a number. -/
theorem nearest_eq_self (a b : Nat) : (nearest false a b).eq (nearest false a b) = true := by
  generalize hx : nearest false a b = x
  unfold nearest at hx
  split at hx
  · subst hx
    simp [eq]
  · subst hx
    rfl

theorem ofNat_eq_self (n : Nat) : (ofNat n).eq (ofNat n) = true := by
  unfold ofNat
  exact nearest_eq_self _ _

theorem ofNat_le_self (n : Nat) : (ofNat n).le (ofNat n) = true := by
  rw [le, ofNat_eq_self, Bool.or_true]

/-! ## Differences -/

/-- The double is zero. -/
def IsZero (x : Float) : Prop := x.units? = some 0

theorem isZero_fin_iff {neg : Bool} {mag : Magnitude} : IsZero (.fin neg mag) ↔ mag.units = 0 := by
  cases neg <;> simp [IsZero, units?]

theorem isZero_abs_ofUnits_iff (n : Int) : IsZero (ofUnits n).abs ↔ n = 0 := by
  have hround : roundUnits n.natAbs 1 = 0 ↔ n = 0 := by
    constructor
    · intro h
      by_contra hne
      exact Nat.ne_of_gt (roundUnits_pos (Int.natAbs_pos.mpr hne)) h
    · intro h
      rw [h, Int.natAbs_zero, roundUnits_zero]
  unfold ofUnits nearest
  split
  · rw [abs, isZero_fin_iff]
    exact hround
  · rename_i hlarge
    simp only [abs, IsZero, units?, reduceCtorEq, false_iff]
    intro hn
    rw [hround.mpr hn] at hlarge
    -- The threshold is generalized, so that nothing evaluates it.
    generalize 2098 = threshold at hlarge
    exact hlarge (Nat.two_pow_pos threshold)

/-- From a finite double, the distance is zero exactly to its equals. -/
theorem isZero_abs_sub_iff (hy : Finite y) : IsZero (x.sub y).abs ↔ x.eq y = true := by
  cases y with
  | nan => cases hy
  | inf => cases hy
  | fin neg mag =>
    cases x with
    | nan =>
      have hsub : (nan.sub (.fin neg mag)).abs = nan := rfl
      have heq : nan.eq (.fin neg mag) = false := rfl
      simp [hsub, heq, IsZero, units?]
    | inf s =>
      have hsub : ((inf s).sub (.fin neg mag)).abs = inf false := rfl
      have heq : (inf s).eq (.fin neg mag) = false := rfl
      simp [hsub, heq, IsZero, units?]
    | fin neg' mag' =>
      have hsub : (fin neg' mag').sub (.fin neg mag) = ofUnits
          ((fin neg' mag').units?.getD 0 - (fin neg mag).units?.getD 0) := rfl
      have heq : (fin neg' mag').eq (.fin neg mag) =
          ((fin neg' mag').units?.getD 0 == (fin neg mag).units?.getD 0) := rfl
      rw [hsub, heq, isZero_abs_ofUnits_iff, Int.sub_eq_zero, beq_iff_eq]

/-- To a double that is not finite, no distance is. -/
theorem abs_sub_of_not_finite (hy : ¬Finite y) : (x.sub y).abs = nan ∨ (x.sub y).abs = inf false := by
  cases y with
  | nan => cases x <;> exact Or.inl rfl
  | inf s =>
    cases x with
    | nan => exact Or.inl rfl
    | inf s' => cases s <;> cases s' <;> first | exact Or.inl rfl | exact Or.inr rfl
    | fin neg mag => exact Or.inr rfl
  | fin neg mag => exact absurd rfl hy

/-- No distance is below zero. -/
theorem abs_le_iff_isZero (hd : IsZero d) : x.abs.le d = true ↔ IsZero x.abs := by
  cases d with
  | nan => cases hd
  | inf => cases hd
  | fin neg mag =>
    cases x with
    | nan => simp [abs, le, lt, eq, IsZero, units?]
    | inf s => simp [abs, le, lt, eq, IsZero, units?]
    | fin neg' mag' =>
      have hmag : mag.units = 0 := isZero_fin_iff.mp hd
      rw [abs, isZero_fin_iff]
      simp only [le, lt, eq, units?, hmag, Option.getD_some, Bool.or_eq_true, decide_eq_true_eq,
        beq_iff_eq, Bool.false_eq_true, if_false, Int.natCast_zero, Int.neg_zero, ite_self]
      omega

/-- A zero is at most any double that is rounded from a count. -/
theorem isZero_le_nearest (hd : IsZero d) (a b : Nat) : d.le (nearest false a b) = true := by
  cases d with
  | nan => cases hd
  | inf => cases hd
  | fin neg mag =>
    unfold nearest
    split
    · have hmag : mag.units = 0 := isZero_fin_iff.mp hd
      simp only [le, lt, eq, units?, hmag, Option.getD_some, Bool.or_eq_true, decide_eq_true_eq,
        beq_iff_eq, Bool.false_eq_true, if_false, Int.natCast_zero, Int.neg_zero, ite_self]
      omega
    · rfl

theorem isZero_le_ofNat (hd : IsZero d) (n : Nat) : d.le (ofNat n) = true := by
  unfold ofNat
  exact isZero_le_nearest hd _ _

end Float
end Py
end SecureMail
