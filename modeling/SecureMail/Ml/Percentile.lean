import Mathlib.Data.List.Sort
import SecureMail.Evidence.Run
import SecureMail.Lib.Interpolation
import SecureMail.Lib.OrderStatistics
import SecureMail.Py.FloatArith

/-!
# Percentiles

The percentile of a list is read off its sorted copy, at a rank between two of its places as a rule,
by interpolation. The code computes with doubles, and so does `percentile` here: the rank is rounded,
and so are one of the two weights, the two products and the sum. What such a computation promises
cannot be said in the words of exact arithmetic. Of two equal values the percentile may be off to
either side of both, and of two ranks the higher may have the lower percentile
(`percentile_off_the_list`).

So there are two layers. Exact arithmetic is the abstract one: the sorted list as a monotone function
on the integers (`clamped`), continued by straight lines (`Interpolation.lerp`), is between the ends
of the list and goes up with the rank, for every list of rationals. The code is then compared with
it: what it returns is the exact percentile at the rank it has computed, but for `roundoff`, which is
four roundings of the largest value (`abs_percentile_sub_le`). The rank itself is not part of the
error. It is rounded, but rounding is monotone and keeps the ends, so that it stays on the list.

A subscript of a list raises `IndexError` outside of it, so that the places read are part of what is
proved. A list of more than `2 ^ 53 + 1` values would be read outside: its length has no double.
-/

namespace SecureMail
namespace Ml

open Py

/-- `values[i]`, where a negative `i` counts from the end. -/
def item {α : Type} (values : List α) (i : ℤ) : Result α :=
  let position := if i < 0 then i + values.length else i
  if position < 0 then throw .indexError
  else match values[position.toNat]? with
    | some value => pure value
    | none => throw .indexError

/-- `math.floor` and `math.ceil`, by what they make of a number. -/
def wholeOf (whole? : Py.Float → Option Int) (x : Py.Float) : Result Int :=
  match whole? x with
  | some n => pure n
  | none => throw (if x = .nan then .valueError else .overflowError)

/-- `sorted(values)`, which compares by `<` alone. With a value that is not a number in the list, the
order that comes of it depends on the algorithm, and is not meant to be that of CPython. -/
def sorted (values : List Py.Float) : List Py.Float := values.insertionSort fun a b => !b.lt a

/-- The place of the percentile in the sorted list, between two of its indices as a rule. -/
def percentileRank (length : Nat) (q : Py.Float) : Py.Float := (Py.Float.ofNat (length - 1)).mul q

/-- The value between two others, by the weight of the second. -/
def between (low high weight : Py.Float) : Py.Float :=
  (low.mul ((Py.Float.ofNat 1).sub weight)).add (high.mul weight)

/-- `percentile`. The two places are the floor and the ceiling of the rank, and where they are one
place nothing is interpolated. -/
def percentile (values : List Py.Float) (q : Py.Float) : Result (Option Py.Float) := do
  if values = [] then pure none
  else
    let ordered := sorted values
    if ordered.length = 1 then pure (some (← item ordered 0))
    else
      let rank := percentileRank ordered.length q
      let low ← wholeOf Py.Float.floor? rank
      let high ← wholeOf Py.Float.ceil? rank
      if low = high then pure (some (← item ordered low))
      else
        let weight := rank.sub (.ofInt low)
        pure (some (between (← item ordered low) (← item ordered high) weight))

/-! ## The sorted list as a monotone function -/

/-- The list, continued on both sides by its ends. -/
def clamped (ordered : List ℚ) (h : 0 < ordered.length) (i : ℤ) : ℚ :=
  ordered[min i.toNat (ordered.length - 1)]

theorem clamped_mono {ordered : List ℚ} (h : 0 < ordered.length)
    (hsorted : ordered.Pairwise (· ≤ ·)) : Monotone (clamped ordered h) := by
  intro i j hij
  have hplace : min i.toNat (ordered.length - 1) ≤ min j.toNat (ordered.length - 1) :=
    min_le_min (Int.toNat_le_toNat hij) le_rfl
  rcases eq_or_lt_of_le hplace with hsame | hlt
  · simp only [clamped, hsame, le_refl]
  · exact List.pairwise_iff_getElem.mp hsorted _ _ (by omega) (by omega) hlt

theorem clamped_mem {ordered : List ℚ} (h : 0 < ordered.length) (i : ℤ) :
    clamped ordered h i ∈ ordered :=
  List.getElem_mem _

/-- The values of a list, in order. -/
def orderedValues (values : List Py.Float) : List ℚ :=
  (values.map Py.Float.value).insertionSort (· ≤ ·)

theorem length_orderedValues (values : List Py.Float) :
    (orderedValues values).length = values.length := by
  rw [orderedValues, List.length_insertionSort, List.length_map]

theorem orderedValues_pos {values : List Py.Float} (hvalues : values ≠ []) :
    0 < (orderedValues values).length := by
  rw [length_orderedValues]
  exact List.length_pos_iff.mpr hvalues

theorem mem_orderedValues {values : List Py.Float} {v : ℚ} :
    v ∈ orderedValues values ↔ ∃ x ∈ values, x.value = v := by
  rw [orderedValues, List.mem_insertionSort, List.mem_map]

theorem length_sorted (values : List Py.Float) : (sorted values).length = values.length :=
  List.length_insertionSort _ _

theorem mem_sorted {values : List Py.Float} {x : Py.Float} : x ∈ sorted values ↔ x ∈ values :=
  List.mem_insertionSort _

/-- The code sorts the doubles, and their values with them. -/
theorem map_value_sorted {values : List Py.Float} (hfinite : ∀ x ∈ values, x.Finite) :
    (sorted values).map Py.Float.value = orderedValues values := by
  apply List.map_insertionSort
  intro a ha b hb
  rw [Bool.not_eq_true', ← Bool.not_eq_true, Py.Float.lt_iff_value (hfinite b hb) (hfinite a ha), not_lt]

/-- The value that the interpolation of the list goes through, of which the ends are on the list. -/
abbrev lineOf (values : List Py.Float) (hvalues : values ≠ []) : ℤ → ℚ :=
  clamped (orderedValues values) (orderedValues_pos hvalues)

theorem lineOf_mono {values : List Py.Float} (hvalues : values ≠ []) : Monotone (lineOf values hvalues) :=
  clamped_mono _ (List.pairwise_insertionSort _ _)

theorem exists_lineOf {values : List Py.Float} (hvalues : values ≠ []) (i : ℤ) :
    ∃ x ∈ values, x.value = lineOf values hvalues i :=
  mem_orderedValues.mp (clamped_mem _ i)

/-- A subscript on the list reads the value of the line there. -/
theorem item_sorted {values : List Py.Float} (hvalues : values ≠ []) (hfinite : ∀ x ∈ values, x.Finite)
    {i : ℤ} (hnonneg : 0 ≤ i) (hlt : i < values.length) :
    ∃ x ∈ values, item (sorted values) i = .ok x ∧ x.value = lineOf values hvalues i := by
  have hplace : i.toNat < (sorted values).length := by
    rw [length_sorted]
    omega
  refine ⟨(sorted values)[i.toNat], mem_sorted.mp (List.getElem_mem _), ?_, ?_⟩
  · simp only [item, if_neg (not_lt.mpr hnonneg), List.getElem?_eq_getElem hplace]
    rfl
  · have hmin : min i.toNat ((orderedValues values).length - 1) = i.toNat := by
      rw [length_orderedValues]
      exact min_eq_left (by omega)
    simp only [lineOf, clamped, hmin]
    simp only [← map_value_sorted hfinite, List.getElem_map]

/-! ## The rank -/

section

variable {length : Nat} {q q' : Py.Float}

theorem percentileRank_exact (hlength : length ≤ 2 ^ 53 + 1) (hq : q.Finite) (h0 : 0 ≤ q.value)
    (h1 : q.value ≤ 1) :
    (percentileRank length q).Finite ∧
      (percentileRank length q).value = Py.Float.rounded ((length - 1 : ℕ) * q.value) := by
  have hlast : length - 1 ≤ 2 ^ 53 := by omega
  obtain ⟨hcount, hvalue⟩ := Py.Float.ofNat_exact hlast
  have hproduct := Py.Float.nearest_mul hcount hq
  rw [hvalue] at hproduct
  have hle : |((length - 1 : ℕ) : ℚ) * q.value| ≤ ((length - 1 : ℕ) : ℚ) := by
    rw [abs_of_nonneg (mul_nonneg (Nat.cast_nonneg _) h0)]
    exact mul_le_of_le_one_right (Nat.cast_nonneg _) h1
  have hbound := Py.Float.abs_value_lt hcount
  rw [hvalue, Nat.abs_cast] at hbound
  exact hproduct.finite_of_abs_le (Py.Float.inFormat_natCast hlast) hle hbound

/-- The rank lies on the list: its place, and the next where one is read. -/
theorem percentileRank_bounds (hpos : 0 < length) (hlength : length ≤ 2 ^ 53 + 1) (hq : q.Finite)
    (h0 : 0 ≤ q.value) (h1 : q.value ≤ 1) :
    0 ≤ ⌊(percentileRank length q).value⌋ ∧ ⌈(percentileRank length q).value⌉ < length := by
  have hlast : length - 1 ≤ 2 ^ 53 := by omega
  obtain ⟨-, hvalue⟩ := percentileRank_exact hlength hq h0 h1
  have hnonneg := Py.Float.rounds.mono (mul_nonneg (Nat.cast_nonneg (length - 1)) h0)
  have hle := Py.Float.rounds.mono (mul_le_of_le_one_right (Nat.cast_nonneg (length - 1)) h1)
  rw [Py.Float.rounds.zero, ← hvalue] at hnonneg
  rw [← hvalue, Py.Float.rounded_of_inFormat (Py.Float.inFormat_natCast hlast)] at hle
  have hceil : ⌈(percentileRank length q).value⌉ ≤ ((length - 1 : ℕ) : ℤ) :=
    Int.ceil_le.mpr (by rwa [Int.cast_natCast])
  exact ⟨Int.floor_nonneg.mpr hnonneg, by omega⟩

theorem percentileRank_le (hlength : length ≤ 2 ^ 53 + 1) (hq : q.Finite) (hq' : q'.Finite)
    (h0 : 0 ≤ q.value) (hle : q.value ≤ q'.value) (h1 : q'.value ≤ 1) :
    (percentileRank length q).value ≤ (percentileRank length q').value := by
  rw [(percentileRank_exact hlength hq h0 (hle.trans h1)).2,
    (percentileRank_exact hlength hq' (h0.trans hle) h1).2]
  exact Py.Float.rounds.mono (mul_le_mul_of_nonneg_left hle (Nat.cast_nonneg _))

end

/-! ## What the percentile is -/

/-- What the last step of the code rounds, along a line on the integers. -/
def beforeRounding (f : ℤ → ℚ) (rank : ℚ) : ℚ :=
  if ⌊rank⌋ = ⌈rank⌉ then f ⌊rank⌋
  else Rounding.sumOfProducts Py.Float.rounded (f ⌊rank⌋) (f ⌈rank⌉) (rank - ⌊rank⌋)

/-- A product with a weight is finite, where the other factor is. -/
theorem mul_weight {x w : Py.Float} (hx : x.Finite) (hw : w.Finite) (h0 : 0 ≤ w.value)
    (h1 : w.value ≤ 1) : (x.mul w).Finite ∧ (x.mul w).value = Py.Float.rounded (x.value * w.value) := by
  have hle : |x.value * w.value| ≤ |x.value| := by
    rw [abs_mul, abs_of_nonneg h0]
    exact mul_le_of_le_one_right (abs_nonneg _) h1
  have hformat : Rounding.InFormat 53 Py.Float.unit |x.value| := by
    obtain ⟨m, k, hm, hk⟩ := Py.Float.inFormat_value hx
    exact ⟨m, k, hm, by rw [abs_abs, hk]⟩
  exact (Py.Float.nearest_mul hx hw).finite_of_abs_le hformat hle (Py.Float.abs_value_lt hx)

theorem between_nearest {low high weight : Py.Float} (hlow : low.Finite) (hhigh : high.Finite)
    (hweight : weight.Finite) (h0 : 0 ≤ weight.value) (h1 : weight.value ≤ 1) :
    Py.Float.Nearest (Rounding.sumOfProducts Py.Float.rounded low.value high.value weight.value)
      (between low high weight) := by
  obtain ⟨hone, hvalue⟩ := Py.Float.ofNat_exact (n := 1) (by norm_num)
  rw [Nat.cast_one] at hvalue
  have hrest := Py.Float.nearest_sub hone hweight
  rw [hvalue] at hrest
  have hsmall : |1 - weight.value| ≤ 1 := abs_le.mpr ⟨by linarith, by linarith⟩
  have hformat : Rounding.InFormat 53 Py.Float.unit 1 := by
    simpa using Py.Float.inFormat_natCast (n := 1) (by norm_num)
  have hbound := Py.Float.abs_value_lt hone
  rw [hvalue, abs_one] at hbound
  obtain ⟨hfinite, hrest⟩ := hrest.finite_of_abs_le hformat hsmall hbound
  obtain ⟨hrest0, hrest1⟩ := Py.Float.rounds.mem_Icc (x := 1 - weight.value) (by linarith) (by linarith)
  rw [← hrest] at hrest0 hrest1
  obtain ⟨hleft, hleftValue⟩ := mul_weight hlow hfinite hrest0 hrest1
  obtain ⟨hright, hrightValue⟩ := mul_weight hhigh hweight h0 h1
  refine (Py.Float.nearest_add hleft hright).of_eq ?_
  rw [hleftValue, hrightValue, hrest, Rounding.sumOfProducts]

/-- The weight is computed without an error. -/
theorem weight_exact {rank : Py.Float} (hrank : rank.Finite) (h0 : 0 ≤ rank.value)
    (hlarge : rank.value ≤ (2 ^ 53 : ℕ)) :
    (rank.sub (.ofInt ⌊rank.value⌋)).Finite ∧
      (rank.sub (.ofInt ⌊rank.value⌋)).value = rank.value - ⌊rank.value⌋ := by
  obtain ⟨n, hn⟩ := Int.eq_ofNat_of_zero_le (Int.floor_nonneg.mpr h0)
  have hle : n ≤ 2 ^ 53 := by
    have hfloor := (Int.floor_le rank.value).trans hlarge
    rw [hn, Int.cast_natCast] at hfloor
    exact_mod_cast hfloor
  have hint : Py.Float.ofInt ⌊rank.value⌋ = Py.Float.ofNat n := by
    rw [hn, Py.Float.ofInt, Py.Float.ofNat, Int.natAbs_natCast]
    congr 1
  obtain ⟨hfinite, hvalue⟩ := Py.Float.ofNat_exact hle
  have hnearest := Py.Float.nearest_sub hrank hfinite
  rw [hvalue, ← Int.cast_natCast, ← hn] at hnearest
  rw [hint]
  have hformat := Py.Float.inFormat_fract (Py.Float.inFormat_value hrank) h0
  have hbound : |rank.value - ⌊rank.value⌋| < Py.Float.overflow := by
    refine lt_of_le_of_lt ?_ (Py.Float.two_pow_lt_overflow (k := 0) (by norm_num))
    rw [pow_zero, Int.self_sub_floor, abs_of_nonneg (Int.fract_nonneg _)]
    exact (Int.fract_lt_one _).le
  have hexact := Py.Float.rounded_of_inFormat hformat
  rw [← Int.self_sub_floor] at hexact
  rw [← hexact] at hbound
  obtain ⟨hdone, hresult⟩ := hnearest.finite_of_lt hbound
  exact ⟨hdone, hresult.trans hexact⟩

/-- **What the code computes.** The percentile is the last of its sums, rounded to a double. -/
theorem percentile_nearest {values : List Py.Float} (hvalues : values ≠ [])
    (hlength : values.length ≤ 2 ^ 53 + 1) (hfinite : ∀ x ∈ values, x.Finite) {q : Py.Float}
    (hq : q.Finite) (h0 : 0 ≤ q.value) (h1 : q.value ≤ 1) :
    ∃ r, percentile values q = .ok (some r) ∧
      Py.Float.Nearest
        (beforeRounding (lineOf values hvalues) (percentileRank values.length q).value) r ∧
      (⌊(percentileRank values.length q).value⌋ = ⌈(percentileRank values.length q).value⌉ →
        r ∈ values) := by
  have hpos := List.length_pos_iff.mpr hvalues
  obtain ⟨hrank, -⟩ := percentileRank_exact hlength hq h0 h1
  obtain ⟨hlow, hhigh⟩ := percentileRank_bounds hpos hlength hq h0 h1
  have hexact : ∀ x : Py.Float, x ∈ values → Py.Float.Nearest x.value x := fun x hx =>
    .finite (by rw [Py.Float.rounded_value (hfinite x hx)]; exact Py.Float.abs_value_lt (hfinite x hx))
      (hfinite x hx) (Py.Float.rounded_value (hfinite x hx)).symm
  unfold percentile
  rw [if_neg hvalues]
  simp only [length_sorted]
  by_cases hone : values.length = 1
  · -- One value: the rank is zero whatever `q` is.
    obtain ⟨x, hx, hitem, hvalue⟩ := item_sorted hvalues hfinite le_rfl (by omega)
    have hzero : (percentileRank values.length q).value = 0 := by
      rw [(percentileRank_exact hlength hq h0 h1).2, hone, Nat.sub_self, Nat.cast_zero, zero_mul,
        Py.Float.rounds.zero]
    rw [if_pos hone, hitem]
    refine ⟨x, rfl, ?_, fun _ => hx⟩
    rw [beforeRounding, hzero, Int.floor_zero, Int.ceil_zero, if_pos rfl, ← hvalue]
    exact hexact x hx
  · rw [if_neg hone, wholeOf, wholeOf, Py.Float.floor?_eq hrank, Py.Float.ceil?_eq hrank]
    have hfloor := Int.floor_le_ceil (percentileRank values.length q).value
    obtain ⟨x, hx, hitem, hvalue⟩ := item_sorted hvalues hfinite hlow (by omega)
    obtain ⟨y, hy, hitem', hvalue'⟩ := item_sorted hvalues hfinite (hlow.trans hfloor) hhigh
    by_cases hwhole :
        ⌊(percentileRank values.length q).value⌋ = ⌈(percentileRank values.length q).value⌉
    · refine ⟨x, ?_, ?_, fun _ => hx⟩
      · simp only [pure_bind, if_pos hwhole, hitem]
        rfl
      · rw [beforeRounding, if_pos hwhole, ← hvalue]
        exact hexact x hx
    · have hnonneg : 0 ≤ (percentileRank values.length q).value := Int.floor_nonneg.mp hlow
      have hlarge : (percentileRank values.length q).value ≤ (2 ^ 53 : ℕ) := by
        refine (Int.le_ceil _).trans ?_
        have hceil : ⌈(percentileRank values.length q).value⌉ ≤ ((2 ^ 53 : ℕ) : ℤ) := by omega
        exact_mod_cast hceil
      obtain ⟨hweight, hvalueWeight⟩ := weight_exact hrank hnonneg hlarge
      refine ⟨between x y ((percentileRank values.length q).sub
        (.ofInt ⌊(percentileRank values.length q).value⌋)), ?_, ?_, fun h => absurd h hwhole⟩
      · simp only [pure_bind, if_neg hwhole, hitem, hitem']
        rfl
      · rw [beforeRounding, if_neg hwhole, ← hvalue, ← hvalue', ← hvalueWeight]
        apply between_nearest (hfinite x hx) (hfinite y hy) hweight
        · rw [hvalueWeight, Int.self_sub_floor]
          exact Int.fract_nonneg _
        · rw [hvalueWeight, Int.self_sub_floor]
          exact (Int.fract_lt_one _).le

/-! ## How far it is from exact arithmetic -/

/-- What the rounding of an interpolation amounts to, among values of the magnitude `m`. -/
def roundoff (m : ℚ) : ℚ := m / 2 ^ 51 + 2 * Py.Float.unit

theorem roundoff_nonneg {m : ℚ} (hm : 0 ≤ m) : 0 ≤ roundoff m :=
  add_nonneg (div_nonneg hm (by norm_num)) (mul_nonneg (by norm_num) Py.Float.unit_pos.le)

/-- Small values leave room to the threshold. -/
theorem room_of_le {m : ℚ} (hm : m ≤ 8) : m + roundoff m < Py.Float.overflow := by
  have hunit : Py.Float.unit ≤ 1 := Py.Float.unit_le.trans (by norm_num)
  have hrounding : m / 2 ^ 51 ≤ 8 / 2 ^ 51 := div_le_div_of_nonneg_right hm (by norm_num)
  refine lt_of_le_of_lt ?_ (Py.Float.two_pow_lt_overflow (k := 5) (by norm_num))
  unfold roundoff
  linarith

theorem abs_mean_sub_le {a b m w : ℚ} (ha : |a| ≤ m) (hb : |b| ≤ m) (h0 : 0 ≤ w) (h1 : w ≤ 1) :
    |Py.Float.rounded (Rounding.sumOfProducts Py.Float.rounded a b w) - (a * (1 - w) + b * w)| ≤
      roundoff m := by
  have htiny : Py.Float.unit / 2 ≤ (1 / 2 ^ 53) ^ 2 :=
    (half_le_self Py.Float.unit_pos.le).trans Py.Float.unit_le
  refine (Py.Float.rounds.abs_mean_sub_le (by norm_num) (half_pos Py.Float.unit_pos).le (by norm_num)
    htiny ha hb h0 h1).trans (le_of_eq ?_)
  rw [roundoff]
  ring

/-- The result of the code beside the line through the sorted list. -/
theorem abs_percentile_sub_le {values : List Py.Float} (hvalues : values ≠ [])
    (hfinite : ∀ x ∈ values, x.Finite) {m : ℚ} (hm : ∀ x ∈ values, |x.value| ≤ m) (rank : ℚ) :
    |Py.Float.rounded (beforeRounding (lineOf values hvalues) rank) -
      Interpolation.lerp (lineOf values hvalues) rank| ≤ roundoff m := by
  have hbound : ∀ i, |lineOf values hvalues i| ≤ m := by
    intro i
    obtain ⟨x, hx, hvalue⟩ := exists_lineOf hvalues i
    rw [← hvalue]
    exact hm x hx
  by_cases hwhole : ⌊rank⌋ = ⌈rank⌉
  · obtain ⟨x, hx, hvalue⟩ := exists_lineOf hvalues ⌊rank⌋
    rw [beforeRounding, if_pos hwhole, Interpolation.lerp_of_floor_eq_ceil hwhole, ← hvalue,
      Py.Float.rounded_value (hfinite x hx), sub_self, abs_zero]
    exact roundoff_nonneg ((abs_nonneg _).trans (hbound 0))
  · rw [beforeRounding, if_neg hwhole, Interpolation.lerp_of_floor_ne_ceil hwhole]
    apply abs_mean_sub_le (hbound _) (hbound _)
    · rw [Int.self_sub_floor]
      exact Int.fract_nonneg _
    · rw [Int.self_sub_floor]
      exact (Int.fract_lt_one _).le

/-- The ends of the line are the least and the greatest value. -/
theorem lineOf_bounds {values : List Py.Float} (hvalues : values ≠ []) {x : Py.Float}
    (hx : x ∈ values) :
    lineOf values hvalues 0 ≤ x.value ∧ x.value ≤ lineOf values hvalues values.length := by
  obtain ⟨i, hi, hget⟩ := List.getElem_of_mem (mem_orderedValues.mpr ⟨x, hx, rfl⟩)
  have hplace : lineOf values hvalues i = x.value := by
    have hmin : min (i : ℤ).toNat ((orderedValues values).length - 1) = i :=
      min_eq_left (by omega)
    simp only [lineOf, clamped, hmin, hget]
  rw [length_orderedValues] at hi
  rw [← hplace]
  exact ⟨lineOf_mono hvalues (by omega), lineOf_mono hvalues (by omega)⟩

theorem orderedValues_perm {values other : List Py.Float} (h : values.Perm other) :
    orderedValues other = orderedValues values := by
  apply List.Perm.eq_of_pairwise (fun a b _ _ => le_antisymm) (List.pairwise_insertionSort _ _)
    (List.pairwise_insertionSort _ _)
  exact (List.perm_insertionSort _ _).trans
    ((h.symm.map _).trans (List.perm_insertionSort _ _).symm)

/-- What bounds the values of a list bounds its exact percentiles. -/
theorem lerp_lineOf_mem_Icc {values : List Py.Float} (hvalues : values ≠ []) {a b : ℚ}
    (h : ∀ x ∈ values, a ≤ x.value ∧ x.value ≤ b) (rank : ℚ) :
    a ≤ Interpolation.lerp (lineOf values hvalues) rank ∧
      Interpolation.lerp (lineOf values hvalues) rank ≤ b := by
  have hline : ∀ i, a ≤ lineOf values hvalues i ∧ lineOf values hvalues i ≤ b := by
    intro i
    obtain ⟨x, hx, hvalue⟩ := exists_lineOf hvalues i
    rw [← hvalue]
    exact h x hx
  exact Interpolation.lerp_mem_Icc (lineOf_mono hvalues) (fun i => (hline i).1)
    (fun i => (hline i).2) rank

/-- With room for a roundoff below the threshold, nothing overflows. -/
theorem finite_of_room {values : List Py.Float} (hvalues : values ≠ [])
    (hfinite : ∀ x ∈ values, x.Finite) {m : ℚ} (hm : ∀ x ∈ values, |x.value| ≤ m)
    (hroom : m + roundoff m < Py.Float.overflow) {rank : ℚ} {r : Py.Float}
    (hr : Py.Float.Nearest (beforeRounding (lineOf values hvalues) rank) r) :
    r.Finite ∧ r.value = Py.Float.rounded (beforeRounding (lineOf values hvalues) rank) := by
  have hline := lerp_lineOf_mem_Icc hvalues (fun x hx => abs_le.mp (hm x hx)) rank
  have hoff := abs_le.mp (abs_percentile_sub_le hvalues hfinite hm rank)
  refine hr.finite_of_lt (lt_of_le_of_lt (abs_le.mpr ?_) hroom)
  constructor <;> linarith

/-- **Percentiles lie on the list, go up with `q`, and do not see the order of the list**, the first
two up to the rounding of one interpolation. No subscript is off the list. The result is a finite
double, unless the largest value is that close to the overflow threshold; and it is a value of the
list where the rank is whole. -/
theorem percentile_spec {values : List Py.Float} (hvalues : values ≠ [])
    (hlength : values.length ≤ 2 ^ 53 + 1) (hfinite : ∀ x ∈ values, x.Finite) {q : Py.Float}
    (hq : q.Finite) (h0 : 0 ≤ q.value) (h1 : q.value ≤ 1) {m : ℚ}
    (hm : ∀ x ∈ values, |x.value| ≤ m) :
    (0 ≤ ⌊(percentileRank values.length q).value⌋ ∧
        ⌈(percentileRank values.length q).value⌉ < values.length) ∧
      ∃ r, percentile values q = .ok (some r) ∧
        (m + roundoff m < Py.Float.overflow → r.Finite) ∧
        (r.Finite → ∃ least ∈ values, ∃ greatest ∈ values,
          (∀ x ∈ values, least.value ≤ x.value ∧ x.value ≤ greatest.value) ∧
            least.value - roundoff m ≤ r.value ∧ r.value ≤ greatest.value + roundoff m) ∧
        (⌊(percentileRank values.length q).value⌋ = ⌈(percentileRank values.length q).value⌉ →
          r ∈ values) ∧
        (∀ q' : Py.Float, q'.Finite → q.value ≤ q'.value → q'.value ≤ 1 →
          ∃ r', percentile values q' = .ok (some r') ∧
            (r.Finite → r'.Finite → r.value ≤ r'.value + 2 * roundoff m)) ∧
        ∀ other, values.Perm other →
          ∃ r', percentile other q = .ok (some r') ∧ r.eq r' = true := by
  have hpos := List.length_pos_iff.mpr hvalues
  have herror := abs_percentile_sub_le hvalues hfinite hm
  obtain ⟨r, hr, hnearest, hwhole⟩ := percentile_nearest hvalues hlength hfinite hq h0 h1
  refine ⟨percentileRank_bounds hpos hlength hq h0 h1, r, hr, ?_, ?_, hwhole, ?_, ?_⟩
  · intro hroom
    exact (finite_of_room hvalues hfinite hm hroom hnearest).1
  · intro hr'
    obtain ⟨least, hleast, hleastLine⟩ := exists_lineOf hvalues 0
    obtain ⟨greatest, hgreatest, hgreatestLine⟩ := exists_lineOf hvalues values.length
    have hbounds : ∀ x ∈ values, least.value ≤ x.value ∧ x.value ≤ greatest.value := by
      intro x hx
      rw [hleastLine, hgreatestLine]
      exact lineOf_bounds hvalues hx
    obtain ⟨hlow, hhigh⟩ :=
      lerp_lineOf_mem_Icc hvalues hbounds (percentileRank values.length q).value
    have hoff := abs_le.mp (herror (percentileRank values.length q).value)
    refine ⟨least, hleast, greatest, hgreatest, hbounds, ?_⟩
    rw [hnearest.value_of_finite hr']
    constructor <;> linarith
  · intro q' hq' hle h1'
    obtain ⟨r', hr', hnearest', -⟩ :=
      percentile_nearest hvalues hlength hfinite hq' (h0.trans hle) h1'
    refine ⟨r', hr', fun hfin hfin' => ?_⟩
    have hexact := Interpolation.lerp_mono (lineOf_mono hvalues)
      (percentileRank_le hlength hq hq' h0 hle h1')
    have hoff := abs_le.mp (herror (percentileRank values.length q).value)
    have hoff' := abs_le.mp (herror (percentileRank values.length q').value)
    rw [hnearest.value_of_finite hfin, hnearest'.value_of_finite hfin']
    linarith
  · intro other hperm
    have hother : other ≠ [] := fun hnil => hvalues (List.perm_nil.mp (hnil ▸ hperm))
    have hfinite' : ∀ x ∈ other, x.Finite := fun x hx => hfinite x (hperm.mem_iff.mpr hx)
    obtain ⟨r', hr', hnearest', -⟩ :=
      percentile_nearest hother (hperm.length_eq ▸ hlength) hfinite' hq h0 h1
    have hline : lineOf other hother = lineOf values hvalues := by
      funext i
      simp only [clamped, orderedValues_perm hperm]
    rw [hline, ← hperm.length_eq] at hnearest'
    exact ⟨r', hr', hnearest.unique hnearest'⟩

/-- Five, one and two, at three quarters, and then at the end. -/
theorem percentile_spec_three :
    ∃ r r', percentile [.ofNat 5, .ofNat 1, .ofNat 2] (.ofRatio 3 4) = .ok (some r) ∧
      percentile [.ofNat 5, .ofNat 1, .ofNat 2] (.ofNat 1) = .ok (some r') ∧
      r.value ≤ r'.value + 2 * roundoff 5 ∧
      ∃ r'', percentile [.ofNat 1, .ofNat 5, .ofNat 2] (.ofRatio 3 4) = .ok (some r'') ∧
        r.eq r'' = true := by
  have hroom : 5 + roundoff 5 < Py.Float.overflow := room_of_le (by norm_num)
  obtain ⟨-, r, hr, hfinite, -, -, hmono, hperm⟩ :=
    @percentile_spec [.ofNat 5, .ofNat 1, .ofNat 2] (by decide) (by decide) (by decide +kernel)
      (.ofRatio 3 4) (by decide +kernel) (by decide +kernel) (by decide +kernel) 5 (by decide +kernel)
  obtain ⟨-, r', hr', hfinite', -⟩ :=
    @percentile_spec [.ofNat 5, .ofNat 1, .ofNat 2] (by decide) (by decide) (by decide +kernel)
      (.ofNat 1) (by decide +kernel) (by decide +kernel) (by decide +kernel) 5 (by decide +kernel)
  obtain ⟨r₁, hr₁, hle⟩ := hmono (.ofNat 1) (by decide +kernel) (by decide +kernel) (by decide +kernel)
  rw [hr'] at hr₁
  obtain rfl := Option.some.inj (Except.ok.inj hr₁)
  exact ⟨r, r', hr, hr', hle (hfinite hroom) (hfinite' hroom),
    hperm [.ofNat 1, .ofNat 5, .ofNat 2] (List.Perm.swap _ _ _)⟩

def three : Py.Float := .ofNat 3

theorem item_of_length_le {α : Type} {values : List α} {i : ℤ} (h : (values.length : ℤ) ≤ i) :
    item values i = .error .indexError := by
  have hnonneg : ¬i < 0 := by omega
  have hnone : values[i.toNat]? = none := List.getElem?_eq_none (by omega)
  simp only [item, if_neg hnonneg, hnone]
  rfl

/-- **With doubles the percentile leaves the list.** Of 3.0 twice, it is the next double above at 0.2
and the next below at 0.01, and as it is 3.0 at 0.25, it goes down in between. And of a list whose
length is no double, the last place is not found. -/
theorem percentile_off_the_list :
    (percentile [three, three] (.ofRatio 1 5) = .ok (some (.ofRatio (3 * 2 ^ 51 + 1) (2 ^ 51))) ∧
        three.lt (.ofRatio (3 * 2 ^ 51 + 1) (2 ^ 51)) = true) ∧
      (percentile [three, three] (.ofRatio 1 100) = .ok (some (.ofRatio (3 * 2 ^ 51 - 1) (2 ^ 51))) ∧
        (Py.Float.ofRatio (3 * 2 ^ 51 - 1) (2 ^ 51)).lt three = true) ∧
      percentile [three, three] (.ofRatio 1 4) = .ok (some three) ∧
      percentile (List.replicate (2 ^ 53 + 4) three) (.ofNat 1) = .error .indexError := by
  refine ⟨⟨by decide +kernel, by decide +kernel⟩, ⟨by decide +kernel, by decide +kernel⟩,
    by decide +kernel, ?_⟩
  have hlength : (List.replicate (2 ^ 53 + 4) three).length = 2 ^ 53 + 4 := List.length_replicate
  generalize List.replicate (2 ^ 53 + 4) three = values at hlength
  have hvalues : values ≠ [] := List.ne_nil_of_length_pos (by omega)
  have hrank : percentileRank (2 ^ 53 + 4) (.ofNat 1) = .ofNat (2 ^ 53 + 4) := by decide +kernel
  have hfloor : (Py.Float.ofNat (2 ^ 53 + 4)).floor? = some (2 ^ 53 + 4) := by decide +kernel
  have hceil : (Py.Float.ofNat (2 ^ 53 + 4)).ceil? = some (2 ^ 53 + 4) := by decide +kernel
  have hitem : item (sorted values) (2 ^ 53 + 4) = .error .indexError :=
    item_of_length_le (by rw [length_sorted, hlength]; norm_num)
  unfold percentile
  rw [if_neg hvalues]
  simp only [length_sorted, hlength]
  rw [if_neg (by norm_num), hrank, wholeOf, wholeOf, hfloor, hceil]
  simp only [pure_bind, if_true, hitem]
  rfl

/-! ## Uses of a percentile -/

/-- The percentile of finite values with room to the threshold is a finite double, which is beside
the exact one. -/
theorem percentile_ok {values : List Py.Float} (hvalues : values ≠ [])
    (hlength : values.length ≤ 2 ^ 53 + 1) (hfinite : ∀ x ∈ values, x.Finite) {q : Py.Float}
    (hq : q.Finite) (h0 : 0 ≤ q.value) (h1 : q.value ≤ 1) {m : ℚ}
    (hm : ∀ x ∈ values, |x.value| ≤ m) (hroom : m + roundoff m < Py.Float.overflow) :
    ∃ r, percentile values q = .ok (some r) ∧ r.Finite ∧
      r.value = Py.Float.rounded
        (beforeRounding (lineOf values hvalues) (percentileRank values.length q).value) ∧
      |r.value - Interpolation.lerp (lineOf values hvalues) (percentileRank values.length q).value| ≤
        roundoff m := by
  obtain ⟨r, hr, hnearest, -⟩ := percentile_nearest hvalues hlength hfinite hq h0 h1
  obtain ⟨hfin, hvalue⟩ := finite_of_room hvalues hfinite hm hroom hnearest
  refine ⟨r, hr, hfin, hvalue, ?_⟩
  rw [hvalue]
  exact abs_percentile_sub_le hvalues hfinite hm _

/-- Of zeros, each percentile is a zero. -/
theorem percentile_of_zeros {values : List Py.Float} (hvalues : values ≠ [])
    (hlength : values.length ≤ 2 ^ 53 + 1) (hzeros : ∀ x ∈ values, x.IsZero) {q : Py.Float}
    (hq : q.Finite) (h0 : 0 ≤ q.value) (h1 : q.value ≤ 1) :
    ∃ r, percentile values q = .ok (some r) ∧ r.IsZero := by
  have hzero : ∀ x ∈ values, x.Finite ∧ x.value = 0 := fun x hx =>
    Py.Float.isZero_iff.mp (hzeros x hx)
  obtain ⟨r, hr, hfinite, hvalue, -⟩ := percentile_ok (m := 0) hvalues hlength
    (fun x hx => (hzero x hx).1) hq h0 h1 (fun x hx => by rw [(hzero x hx).2, abs_zero])
    (room_of_le (by norm_num))
  have hline : ∀ i, lineOf values hvalues i = 0 := by
    intro i
    obtain ⟨x, hx, hplace⟩ := exists_lineOf hvalues i
    rw [← hplace, (hzero x hx).2]
  refine ⟨r, hr, Py.Float.isZero_iff.mpr ⟨hfinite, ?_⟩⟩
  rw [hvalue, beforeRounding, hline, hline, Rounding.sumOfProducts, zero_mul, zero_mul,
    Py.Float.rounds.zero, add_zero, ite_self, Py.Float.rounds.zero]

theorem beforeRounding_le {f g : ℤ → ℚ} (h : ∀ i, f i ≤ g i) (rank : ℚ) :
    beforeRounding f rank ≤ beforeRounding g rank := by
  unfold beforeRounding
  split
  · exact h _
  · apply Py.Float.rounds.sumOfProducts_le (h _) (h _)
    · rw [Int.self_sub_floor]
      exact Int.fract_nonneg _
    · rw [Int.self_sub_floor]
      exact (Int.fract_lt_one _).le

/-- Percentiles keep lists below each other that are below each other element by element. Here the
rounding takes nothing away: both lists are computed with in the same steps, and each is monotone. -/
theorem percentile_le_of_forall₂ {values other : List Py.Float}
    (h : List.Forall₂ (fun x y => x.value ≤ y.value) values other) (hvalues : values ≠ [])
    (hlength : values.length ≤ 2 ^ 53 + 1) {q : Py.Float} (hq : q.Finite) (h0 : 0 ≤ q.value)
    (h1 : q.value ≤ 1) {m : ℚ} (hroom : m + roundoff m < Py.Float.overflow)
    (hbelow : ∀ x ∈ values, x.Finite ∧ |x.value| ≤ m) (habove : ∀ x ∈ other, x.Finite ∧ |x.value| ≤ m) :
    ∃ r r', percentile values q = .ok (some r) ∧ percentile other q = .ok (some r') ∧
      r.Finite ∧ r'.Finite ∧ r.value ≤ r'.value := by
  have hsame := h.length_eq
  have hother : other ≠ [] := by
    rw [← List.length_pos_iff, ← hsame]
    exact List.length_pos_iff.mpr hvalues
  obtain ⟨r, hr, hfinite, hvalue, -⟩ := percentile_ok hvalues hlength (fun x hx => (hbelow x hx).1) hq h0
    h1 (fun x hx => (hbelow x hx).2) hroom
  obtain ⟨r', hr', hfinite', hvalue', -⟩ := percentile_ok hother (hsame ▸ hlength)
    (fun x hx => (habove x hx).1) hq h0 h1 (fun x hx => (habove x hx).2) hroom
  refine ⟨r, r', hr, hr', hfinite, hfinite', ?_⟩
  rw [hvalue, hvalue', ← hsame]
  refine Py.Float.rounds.mono (beforeRounding_le (fun i => ?_) _)
  have hmap : List.Forall₂ (· ≤ ·) (values.map Py.Float.value) (other.map Py.Float.value) := by
    rw [List.forall₂_map_left_iff, List.forall₂_map_right_iff]
    exact h
  simp only [lineOf, clamped, length_orderedValues, ← hsame]
  exact OrderStatistics.sorted_le_of_forall₂ hmap _ _

end Ml
end SecureMail
