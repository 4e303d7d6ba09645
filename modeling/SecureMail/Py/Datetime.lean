import SecureMail.Py.Float
import Mathlib.Tactic.Linarith

/-!
# `datetime` and `date`

A `datetime` is a wall-clock reading, in microseconds from the first instant of year 1, with the
offset from UTC it was taken at if it is aware; a `date` is the number of its day from the same
origin. Both are confined to the years 1 to 9999, and `astimezone` raises where the shifted reading
leaves them.

The calendar does not occur. A reading is compared, shifted and cut, and all of that is arithmetic on
one number; months and leap years would only be needed to print it. A naive reading and an aware one
are values of one type, as in Python, where comparing the two raises: that is a case of the
comparison, and more than one property turns on it.
-/

namespace SecureMail
namespace Py

def microsPerDay : Int := 86400000000

/-- The days of the years 1 to 9999. -/
def daysInRange : Int := 3652059

structure Datetime where
  micros : Int
  offset : Option Int
  inRange : 0 ≤ micros ∧ micros < daysInRange * microsPerDay
  deriving DecidableEq

abbrev Date := Int

/-- `t.date()`. -/
def Datetime.date (t : Datetime) : Date := t.micros / microsPerDay

/-- `t.replace(tzinfo=UTC)` when naive, `t.astimezone(UTC)` when aware; `none` on `OverflowError`. -/
def Datetime.asUtc? (t : Datetime) : Option Datetime :=
  match t.offset with
  | none => some { t with offset := some 0 }
  | some o =>
      if h : 0 ≤ t.micros - o ∧ t.micros - o < daysInRange * microsPerDay then
        some ⟨t.micros - o, some 0, h⟩
      else none

/-- The instant of an aware reading; the reading itself where there is no offset. -/
def Datetime.instant (t : Datetime) : Int := t.micros - t.offset.getD 0

/-- `a < b`; `none` on the `TypeError` of a naive and an aware reading. -/
def Datetime.lt? (a b : Datetime) : Option Bool :=
  if a.offset.isSome = b.offset.isSome then some (decide (a.instant < b.instant)) else none

theorem Datetime.lt?_isSome {a b : Datetime} :
    (a.lt? b).isSome = true ↔ a.offset.isSome = b.offset.isSome := by
  unfold Datetime.lt?
  by_cases h : a.offset.isSome = b.offset.isSome <;> simp [h]

/-! ## POSIX time stamps -/

/-- What `datetime.fromtimestamp` raises: `ValueError` for a NaN and for a year it has no date in,
`OverflowError` past a 64-bit count of seconds, `OSError` past a 32-bit year. -/
inductive TimestampError where
  | value
  | overflow
  | os
  deriving DecidableEq, Repr

/-- The microseconds from the first instant of year 1 to the epoch. -/
def epochMicros : Int := 62135596800000000

/-- The seconds of the first and the last instant `gmtime` has a year for. -/
def gmtimeFirst : Int := -67768040609740800
def gmtimeLast : Int := 67768036191676799

/-- The microseconds of a fraction of a second: the product is rounded to a double, and that to an
integer. -/
def fractionMicros (units : Nat) : Nat :=
  match Float.nearest false (units * 1000000) 1 with
  | .fin _ mag => roundHalfEven mag.units oneInUnits
  | _ => 0

/-- The microseconds of a finite time stamp. -/
def posixMicros (neg : Bool) (mag : Magnitude) : Int :=
  let distance := mag.units / oneInUnits * 1000000 + fractionMicros (mag.units % oneInUnits)
  if neg then -(distance : Int) else distance

/-- The UTC reading of a count of microseconds from the epoch. -/
def Datetime.ofPosixMicros (micros : Int) : Except TimestampError Datetime :=
  if micros / 1000000 < -2 ^ 63 ∨ 2 ^ 63 ≤ micros / 1000000 then .error .overflow
  else if micros / 1000000 < gmtimeFirst ∨ gmtimeLast < micros / 1000000 then .error .os
  else if h : 0 ≤ micros + epochMicros ∧ micros + epochMicros < daysInRange * microsPerDay then
    .ok ⟨micros + epochMicros, some 0, h⟩
  else .error .value

/-- `datetime.fromtimestamp(x, tz=UTC)`. -/
def Datetime.fromTimestamp : Float → Except TimestampError Datetime
  | .nan => .error .value
  | .inf _ => .error .overflow
  | .fin neg mag => Datetime.ofPosixMicros (posixMicros neg mag)

/-- The time stamp has a date: it is finite, and in one of the years 1 to 9999. -/
def Float.Dated (x : Float) : Prop :=
  ∃ neg mag, x = .fin neg mag ∧ 0 ≤ posixMicros neg mag + epochMicros ∧
    posixMicros neg mag + epochMicros < daysInRange * microsPerDay

/-- The time stamp has a year, be it one a date can have or not; or it is no number at all. -/
def Float.HasYear (x : Float) : Prop :=
  x = .nan ∨ ∃ neg mag, x = .fin neg mag ∧ gmtimeFirst ≤ posixMicros neg mag / 1000000 ∧
    posixMicros neg mag / 1000000 ≤ gmtimeLast

theorem Datetime.fromTimestamp_eq_ok_iff {x : Float} :
    (∃ t, Datetime.fromTimestamp x = .ok t) ↔ x.Dated := by
  cases x with
  | nan => simp [Datetime.fromTimestamp, Float.Dated]
  | inf neg => simp [Datetime.fromTimestamp, Float.Dated]
  | fin neg mag =>
    simp only [Datetime.fromTimestamp, Float.Dated, Datetime.ofPosixMicros, Float.fin.injEq]
    constructor
    · rintro ⟨t, h⟩
      split at h
      · cases h
      split at h
      · cases h
      split at h
      · rename_i hrange
        exact ⟨neg, mag, ⟨rfl, rfl⟩, hrange⟩
      · cases h
    · rintro ⟨neg', mag', ⟨rfl, rfl⟩, hrange⟩
      -- A date is far inside what `gmtime` and a 64-bit count reach.
      have hoverflow : ¬ (posixMicros neg mag / 1000000 < -2 ^ 63 ∨
          2 ^ 63 ≤ posixMicros neg mag / 1000000) := by
        simp only [epochMicros, daysInRange, microsPerDay] at hrange
        omega
      have hyear : ¬ (posixMicros neg mag / 1000000 < gmtimeFirst ∨
          gmtimeLast < posixMicros neg mag / 1000000) := by
        simp only [epochMicros, daysInRange, microsPerDay] at hrange
        simp only [gmtimeFirst, gmtimeLast]
        omega
      rw [if_neg hoverflow, if_neg hyear, dif_pos hrange]
      exact ⟨_, rfl⟩

/-- Short of a date the error is a `ValueError` as long as there is a year. -/
theorem Datetime.fromTimestamp_value_iff {x : Float} :
    (Datetime.fromTimestamp x = .error .overflow ∨ Datetime.fromTimestamp x = .error .os) ↔
      ¬ x.HasYear := by
  cases x with
  | nan => simp [Datetime.fromTimestamp, Float.HasYear]
  | inf neg => simp [Datetime.fromTimestamp, Float.HasYear]
  | fin neg mag =>
    have hyears : (Float.fin neg mag).HasYear ↔ gmtimeFirst ≤ posixMicros neg mag / 1000000 ∧
        posixMicros neg mag / 1000000 ≤ gmtimeLast := by
      simp [Float.HasYear]
    rw [hyears]
    simp only [Datetime.fromTimestamp, Datetime.ofPosixMicros]
    by_cases hoverflow : posixMicros neg mag / 1000000 < -2 ^ 63 ∨
        2 ^ 63 ≤ posixMicros neg mag / 1000000
    · rw [if_pos hoverflow]
      simp only [gmtimeFirst, gmtimeLast, true_or, true_iff]
      omega
    rw [if_neg hoverflow]
    by_cases hyear : posixMicros neg mag / 1000000 < gmtimeFirst ∨
        gmtimeLast < posixMicros neg mag / 1000000
    · rw [if_pos hyear]
      simp only [or_true, true_iff]
      omega
    · rw [if_neg hyear]
      have hnot : gmtimeFirst ≤ posixMicros neg mag / 1000000 ∧
          posixMicros neg mag / 1000000 ≤ gmtimeLast := by omega
      split <;> simp [hnot]

theorem Datetime.ofPosixMicros_offset {micros : Int} {t : Datetime}
    (h : Datetime.ofPosixMicros micros = .ok t) : t.offset = some 0 := by
  unfold Datetime.ofPosixMicros at h
  split at h
  · cases h
  split at h
  · cases h
  split at h
  · cases h
    rfl
  · cases h

/-- A time stamp is read in UTC. -/
theorem Datetime.fromTimestamp_offset {x : Float} {t : Datetime}
    (h : Datetime.fromTimestamp x = .ok t) : t.offset = some 0 := by
  cases x with
  | nan => cases h
  | inf neg => cases h
  | fin neg mag => exact Datetime.ofPosixMicros_offset h

end Py
end SecureMail
