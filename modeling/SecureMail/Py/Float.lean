import SecureMail.Py.Str
import Mathlib.Data.Nat.Log
import Mathlib.Tactic.Ring
import Mathlib.Tactic.Linarith

/-!
# `float`

Time stamps are IEEE binary64, and two of the properties the normalizers rest on are about the
rounding of a difference, so a float is neither a rational nor an opaque token here. Every finite
double is an integer number of *units* of `2^-1074`, and the integers that occur are exactly those
of the form `m * 2^k` with fewer than 54 significant bits. Comparison is comparison of units;
subtraction is integer subtraction followed by one rounding; and a decimal literal is one rounding
of a quotient.

The two zeros are one value: nothing below divides by a float or prints one.
-/

namespace SecureMail
namespace Py

/-- `n` units are a double: at most 53 significant bits, below the overflow threshold. -/
def IsDouble (n : Nat) : Prop := ∃ m k, n = m * 2 ^ k ∧ m ≤ 2 ^ 53 ∧ n < 2 ^ 2098

/-- The magnitude of a finite double, in units of `2^-1074`. -/
structure Magnitude where
  units : Nat
  isDouble : IsDouble units
  deriving DecidableEq

inductive Float where
  | nan
  | inf (neg : Bool)
  | fin (neg : Bool) (mag : Magnitude)
  deriving DecidableEq

/-! ## Rounding -/

/-- `a / b` to the nearest integer, ties to even. -/
def roundHalfEven (a b : Nat) : Nat :=
  if 2 * (a % b) < b ∨ 2 * (a % b) = b ∧ a / b % 2 = 0 then a / b else a / b + 1

/-- The power of two below which the 53 bits of a quotient do not reach. -/
def roundExponent (a b : Nat) : Nat := Nat.log2 (a / b) - 52

/-- `a / b` units, rounded to the nearest double. -/
def roundUnits (a b : Nat) : Nat :=
  roundHalfEven a (b * 2 ^ roundExponent a b) * 2 ^ roundExponent a b

theorem roundHalfEven_le (a b : Nat) : roundHalfEven a b ≤ a / b + 1 := by
  unfold roundHalfEven
  split <;> omega

theorem div_lt_of_roundExponent (a b : Nat) :
    a / (b * 2 ^ roundExponent a b) < 2 ^ 53 := by
  rw [← Nat.div_div_eq_div_mul, Nat.div_lt_iff_lt_mul (Nat.two_pow_pos _), ← pow_add]
  by_cases hz : a / b = 0
  · rw [hz]; exact Nat.two_pow_pos _
  · calc a / b < 2 ^ (Nat.log2 (a / b) + 1) := Nat.lt_log2_self
      _ ≤ 2 ^ (53 + roundExponent a b) :=
        Nat.pow_le_pow_right (by norm_num) (by unfold roundExponent; omega)

theorem isDouble_roundUnits {a b : Nat} (h : roundUnits a b < 2 ^ 2098) :
    IsDouble (roundUnits a b) :=
  ⟨_, _, rfl, Nat.le_trans (roundHalfEven_le _ _) (div_lt_of_roundExponent a b), h⟩

/-- The double nearest to `± a / b` units; past the largest one, infinity. -/
def Float.nearest (neg : Bool) (a b : Nat) : Float :=
  if h : roundUnits a b < 2 ^ 2098 then .fin neg ⟨_, isDouble_roundUnits h⟩ else .inf neg

/-! ## Arithmetic and comparison -/

/-- The signed number of units of a finite double. -/
def Float.units? : Float → Option Int
  | .fin neg mag => some (if neg then -(mag.units : Int) else mag.units)
  | _ => none

def Float.ofUnits (n : Int) : Float := .nearest (decide (n < 0)) n.natAbs 1

/-- `x - y`. It is exact on the units of the two, and is rounded once. -/
def Float.sub : Float → Float → Float
  | .nan, _ | _, .nan => .nan
  | .inf s, .inf t => if s = t then .nan else .inf s
  | .inf s, .fin .. => .inf s
  | .fin .., .inf t => .inf !t
  | x, y => .ofUnits (x.units?.getD 0 - y.units?.getD 0)

/-- `abs(x)`. -/
def Float.abs : Float → Float
  | .nan => .nan
  | .inf _ => .inf false
  | .fin _ mag => .fin false mag

/-- `x < y`, false as soon as either side is not a number. -/
def Float.lt : Float → Float → Bool
  | .nan, _ | _, .nan => false
  | .inf s, .inf t => s && !t
  | .inf s, .fin .. => s
  | .fin .., .inf t => !t
  | x, y => decide (x.units?.getD 0 < y.units?.getD 0)

/-- `x == y`. -/
def Float.eq : Float → Float → Bool
  | .nan, _ | _, .nan => false
  | .inf s, .inf t => s == t
  | .inf _, .fin .. | .fin .., .inf _ => false
  | x, y => x.units?.getD 0 == y.units?.getD 0

/-- `x <= y`. -/
def Float.le (x y : Float) : Bool := x.lt y || x.eq y

/-- How many units one is. -/
def oneInUnits : Nat := 2 ^ 1074

/-- `x.is_integer()`, and then `int(x)`. A double that is no integer has none, and neither has an
infinity. -/
def Float.toInt? : Float → Option Int
  | .fin neg mag =>
      if mag.units % oneInUnits = 0 then
        some (if neg then -((mag.units / oneInUnits : Nat) : Int) else (mag.units / oneInUnits : Nat))
      else none
  | _ => none

/-- `float(n)`, for an `int`: `none` where Python raises `OverflowError`. -/
def Float.ofInt? (n : Int) : Option Float :=
  match Float.nearest (decide (n < 0)) (n.natAbs * oneInUnits) 1 with
  | .inf _ => none
  | x => some x

/-- `float(n)` for an integer that is known not to overflow. -/
def Float.ofNat (n : Nat) : Float := .nearest false (n * oneInUnits) 1

/-! ## Reading a literal

`int(s)` and `float(s)` first read a digit of any script as the ASCII digit of its value and a
space as a blank, then drop the blanks at either end. A single underscore may stand between two
digits. -/

/-- A digit or a space of any script, as ASCII; any other character above U+007F as `?`. -/
def asciiNumeral (c : Char) : Char :=
  if c.toNat < 128 then c
  else if isSpaceChar c then ' '
  else match decimalValue c with
    | some d => Char.ofNat (48 + d)
    | none => '?'

def isAsciiSpace (c : Char) : Bool := 9 ≤ c.toNat && c.toNat ≤ 13 || c.toNat == 32

/-- The ASCII text a numeric literal is read from. -/
def numeralText (s : String) : List Char :=
  ((s.toList.map asciiNumeral).dropWhile isAsciiSpace).rdropWhile isAsciiSpace

def isAsciiDigit (c : Char) : Bool := 48 ≤ c.toNat && c.toNat ≤ 57

/-- Underscores removed; `none` where one does not stand between two digits. -/
def dropUnderscores (digit : Char → Bool) : Char → List Char → Option (List Char)
  | prev, [] => if prev = '_' then none else some []
  | prev, c :: rest =>
      if c = '_' then
        if digit prev then dropUnderscores digit c rest else none
      else if prev = '_' ∧ !digit c then none
      else (dropUnderscores digit c rest).map (c :: ·)

def digitsValue (l : List Char) : Nat := l.foldl (fun n c => 10 * n + (c.toNat - 48)) 0

/-- An optional sign, then the rest. -/
def readSign : List Char → Bool × List Char
  | '-' :: rest => (true, rest)
  | '+' :: rest => (false, rest)
  | l => (false, l)

/-- The exponent part: nothing, or `e`, a sign and digits. -/
def readExponent : List Char → Option Int
  | [] => some 0
  | c :: rest =>
      if c = 'e' ∨ c = 'E' then
        let (neg, ds) := readSign rest
        if ds ≠ [] ∧ ds.all isAsciiDigit then
          some (if neg then -(digitsValue ds : Int) else digitsValue ds)
        else none
      else none

/-- Digits, an optional fraction, an optional exponent. The value is rounded once, from the exact
quotient, however many digits there are. -/
def readDecimal (neg : Bool) (l : List Char) : Option Float :=
  let whole := l.takeWhile isAsciiDigit
  let rest := l.dropWhile isAsciiDigit
  let (frac, tail) :=
    match rest with
    | '.' :: r => (r.takeWhile isAsciiDigit, r.dropWhile isAsciiDigit)
    | r => ([], r)
  if whole ++ frac = [] then none
  else (readExponent tail).map fun (e : Int) =>
    let mantissa := digitsValue (whole ++ frac) * oneInUnits
    let shift := e - frac.length
    .nearest neg (mantissa * 10 ^ shift.toNat) (10 ^ (-shift).toNat)

/-- `float(s)`: `none` where Python raises `ValueError`. Underscores may stand between digits, as in
a literal of the language. -/
def parseFloat (s : String) : Option Float :=
  (dropUnderscores isAsciiDigit ' ' (numeralText s)).bind fun l =>
    let (neg, body) := readSign l
    let word := lower (String.ofList body)
    if word = "nan" then some .nan
    else if word = "inf" ∨ word = "infinity" then some (.inf neg)
    else readDecimal neg body

end Py
end SecureMail
