import SecureMail.Py.Float

/-!
# Python values

A row of an analyzer log is whatever `json.loads` returned, and the normalizers take every field of
it by `isinstance`. So the model keeps the seven shapes a value can have, and the conversions keep
the inputs on which Python raises: each returns `none` exactly there.

A boolean is an integer to `isinstance` and not to this type, and every reader that takes an integer
has to say what it does with `True`. A number is an integer or a double as it was written; an integer
has no bound, and that of a double is met only where one is made of it.
-/

namespace SecureMail
namespace Py

inductive Val where
  | none
  | bool (b : Bool)
  | int (n : Int)
  | float (x : Float)
  | str (s : String)
  | list (xs : List Val)
  | dict (kvs : List (String × Val))

instance : Inhabited Val := ⟨.none⟩

/-- `d.get(key)` on the items of a mapping. -/
def lookup (kvs : List (String × Val)) (key : String) : Val := (kvs.lookup key).getD .none

/-! ## Equality

`==` compares a number with a number whatever its type, and a `bool` is a number. -/

/-- The number a value is, when it is one. -/
def Val.number? : Val → Option (Int ⊕ Float)
  | .bool b => some (.inl (if b then 1 else 0))
  | .int n => some (.inl n)
  | .float x => some (.inr x)
  | _ => Option.none

def numberEq : Int ⊕ Float → Int ⊕ Float → Bool
  | .inl a, .inl b => a == b
  | .inr x, .inr y => x.eq y
  | .inl a, .inr x | .inr x, .inl a => x.toInt? == some a

mutual

/-- `a == b`. -/
def Val.eq : Val → Val → Bool
  | .none, .none => true
  | .str s, .str t => s == t
  | .list xs, .list ys => Val.eqList xs ys
  | .dict kvs, .dict kvs' => kvs.length == kvs'.length && Val.eqItems kvs kvs'
  | a, b =>
      match a.number?, b.number? with
      | some x, some y => numberEq x y
      | _, _ => false

def Val.eqList : List Val → List Val → Bool
  | [], [] => true
  | x :: xs, y :: ys => Val.eq x y && Val.eqList xs ys
  | _, _ => false

/-- Every item of the first mapping stands in the second. -/
def Val.eqItems : List (String × Val) → List (String × Val) → Bool
  | [], _ => true
  | (k, v) :: rest, kvs' =>
      (match kvs'.lookup k with
        | some w => Val.eq v w
        | Option.none => false) && Val.eqItems rest kvs'

end

/-- A value with a hash: `x in {..}` raises `TypeError` on any other. -/
def Val.hashable : Val → Bool
  | .list _ | .dict _ => false
  | _ => true

/-! ## Conversions to `int` -/

/-- The interpreter refuses a decimal literal of more digits than this. -/
def maxStrDigits : Nat := 4300

/-- `int(s)`. There is a limit on the number of digits, beyond which the conversion is refused. -/
def parseInt (s : String) : Option Int :=
  (dropUnderscores isAsciiDigit ' ' (numeralText s)).bind fun l =>
    let (neg, ds) := readSign l
    if ds ≠ [] ∧ ds.all isAsciiDigit ∧ ds.length ≤ maxStrDigits then
      some (if neg then -(digitsValue ds : Int) else digitsValue ds)
    else Option.none

def hexDigit? (c : Char) : Option Nat :=
  if isAsciiDigit c then some (c.toNat - 48)
  else if 97 ≤ c.toNat ∧ c.toNat ≤ 102 then some (c.toNat - 87)
  else if 65 ≤ c.toNat ∧ c.toNat ≤ 70 then some (c.toNat - 55)
  else Option.none

/-- The optional `0x`, and the underscore that may follow it. -/
def dropHexPrefix : List Char → List Char
  | '0' :: x :: '_' :: rest => if x = 'x' ∨ x = 'X' then rest else '0' :: x :: '_' :: rest
  | '0' :: x :: rest => if x = 'x' ∨ x = 'X' then rest else '0' :: x :: rest
  | l => l

/-- `int(s, 16)`. The limit on digits does not apply to a base that is a power of two. -/
def parseHex (s : String) : Option Int :=
  let (neg, body) := readSign (numeralText s)
  (dropUnderscores (fun c => (hexDigit? c).isSome) ' ' (dropHexPrefix body)).bind fun ds =>
    if ds = [] then Option.none
    else (ds.mapM hexDigit?).map fun values =>
      let n : Nat := values.foldl (fun n d => 16 * n + d) 0
      if neg then -(n : Int) else n

end Py
end SecureMail
