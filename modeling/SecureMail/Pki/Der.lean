import SecureMail.Evidence.Run
import SecureMail.Lib.Fallible
import Mathlib.Data.UInt

/-!
# `der_nesting_depth`

How deep the constructed types of a DER payload nest, before anything else looks at it. The walk
reads a header, descends into a constructed value and goes on behind it; a header whose value does
not lie within the enclosing one ends the walk with a depth above the limit.

Reading past the end of the payload would be an `IndexError`. The walk stays within the payload
because every value it enters lies within the one before, which a `Header` carries.

The walk is a loop that calls itself: the loop goes along the values at one depth, the call goes
into one. Here both are calls, which is why the depth that was reached so far is an argument. That
it ends is read off the cursor, which every header moves on, so the measure is the bytes that are
left. What the walk accepts is compared with the grammar in `Pki.Nesting`; here are the readers, in
the words of the source, with their errors.
-/

namespace SecureMail
namespace Pki

/-- `data[i]`. -/
def byteAt (data : List UInt8) (i : Nat) : Result Nat :=
  match data[i]? with
  | some byte => pure byte.toNat
  | none => throw .indexError

/-- `int.from_bytes(data[start : start + n], "big")`. -/
def bigEndian (data : List UInt8) (start n : Nat) : Nat :=
  ((data.drop start).take n).foldl (fun value byte => 256 * value + byte.toNat) 0

/-- The bytes of a long tag: past every byte with the top bit, and the one after. -/
def skipTag (data : List UInt8) (stop cursor : Nat) : Result { after : Nat // cursor < after } :=
  if cursor < stop then do
    if 128 ≤ (← byteAt data cursor) then
      let after ← skipTag data stop (cursor + 1)
      pure ⟨after.val, Nat.lt_of_succ_lt after.property⟩
    else pure ⟨cursor + 1, Nat.lt_succ_self cursor⟩
  else pure ⟨cursor + 1, Nat.lt_succ_self cursor⟩
termination_by stop - cursor

/-- A tag and a length read at `cursor`, of a value that lies behind them and before `stop`. -/
structure Header (cursor stop : Nat) where
  constructed : Bool
  valueStart : Nat
  valueEnd : Nat
  start_gt : cursor < valueStart
  start_le : valueStart ≤ valueEnd
  end_le : valueEnd ≤ stop

/-- The value behind a length, if it ends in time. -/
def Header.of (cursor stop tag valueStart length : Nat) (h : cursor < valueStart) :
    Option (Header cursor stop) :=
  if hend : valueStart + length ≤ stop then
    some ⟨tag / 32 % 2 = 1, valueStart, valueStart + length, h, Nat.le_add_right _ _, hend⟩
  else none

/-- The length at `cursor`, and the header it completes; `none` on a hostile length. -/
def readLength (data : List UInt8) (start stop tag cursor : Nat) (h : start < cursor) :
    Result (Option (Header start stop)) := do
  if stop ≤ cursor then pure none
  else
    let first ← byteAt data cursor
    if first = 128 then pure none
    else if 128 ≤ first then
      let lengthBytes := first - 128
      if lengthBytes = 0 ∨ 4 < lengthBytes ∨ stop < cursor + 1 + lengthBytes then pure none
      else
        pure (Header.of start stop tag (cursor + 1 + lengthBytes)
          (bigEndian data (cursor + 1) lengthBytes) (by omega))
    else pure (Header.of start stop tag (cursor + 1) first (by omega))

/-- What follows the tag at `cursor`. -/
def afterTag (data : List UInt8) (stop tag cursor : Nat) : Result { after : Nat // cursor < after } :=
  if tag % 32 = 31 then do
    let after ← skipTag data stop (cursor + 1)
    pure ⟨after.val, Nat.lt_of_succ_lt after.property⟩
  else pure ⟨cursor + 1, Nat.lt_succ_self cursor⟩

/-- The header at `cursor`. A header that is returned lies within the enclosing value, by its type.
-/
def readHeader (data : List UInt8) (stop cursor : Nat) : Result (Option (Header cursor stop)) := do
  if data.length ≤ cursor then pure none
  else
    let tag ← byteAt data cursor
    let after ← afterTag data stop tag cursor
    readLength data cursor stop tag after.val after.property

/-- The loop of `walk`, with the deepest level so far. -/
def walkFrom (data : List UInt8) (maxDepth stop depth : Nat) (cursor deepest : Nat) : Result Nat :=
  if cursor < stop then do
    match ← readHeader data stop cursor with
    | none => pure (maxDepth + 1)
    | some header =>
        if header.constructed then do
          let inner ←
            if maxDepth < depth + 1 then pure (depth + 1)
            else walkFrom data maxDepth header.valueEnd (depth + 1) header.valueStart (depth + 1)
          if maxDepth < max deepest inner then pure (max deepest inner)
          else walkFrom data maxDepth stop depth header.valueEnd (max deepest inner)
        else walkFrom data maxDepth stop depth header.valueEnd deepest
  else pure deepest
termination_by stop - cursor
decreasing_by
  all_goals
    have hstart := header.start_gt
    have hle := header.start_le
    have hend := header.end_le
    omega

def maxAsn1Depth : Nat := 16

/-- `der_nesting_depth`. -/
def derNestingDepth (data : List UInt8) (maxDepth : Nat := maxAsn1Depth) : Result Nat :=
  if data.isEmpty then pure 0 else walkFrom data maxDepth data.length 0 0 0

end Pki
end SecureMail
