import SecureMail.Py.Str

/-!
# `effective_strength_bits`

Comparable strengths of keys: a curve by its name, a modulus by the highest floor it reaches. RSA
and elliptic-curve sizes are looked up in different tables.

The tables are the lists of the source, in its order, and what is looked up in them is brought to
one spelling first. A curve that is not in the table is passed over, and the key is then judged by
its size. Where nothing is found there is no strength, and what that means is for the policy pack.
-/

namespace SecureMail
namespace Pki

open Py (strip upper lower)

def rsaModulusStrength : List (Int × Int) :=
  [(1024, 80), (2048, 112), (3072, 128), (4096, 152), (7680, 192), (15360, 256)]

def dsaParameterStrength : List (Int × Int) := rsaModulusStrength

def eccSizeStrength : List (Int × Int) :=
  [(160, 80), (224, 112), (256, 128), (384, 192), (521, 256)]

def curveStrength : List (String × Int) :=
  [("secp192r1", 80), ("prime192v1", 80), ("secp224r1", 112), ("secp256r1", 128),
   ("prime256v1", 128), ("p-256", 128), ("secp384r1", 192), ("p-384", 192), ("secp521r1", 256),
   ("p-521", 256), ("secp256k1", 128), ("sect163k1", 80), ("sect233k1", 112), ("sect283k1", 128),
   ("brainpoolp256r1", 128), ("brainpoolp384r1", 192), ("brainpoolp512r1", 256), ("x25519", 128),
   ("ed25519", 128), ("x448", 224), ("ed448", 224)]

def algorithmFixedStrength : List (String × Int) :=
  [("ED25519", 128), ("ED448", 224), ("X25519", 128), ("X448", 224)]

/-- `_floor_lookup`: the strength of the last threshold before the first one not reached. -/
def floorLookup (table : List (Int × Int)) (size : Int) : Option Int :=
  (table.takeWhile fun entry => entry.1 ≤ size).getLast?.map (·.2)

/-- The strength of a size, in the table of the algorithm. -/
def sizeStrength (token : String) (size : Int) : Option Int :=
  if ["RSA", "RSASSA", "RSAPSS"].contains token then floorLookup rsaModulusStrength size
  else if token = "DSA" then floorLookup dsaParameterStrength size
  else if ["ECDSA", "ECDH", "EC"].contains token then floorLookup eccSizeStrength size
  else none

/-- `effective_strength_bits`. An algorithm of fixed strength needs no size, a curve that is known
needs none either, and the rest is judged by size. -/
def effectiveStrengthBits (algorithm : Option String) (size : Option Int) (curve : Option String) :
    Option Int :=
  algorithm.bind fun algorithm =>
    let token := Py.removeChar '-' (upper (strip algorithm))
    match algorithmFixedStrength.lookup token with
    | some strength => some strength
    | none =>
        match curve.bind fun curve => curveStrength.lookup (lower (strip curve)) with
        | some strength => some strength
        | none => size.bind fun size => if size ≤ 0 then none else sizeStrength token size

example : effectiveStrengthBits (some "RSA") (some 2047) none = some 80 := by decide +kernel

end Pki
end SecureMail
