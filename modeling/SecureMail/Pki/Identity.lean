import SecureMail.Pki.X509
import SecureMail.Py.Str

/-!
# `match_service_identity`

A declared reference identity against the SAN entries of a leaf. Two conversions of the standard
library are taken as they come, each with `none` where it raises: the parsing of an IP address and
the IDNA encoding of a label.

Names are compared label by label, in lower case and in their ASCII form, and an entry that cannot
be converted is dropped. A `*` passes the conversion as it is, in an entry and in the reference
alike, and it is the comparison that has to keep the two apart. An answer is three-valued: a match,
a mismatch with its reason, or no answer where there is no reference to compare with.
-/

namespace SecureMail
namespace Pki

open Py (strip lower splitOnChar startsWith isIn)

def maxDnsName : Nat := 253
def maxSanEntries : Nat := 32

inductive IdentityReasonCode where
  | sanMismatch
  | sanMissing
  | referenceIdentityUnavailable
  deriving DecidableEq, Repr

def IdentityReasonCode.value : IdentityReasonCode → String
  | .sanMismatch => "san_mismatch"
  | .sanMissing => "san_missing"
  | .referenceIdentityUnavailable => "reference_identity_unavailable"

inductive SanEntry where
  | dns (value : String)
  | ip (value : String)
  deriving DecidableEq, Repr

structure IdentityMatchResult where
  «match» : Option Bool
  reasonCodes : List IdentityReasonCode
  deriving DecidableEq

/-- `str(ip_address(s))`, and `label.encode("idna").decode("ascii")`. -/
structure IdentityCodec where
  ipAddress : String → Option String
  idna : String → Option String

namespace IdentityCodec

variable (codec : IdentityCodec)

/-- One label of a name. -/
def encodeLabel (label : String) : Option String :=
  if label = "*" then some label
  else if 63 < label.length then none
  else codec.idna label

/-- `_normalize_dns`. Dots at the end are dropped, and a name that has an empty label after that is
no name. -/
def normalizeDns (value : String) : Option String :=
  let text := lower (String.ofList ((strip value).toList.rdropWhile (· = '.')))
  if text = "" ∨ maxDnsName < text.length ∨ isIn " " text then none
  else
    let labels := splitOnChar '.' text
    if labels.any (· = "") then none
    else (labels.mapM codec.encodeLabel).map (Py.join ".")

/-- One entry of the SAN extension, as it is kept. -/
def sanEntry : GeneralName → Option SanEntry
  | .dns value => (codec.normalizeDns value).map .dns
  | .ip value => some (.ip value)
  | .other => none

/-- `extract_san_entries`. -/
def extractSanEntries {lib : X509Library} (certificate : lib.Certificate) :
    Result (List SanEntry) := do
  match ← lib.subjectAltNames certificate with
  | none => pure []
  | some names => pure ((names.filterMap codec.sanEntry).take maxSanEntries)

/-- `_dns_name_matches`. A pattern with a `*` anywhere but as its whole first label matches nothing.
-/
def dnsNameMatches (pattern hostname : String) : Bool :=
  if !isIn "*" pattern then pattern == hostname
  else if !startsWith pattern "*." || pattern.toList.count '*' != 1 then false
  else
    let patternLabels := splitOnChar '.' pattern
    let hostLabels := splitOnChar '.' hostname
    if patternLabels.length < 2 ∨ patternLabels.length ≠ hostLabels.length then false
    else if patternLabels.head? ≠ some "*" then false
    else if hostLabels.head? = some "" ∨ hostLabels.head? = some "*" then false
    else hostLabels.drop 1 == patternLabels.drop 1

/-- The entry names the host. -/
def namesHost (hostname : String) : SanEntry → Bool
  | .dns pattern => dnsNameMatches pattern hostname
  | .ip _ => false

/-- A refusal for want of a match, or none. -/
def resultOf (matched : Bool) : IdentityMatchResult :=
  if matched then ⟨some true, []⟩ else ⟨some false, [.sanMismatch]⟩

/-- `match_service_identity`. Whether the reference is an address decides which kind of entries can
match it, and the other kind is not looked at. -/
def matchServiceIdentity (referenceIdentity : Option String) (sanEntries : List SanEntry) :
    IdentityMatchResult :=
  match referenceIdentity.filter fun reference => strip reference ≠ "" with
  | none => ⟨none, [.referenceIdentityUnavailable]⟩
  | some reference =>
      if sanEntries.isEmpty then ⟨some false, [.sanMissing]⟩
      else match codec.ipAddress (strip reference) with
        | some expected => resultOf (sanEntries.contains (.ip expected))
        | none =>
            match codec.normalizeDns reference with
            | none => ⟨some false, [.sanMismatch]⟩
            | some hostname => resultOf (sanEntries.any (namesHost hostname))

end IdentityCodec

end Pki
end SecureMail
