import SecureMail.Findings.Finding
import SecureMail.Py.Value
import SecureMail.Py.Str

/-!
# Policy packs

Rules are data. A pack that loads has been validated, and the evaluator leans on it: paths are known
ones, collections hold strings and integers only, ids are unique. Each of those is a field of the
structure it is about, so there is no pack here that would not have loaded.

The inline tests of a rule are evaluated when a pack is loaded and never again, and are not modelled.

The vocabulary is closed. The paths are a list in the source and are a list here, and the targets
and the operators are enumerations. The bounds on a rule, such as the sixteen predicates of each of
its lists, are fields too, because what a document can hold is decided by them: a finding has a
reference for each path its rule reads, and the number of references is bounded.
-/

namespace SecureMail
namespace Policy

open Py (Val)

/-- `ALLOWED_PATHS`. A rule that names another path does not load, so no evaluation meets one. -/
def allowedPaths : List String :=
  ["flow.uid", "flow.resp.host", "flow.resp.port", "flow.orig.host", "flow.orig.port",
   "flow.evidence_state", "session.uid", "session.protocol", "session.evidence_state",
   "session.explicit_upgrade.state", "session.explicit_upgrade.evidence_state",
   "session.implicit_tls.correlated_protocol", "session.implicit_tls.evidence_state",
   "handshake.uid", "handshake.established", "handshake.resumed", "handshake.evidence_state",
   "handshake.visibility", "handshake.version.selected", "handshake.version.evidence_state",
   "handshake.cipher_suite.name", "handshake.cipher_suite.code",
   "handshake.cipher_suite.evidence_state", "handshake.key_exchange.mechanism",
   "handshake.key_exchange.evidence_state", "handshake.key_exchange.dh_param_size",
   "handshake.certificate_verify_signature.algorithm",
   "handshake.certificate_verify_signature.evidence_state", "certificate.uid",
   "certificate.chain_index", "certificate.role", "certificate.der_sha256",
   "certificate.evidence_state", "certificate.public_key_algorithm", "certificate.public_key_size",
   "certificate.public_key_curve", "certificate.effective_strength_bits",
   "certificate.signature_algorithm", "certificate.valid_at_capture_time",
   "certificate.valid_at_analysis_time", "certificate.validation.path_valid_at_capture_time",
   "certificate.validation.path_valid_at_analysis_time", "certificate.validation.identity_match",
   "derived.service_role", "derived.forward_secrecy.outcome",
   "derived.forward_secrecy.evidence_state", "derived.observed_commands",
   "derived.transport_tls_established"]

inductive PolicyOperator where
  | eq
  | notEq
  | isIn
  | notIn
  | lt
  | lte
  | gt
  | gte
  | containsAny
  | containsNone
  deriving DecidableEq, Repr

inductive PolicyTarget where
  | handshake
  | session
  | certificate
  | flow
  deriving DecidableEq, Repr

def PolicyTarget.value : PolicyTarget → String
  | .handshake => "handshake"
  | .session => "session"
  | .certificate => "certificate"
  | .flow => "flow"

/-- `EvidenceRecordType(target.value)`. -/
def PolicyTarget.recordType : PolicyTarget → EvidenceRecordType
  | .handshake => .handshake
  | .session => .session
  | .certificate => .certificate
  | .flow => .flow

/-- `_CHECK_CATEGORY`. -/
def PolicyTarget.checkCategory : PolicyTarget → CheckCategory
  | .handshake => .tlsHandshake
  | .session => .mailProtocol
  | .certificate => .certificate
  | .flow => .transport

inductive EvaluationClock where
  | analysisTime
  | captureStartTime
  deriving DecidableEq, Repr

/-! ## Predicates -/

def maxCollection : Nat := 64

/-- An item `Predicate._bounded_value` lets stand in a collection. -/
def boundedItem : Val → Bool
  | .str s => s.length ≤ 160
  | .int _ => true
  | _ => false

/-- `Predicate._bounded_value`. -/
def boundedValue : Val → Bool
  | .float _ => false
  | .str s => s.length ≤ 160
  | .list items => items.length ≤ maxCollection && items.all boundedItem
  | _ => true

theorem noStatePath_known : ∀ p ∈ (none : Option String), p ∈ allowedPaths := by decide

structure Predicate where
  path : String
  operator : PolicyOperator
  value : Val
  statePath : Option String := none
  path_known : path ∈ allowedPaths := by decide
  statePath_known : ∀ p ∈ statePath, p ∈ allowedPaths := by
    first | exact SecureMail.Policy.noStatePath_known | decide
  value_bounded : boundedValue value = true := by decide

/-! ## Rules and packs -/

structure RoleDefinition where
  id : Text 64
  all : List Predicate
  all_bounds : 1 ≤ all.length ∧ all.length ≤ 16 := by decide

structure RuleSeverity where
  negative : FindingSeverity
  indeterminate : FindingSeverity := .informational
  deriving DecidableEq, Repr

theorem noRoles_le : ([] : List String).length ≤ 16 := by decide

theorem noWhere_le : ([] : List Predicate).length ≤ 16 := by decide

structure PolicyRule where
  id : Text 64
  target : PolicyTarget
  effectiveFrom : Py.Date
  effectiveUntil : Option Py.Date := none
  roles : List String := []
  «where» : List Predicate := []
  assertion : List Predicate
  failOutcome : FindingOutcome := .negative
  severity : RuleSeverity
  title : Text 160
  rationale : Text 1000
  standards : List String
  remediationId : Text 64
  interval : ∀ day ∈ effectiveUntil, effectiveFrom < day := by decide
  roles_le : roles.length ≤ 16 := by first | exact SecureMail.Policy.noRoles_le | decide
  where_le : «where».length ≤ 16 := by first | exact SecureMail.Policy.noWhere_le | decide
  assertion_bounds : 1 ≤ assertion.length ∧ assertion.length ≤ 16 := by decide
  standards_bounds : 1 ≤ standards.length ∧ standards.length ≤ 8 := by decide

structure PolicyPack where
  profile : PolicyProfile
  version : Text 32
  evaluationClock : EvaluationClock
  roles : List RoleDefinition := []
  rules : List PolicyRule
  roles_le : roles.length ≤ 16 := by decide
  rules_bounds : 1 ≤ rules.length ∧ rules.length ≤ 128 := by decide
  unique_roles : (roles.map fun role => role.id.val).Nodup := by decide
  unique_rules : (rules.map fun rule => rule.id.val).Nodup := by decide
  known_roles : ∀ rule ∈ rules, ∀ role ∈ rule.roles, role ∈ roles.map fun r => r.id.val := by
    decide

end Policy
end SecureMail
