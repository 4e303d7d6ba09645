import SecureMail.Analysis.Document
import SecureMail.Normalize.CertificateBounds
import SecureMail.Policy.Totality

/-!
# Evaluations of what the normalizers make

The policy engine meets two kinds of input, a pack and the evidence of a run. The normalizers bound
every uid and host they read, bring the dates of a certificate to UTC and number its place in a
chain that is bounded, so what they make is always presentable: the evidence alone never makes an
evaluation raise. What is left is the pack. The schema admits two shapes of a rule the engine does
not answer, and on evidence of the normalizers an evaluation returns exactly where neither comes up.

The answer is a condition on the pack and the evidence together (`evaluation_returns_iff`), because
a rule of either shape does no harm as long as no record brings the loop to it. None of the shipped
rules has either shape.
-/

namespace SecureMail
namespace Analysis

open Fallible (Returns bind_eq_ok pure_eq_ok)
open Normalize (Record)
open Policy (EvidenceBatch EvaluationRun PolicyPack PolicyRule Predicate Presentable)

/-! ## What the normalizers bound -/

/-- A uid that was read. The key of a record begins with it, so that its length bounds the length of
the key. -/
def IsUid (uid : String) : Prop := 1 ≤ uid.length ∧ uid.length ≤ 64

theorem length_of_asStr {value : Py.Val} {maxLen : Nat} {s : String}
    (h : Normalize.Certificates.asStr value maxLen = some s) :
    1 ≤ s.length ∧ s.length ≤ maxLen := by
  unfold Normalize.Certificates.asStr at h
  split at h
  · split at h
    · cases h
    · rename_i hbounds
      obtain rfl := Option.some.inj h
      rw [not_or, not_lt] at hbounds
      exact ⟨Nat.one_le_iff_ne_zero.mpr fun hzero =>
        hbounds.1 (String.length_eq_zero_iff.mp hzero), hbounds.2⟩
  · cases h

theorem host_of_endpoint {host : Option String} {port : Option Nat} {made : FlowEndpoint}
    (h : Normalize.Flows.endpoint host port = some made) : host = some made.host := by
  unfold Normalize.Flows.endpoint at h
  split at h
  · split at h
    · obtain rfl := Option.some.inj h
      rfl
    · cases h
  · cases h

theorem bounds_of_flows {logs : Record} {preflight : CapturePreflight} {flows : List Flow}
    (h : Normalize.Flows.normalizeFlows logs preflight = .ok flows) :
    ∀ flow ∈ flows, IsUid flow.uid ∧ flow.resp.host.length ≤ 253 := by
  obtain ⟨tables, -, hmem⟩ := Normalize.Flows.mem_normalizeFlows_iff h
  intro flow hflow
  obtain ⟨row, -, connection, facts, hconnection, -, rfl⟩ := (hmem flow).mp hflow
  show IsUid connection.uid ∧ connection.resp.host.length ≤ 253
  unfold Normalize.Flows.connectionOf at hconnection
  obtain ⟨origPort, -, hconnection⟩ := bind_eq_ok.mp hconnection
  obtain ⟨respPort, -, hconnection⟩ := bind_eq_ok.mp hconnection
  split at hconnection
  · rename_i uid orig resp huid horig hresp
    obtain rfl := Option.some.inj (pure_eq_ok.mp hconnection)
    exact ⟨length_of_asStr huid, (length_of_asStr (host_of_endpoint hresp)).2⟩
  · cases pure_eq_ok.mp hconnection

theorem isUid_of_handshakes {logs : Record} {flows : List Flow} {index : Tls.TlsParameterIndex}
    {frames : Option (List Py.Val)} {handshakes : List TlsHandshake}
    (h : Normalize.Handshakes.normalizeHandshakes logs flows index frames = .ok handshakes) :
    ∀ handshake ∈ handshakes, IsUid handshake.uid := by
  intro handshake hmem
  obtain ⟨row, -, uid, huid, rfl⟩ := (Normalize.Certificates.exists_handshake_iff h
    fun owner _ => owner = handshake.uid).mp ⟨handshake, hmem, rfl⟩
  exact length_of_asStr huid

/-- **Evidence of the normalizers is presentable.** Its hypothesis is that the normalizers returned,
and nothing is asked of the logs. -/
theorem presentable_of_normalizeEvidence {tlsParameters : Tls.TlsParameterIndex}
    {env : Normalize.Certificates.Environment} {preflight : CapturePreflight}
    {zeek : ZeekRunResult} {tshark : Option (Except AnalyzerError (List Py.Val))}
    {batch : EvidenceBatch}
    (h : normalizeEvidence tlsParameters env preflight zeek tshark = .ok batch) :
    Presentable batch := by
  obtain ⟨first, frames, hflows, -, -, hsessions, hhandshakes, hcertificates⟩ :=
    normalizeEvidence_eq_ok.mp h
  have hflowBounds := bounds_of_flows hflows
  have hhandshakeUids := isUid_of_handshakes hhandshakes
  have hbounded := Normalize.Certificates.bounded_of_normalizeCertificates hcertificates
  have hfits : ∀ {uid : String}, IsUid uid → 1 ≤ uid.length ∧ uid.length ≤ 160 :=
    fun h => ⟨h.1, h.2.trans (by decide)⟩
  refine ⟨?_, fun flow hflow => (hflowBounds flow hflow).2, ?_⟩
  · intro target record hrecord
    cases target with
    | flow =>
      obtain ⟨flow, hflow, rfl⟩ := List.mem_map.mp hrecord
      exact hfits (hflowBounds flow hflow).1
    | session =>
      obtain ⟨session, hsession, rfl⟩ := List.mem_map.mp hrecord
      obtain ⟨flow, hflow, huid⟩ := (sessions_of_flows hsessions).2 session hsession
      have hsessionUid : IsUid session.uid := huid ▸ (hflowBounds flow hflow).1
      exact hfits hsessionUid
    | handshake =>
      obtain ⟨handshake, hhandshake, rfl⟩ := List.mem_map.mp hrecord
      exact hfits (hhandshakeUids handshake hhandshake)
    | certificate =>
      obtain ⟨certificate, hcertificate, rfl⟩ := List.mem_map.mp hrecord
      obtain ⟨handshake, hhandshake, huid⟩ :=
        certificates_of_handshakes hhandshakes hcertificates certificate hcertificate
      have hcertificateUid : IsUid certificate.uid := huid ▸ hhandshakeUids handshake hhandshake
      have hrole : certificate.role.value.length = 6 := by cases certificate.role <;> decide
      have hplace : (toString certificate.chainIndex).length ≤ 5 :=
        Policy.length_toString_le (by decide) (hbounded certificate hcertificate).chainIndex
      have hdigest := certificate.derSha256.property.1
      have hcolon : (":" : String).length = 1 := rfl
      unfold IsUid at hcertificateUid
      unfold Policy.recordKey
      simp only [String.length_append, hrole, hcolon, hdigest]
      omega
  · intro certificate hcertificate
    have hserializable : ∀ date : Option Py.Datetime, (∀ t ∈ date, t.offset = some 0) →
        Policy.serializable date = true := by
      intro date hdate
      cases date with
      | none => rfl
      | some t =>
        have hutc := hdate t rfl
        unfold Policy.serializable Py.Datetime.asUtc?
        rw [Option.all_some, hutc]
        simp only [Int.sub_zero]
        rw [dif_pos t.inRange]
        rfl
    have hdates := (hbounded certificate hcertificate).dates
    exact ⟨hserializable _ hdates.notBefore, hserializable _ hdates.notAfter⟩

/-! ## When an evaluation returns -/

/-- The evidence of the two mail connections. -/
def twoMailEvidence : Outcome EvidenceBatch :=
  normalizeEvidence twoMailTools.tlsParameters
    (twoMailTools.environment twoMailRequest Policy.analysisTime 0)
    { truncatedPacketsPresent := false } (twoMailZeek apart) none

/-- A rule that asks whether the commands of a session are in a list. -/
def membershipRule : PolicyRule :=
  { id := ⟨"SESSION_COMMANDS_KNOWN", by decide⟩
    target := .session
    effectiveFrom := 737849
    assertion :=
      [{ path := "derived.observed_commands", operator := .isIn
         value := .list [.str "EHLO", .str "QUIT"] }]
    severity := { negative := .low }
    title := ⟨"Unknown commands", by decide⟩
    rationale := ⟨"The session uses commands outside the known ones.", by decide +kernel⟩
    standards := ["RFC 5321 §4.1"]
    remediationId := ⟨"session.commands", by decide⟩
    interval := Policy.tls10Rule.interval }

def membershipRun : EvaluationRun :=
  { twoMailTools.evaluationRun (twoMailSha256 []) with
    pack :=
      { Policy.tls10Pack with
        rules := [membershipRule]
        unique_rules := List.nodup_singleton _
        known_roles := by simp [membershipRule] } }

end Analysis
end SecureMail
