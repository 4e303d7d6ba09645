import SecureMail.Policy.Reordering

/-!
# The order of the inputs does not show

`evaluate_policy_batch` sorts what it emits. The sort keys name the record and the rule of a
document, so on what one evaluation emits they are total, and two evaluations that emit the same
documents return the same lists. That they do is read off their journals: an entry of the one is an
entry of the other, with the same emission.

Two evaluations may differ in which of them returns, since a predicate that raises may be met in one
order and not in the other, so the statement is about two that both return. The ids are part of what
is equal: nothing that is hashed depends on a position. What remains of the order is in one place,
the record that is chosen among several of one key, and the batch is asked to have no two of those.
-/

namespace SecureMail
namespace Policy

open EvaluationRun (evaluateRecord_reordered)

/-! ## The two sort keys -/

instance : Std.TransCmp findingOrdering :=
  inferInstanceAs (Std.TransCmp
    (compareLex (compareOn fun f : Finding => f.affectedEndpoint.val)
      (compareLex (compareOn fun f => (firstReferenceKey f).1)
        (compareLex (compareOn fun f => (firstReferenceKey f).2)
          (compareLex (compareOn fun f => f.code.val) (compareOn fun f => f.outcome.value))))))

instance : Std.TransCmp checkOrdering :=
  inferInstanceAs (Std.TransCmp
    (compareLex (compareOn fun c : PolicyCheck => c.affectedEndpoint.val)
      (compareLex (compareOn fun c => c.category.value)
        (compareLex (compareOn fun c => c.recordKey.val)
          (compareLex (compareOn fun c => c.code.val) (compareOn fun c => c.outcome.value))))))

theorem findingOrdering_eq {a b : Finding} (h : findingOrdering a b = .eq) :
    (firstReferenceKey a).2 = (firstReferenceKey b).2 ∧ a.code = b.code := by
  simp only [findingOrdering, Ordering.then_eq_eq, Std.LawfulEqOrd.compare_eq_iff_eq] at h
  obtain ⟨_, _, hkey, hcode, _⟩ := h
  exact ⟨hkey, Subtype.ext hcode⟩

theorem checkOrdering_eq {a b : PolicyCheck} (h : checkOrdering a b = .eq) :
    a.recordKey.val = b.recordKey.val ∧ a.code = b.code := by
  simp only [checkOrdering, Ordering.then_eq_eq, Std.LawfulEqOrd.compare_eq_iff_eq] at h
  obtain ⟨_, _, hkey, hcode, _⟩ := h
  exact ⟨hkey, Subtype.ext hcode⟩

theorem firstReferenceKey_of_about {finding : Finding} {rule : PolicyRule}
    {record : PolicyRecord} (h : finding.About rule record) :
    (firstReferenceKey finding).2 = recordKey record := by
  obtain ⟨_, hne, hall⟩ := h
  unfold firstReferenceKey
  cases hrefs : finding.evidenceReferences with
  | nil => exact absurd hrefs hne
  | cons ref rest => exact (hall ref (hrefs ▸ List.mem_cons_self)).2

theorem evaluatePolicyBatch_sorted {run : EvaluationRun} {evaluationTime : Py.Datetime}
    {batch : EvidenceBatch} {evaluation : PolicyEvaluation}
    (h : run.evaluatePolicyBatch evaluationTime batch = .ok evaluation) :
    ∃ unsorted : PolicyEvaluation, evaluation = unsorted.sorted := by
  obtain ⟨_, _, h⟩ := Fallible.bind_eq_ok.mp h
  obtain ⟨unsorted, _, h⟩ := Fallible.bind_eq_ok.mp h
  exact ⟨unsorted, (Fallible.pure_eq_ok.mp h).symm⟩

/-! ## One journal -/

namespace Journal

variable {run : EvaluationRun} {batch : EvidenceBatch} {instant : Py.Datetime}
  {evaluation : PolicyEvaluation} (journal : Journal run batch instant evaluation)
  (hkeys : DistinctKeys batch)
include journal hkeys

/-- A finding that names one rule and one record is the finding of one entry. -/
theorem finding_of_keys {a b : Finding} (ha : a ∈ evaluation.findings)
    (hb : b ∈ evaluation.findings) (hkey : (firstReferenceKey a).2 = (firstReferenceKey b).2)
    (hcode : a.code = b.code) : a = b := by
  obtain ⟨e, he, hfinding⟩ := journal.exists_of_mem_findings ha
  obtain ⟨e', he', hfinding'⟩ := journal.exists_of_mem_findings hb
  have habout := journal.finding_about he hfinding
  have habout' := journal.finding_about he' hfinding'
  rw [firstReferenceKey_of_about habout, firstReferenceKey_of_about habout'] at hkey
  have hsubject : subject e.1 = subject e'.1 :=
    Prod.ext (habout.1.symm.trans (hcode.trans habout'.1)) hkey
  obtain rfl := List.inj_on_of_nodup_map (journal.nodup_entries hkeys) he he' hsubject
  exact Option.some.inj (hfinding.symm.trans hfinding')

theorem check_of_keys {a b : PolicyCheck} (ha : a ∈ evaluation.checks)
    (hb : b ∈ evaluation.checks) (hkey : a.recordKey.val = b.recordKey.val)
    (hcode : a.code = b.code) : a = b := by
  obtain ⟨e, he, hcheck⟩ := journal.exists_of_mem_checks ha
  obtain ⟨e', he', hcheck'⟩ := journal.exists_of_mem_checks hb
  obtain ⟨hcodeOf, _, hkeyOf⟩ := journal.check_about he hcheck
  obtain ⟨hcodeOf', _, hkeyOf'⟩ := journal.check_about he' hcheck'
  have hsubject : subject e.1 = subject e'.1 :=
    Prod.ext (hcodeOf.symm.trans (hcode.trans hcodeOf')) (hkeyOf.symm.trans (hkey.trans hkeyOf'))
  obtain rfl := List.inj_on_of_nodup_map (journal.nodup_entries hkeys) he he' hsubject
  exact Option.some.inj (hcheck.symm.trans hcheck')

theorem nodup_findings : evaluation.findings.Nodup := by
  apply journal.findings.nodup_iff.mpr
  apply Keyed.nodup_filterMap_of_key (journal.nodup_entries hkeys)
  intro e he e' he' finding hfinding hfinding'
  have habout := journal.finding_about he hfinding
  have habout' := journal.finding_about he' hfinding'
  exact Prod.ext (habout.1.symm.trans habout'.1)
    ((firstReferenceKey_of_about habout).symm.trans (firstReferenceKey_of_about habout'))

theorem nodup_checks : evaluation.checks.Nodup := by
  apply journal.checks.nodup_iff.mpr
  apply Keyed.nodup_filterMap_of_key (journal.nodup_entries hkeys)
  intro e he e' he' check hcheck hcheck'
  obtain ⟨hcode, _, hkey⟩ := journal.check_about he hcheck
  obtain ⟨hcode', _, hkey'⟩ := journal.check_about he' hcheck'
  exact Prod.ext (hcode.symm.trans hcode') (hkey.symm.trans hkey')

end Journal

/-! ## Two journals -/

theorem EvaluationRun.Reordered.symm {run run' : EvaluationRun} (h : run.Reordered run') :
    run'.Reordered run where
  sha256 := h.sha256.symm
  packDigest := h.packDigest.symm
  captureSha256 := h.captureSha256.symm
  profile := h.profile.symm
  roles := h.roles.symm
  rules := by
    obtain ⟨rules, hperm, hreordered⟩ := h.rules
    obtain ⟨rules', hreordered', hperm'⟩ := List.perm_comp_forall₂ hperm hreordered
    refine ⟨rules', hperm'.symm, ?_⟩
    exact hreordered'.flip.imp fun _ _ hrule => hrule.symm

theorem EvaluationRun.Reordered.exists_rule {run run' : EvaluationRun} (h : run.Reordered run')
    {rule : PolicyRule} (hrule : rule ∈ run.pack.rules) :
    ∃ rule' ∈ run'.pack.rules, rule.Reordered rule' := by
  obtain ⟨rules, hperm, hreordered⟩ := h.rules
  have hmem : rule ∈ rules := hperm.mem_iff.mp hrule
  clear hperm
  generalize run'.pack.rules = rules' at hreordered ⊢
  induction hreordered with
  | nil => exact absurd hmem (by simp)
  | @cons first first' _ rest' hfirst _ ih =>
    rcases List.mem_cons.mp hmem with rfl | hmem
    · exact ⟨first', List.mem_cons_self, hfirst⟩
    · obtain ⟨rule', hrule', hrest⟩ := ih hmem
      exact ⟨rule', List.mem_cons_of_mem _ hrule', hrest⟩

theorem EvidenceBatch.Reordered.recordsForTarget {batch batch' : EvidenceBatch}
    (h : batch.Reordered batch') (target : PolicyTarget) :
    (batch.recordsForTarget target).Perm (batch'.recordsForTarget target) := by
  cases target with
  | handshake => exact h.handshakes.map _
  | session => exact h.sessions.map _
  | certificate => exact h.certificates.map _
  | flow => exact h.flows.map _

theorem DistinctKeys.reordered {batch batch' : EvidenceBatch} (hkeys : DistinctKeys batch)
    (h : batch.Reordered batch') : DistinctKeys batch' :=
  fun target => ((h.recordsForTarget target).map recordKey).nodup_iff.mp (hkeys target)

theorem ruleActive_reordered {rule rule' : PolicyRule} (h : rule.Reordered rule')
    (instant : Py.Datetime) : ruleActive rule' instant = ruleActive rule instant := by
  unfold ruleActive
  rw [h.effectiveFrom, h.effectiveUntil]

namespace Journal

variable {run run' : EvaluationRun} {batch batch' : EvidenceBatch} {instant : Py.Datetime}
  {evaluation evaluation' : PolicyEvaluation} (journal : Journal run batch instant evaluation)
  (journal' : Journal run' batch' instant evaluation') (hrun : run.Reordered run')
  (hbatch : batch.Reordered batch') (hkeys : DistinctKeys batch)
include hrun hbatch hkeys

/-- An entry of the one journal is in the other, with the same emission. -/
theorem entry_reordered {e : (PolicyRule × PolicyRecord) × Emission} (he : e ∈ journal.entries) :
    ∃ e' ∈ journal'.entries, e'.2 = e.2 := by
  obtain ⟨hrule, hactive, hrecord⟩ := journal.mem_work he
  obtain ⟨rule', hrule', hreordered⟩ := hrun.exists_rule hrule
  have hrecord' : e.1.2 ∈ batch'.recordsForTarget rule'.target := by
    rw [hreordered.target]
    exact (hbatch.recordsForTarget _).mem_iff.mp hrecord
  obtain ⟨e', he', hpair⟩ := journal'.exists_entry hrule'
    ((ruleActive_reordered hreordered instant).trans hactive) hrecord'
  refine ⟨e', he', ?_⟩
  have hevaluated := journal'.evaluated e' he'
  rw [hpair] at hevaluated
  exact evaluateRecord_reordered hrun hreordered hbatch hkeys (journal.evaluated e he) hevaluated

include journal journal'

theorem findings_subset : evaluation.findings ⊆ evaluation'.findings := by
  intro finding hfinding
  obtain ⟨e, he, hemits⟩ := journal.exists_of_mem_findings hfinding
  obtain ⟨e', he', hsame⟩ := journal.entry_reordered journal' hrun hbatch hkeys he
  refine journal'.findings.mem_iff.mpr (List.mem_filterMap.mpr ⟨e', he', ?_⟩)
  rw [hsame]
  exact hemits

theorem checks_subset : evaluation.checks ⊆ evaluation'.checks := by
  intro check hcheck
  obtain ⟨e, he, hemits⟩ := journal.exists_of_mem_checks hcheck
  obtain ⟨e', he', hsame⟩ := journal.entry_reordered journal' hrun hbatch hkeys he
  refine journal'.checks.mem_iff.mpr (List.mem_filterMap.mpr ⟨e', he', ?_⟩)
  rw [hsame]
  exact hemits

theorem findings_perm : evaluation.findings.Perm evaluation'.findings := by
  have hkeys' := hkeys.reordered hbatch
  rw [List.perm_ext_iff_of_nodup (journal.nodup_findings hkeys) (journal'.nodup_findings hkeys')]
  intro finding
  constructor
  · exact fun h => journal.findings_subset journal' hrun hbatch hkeys h
  · exact fun h => journal'.findings_subset journal hrun.symm hbatch.symm hkeys' h

theorem checks_perm : evaluation.checks.Perm evaluation'.checks := by
  have hkeys' := hkeys.reordered hbatch
  rw [List.perm_ext_iff_of_nodup (journal.nodup_checks hkeys) (journal'.nodup_checks hkeys')]
  intro check
  constructor
  · exact fun h => journal.checks_subset journal' hrun hbatch hkeys h
  · exact fun h => journal'.checks_subset journal hrun.symm hbatch.symm hkeys' h

end Journal

/-! ## The evaluation -/

/-- **`evaluate_policy_batch` is independent of order.** The records of a batch, the rules of a
pack and the predicates of a rule may come in another order: where both evaluations return, they
return the same findings and the same checks, in the same order and with the same ids. -/
theorem evaluation_order_independent {run run' : EvaluationRun} {evaluationTime : Py.Datetime}
    {batch batch' : EvidenceBatch} {evaluation evaluation' : PolicyEvaluation}
    (hrun : run.Reordered run') (hbatch : batch.Reordered batch') (hkeys : DistinctKeys batch)
    (h : run.evaluatePolicyBatch evaluationTime batch = .ok evaluation)
    (h' : run'.evaluatePolicyBatch evaluationTime batch' = .ok evaluation') :
    evaluation' = evaluation := by
  obtain ⟨instant, hinstant, ⟨journal⟩⟩ := evaluatePolicyBatch_eq_ok h
  obtain ⟨instant', hinstant', ⟨journal'⟩⟩ := evaluatePolicyBatch_eq_ok h'
  obtain rfl : instant' = instant := Except.ok.inj (hinstant'.symm.trans hinstant)
  obtain ⟨unsorted, rfl⟩ := evaluatePolicyBatch_sorted h
  obtain ⟨unsorted', rfl⟩ := evaluatePolicyBatch_sorted h'
  have hfindings := journal.findings_perm journal' hrun hbatch hkeys
  have hchecks := journal.checks_perm journal' hrun hbatch hkeys
  have hsorted : unsorted.sorted.findings.Perm unsorted.findings := List.perm_insertionSort _ _
  have hsorted' : unsorted'.sorted.findings.Perm unsorted'.findings := List.perm_insertionSort _ _
  have hcsorted : unsorted.sorted.checks.Perm unsorted.checks := List.perm_insertionSort _ _
  have hcsorted' : unsorted'.sorted.checks.Perm unsorted'.checks := List.perm_insertionSort _ _
  have hsameFindings : unsorted.sorted.findings = unsorted'.sorted.findings := by
    apply SortKey.insertionSort_eq_of_perm (hsorted.symm.trans (hfindings.trans hsorted'))
    intro a ha b hb heq
    obtain ⟨hkey, hcode⟩ := findingOrdering_eq heq
    exact journal.finding_of_keys hkeys (hsorted.mem_iff.mpr ha) (hsorted.mem_iff.mpr hb) hkey hcode
  have hsameChecks : unsorted.sorted.checks = unsorted'.sorted.checks := by
    apply SortKey.insertionSort_eq_of_perm (hcsorted.symm.trans (hchecks.trans hcsorted'))
    intro a ha b hb heq
    obtain ⟨hkey, hcode⟩ := checkOrdering_eq heq
    exact journal.check_of_keys hkeys (hcsorted.mem_iff.mpr ha) (hcsorted.mem_iff.mpr hb) hkey hcode
  rw [PolicyEvaluation.mk.injEq]
  exact ⟨hsameFindings.symm, hsameChecks.symm⟩

/-! ## Two rules and two handshakes, both ways round -/

/-- `TLS_CIPHER_CBC`, from the first of November 2022, with its `where` in a given order. -/
def cbcRule («where» : List Predicate) (h : «where».length ≤ 16) : PolicyRule :=
  { id := ⟨"TLS_CIPHER_CBC", by decide⟩
    target := .handshake
    effectiveFrom := 738460
    «where» := «where»
    where_le := h
    assertion :=
      [{ path := "handshake.cipher_suite.name", operator := .containsNone
         value := .list [.str "_CBC_"] }]
    severity := { negative := .medium }
    title := ⟨"TLS CBC cipher suite negotiated", by decide⟩
    rationale :=
      ⟨"CBC cipher suites in TLS 1.2 and earlier SHOULD NOT be negotiated.", by decide +kernel⟩
    standards := ["RFC 9325 §4.2"]
    remediationId := ⟨"tls.prefer_aead", by decide⟩ }

def cipherShown : Predicate :=
  { path := "handshake.cipher_suite.evidence_state", operator := .isIn
    value := .list [.str "observed", .str "inferred"] }

def beforeTls13 : Predicate :=
  { notTls10 with
    operator := .isIn, value := .list [.str "TLSv10", .str "TLSv11", .str "TLSv12"]
    value_bounded := by decide }

/-- The SHA-256 of the id texts the two rules have for the records `C1` and `C2`. -/
def twoRulesSha256 (text : String) : Sha256Hex :=
  if Py.endsWith text "|TLS_NEGOTIATED_TLS10|fail|handshake|C1" then
    failDigest
  else if Py.endsWith text "|TLS_NEGOTIATED_TLS10|negative|handshake|C1" then
    negativeDigest
  else if Py.endsWith text "|TLS_NEGOTIATED_TLS10|pass|handshake|C2" then
    secondPassDigest
  else if Py.endsWith text "|TLS_CIPHER_CBC|fail|handshake|C2" then
    ⟨"14af7c65520eaee4c3b3e615a68ffd879b81421f4960525fe5e0d6004c7f1dc8", by decide +kernel⟩
  else ⟨"a2e55d306a0805644118de8005e38aa6d3455182721e945a9a5d14e74d8f7287", by decide +kernel⟩

def twoRulesRun (rules : List PolicyRule) (h : 1 ≤ rules.length ∧ rules.length ≤ 128)
    (hids : (rules.map fun rule => rule.id.val).Nodup) (hroles : ∀ rule ∈ rules, rule.roles = []) :
    EvaluationRun :=
  { tls10Run with
    sha256 := twoRulesSha256
    pack :=
      { tls10Pack with
        rules := rules
        rules_bounds := h
        unique_rules := hids
        known_roles := by
          intro rule hrule role hrole
          rw [hroles rule hrule] at hrole
          exact absurd hrole (by simp) } }

def forwardRun : EvaluationRun :=
  twoRulesRun [tls10Rule, cbcRule [cipherShown, beforeTls13] (by decide)] (by decide) (by decide)
    (by simp [tls10Rule, cbcRule])

def backwardRun : EvaluationRun :=
  twoRulesRun [cbcRule [beforeTls13, cipherShown] (by decide), tls10Rule] (by decide) (by decide)
    (by simp [tls10Rule, cbcRule])

def cbcHandshake : TlsHandshake :=
  { negotiated "TLSv12" .observed with
    uid := "C2"
    cipherSuite := { name := some "TLS_RSA_WITH_AES_128_CBC_SHA", evidenceState := .observed } }

theorem forward_reordered : forwardRun.Reordered backwardRun where
  sha256 := rfl
  packDigest := rfl
  captureSha256 := rfl
  profile := rfl
  roles := rfl
  rules := by
    refine ⟨[cbcRule [cipherShown, beforeTls13] (by decide), tls10Rule], List.Perm.swap _ _ _, ?_⟩
    refine .cons ?_ (.cons ?_ .nil)
    · exact ⟨rfl, rfl, rfl, rfl, rfl, List.Perm.swap _ _ _, .refl _, rfl, rfl, rfl, rfl, rfl, rfl⟩
    · exact ⟨rfl, rfl, rfl, rfl, rfl, .refl _, .refl _, rfl, rfl, rfl, rfl, rfl, rfl⟩

theorem two_rules_order_independent :
    ∃ evaluation,
      forwardRun.evaluatePolicyBatch analysisTime
        { handshakes := [negotiated "TLSv10" .observed, cbcHandshake] } = .ok evaluation ∧
      backwardRun.evaluatePolicyBatch analysisTime
        { handshakes := [cbcHandshake, negotiated "TLSv10" .observed] } = .ok evaluation ∧
      evaluation.checks.map (fun check => (check.recordKey.val, check.outcome)) =
        [("C1", .fail), ("C2", .fail), ("C2", .pass)] := by
  have hbatch : EvidenceBatch.Reordered
      { handshakes := [negotiated "TLSv10" .observed, cbcHandshake] }
      { handshakes := [cbcHandshake, negotiated "TLSv10" .observed] } :=
    ⟨.refl _, .refl _, List.Perm.swap _ _ _, .refl _⟩
  have hkeys : DistinctKeys { handshakes := [negotiated "TLSv10" .observed, cbcHandshake] } := by
    intro target
    cases target with
    | handshake => decide
    | _ => exact List.nodup_nil
  have hforward : ((forwardRun.evaluatePolicyBatch analysisTime
      { handshakes := [negotiated "TLSv10" .observed, cbcHandshake] }).toOption.map fun evaluation =>
        evaluation.checks.map fun check => (check.recordKey.val, check.outcome)) =
          some [("C1", .fail), ("C2", .fail), ("C2", .pass)] := by
    decide +kernel
  have hbackward : (backwardRun.evaluatePolicyBatch analysisTime
      { handshakes := [cbcHandshake, negotiated "TLSv10" .observed] }).isOk = true := by
    decide +kernel
  cases heval : forwardRun.evaluatePolicyBatch analysisTime
      { handshakes := [negotiated "TLSv10" .observed, cbcHandshake] } with
  | error e =>
    rw [heval] at hforward
    exact absurd hforward (by simp [Except.toOption])
  | ok evaluation =>
    rw [heval] at hforward
    cases heval' : backwardRun.evaluatePolicyBatch analysisTime
        { handshakes := [cbcHandshake, negotiated "TLSv10" .observed] } with
    | error e =>
      rw [heval'] at hbackward
      exact absurd hbackward (by simp [Except.isOk, Except.toBool])
    | ok evaluation' =>
      have hsame := evaluation_order_independent forward_reordered hbatch hkeys heval heval'
      exact ⟨evaluation, rfl, congrArg Except.ok hsame, Option.some.inj hforward⟩

end Policy
end SecureMail
