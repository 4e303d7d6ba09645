import SecureMail.Policy.Agreement

/-!
# Gating on the state of a record

The evaluator itself never asks what state a record is in. A predicate asks, if its rule was written
to: by its `state_path`, or by comparing the state as any other value. The rules of the shipped
packs ask for the state of the field they judge, so a handshake of a conflicting connection passes a
rule about its version if the version itself was observed.

What the gate does guarantee, it guarantees for any rule that asks for the state of the record
itself. A flow or a session is judged by the later record of its uid, so the guarantee is for a key
whose records are all in doubt.
-/

namespace SecureMail
namespace Policy

open Py (Val)

/-! ## The law -/

/-- Contradictory or missing bytes. These are the records the documentation asks a policy to be
careful with. -/
def Unreliable (record : PolicyRecord) : Prop :=
  record.evidenceState = .conflicting ∨ record.evidenceState = .incomplete

/-- The path of the evidence state of a target's records. -/
def ownStatePath (target : PolicyTarget) : String := target.value ++ ".evidence_state"

/-- The predicate names the state as its `state_path`, or compares it with something neither of the
two states satisfies. -/
def AsksForOwnState (predicate : Predicate) (target : PolicyTarget) : Prop :=
  predicate.statePath = some (ownStatePath target) ∨
    predicate.path = ownStatePath target ∧
      ∀ state ∈ [EvidenceState.conflicting, .incomplete],
        compare predicate.operator (.str state.value) predicate.value ≠ .ok true

/-- Some predicate of the rule asks for the state of the record it is about. It can be read off a
rule, without any evidence. -/
def GatesOnOwnState (rule : PolicyRule) : Prop :=
  ∃ predicate ∈ rule.where ++ rule.assertion, AsksForOwnState predicate rule.target

/-! ## Predicates -/

theorem evalLoop_pass {context : Context} {predicates : List Predicate}
    {unusable states : List EvidenceState}
    (h : evalLoop context predicates unusable = .ok (.pass, states)) :
    unusable = [] ∧ ∀ predicate ∈ predicates, evalPredicate predicate context = .ok .pass := by
  induction predicates generalizing unusable with
  | nil =>
    have hpure := Fallible.pure_eq_ok.mp h
    split at hpure
    · rename_i hempty
      exact ⟨List.isEmpty_iff.mp hempty, by simp⟩
    · cases hpure
  | cons predicate rest ih =>
    obtain ⟨state, hstate, h⟩ := Fallible.bind_eq_ok.mp h
    cases state with
    | fail =>
      have hpure := Fallible.pure_eq_ok.mp h
      cases hpure
    | unusable =>
      -- What was unusable stays on the list, and the list would have to end empty.
      obtain ⟨hnil, _⟩ := ih h
      exact absurd hnil (by simp)
    | pass =>
      obtain ⟨hnil, hrest⟩ := ih h
      refine ⟨hnil, ?_⟩
      intro other hother
      rcases List.mem_cons.mp hother with rfl | hother
      · exact hstate
      · exact hrest other hother

/-- A conjunction passes only if each of its predicates does. -/
theorem evalPredicates_pass {context : Context} {predicates : List Predicate}
    (h : evalPredicates predicates context = .ok .pass) :
    ∀ predicate ∈ predicates, evalPredicate predicate context = .ok .pass := by
  obtain ⟨states, hstates⟩ := evalPredicates_eq_ok.mp h
  exact (evalLoop_pass hstates).2

/-- A predicate that passes was not gated, and its comparison held. -/
theorem evalPredicate_pass {context : Context} {predicate : Predicate}
    (h : evalPredicate predicate context = .ok .pass) :
    gateClosed predicate context = false ∧
      compare predicate.operator (getPath context predicate.path) predicate.value = .ok true := by
  unfold evalPredicate at h
  split at h
  · cases h
  rename_i hgate
  refine ⟨by simpa using hgate, ?_⟩
  split at h
  · cases h
  split at h
  · rename_i matched hcompare
    cases matched with
    | true => exact hcompare
    | false => cases h
  · cases h
  · cases h

theorem gateClosed_of_state {context : Context} {predicate : Predicate} {path : String}
    {state : EvidenceState} (hpath : predicate.statePath = some path)
    (hstate : getPath context path = .str state.value) (hunusable : state ∈ unusableStates) :
    gateClosed predicate context = true := by
  rw [gateClosed, hpath, Option.any_some, hstate]
  simp only [List.contains_iff_mem]
  exact List.mem_map_of_mem hunusable

/-- A predicate that asks for the state does not pass where it is one of the two. -/
theorem not_pass_of_asks {context : Context} {predicate : Predicate} {target : PolicyTarget}
    {state : EvidenceState} (hasks : AsksForOwnState predicate target)
    (hget : getPath context (ownStatePath target) = .str state.value)
    (hstate : state = .conflicting ∨ state = .incomplete) :
    evalPredicate predicate context ≠ .ok .pass := by
  intro hpass
  obtain ⟨hgate, hcompare⟩ := evalPredicate_pass hpass
  rcases hasks with hpath | ⟨hpath, hrefuses⟩
  · have hunusable : state ∈ unusableStates := by
      rcases hstate with rfl | rfl <;> decide
    rw [gateClosed_of_state hpath hget hunusable] at hgate
    cases hgate
  · rw [hpath, hget] at hcompare
    exact hrefuses state (by simpa using hstate) hcompare

/-! ## The state in the context -/

/-- The state a rule reads of its record is that of a record with the same key. -/
theorem buildContext_ownState {pack : PolicyPack} {batch : EvidenceBatch} {target : PolicyTarget}
    {record : PolicyRecord} {context : Context} (hmem : record ∈ batch.recordsForTarget target)
    (h : buildContext pack batch record = .ok context) :
    ∃ judged ∈ batch.recordsForTarget target, recordKey judged = recordKey record ∧
      getPath context (ownStatePath target) = .str judged.evidenceState.value := by
  obtain ⟨derivedFacts, _, h⟩ := Fallible.bind_eq_ok.mp h
  obtain ⟨certificateFacts, hcertificate, h⟩ := Fallible.bind_eq_ok.mp h
  obtain rfl := Fallible.pure_eq_ok.mp h
  cases target with
  | flow =>
    obtain ⟨flow, hflow, rfl⟩ := List.mem_map.mp hmem
    obtain ⟨judged, hin, huid, hjudged⟩ := Py.Dict.exists_get?_ofList Flow.uid hflow
    refine ⟨.flow judged, List.mem_map_of_mem hin, huid, ?_⟩
    have hparts : Py.splitOnChar '.' (ownStatePath .flow) = ["flow", "evidence_state"] := by decide
    -- The context holds the last flow of the uid, not the record itself.
    have hlookup : batch.flowOf (PolicyRecord.flow flow).uid = some judged := hjudged
    rw [getPath, hparts, hlookup]
    rfl
  | session =>
    obtain ⟨session, hsession, rfl⟩ := List.mem_map.mp hmem
    obtain ⟨judged, hin, huid, hjudged⟩ := Py.Dict.exists_get?_ofList EmailSession.uid hsession
    refine ⟨.session judged, List.mem_map_of_mem hin, huid, ?_⟩
    have hparts : Py.splitOnChar '.' (ownStatePath .session) = ["session", "evidence_state"] := by
      decide
    have hlookup : batch.sessionOf (PolicyRecord.session session).uid = some judged := hjudged
    rw [getPath, hparts, hlookup]
    rfl
  | handshake =>
    obtain ⟨handshake, hhandshake, rfl⟩ := List.mem_map.mp hmem
    refine ⟨.handshake handshake, hmem, rfl, ?_⟩
    have hparts : Py.splitOnChar '.' (ownStatePath .handshake) =
        ["handshake", "evidence_state"] := by
      decide
    rw [getPath, hparts]
    rfl
  | certificate =>
    obtain ⟨certificate, hcert, rfl⟩ := List.mem_map.mp hmem
    refine ⟨.certificate certificate, hmem, rfl, ?_⟩
    have hparts : Py.splitOnChar '.' (ownStatePath .certificate) =
        ["certificate", "evidence_state"] := by
      decide
    obtain ⟨facts, hfacts, hcertificate⟩ := Fallible.bind_eq_ok.mp hcertificate
    obtain rfl := Fallible.pure_eq_ok.mp hcertificate
    unfold dumpCertificate at hfacts
    split at hfacts
    · obtain rfl := Fallible.pure_eq_ok.mp hfacts
      rw [getPath, hparts]
      rfl
    · cases hfacts

/-! ## Passing -/

/-- A check that passed has every predicate of its rule behind it. -/
theorem predicates_of_pass {run : EvaluationRun} {batch : EvidenceBatch} {instant : Py.Datetime}
    {rule : PolicyRule} {record : PolicyRecord} {emission : Emission} {check : PolicyCheck}
    (h : run.evaluateRecord batch instant rule record = .ok emission)
    (hcheck : emission.check = some check) (hpass : check.outcome = .pass) :
    ∃ context, buildContext run.pack batch record = .ok context ∧
      ∀ predicate ∈ rule.where ++ rule.assertion, evalPredicate predicate context = .ok .pass := by
  obtain ⟨context, coverage, hcontext, hcoverage, hmade, _⟩ :=
    EvaluationRun.evaluateRecord_eq_ok h
  refine ⟨context, hcontext, ?_⟩
  rw [hcheck] at hmade
  have hcases := evaluateRuleWithCoverage_cases hcoverage
  cases hcases with
  | passed state hwhere hassertion =>
    intro predicate hpredicate
    rcases List.mem_append.mp hpredicate with hin | hin
    · exact evalPredicates_pass hwhere predicate hin
    · exact evalPredicates_pass hassertion predicate hin
  | silent => cases Fallible.mapM_none_eq_ok.mp hmade
  | undecidedWhere outcome state hout | undecided outcome state hout =>
    -- An undecided check is not a pass.
    obtain ⟨_, hbuilt, hsome⟩ := Fallible.mapM_some_eq_ok.mp hmade
    cases hsome
    have houtcome := (EvaluationRun.toCheck_eq_ok hbuilt).2.symm.trans hpass
    rcases hout with hout | hout <;> cases hout.symm.trans houtcome
  | failed state _ =>
    obtain ⟨_, hbuilt, hsome⟩ := Fallible.mapM_some_eq_ok.mp hmade
    cases hsome
    cases (EvaluationRun.toCheck_eq_ok hbuilt).2.symm.trans hpass

/-- **A rule that asks for the state of its record never passes one in doubt.** What it does instead
is left open: it may fail for another reason, be undecided or not apply. -/
theorem gated_rule_never_passes {run : EvaluationRun} {evaluationTime : Py.Datetime}
    {batch : EvidenceBatch} {evaluation : PolicyEvaluation} {rule : PolicyRule}
    {record : PolicyRecord}
    (h : run.evaluatePolicyBatch evaluationTime batch = .ok evaluation)
    (hrule : rule ∈ run.pack.rules) (hgates : GatesOnOwnState rule)
    (hdoubt : ∀ other ∈ batch.recordsForTarget rule.target,
      recordKey other = recordKey record → Unreliable other) :
    ∀ check ∈ evaluation.checks, check.About rule record → check.outcome ≠ .pass := by
  intro check hcheck habout hpass
  obtain ⟨instant, _, ⟨journal⟩⟩ := evaluatePolicyBatch_eq_ok h
  obtain ⟨e, he, hemitted⟩ := journal.exists_of_mem_checks hcheck
  obtain ⟨hcode, _, hkey⟩ := journal.check_about he hemitted
  obtain ⟨hpack, _, hrecord⟩ := journal.mem_work he
  have hsame : e.1.1 = rule := rule_of_id hpack hrule (hcode.symm.trans habout.1)
  obtain ⟨context, hcontext, hall⟩ :=
    predicates_of_pass (journal.evaluated e he) hemitted hpass
  obtain ⟨judged, hjudged, hjudgedKey, hget⟩ := buildContext_ownState hrecord hcontext
  obtain ⟨predicate, hpredicate, hasks⟩ := hgates
  rw [hsame] at hall hjudged hget
  have hstate : Unreliable judged := by
    apply hdoubt judged hjudged
    rw [hjudgedKey, ← hkey]
    exact habout.2.2
  exact not_pass_of_asks hasks hget hstate (hall predicate hpredicate)

/-- The rule about TLS 1.0, asking for the state of the handshake. -/
def gatedRule : PolicyRule :=
  { tls10Rule with
    assertion :=
      [{ notTls10 with
         statePath := some "handshake.evidence_state", statePath_known := by decide }]
    assertion_bounds := by decide }

theorem gatedRule_roles_known : ∀ rule ∈ [gatedRule], ∀ role ∈ rule.roles,
    role ∈ tls10Pack.roles.map fun r => r.id.val := by
  simp [gatedRule, tls10Rule]

def gatedRun : EvaluationRun :=
  { tls10Run with
    pack :=
      { tls10Pack with
        rules := [gatedRule]
        rules_bounds := by decide
        unique_rules := List.nodup_singleton _
        known_roles := gatedRule_roles_known } }

theorem conflicting_handshake_gated :
    ∃ evaluation,
      gatedRun.evaluatePolicyBatch analysisTime
        { handshakes := [negotiated "TLSv12" .conflicting] } = .ok evaluation ∧
      ∀ check ∈ evaluation.checks,
        check.About gatedRule (.handshake (negotiated "TLSv12" .conflicting)) →
          check.outcome ≠ .pass := by
  have hrun : (gatedRun.evaluatePolicyBatch analysisTime
      { handshakes := [negotiated "TLSv12" .conflicting] }).isOk = true := by
    decide +kernel
  cases heval : gatedRun.evaluatePolicyBatch analysisTime
      { handshakes := [negotiated "TLSv12" .conflicting] } with
  | error e =>
    rw [heval] at hrun
    exact absurd hrun (by simp [Except.isOk, Except.toBool])
  | ok evaluation =>
    refine ⟨evaluation, rfl, gated_rule_never_passes heval ?_ ?_ ?_⟩
    · exact List.mem_singleton_self gatedRule
    · exact ⟨_, List.mem_append_right _ (List.mem_singleton_self _), Or.inl (by decide)⟩
    · intro other hother _
      obtain rfl := List.mem_singleton.mp hother
      exact Or.inl rfl

/-! ## A shipped rule on a conflicting handshake -/

theorem conflicting_handshake_passes :
    (PolicyRecord.handshake (negotiated "TLSv12" .conflicting)).evidenceState = .conflicting ∧
      ∃ evaluation check,
        tls10Run.evaluatePolicyBatch analysisTime
          { handshakes := [negotiated "TLSv12" .conflicting] } = .ok evaluation ∧
        check ∈ evaluation.checks ∧
        check.About tls10Rule (.handshake (negotiated "TLSv12" .conflicting)) ∧
        check.outcome = .pass := by
  have hrun : ((tls10Run.evaluatePolicyBatch analysisTime
      { handshakes := [negotiated "TLSv12" .conflicting] }).toOption.any fun evaluation =>
        evaluation.checks.any fun check =>
          check.About tls10Rule (.handshake (negotiated "TLSv12" .conflicting)) ∧
            check.outcome = .pass) = true := by
    decide +kernel
  cases heval : tls10Run.evaluatePolicyBatch analysisTime
      { handshakes := [negotiated "TLSv12" .conflicting] } with
  | error e =>
    rw [heval] at hrun
    exact absurd hrun (by simp [Except.toOption])
  | ok evaluation =>
    rw [heval] at hrun
    obtain ⟨check, hcheck, hpass⟩ := List.any_eq_true.mp hrun
    obtain ⟨habout, hpass⟩ := of_decide_eq_true hpass
    exact ⟨rfl, evaluation, check, rfl, hcheck, habout, hpass⟩

end Policy
end SecureMail
