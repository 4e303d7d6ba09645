import SecureMail.Policy.Engine

/-!
# What one rule leaves on one record

The evaluator decides what a rule covers and the batch turns that into documents. Each half has a
case split here, and nothing after this module unfolds either: `CoverageCase` lists the results
with the check that goes with each, and `EmissionCase` lists the documents. The second is where the
two sides of an emission are tied, since a finding is built from the result alone and a check from
the coverage alone.

A document says which rule and which record it is about: a check in its own fields, a finding in
each of its references. That is `About`, and it is all a reader of the document has.
-/

namespace SecureMail

open Policy (PolicyRule PolicyRecord)

def PolicyCheck.About (check : PolicyCheck) (rule : PolicyRule) (record : PolicyRecord) : Prop :=
  check.code = rule.id ∧ check.recordType = rule.target.recordType ∧
    check.recordKey.val = Policy.recordKey record

def Finding.About (finding : Finding) (rule : PolicyRule) (record : PolicyRecord) : Prop :=
  finding.code = rule.id ∧ finding.evidenceReferences ≠ [] ∧
    ∀ ref ∈ finding.evidenceReferences,
      ref.recordType = rule.target.recordType ∧ ref.recordKey.val = Policy.recordKey record

namespace Policy

/-- The outcomes of a check that could not be decided. -/
def Undecided (outcome : PolicyCheckOutcome) : Prop :=
  outcome = .unknown ∨ outcome = .notObservable

/-! ## Coverage -/

theorem coverageFromUnusable_undecided (states : List EvidenceState) :
    Undecided (coverageFromUnusable states).1 := by
  cases states with
  | nil => exact Or.inl rfl
  | cons first rest =>
    unfold coverageFromUnusable
    simp only
    split
    · exact Or.inr rfl
    · exact Or.inl rfl

/-- What a rule can cover in a context. A case has the answers of both lists of predicates among its
fields, so that no later proof evaluates them again. -/
inductive CoverageCase (rule : PolicyRule) (context : Context) : RuleCoverage → Prop
  | silent : CoverageCase rule context notApplicable
  | undecidedWhere (outcome : PolicyCheckOutcome) (state : EvidenceState)
      (hout : Undecided outcome) :
      CoverageCase rule context ⟨.notApplicable, some (outcome, state)⟩
  | passed (state : EvidenceState) (hwhere : evalPredicates rule.where context = .ok .pass)
      (hassertion : evalPredicates rule.assertion context = .ok .pass) :
      CoverageCase rule context ⟨.pass, some (.pass, state)⟩
  | undecided (outcome : PolicyCheckOutcome) (state : EvidenceState) (hout : Undecided outcome) :
      CoverageCase rule context ⟨.indeterminate, some (outcome, state)⟩
  | failed (state : EvidenceState) (hout : rule.failOutcome = .negative) :
      CoverageCase rule context ⟨.negative, some (.fail, state)⟩

theorem evalPredicates_eq_ok {predicates : List Predicate} {context : Context}
    {state : PredicateTriState} : evalPredicates predicates context = .ok state ↔
      ∃ states, evalPredicatesWithUnusable predicates context = .ok (state, states) := by
  unfold evalPredicates
  rw [Fallible.bind_eq_ok]
  constructor
  · rintro ⟨⟨answer, states⟩, h, hpure⟩
    obtain rfl := Fallible.pure_eq_ok.mp hpure
    exact ⟨states, h⟩
  · rintro ⟨states, h⟩
    exact ⟨(state, states), h, rfl⟩

theorem evaluateRuleWithCoverage_cases {rule : PolicyRule} {context : Context}
    {instant : Py.Datetime} {coverage : RuleCoverage}
    (h : evaluateRuleWithCoverage rule context instant = .ok coverage) :
    CoverageCase rule context coverage := by
  unfold evaluateRuleWithCoverage at h
  split at h
  · obtain rfl := Fallible.pure_eq_ok.mp h
    exact .silent
  split at h
  · obtain rfl := Fallible.pure_eq_ok.mp h
    exact .silent
  obtain ⟨⟨whereState, whereUnusable⟩, hwhere, h⟩ := Fallible.bind_eq_ok.mp h
  cases whereState with
  | fail =>
    obtain rfl := Fallible.pure_eq_ok.mp h
    exact .silent
  | unusable =>
    obtain rfl := Fallible.pure_eq_ok.mp h
    exact .undecidedWhere _ _ (coverageFromUnusable_undecided whereUnusable)
  | pass =>
    have hwherePass := evalPredicates_eq_ok.mpr ⟨whereUnusable, hwhere⟩
    obtain ⟨⟨assertionState, assertionUnusable⟩, hassertion, h⟩ := Fallible.bind_eq_ok.mp h
    cases assertionState with
    | pass =>
      obtain rfl := Fallible.pure_eq_ok.mp h
      exact .passed _ hwherePass (evalPredicates_eq_ok.mpr ⟨assertionUnusable, hassertion⟩)
    | unusable =>
      obtain rfl := Fallible.pure_eq_ok.mp h
      exact .undecided _ _ (coverageFromUnusable_undecided assertionUnusable)
    | fail =>
      -- A rule may be written to fail without a verdict.
      simp only at h
      split at h
      · obtain rfl := Fallible.pure_eq_ok.mp h
        exact .undecided _ _ (Or.inl rfl)
      · rename_i hout
        obtain rfl := Fallible.pure_eq_ok.mp h
        refine .failed _ ?_
        cases houtcome : rule.failOutcome with
        | negative => rfl
        | indeterminate => exact absurd houtcome hout

/-! ## Documents -/

theorem keepWeaker_ne_nil (unique : Py.Dict String EvidenceState)
    (pair : String × EvidenceState) : (keepWeaker unique pair).entries ≠ [] := by
  have hset : ∀ state, (unique.set pair.1 state).entries ≠ [] := by
    intro state hnil
    have hmem : pair.1 ∈ (unique.set pair.1 state).keys := Py.Dict.mem_keys_set.mpr (Or.inl rfl)
    rw [Py.Dict.keys, hnil] at hmem
    exact absurd hmem (by simp)
  unfold keepWeaker
  cases hget : unique.get? pair.1 with
  | none => exact hset pair.2
  | some state =>
    simp only
    split
    · exact hset pair.2
    · intro hnil
      rw [Py.Dict.get?, hnil] at hget
      exact absurd hget (by simp)

theorem foldl_keepWeaker_ne_nil {pairs : List (String × EvidenceState)}
    {unique : Py.Dict String EvidenceState} (h : pairs ≠ [] ∨ unique.entries ≠ []) :
    (pairs.foldl keepWeaker unique).entries ≠ [] := by
  induction pairs generalizing unique with
  | nil =>
    rcases h with h | h
    · exact absurd rfl h
    · exact h
  | cons pair rest ih => exact ih (Or.inr (keepWeaker_ne_nil unique pair))

/-- A rule asserts something, so there is a reference, and every reference is to the record. -/
theorem references_eq_ok {rule : PolicyRule} {context : Context} {key : String}
    {target : PolicyTarget} {refs : List EvidenceReference}
    (h : references rule context key target = .ok refs) :
    refs ≠ [] ∧ ∀ ref ∈ refs, ref.recordType = target.recordType ∧ ref.recordKey.val = key := by
  obtain ⟨made, hmade, h⟩ := Fallible.bind_eq_ok.mp h
  obtain rfl := Fallible.pure_eq_ok.mp h
  have hperm := List.perm_insertionSort
    (fun a b : EvidenceReference => a.fieldPath.val ≤ b.fieldPath.val) made
  constructor
  · -- A rule has an assertion, and collecting the weakest state of a path loses no path.
    have hpairs : referencePairs rule context ≠ [] := by
      intro hnil
      have hlength := congrArg List.length hnil
      have hassertion := rule.assertion_bounds.1
      simp only [referencePairs, List.length_append, List.length_map, List.length_nil] at hlength
      omega
    intro hnil
    rw [hnil] at hperm
    have hlength := Fallible.length_of_mapM hmade
    rw [← hperm.length_eq, List.length_nil] at hlength
    exact foldl_keepWeaker_ne_nil (Or.inl hpairs) (List.length_eq_zero_iff.mp hlength.symm)
  · intro ref href
    obtain ⟨entry, _, hentry⟩ := Fallible.exists_of_mem_mapM hmade (hperm.mem_iff.mp href)
    obtain ⟨recordKey, hkey, hentry⟩ := Fallible.bind_eq_ok.mp hentry
    obtain ⟨fieldPath, _, hentry⟩ := Fallible.bind_eq_ok.mp hentry
    obtain rfl := Fallible.pure_eq_ok.mp hentry
    exact ⟨rfl, Text.validate_eq_ok hkey⟩

namespace EvaluationRun

variable {run : EvaluationRun} {rule : PolicyRule} {context : Context} {record : PolicyRecord}

theorem toFinding_eq_ok {instant : Py.Datetime} {outcome : FindingOutcome} {finding : Finding}
    (h : run.toFinding rule instant context outcome record = .ok finding) :
    finding.About rule record ∧ finding.outcome = outcome := by
  obtain ⟨refs, hrefs, h⟩ := Fallible.bind_eq_ok.mp h
  obtain ⟨profile, _, h⟩ := Fallible.bind_eq_ok.mp h
  obtain ⟨digest, _, h⟩ := Fallible.bind_eq_ok.mp h
  obtain ⟨endpoint, _, h⟩ := Fallible.bind_eq_ok.mp h
  split at h
  · obtain rfl := Fallible.pure_eq_ok.mp h
    obtain ⟨hne, hall⟩ := references_eq_ok hrefs
    exact ⟨⟨rfl, hne, hall⟩, rfl⟩
  · exact absurd h (by intro hthrow; cases hthrow)

theorem toCheck_eq_ok {outcome : PolicyCheckOutcome} {state : EvidenceState} {check : PolicyCheck}
    (h : run.toCheck rule context record outcome state = .ok check) :
    check.About rule record ∧ check.outcome = outcome := by
  obtain ⟨endpoint, _, h⟩ := Fallible.bind_eq_ok.mp h
  obtain ⟨key, hkey, h⟩ := Fallible.bind_eq_ok.mp h
  obtain rfl := Fallible.pure_eq_ok.mp h
  exact ⟨⟨rfl, rfl, Text.validate_eq_ok hkey⟩, rfl⟩

end EvaluationRun

/-! ## Emissions -/

/-- The documents one rule can leave on one record. A finding never stands alone: in each case that
has one there is a check beside it. -/
inductive EmissionCase (rule : PolicyRule) (record : PolicyRecord) : Emission → Prop
  | silent : EmissionCase rule record {}
  | passed (check : PolicyCheck) (hcheck : check.About rule record)
      (hout : check.outcome = .pass) : EmissionCase rule record { check := some check }
  | undecidedWhere (check : PolicyCheck) (hcheck : check.About rule record)
      (hout : Undecided check.outcome) : EmissionCase rule record { check := some check }
  | undecided (check : PolicyCheck) (finding : Finding) (hcheck : check.About rule record)
      (hfinding : finding.About rule record) (hout : Undecided check.outcome)
      (hfout : finding.outcome = .indeterminate) : EmissionCase rule record ⟨some check, some finding⟩
  | failed (check : PolicyCheck) (finding : Finding) (hcheck : check.About rule record)
      (hfinding : finding.About rule record) (hout : check.outcome = .fail)
      (hfout : finding.outcome = .negative) : EmissionCase rule record ⟨some check, some finding⟩

namespace EvaluationRun

variable {run : EvaluationRun} {batch : EvidenceBatch} {instant : Py.Datetime}
  {rule : PolicyRule} {record : PolicyRecord} {emission : Emission}

/-- The documents of a record are the coverage of the rule in the record's context, written out. -/
theorem evaluateRecord_eq_ok (h : run.evaluateRecord batch instant rule record = .ok emission) :
    ∃ context coverage, buildContext run.pack batch record = .ok context ∧
      evaluateRuleWithCoverage rule context instant = .ok coverage ∧
      (coverage.check.mapM fun covered =>
        run.toCheck rule context record covered.1 covered.2) = .ok emission.check ∧
      ((findingOutcome rule coverage.result).mapM fun outcome =>
        run.toFinding rule instant context outcome record) = .ok emission.finding := by
  obtain ⟨context, hcontext, h⟩ := Fallible.bind_eq_ok.mp h
  obtain ⟨coverage, hcoverage, h⟩ := Fallible.bind_eq_ok.mp h
  obtain ⟨check, hcheck, h⟩ := Fallible.bind_eq_ok.mp h
  obtain ⟨finding, hfinding, h⟩ := Fallible.bind_eq_ok.mp h
  obtain rfl := Fallible.pure_eq_ok.mp h
  exact ⟨context, coverage, hcontext, hcoverage, hcheck, hfinding⟩

/-- **The two sides of an emission agree.** All that is proved of findings together with checks
starts from this case split. -/
theorem evaluateRecord_cases (h : run.evaluateRecord batch instant rule record = .ok emission) :
    EmissionCase rule record emission := by
  obtain ⟨context, coverage, _, hcoverage, hcheck, hfinding⟩ := evaluateRecord_eq_ok h
  obtain ⟨emittedCheck, emittedFinding⟩ := emission
  have hcases := evaluateRuleWithCoverage_cases hcoverage
  cases hcases with
  | silent =>
    obtain rfl := Fallible.mapM_none_eq_ok.mp hcheck
    obtain rfl := Fallible.mapM_none_eq_ok.mp hfinding
    exact .silent
  | undecidedWhere outcome state hout =>
    obtain ⟨check, hmade, rfl⟩ := Fallible.mapM_some_eq_ok.mp hcheck
    obtain rfl := Fallible.mapM_none_eq_ok.mp hfinding
    obtain ⟨habout, rfl⟩ := toCheck_eq_ok hmade
    exact .undecidedWhere check habout hout
  | passed state _ _ =>
    obtain ⟨check, hmade, rfl⟩ := Fallible.mapM_some_eq_ok.mp hcheck
    obtain rfl := Fallible.mapM_none_eq_ok.mp hfinding
    obtain ⟨habout, hpass⟩ := toCheck_eq_ok hmade
    exact .passed check habout hpass
  | undecided outcome state hout =>
    obtain ⟨check, hmade, rfl⟩ := Fallible.mapM_some_eq_ok.mp hcheck
    obtain ⟨finding, hjudged, rfl⟩ := Fallible.mapM_some_eq_ok.mp hfinding
    obtain ⟨habout, rfl⟩ := toCheck_eq_ok hmade
    obtain ⟨hfabout, hfout⟩ := toFinding_eq_ok hjudged
    exact .undecided check finding habout hfabout hout hfout
  | failed state hnegative =>
    obtain ⟨check, hmade, rfl⟩ := Fallible.mapM_some_eq_ok.mp hcheck
    obtain ⟨finding, hjudged, rfl⟩ := Fallible.mapM_some_eq_ok.mp hfinding
    obtain ⟨habout, hfail⟩ := toCheck_eq_ok hmade
    obtain ⟨hfabout, hfout⟩ := toFinding_eq_ok hjudged
    exact .failed check finding habout hfabout hfail (hfout.trans hnegative)

end EvaluationRun

end Policy
end SecureMail
