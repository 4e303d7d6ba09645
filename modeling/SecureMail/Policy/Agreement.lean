import SecureMail.Policy.Emission
import SecureMail.Lib.Keyed

/-!
# Findings and checks agree

The coverage of a pack is counted from checks and its posture is told from findings, so the two
lists have to be two views of one evaluation. They are sorted by different keys and joined on what
a document says of itself, its code, its record type and its record key.

An evaluation that returns has a `Journal`: each pair of an active rule and a record of its target,
with what the rule left on the record, and the two lists are the two columns of it in some order. A
pack has no two rules with one id; where no two records of a target have one key either, no two
entries have one subject, and what a reader finds by joining is one entry of the journal.
-/

namespace SecureMail

open Policy (PolicyRule PolicyRecord)

instance (check : PolicyCheck) (rule : PolicyRule) (record : PolicyRecord) :
    Decidable (check.About rule record) :=
  inferInstanceAs (Decidable (_ ∧ _ ∧ _))

instance (finding : Finding) (rule : PolicyRule) (record : PolicyRecord) :
    Decidable (finding.About rule record) :=
  inferInstanceAs (Decidable (_ ∧ _ ∧ _))

/-- A finding and a check carry the same code, record type and record key. It is how a reader of the
document joins the two lists. -/
def Finding.SameSubject (finding : Finding) (check : PolicyCheck) : Prop :=
  check.code = finding.code ∧ finding.evidenceReferences ≠ [] ∧
    ∀ ref ∈ finding.evidenceReferences,
      ref.recordType = check.recordType ∧ ref.recordKey = check.recordKey

instance (finding : Finding) (check : PolicyCheck) : Decidable (finding.SameSubject check) :=
  inferInstanceAs (Decidable (_ ∧ _ ∧ _))

theorem Finding.About.sameSubject_iff {finding : Finding} {rule : PolicyRule}
    {record : PolicyRecord} {check : PolicyCheck} (h : finding.About rule record) :
    finding.SameSubject check ↔ check.About rule record := by
  obtain ⟨hcode, hne, hall⟩ := h
  constructor
  · rintro ⟨hcheckCode, _, hsame⟩
    obtain ⟨ref, href⟩ := List.exists_mem_of_ne_nil _ hne
    obtain ⟨htype, hkey⟩ := hall ref href
    obtain ⟨htype', hkey'⟩ := hsame ref href
    exact ⟨hcheckCode.trans hcode, htype'.symm.trans htype, hkey' ▸ hkey⟩
  · rintro ⟨hcheckCode, htype, hkey⟩
    refine ⟨hcheckCode.trans hcode.symm, hne, ?_⟩
    intro ref href
    obtain ⟨htype', hkey'⟩ := hall ref href
    exact ⟨htype'.trans htype.symm, Subtype.ext (hkey'.trans hkey.symm)⟩

namespace Policy

open EvaluationRun (evaluateRecord_cases)

/-! ## The law -/

/-- Within each target no two records have one key. Evidence of one run has it if Zeek names each
connection once. -/
def DistinctKeys (batch : EvidenceBatch) : Prop :=
  ∀ target, ((batch.recordsForTarget target).map recordKey).Nodup

/-- The rule is not for this record: it is not active, or the service of the connection has none of
its roles, or its `where` is false of the record. -/
def Inapplicable (run : EvaluationRun) (batch : EvidenceBatch) (instant : Py.Datetime)
    (rule : PolicyRule) (record : PolicyRecord) : Prop :=
  ruleActive rule instant = false ∨
    (∃ role, serviceRole run.pack (batch.flowOf record.uid) (batch.sessionOf record.uid) = .ok role ∧
      rule.roles ≠ [] ∧ role ∉ rule.roles) ∨
    ∃ context, buildContext run.pack batch record = .ok context ∧
      evalPredicates rule.where context = .ok .fail

/-- Findings and checks agree, record by record. It is stated of the two lists a caller gets, with
nothing of the loop in it. -/
structure Agreement (run : EvaluationRun) (batch : EvidenceBatch) (instant : Py.Datetime)
    (evaluation : PolicyEvaluation) : Prop where
  findings_about : ∀ finding ∈ evaluation.findings, ∃ rule ∈ run.pack.rules,
    ∃ record ∈ batch.recordsForTarget rule.target, finding.About rule record
  checks_about : ∀ check ∈ evaluation.checks, ∃ rule ∈ run.pack.rules,
    ∃ record ∈ batch.recordsForTarget rule.target, check.About rule record
  negative_iff_fail : ∀ rule ∈ run.pack.rules, ∀ record ∈ batch.recordsForTarget rule.target,
    (∃ finding ∈ evaluation.findings, finding.About rule record ∧ finding.outcome = .negative) ↔
      ∃ check ∈ evaluation.checks, check.About rule record ∧ check.outcome = .fail
  one_check : ∀ finding ∈ evaluation.findings,
    (evaluation.checks.filter fun check => finding.SameSubject check).length = 1
  indeterminate_undecided : ∀ finding ∈ evaluation.findings, finding.outcome = .indeterminate →
    ∀ check ∈ evaluation.checks, finding.SameSubject check → Undecided check.outcome
  pass_alone : ∀ check ∈ evaluation.checks, check.outcome = .pass →
    ∀ finding ∈ evaluation.findings, ¬ finding.SameSubject check
  inapplicable_silent : ∀ rule ∈ run.pack.rules, ∀ record ∈ batch.recordsForTarget rule.target,
    Inapplicable run batch instant rule record →
      (∀ check ∈ evaluation.checks, ¬ check.About rule record) ∧
        ∀ finding ∈ evaluation.findings, ¬ finding.About rule record

/-! ## The journal -/

/-- The records a rule is evaluated on. -/
def workOf (batch : EvidenceBatch) (instant : Py.Datetime) (rule : PolicyRule) :
    List (PolicyRule × PolicyRecord) :=
  if ruleActive rule instant then (batch.recordsForTarget rule.target).map (rule, ·) else []

/-- Every evaluation of a rule on a record, in order. -/
def workList (run : EvaluationRun) (batch : EvidenceBatch) (instant : Py.Datetime) :
    List (PolicyRule × PolicyRecord) :=
  run.pack.rules.flatMap (workOf batch instant)

/-- What the two loops did, pair by pair. The lists a caller gets are sorted, so which check was
emitted together with which finding cannot be told from them any more. A journal keeps it, and every
fact about the two lists together is read off an entry, where check and finding are still side by
side. -/
structure Journal (run : EvaluationRun) (batch : EvidenceBatch) (instant : Py.Datetime)
    (evaluation : PolicyEvaluation) where
  entries : List ((PolicyRule × PolicyRecord) × Emission)
  work : entries.map Prod.fst = workList run batch instant
  evaluated : ∀ e ∈ entries, run.evaluateRecord batch instant e.1.1 e.1.2 = .ok e.2
  findings : evaluation.findings.Perm (entries.filterMap fun e => e.2.finding)
  checks : evaluation.checks.Perm (entries.filterMap fun e => e.2.check)

theorem mem_workList {run : EvaluationRun} {batch : EvidenceBatch} {instant : Py.Datetime}
    {rule : PolicyRule} {record : PolicyRecord} :
    (rule, record) ∈ workList run batch instant ↔
      rule ∈ run.pack.rules ∧ ruleActive rule instant = true ∧
        record ∈ batch.recordsForTarget rule.target := by
  simp only [workList, workOf, List.mem_flatMap]
  constructor
  · rintro ⟨rule', hrule', hmem⟩
    split at hmem
    · rename_i hactive
      obtain ⟨record', hrecord', hpair⟩ := List.mem_map.mp hmem
      cases hpair
      exact ⟨hrule', hactive, hrecord'⟩
    · exact absurd hmem (by simp)
  · rintro ⟨hrule, hactive, hrecord⟩
    refine ⟨rule, hrule, ?_⟩
    rw [if_pos hactive]
    exact List.mem_map.mpr ⟨record, hrecord, rfl⟩

/-- Adding the documents of a journal one entry at a time is taking its two columns. -/
theorem foldl_add {entries : List ((PolicyRule × PolicyRecord) × Emission)}
    {evaluation : PolicyEvaluation} :
    entries.foldl (fun evaluation e => evaluation.add e.2) evaluation =
      ⟨evaluation.findings ++ entries.filterMap fun e => e.2.finding,
        evaluation.checks ++ entries.filterMap fun e => e.2.check⟩ := by
  induction entries generalizing evaluation with
  | nil => simp
  | cons e rest ih =>
    rw [List.foldl_cons, ih]
    cases hfinding : e.2.finding <;> cases hcheck : e.2.check <;>
      simp [PolicyEvaluation.add, hfinding, hcheck]

theorem ruleStep_eq {run : EvaluationRun} {batch : EvidenceBatch} {instant : Py.Datetime}
    (evaluation : PolicyEvaluation) (rule : PolicyRule) :
    run.ruleStep batch instant evaluation rule =
      (workOf batch instant rule).foldlM (fun evaluation pair => do
        pure (evaluation.add (← run.evaluateRecord batch instant pair.1 pair.2))) evaluation := by
  unfold EvaluationRun.ruleStep workOf
  cases ruleActive rule instant with
  | true =>
    rw [if_pos rfl, List.foldlM_map]
    rfl
  | false => rfl

theorem evaluatePolicyBatch_eq_ok {run : EvaluationRun} {evaluationTime : Py.Datetime}
    {batch : EvidenceBatch} {evaluation : PolicyEvaluation}
    (h : run.evaluatePolicyBatch evaluationTime batch = .ok evaluation) :
    ∃ instant, asUtc evaluationTime = .ok instant ∧
      Nonempty (Journal run batch instant evaluation) := by
  obtain ⟨instant, hinstant, h⟩ := Fallible.bind_eq_ok.mp h
  obtain ⟨unsorted, hloop, h⟩ := Fallible.bind_eq_ok.mp h
  obtain rfl := Fallible.pure_eq_ok.mp h
  refine ⟨instant, hinstant, ?_⟩
  have hpairs : (workList run batch instant).foldlM (fun evaluation pair => do
      pure (evaluation.add (← run.evaluateRecord batch instant pair.1 pair.2)))
        (⟨[], []⟩ : PolicyEvaluation) = .ok unsorted := by
    rw [workList, Fallible.foldlM_flatMap, ← hloop]
    congr 1
    funext evaluation rule
    exact (ruleStep_eq evaluation rule).symm
  obtain ⟨entries, hwork, hevaluated, hunsorted⟩ := Fallible.foldlM_journal hpairs
  rw [foldl_add] at hunsorted
  subst hunsorted
  exact ⟨⟨entries, hwork, hevaluated, List.perm_insertionSort _ _, List.perm_insertionSort _ _⟩⟩

/-! ## Subjects -/

/-- What a document is joined on; the id of a rule decides its target. -/
def subject (pair : PolicyRule × PolicyRecord) : Text 64 × String := (pair.1.id, recordKey pair.2)

theorem rule_of_id {pack : PolicyPack} {rule rule' : PolicyRule} (hrule : rule ∈ pack.rules)
    (hrule' : rule' ∈ pack.rules) (h : rule.id = rule'.id) : rule = rule' :=
  List.inj_on_of_nodup_map pack.unique_rules hrule hrule' (congrArg Subtype.val h)

theorem nodup_subjects {run : EvaluationRun} {batch : EvidenceBatch} {instant : Py.Datetime}
    (hkeys : DistinctKeys batch) : ((workList run batch instant).map subject).Nodup := by
  rw [workList, List.map_flatMap, List.nodup_flatMap]
  constructor
  · intro rule _
    unfold workOf
    split
    · have hmap : ((batch.recordsForTarget rule.target).map (rule, ·)).map subject =
          ((batch.recordsForTarget rule.target).map recordKey).map (rule.id, ·) := by
        rw [List.map_map, List.map_map]
        rfl
      rw [hmap]
      exact (hkeys rule.target).map (Prod.mk_right_injective rule.id)
    · exact List.nodup_nil
  · -- Two rules of a pack differ in their ids, so their subjects do.
    have hids := List.pairwise_map.mp run.pack.unique_rules
    refine hids.imp ?_
    intro rule rule' hne pair hpair hpair'
    have hid : ∀ r : PolicyRule, pair ∈ (workOf batch instant r).map subject → pair.1 = r.id := by
      intro r hmem
      obtain ⟨work, hwork, rfl⟩ := List.mem_map.mp hmem
      unfold workOf at hwork
      split at hwork
      · obtain ⟨record, _, rfl⟩ := List.mem_map.mp hwork
        rfl
      · exact absurd hwork (by simp)
    exact hne (congrArg Subtype.val ((hid rule hpair).symm.trans (hid rule' hpair')))

/-! ## Silence -/

/-- The role a rule looks up is the connection's. -/
theorem buildContext_serviceRole {pack : PolicyPack} {batch : EvidenceBatch}
    {record : PolicyRecord} {context : Context} {role : String}
    (h : buildContext pack batch record = .ok context)
    (hrole : serviceRole pack (batch.flowOf record.uid) (batch.sessionOf record.uid) = .ok role) :
    getPath context "derived.service_role" = .str role := by
  obtain ⟨derivedFacts, hderived, h⟩ := Fallible.bind_eq_ok.mp h
  obtain ⟨certificateFacts, _, h⟩ := Fallible.bind_eq_ok.mp h
  obtain rfl := Fallible.pure_eq_ok.mp h
  obtain ⟨role', hrole', hderived⟩ := Fallible.bind_eq_ok.mp hderived
  obtain rfl := Fallible.pure_eq_ok.mp hderived
  obtain rfl : role = role' := Except.ok.inj (hrole.symm.trans hrole')
  have hparts : Py.splitOnChar '.' "derived.service_role" = ["derived", "service_role"] := by
    decide
  rw [getPath, hparts]
  simp [stepInto, Py.lookup, List.lookup_cons]

/-- A rule that is not for a record covers nothing of it. -/
theorem coverage_of_inapplicable {run : EvaluationRun} {batch : EvidenceBatch}
    {instant : Py.Datetime} {rule : PolicyRule} {record : PolicyRecord} {context : Context}
    {coverage : RuleCoverage} (hcontext : buildContext run.pack batch record = .ok context)
    (hcoverage : evaluateRuleWithCoverage rule context instant = .ok coverage)
    (h : Inapplicable run batch instant rule record) : coverage = notApplicable := by
  unfold evaluateRuleWithCoverage at hcoverage
  split at hcoverage
  · exact (Fallible.pure_eq_ok.mp hcoverage).symm
  rename_i hactive
  split at hcoverage
  · exact (Fallible.pure_eq_ok.mp hcoverage).symm
  rename_i hrole
  rcases h with hinactive | ⟨role, hservice, hroles, hnot⟩ | ⟨context', hcontext', hwhere⟩
  · rw [hinactive] at hactive
    exact absurd rfl hactive
  · -- The role in the context is the one the law speaks of.
    exfalso
    apply hrole
    rw [roleMismatch, buildContext_serviceRole hcontext hservice]
    simp [hroles, hnot]
  · obtain rfl : context' = context := Except.ok.inj (hcontext'.symm.trans hcontext)
    obtain ⟨states, hstates⟩ := evalPredicates_eq_ok.mp hwhere
    rw [hstates] at hcoverage
    exact (Fallible.pure_eq_ok.mp hcoverage).symm

theorem emission_of_inapplicable {run : EvaluationRun} {batch : EvidenceBatch}
    {instant : Py.Datetime} {rule : PolicyRule} {record : PolicyRecord} {emission : Emission}
    (hemission : run.evaluateRecord batch instant rule record = .ok emission)
    (h : Inapplicable run batch instant rule record) : emission = {} := by
  obtain ⟨context, coverage, hcontext, hcoverage, hcheck, hfinding⟩ :=
    EvaluationRun.evaluateRecord_eq_ok hemission
  obtain rfl := coverage_of_inapplicable hcontext hcoverage h
  obtain ⟨check, finding⟩ := emission
  obtain rfl := Fallible.mapM_none_eq_ok.mp hcheck
  obtain rfl := Fallible.mapM_none_eq_ok.mp hfinding
  rfl

/-! ## Reading the journal -/

namespace Journal

variable {run : EvaluationRun} {batch : EvidenceBatch} {instant : Py.Datetime}
  {evaluation : PolicyEvaluation} (journal : Journal run batch instant evaluation)

theorem mem_work {e : (PolicyRule × PolicyRecord) × Emission} (he : e ∈ journal.entries) :
    e.1.1 ∈ run.pack.rules ∧ ruleActive e.1.1 instant = true ∧
      e.1.2 ∈ batch.recordsForTarget e.1.1.target := by
  have hmem : e.1 ∈ workList run batch instant := journal.work ▸ List.mem_map_of_mem he
  exact mem_workList.mp hmem

theorem cases {e : (PolicyRule × PolicyRecord) × Emission} (he : e ∈ journal.entries) :
    EmissionCase e.1.1 e.1.2 e.2 :=
  evaluateRecord_cases (journal.evaluated e he)

/-- An active rule and a record of its target have an entry. -/
theorem exists_entry {rule : PolicyRule} {record : PolicyRecord} (hrule : rule ∈ run.pack.rules)
    (hactive : ruleActive rule instant = true)
    (hrecord : record ∈ batch.recordsForTarget rule.target) :
    ∃ e ∈ journal.entries, e.1 = (rule, record) := by
  have hmem := mem_workList.mpr ⟨hrule, hactive, hrecord⟩
  rw [← journal.work] at hmem
  obtain ⟨e, he, hpair⟩ := List.mem_map.mp hmem
  exact ⟨e, he, hpair⟩

theorem exists_of_mem_findings {finding : Finding} (h : finding ∈ evaluation.findings) :
    ∃ e ∈ journal.entries, e.2.finding = some finding :=
  List.mem_filterMap.mp (journal.findings.mem_iff.mp h)

theorem exists_of_mem_checks {check : PolicyCheck} (h : check ∈ evaluation.checks) :
    ∃ e ∈ journal.entries, e.2.check = some check :=
  List.mem_filterMap.mp (journal.checks.mem_iff.mp h)

theorem finding_about {e : (PolicyRule × PolicyRecord) × Emission} (he : e ∈ journal.entries)
    {finding : Finding} (h : e.2.finding = some finding) : finding.About e.1.1 e.1.2 := by
  have hcases := journal.cases he
  generalize e.2 = emission at hcases h
  cases hcases with
  | undecided check finding' _ hfinding _ _ =>
    cases h
    exact hfinding
  | failed check finding' _ hfinding _ _ =>
    cases h
    exact hfinding
  | _ => cases h

theorem check_about {e : (PolicyRule × PolicyRecord) × Emission} (he : e ∈ journal.entries)
    {check : PolicyCheck} (h : e.2.check = some check) : check.About e.1.1 e.1.2 := by
  have hcases := journal.cases he
  generalize e.2 = emission at hcases h
  cases hcases with
  | silent => cases h
  | passed check' hcheck _ =>
    cases h
    exact hcheck
  | undecidedWhere check' hcheck _ =>
    cases h
    exact hcheck
  | undecided check' finding hcheck _ _ _ =>
    cases h
    exact hcheck
  | failed check' finding hcheck _ _ _ =>
    cases h
    exact hcheck

/-- Of two entries, what one leaves is about the pair of the other only if they are one. -/
theorem about_iff_subject {e e' : (PolicyRule × PolicyRecord) × Emission}
    (he : e ∈ journal.entries) (he' : e' ∈ journal.entries) :
    (e'.1.1.id = e.1.1.id ∧ e'.1.1.target.recordType = e.1.1.target.recordType ∧
      recordKey e'.1.2 = recordKey e.1.2) ↔ subject e'.1 = subject e.1 := by
  rw [subject, subject, Prod.mk.injEq]
  constructor
  · rintro ⟨hid, _, hkey⟩
    exact ⟨hid, hkey⟩
  · rintro ⟨hid, hkey⟩
    have hrule := rule_of_id (journal.mem_work he').1 (journal.mem_work he).1 hid
    exact ⟨hid, by rw [hrule], hkey⟩

section Distinct

variable (hkeys : DistinctKeys batch)
include hkeys

theorem nodup_entries : (journal.entries.map fun e => subject e.1).Nodup := by
  have hmap : journal.entries.map (fun e => subject e.1) =
      (workList run batch instant).map subject := by
    rw [← journal.work, List.map_map]
    rfl
  rw [hmap]
  exact nodup_subjects hkeys

/-- The checks about the pair of an entry are the check of the entry. -/
theorem checks_about {e : (PolicyRule × PolicyRecord) × Emission} (he : e ∈ journal.entries) :
    (evaluation.checks.filter fun check => check.About e.1.1 e.1.2).Perm e.2.check.toList := by
  refine (journal.checks.filter _).trans (List.Perm.of_eq ?_)
  refine Keyed.filter_filterMap_of_key (journal.nodup_entries hkeys) he ?_
  intro e' he' check hcheck
  rw [decide_eq_true_eq, ← journal.about_iff_subject he he']
  obtain ⟨hcode, htype, hkey⟩ := journal.check_about he' hcheck
  rw [PolicyCheck.About, hcode, htype, hkey]

theorem mem_checks_about {e : (PolicyRule × PolicyRecord) × Emission} (he : e ∈ journal.entries)
    {check : PolicyCheck} :
    check ∈ evaluation.checks ∧ check.About e.1.1 e.1.2 ↔ e.2.check = some check := by
  rw [← Option.mem_toList, ← (journal.checks_about hkeys he).mem_iff,
    List.mem_filter, decide_eq_true_eq]

/-- The findings about the pair of an entry are the finding of the entry. -/
theorem mem_findings_about {e : (PolicyRule × PolicyRecord) × Emission} (he : e ∈ journal.entries)
    {finding : Finding} :
    finding ∈ evaluation.findings ∧ finding.About e.1.1 e.1.2 ↔ e.2.finding = some finding := by
  constructor
  · rintro ⟨hmem, hcode, hne, hall⟩
    obtain ⟨e', he', hfinding⟩ := journal.exists_of_mem_findings hmem
    obtain ⟨hcode', _, hall'⟩ := journal.finding_about he' hfinding
    obtain ⟨ref, href⟩ := List.exists_mem_of_ne_nil _ hne
    have hsubject : subject e'.1 = subject e.1 :=
      Prod.ext (hcode'.symm.trans hcode) ((hall' ref href).2.symm.trans (hall ref href).2)
    obtain rfl := List.inj_on_of_nodup_map (journal.nodup_entries hkeys) he' he hsubject
    exact hfinding
  · intro hfinding
    refine ⟨journal.findings.mem_iff.mpr ?_, journal.finding_about he hfinding⟩
    exact List.mem_filterMap.mpr ⟨e, he, hfinding⟩

end Distinct

include journal

/-- Documents about a rule and a record are there for an active rule only. -/
theorem active_of_check {rule : PolicyRule} {record : PolicyRecord} {check : PolicyCheck}
    (hrule : rule ∈ run.pack.rules) (hmem : check ∈ evaluation.checks)
    (habout : check.About rule record) : ruleActive rule instant = true := by
  obtain ⟨e, he, hcheck⟩ := journal.exists_of_mem_checks hmem
  obtain ⟨hcode, _, _⟩ := journal.check_about he hcheck
  obtain ⟨hpack, hactive, _⟩ := journal.mem_work he
  rwa [rule_of_id hpack hrule (hcode.symm.trans habout.1)] at hactive

theorem active_of_finding {rule : PolicyRule} {record : PolicyRecord} {finding : Finding}
    (hrule : rule ∈ run.pack.rules) (hmem : finding ∈ evaluation.findings)
    (habout : finding.About rule record) : ruleActive rule instant = true := by
  obtain ⟨e, he, hfinding⟩ := journal.exists_of_mem_findings hmem
  obtain ⟨hcode, _, _⟩ := journal.finding_about he hfinding
  obtain ⟨hpack, hactive, _⟩ := journal.mem_work he
  rwa [rule_of_id hpack hrule (hcode.symm.trans habout.1)] at hactive

end Journal

/-! ## Agreement -/

namespace Journal

variable {run : EvaluationRun} {batch : EvidenceBatch} {instant : Py.Datetime}
  {evaluation : PolicyEvaluation} (journal : Journal run batch instant evaluation)
include journal

/-- The check beside a finding: the same entry left both. -/
theorem check_of_finding {finding : Finding} (h : finding ∈ evaluation.findings) :
    ∃ e ∈ journal.entries, ∃ check, e.2.finding = some finding ∧ e.2.check = some check ∧
      finding.About e.1.1 e.1.2 ∧
      ((check.outcome = .fail ∧ finding.outcome = .negative) ∨
        (Undecided check.outcome ∧ finding.outcome = .indeterminate)) := by
  obtain ⟨e, he, hfinding⟩ := journal.exists_of_mem_findings h
  have habout := journal.finding_about he hfinding
  have hcases := journal.cases he
  refine ⟨e, he, ?_⟩
  generalize e.2 = emission at hcases hfinding
  cases hcases with
  | undecided check finding' _ _ hout hfout =>
    cases hfinding
    exact ⟨check, rfl, rfl, habout, Or.inr ⟨hout, hfout⟩⟩
  | failed check finding' _ _ hout hfout =>
    cases hfinding
    exact ⟨check, rfl, rfl, habout, Or.inl ⟨hout, hfout⟩⟩
  | _ => cases hfinding

variable (hkeys : DistinctKeys batch)
include hkeys

theorem negative_iff_fail {rule : PolicyRule} {record : PolicyRecord}
    (hrule : rule ∈ run.pack.rules) (hrecord : record ∈ batch.recordsForTarget rule.target) :
    (∃ finding ∈ evaluation.findings, finding.About rule record ∧ finding.outcome = .negative) ↔
      ∃ check ∈ evaluation.checks, check.About rule record ∧ check.outcome = .fail := by
  cases hactive : ruleActive rule instant with
  | false =>
    -- An inactive rule has no entry, so neither side has a document of it.
    constructor
    · rintro ⟨finding, hmem, habout, _⟩
      rw [journal.active_of_finding hrule hmem habout] at hactive
      cases hactive
    · rintro ⟨check, hmem, habout, _⟩
      rw [journal.active_of_check hrule hmem habout] at hactive
      cases hactive
  | true =>
    obtain ⟨⟨pair, emission⟩, he, rfl⟩ := journal.exists_entry hrule hactive hrecord
    have hfindings : ∀ finding, finding ∈ evaluation.findings ∧ finding.About rule record ↔
        emission.finding = some finding := fun _ => journal.mem_findings_about hkeys he
    have hchecks : ∀ check, check ∈ evaluation.checks ∧ check.About rule record ↔
        emission.check = some check := fun _ => journal.mem_checks_about hkeys he
    simp only [← and_assoc, hfindings, hchecks]
    -- With both sides read off one entry, its case decides.
    have hcases := journal.cases he
    cases hcases with
    | silent => simp
    | passed check _ hout => simp [hout]
    | undecidedWhere check _ hout => rcases hout with hout | hout <;> simp [hout]
    | undecided check finding _ _ hout hfout => rcases hout with hout | hout <;> simp [hout, hfout]
    | failed check finding _ _ hout hfout => simp [hout, hfout]

theorem one_check {finding : Finding} (h : finding ∈ evaluation.findings) :
    (evaluation.checks.filter fun check => finding.SameSubject check).length = 1 := by
  obtain ⟨e, he, check, hfinding, hcheck, habout, _⟩ := journal.check_of_finding h
  have hsame : (fun check => decide (finding.SameSubject check)) =
      fun check : PolicyCheck => decide (check.About e.1.1 e.1.2) := by
    funext check
    exact decide_eq_decide.mpr habout.sameSubject_iff
  rw [hsame, (journal.checks_about hkeys he).length_eq, hcheck]
  rfl

/-- A check with the subject of a finding is the one beside it. -/
theorem outcomes_of_sameSubject {finding : Finding} {check : PolicyCheck}
    (h : finding ∈ evaluation.findings) (hmem : check ∈ evaluation.checks)
    (hsame : finding.SameSubject check) :
    (check.outcome = .fail ∧ finding.outcome = .negative) ∨
      (Undecided check.outcome ∧ finding.outcome = .indeterminate) := by
  obtain ⟨e, he, beside, _, hbeside, habout, hout⟩ := journal.check_of_finding h
  have hcheck := (journal.mem_checks_about hkeys he).mp ⟨hmem, habout.sameSubject_iff.mp hsame⟩
  rw [hbeside] at hcheck
  cases hcheck
  exact hout

theorem agreement : Agreement run batch instant evaluation where
  findings_about := by
    intro finding h
    obtain ⟨e, he, hfinding⟩ := journal.exists_of_mem_findings h
    obtain ⟨hrule, _, hrecord⟩ := journal.mem_work he
    exact ⟨e.1.1, hrule, e.1.2, hrecord, journal.finding_about he hfinding⟩
  checks_about := by
    intro check h
    obtain ⟨e, he, hcheck⟩ := journal.exists_of_mem_checks h
    obtain ⟨hrule, _, hrecord⟩ := journal.mem_work he
    exact ⟨e.1.1, hrule, e.1.2, hrecord, journal.check_about he hcheck⟩
  negative_iff_fail _ hrule _ hrecord := journal.negative_iff_fail hkeys hrule hrecord
  one_check _ h := journal.one_check hkeys h
  indeterminate_undecided := by
    intro finding h hindeterminate check hmem hsame
    rcases journal.outcomes_of_sameSubject hkeys h hmem hsame with ⟨_, hnegative⟩ | ⟨hout, _⟩
    · rw [hindeterminate] at hnegative
      cases hnegative
    · exact hout
  pass_alone := by
    intro check hmem hpass finding h hsame
    rcases journal.outcomes_of_sameSubject hkeys h hmem hsame with ⟨hout, _⟩ | ⟨hout | hout, _⟩
    · rw [hpass] at hout
      cases hout
    · rw [hpass] at hout
      cases hout
    · rw [hpass] at hout
      cases hout
  inapplicable_silent := by
    intro rule hrule record hrecord hinapplicable
    have hnone : ∀ e ∈ journal.entries, e.1 = (rule, record) → e.2 = {} := by
      rintro ⟨pair, emission⟩ he rfl
      exact emission_of_inapplicable (journal.evaluated _ he) hinapplicable
    constructor
    · intro check hmem habout
      have hactive := journal.active_of_check hrule hmem habout
      obtain ⟨⟨pair, emission⟩, he, rfl⟩ := journal.exists_entry hrule hactive hrecord
      have hcheck := (journal.mem_checks_about hkeys he).mp ⟨hmem, habout⟩
      rw [hnone _ he rfl] at hcheck
      cases hcheck
    · intro finding hmem habout
      have hactive := journal.active_of_finding hrule hmem habout
      obtain ⟨⟨pair, emission⟩, he, rfl⟩ := journal.exists_entry hrule hactive hrecord
      have hfinding := (journal.mem_findings_about hkeys he).mp ⟨hmem, habout⟩
      rw [hnone _ he rfl] at hfinding
      cases hfinding

end Journal

/-- **Findings and checks are two views of one evaluation.** For every pack, and every batch in
which no two records of a target have one key. -/
theorem findings_and_checks_agree {run : EvaluationRun} {evaluationTime : Py.Datetime}
    {batch : EvidenceBatch} {evaluation : PolicyEvaluation}
    (h : run.evaluatePolicyBatch evaluationTime batch = .ok evaluation)
    (hkeys : DistinctKeys batch) :
    ∃ instant, asUtc evaluationTime = .ok instant ∧
      Agreement run batch instant evaluation := by
  obtain ⟨instant, hinstant, ⟨journal⟩⟩ := evaluatePolicyBatch_eq_ok h
  exact ⟨instant, hinstant, journal.agreement hkeys⟩

/-! ## One rule of the shipped packs -/

/-- The assertion of the rule. -/
def notTls10 : Predicate :=
  { path := "handshake.version.selected", operator := .notEq, value := .str "TLSv10" }

/-- `TLS_NEGOTIATED_TLS10`, from the first of March 2021. -/
def tls10Rule : PolicyRule :=
  { id := ⟨"TLS_NEGOTIATED_TLS10", by decide⟩
    target := .handshake
    effectiveFrom := 737849
    «where» :=
      [{ path := "handshake.version.evidence_state", operator := .isIn
         value := .list [.str "observed", .str "verified"] }]
    assertion := [notTls10]
    severity := { negative := .high }
    title := ⟨"TLS 1.0 negotiated", by decide⟩
    rationale :=
      ⟨"TLS 1.0 is formally deprecated. Implementations MUST NOT negotiate TLS 1.0.",
        by decide +kernel⟩
    standards := ["RFC 8996 §4", "RFC 9325 §3.1.1"]
    remediationId := ⟨"tls.minimum_version", by decide⟩ }

def tls10Pack : PolicyPack :=
  { profile := .ietfCurrent
    version := ⟨"2026.09.0", by decide⟩
    evaluationClock := .analysisTime
    rules := [tls10Rule]
    unique_rules := List.nodup_singleton _
    known_roles := by simp [tls10Rule] }

/-! The SHA-256 of the id texts the rule has for the record `C1`, and of one it has for `C2`. -/

def passDigest : Sha256Hex :=
  ⟨"cba44af316ca95dd7d438e8374797ef6c402bf6236c1945c2151e49633fb378b", by decide +kernel⟩

def failDigest : Sha256Hex :=
  ⟨"a256cf6604e90a9537eeb3b8b412ed9bbd0f7bcbba06bbd3652d82cd22a8c0a1", by decide +kernel⟩

def unknownDigest : Sha256Hex :=
  ⟨"4897584a92544479ff847fe2028f601fc03d03440df6ef9eaec987d0fe9a1941", by decide +kernel⟩

def negativeDigest : Sha256Hex :=
  ⟨"3a1dd4762a8b6f865129b73a9e3c47d944d26257d805987879596a881d4599c7", by decide +kernel⟩

def indeterminateDigest : Sha256Hex :=
  ⟨"028e5da246b9b7cf25b7d7346ea3bab0c62a62b8f0909395fad6967f9fcfab64", by decide +kernel⟩

def secondPassDigest : Sha256Hex :=
  ⟨"c6f42f1694696d67b95e5c77b5282094ac04d6cdfce7f9adc1d9f340a28ca702", by decide +kernel⟩

def tls10Sha256 (text : String) : Sha256Hex :=
  if Py.isIn "|pass|" text then passDigest
  else if Py.isIn "|fail|" text then failDigest
  else if Py.isIn "|unknown|" text then unknownDigest
  else if Py.isIn "|negative|" text then negativeDigest
  else indeterminateDigest

def tls10Run : EvaluationRun :=
  { sha256 := tls10Sha256
    pack := tls10Pack
    packDigest := "bbbbbbbbbbbbbbbbbbbbbbbbbbbbbbbbbbbbbbbbbbbbbbbbbbbbbbbbbbbbbbbb"
    captureSha256 := "aaaaaaaaaaaaaaaaaaaaaaaaaaaaaaaaaaaaaaaaaaaaaaaaaaaaaaaaaaaaaaaa" }

/-- Midnight of the first of September 2026. -/
def analysisTime : Py.Datetime := ⟨63923817600000000, some 0, by decide⟩

/-- A handshake that shows its version, in the state its connection left it in. -/
def negotiated (version : String) (state : EvidenceState) : TlsHandshake :=
  { uid := "C1", sslHistory := "CsxkngiIfF", established := true, resumed := false
    helloRetryRequest := false, visibility := .full
    version := { selected := some version, evidenceState := .observed }
    cipherSuite := { evidenceState := .notObservable }
    keyExchange := { evidenceState := .incomplete }
    serverCertificateState := .observed, certificateVerifyState := .notObservable
    certificateVerifySignature := { evidenceState := .notObservable }
    evidenceState := state }

theorem tls10_agreement :
    ∃ evaluation, tls10Run.evaluatePolicyBatch analysisTime
        { handshakes := [negotiated "TLSv10" .observed] } = .ok evaluation ∧
      evaluation.findings.map (·.outcome) = [.negative] ∧
      evaluation.checks.map (·.outcome) = [.fail] ∧
      ∃ instant, asUtc analysisTime = .ok instant ∧
        Agreement tls10Run { handshakes := [negotiated "TLSv10" .observed] } instant
          evaluation := by
  have hrun : ((tls10Run.evaluatePolicyBatch analysisTime
      { handshakes := [negotiated "TLSv10" .observed] }).toOption.map fun evaluation =>
        (evaluation.findings.map (·.outcome), evaluation.checks.map (·.outcome))) =
          some ([.negative], [.fail]) := by
    decide +kernel
  have hkeys : DistinctKeys { handshakes := [negotiated "TLSv10" .observed] } := by
    intro target
    cases target with
    | handshake => exact List.nodup_singleton _
    | _ => exact List.nodup_nil
  cases heval : tls10Run.evaluatePolicyBatch analysisTime
      { handshakes := [negotiated "TLSv10" .observed] } with
  | error e =>
    rw [heval] at hrun
    exact absurd hrun (by simp [Except.toOption])
  | ok evaluation =>
    rw [heval] at hrun
    have hcolumns := Option.some.inj hrun
    exact ⟨evaluation, rfl, congrArg Prod.fst hcolumns, congrArg Prod.snd hcolumns,
      findings_and_checks_agree heval hkeys⟩

end Policy
end SecureMail
