import SecureMail.Policy.Evaluable
import Mathlib.Data.Finset.Card
import Mathlib.Data.Finset.Dedup

/-!
# Evaluations that return

`_eval_predicate` catches a comparison that makes no sense and calls the predicate unusable, so a
rule that is wrong about the type of what it reads loses its verdict and nothing else. Two shapes of
a rule that the schema admits get past that. A predicate can ask whether the commands of a session,
a list, are in a list: what Python raises there is the `TypeError` of a set, and not the error that
is caught. And a rule with roles and with sixteen predicates in each of its two lists can read
thirty-three paths, one more than a finding has references for.

Nothing else raises. The context of a record is always built, and every other text of a check and
of a finding fits its field. The two shapes, in turn, raise only where the loop comes to the
predicate and where a finding is left. `Evaluable` says that of one rule in one context, and an
evaluation returns exactly when each of its rules is evaluable on each record it is asked about.
What the documents need of the evidence is `Presentable`, so that nothing here depends on where the
evidence is from.
-/

namespace SecureMail

open Fallible (Returns returns_pure not_returns_throw)

theorem Text.returns_validate_iff {n : Nat} {model field s : String} :
    Returns (Text.validate n model field s) ↔ 1 ≤ s.length ∧ s.length ≤ n := by
  unfold Text.validate
  split
  · exact iff_of_true (returns_pure _) ‹_›
  · exact iff_of_false (not_returns_throw _) ‹_›

theorem Sha256Hex.returns_validate_iff {model field s : String} :
    Returns (Sha256Hex.validate model field s) ↔ IsSha256Hex s := by
  unfold Sha256Hex.validate
  split
  · exact iff_of_true (returns_pure _) ‹_›
  · exact iff_of_false (not_returns_throw _) ‹_›

namespace Policy

open Py (Val Dict)
open Fallible (returns_bind returns_bind_and returns_bind_pure returns_mapM_iff
  returns_mapM_option_iff returns_foldlM_iff_forall)

/-! ## The paths of a rule -/

/-- The paths a rule reads: those of its predicates, and that of the role where it names roles. -/
def PolicyRule.paths (rule : PolicyRule) : Finset String :=
  ((rule.where ++ rule.assertion).map (·.path) ++
    if rule.roles.isEmpty then [] else ["derived.service_role"]).toFinset

theorem mem_allowedPaths_of_paths {rule : PolicyRule} {path : String} (h : path ∈ rule.paths) :
    path ∈ allowedPaths := by
  rw [PolicyRule.paths, List.mem_toFinset, List.mem_append, List.mem_map] at h
  rcases h with ⟨predicate, -, rfl⟩ | hrole
  · exact predicate.path_known
  · split at hrole
    · cases hrole
    · rw [List.mem_singleton.mp hrole]
      decide

/-- Every path there is fits the field of a reference. -/
theorem length_of_allowedPaths :
    ∀ path ∈ allowedPaths, 1 ≤ path.length ∧ path.length ≤ 160 := by
  decide +kernel

theorem mem_keys_keepWeaker {unique : Dict String EvidenceState} {pair : String × EvidenceState}
    {path : String} : path ∈ (keepWeaker unique pair).keys ↔ path = pair.1 ∨ path ∈ unique.keys := by
  unfold keepWeaker
  cases hget : unique.get? pair.1 with
  | none => exact Dict.mem_keys_set
  | some state =>
    have hold : pair.1 ∈ unique.keys := by
      rw [Dict.mem_keys_iff, hget]
      rfl
    dsimp only
    split
    · exact Dict.mem_keys_set
    · exact ⟨Or.inr, fun h => h.elim (fun heq => heq ▸ hold) id⟩

theorem mem_keys_foldl_keepWeaker {pairs : List (String × EvidenceState)}
    {unique : Dict String EvidenceState} {path : String} :
    path ∈ (pairs.foldl keepWeaker unique).keys ↔
      path ∈ unique.keys ∨ path ∈ pairs.map (·.1) := by
  induction pairs generalizing unique with
  | nil => simp
  | cons pair rest ih =>
    rw [List.foldl_cons, ih, mem_keys_keepWeaker, List.map_cons, List.mem_cons, or_assoc,
      or_left_comm]

/-- The references of a rule are one for each path it reads. -/
theorem keys_references (rule : PolicyRule) (context : Context) :
    ((referencePairs rule context).foldl keepWeaker ∅).keys.toFinset = rule.paths := by
  have hpaths : (referencePairs rule context).map (·.1) =
      (rule.where ++ rule.assertion).map (·.path) ++
        if rule.roles.isEmpty then [] else ["derived.service_role"] := by
    rw [referencePairs, List.map_append, List.map_map]
    cases rule.roles.isEmpty <;> rfl
  ext path
  rw [List.mem_toFinset, mem_keys_foldl_keepWeaker, hpaths, PolicyRule.paths, List.mem_toFinset]
  simp

theorem references_spec (rule : PolicyRule) {key : String} (context : Context)
    (target : PolicyTarget) (hkey : 1 ≤ key.length ∧ key.length ≤ 160) :
    ∃ refs, references rule context key target = .ok refs ∧ refs.length = rule.paths.card := by
  have hentry : ∀ entry ∈ ((referencePairs rule context).foldl keepWeaker ∅).entries,
      1 ≤ entry.1.length ∧ entry.1.length ≤ 160 := by
    intro entry hentry
    have hpath : entry.1 ∈ rule.paths := by
      rw [← keys_references rule context, List.mem_toFinset]
      exact List.mem_map_of_mem hentry
    exact length_of_allowedPaths entry.1 (mem_allowedPaths_of_paths hpath)
  obtain ⟨made, hmade⟩ := returns_mapM_iff.mpr fun entry hmem => returns_bind.mpr
    ⟨Text.returns_validate_iff.mpr hkey, fun recordKey _ => returns_bind_pure.mpr
      (Text.returns_validate_iff.mpr (hentry entry hmem))⟩
  refine ⟨_, Fallible.bind_eq_ok.mpr ⟨made, hmade, rfl⟩, ?_⟩
  rw [List.length_insertionSort, Fallible.length_of_mapM hmade, ← keys_references rule context,
    List.toFinset_card_of_nodup (Dict.nodup_keys _)]
  exact (List.length_map _).symm

/-! ## The documents of a record -/

/-- The key of every record and the host of every flow fit the fields they are put into, and the
dates of every certificate are in range. -/
structure Presentable (batch : EvidenceBatch) : Prop where
  key : ∀ target, ∀ record ∈ batch.recordsForTarget target,
    1 ≤ (recordKey record).length ∧ (recordKey record).length ≤ 160
  host : ∀ flow ∈ batch.flows, flow.resp.host.length ≤ 253
  dates : ∀ certificate ∈ batch.certificates,
    serializable certificate.notBefore = true ∧ serializable certificate.notAfter = true

/-- A number of at most `k` digits. -/
theorem length_toString_le {n k : Nat} (hk : 0 < k) (h : n < 10 ^ k) : (toString n).length ≤ k :=
  (Nat.length_repr_le_iff hk).mpr h

section Context

variable {pack : PolicyPack} {batch : EvidenceBatch} {record : PolicyRecord} {context : Context}

theorem endpointFromContext_of_built (h : buildContext pack batch record = .ok context) :
    endpointFromContext context = match batch.flowOf record.uid with
      | some flow => flow.resp.host ++ ":" ++ toString flow.resp.port.val
      | none => "unknown" := by
  unfold buildContext at h
  obtain ⟨derivedFacts, -, h⟩ := Fallible.bind_eq_ok.mp h
  obtain ⟨certificateFacts, -, h⟩ := Fallible.bind_eq_ok.mp h
  obtain rfl := Fallible.pure_eq_ok.mp h
  cases batch.flowOf record.uid with
  | none => rfl
  | some flow => rfl

theorem length_endpoint (hbatch : Presentable batch)
    (h : buildContext pack batch record = .ok context) :
    1 ≤ (endpointFromContext context).length ∧ (endpointFromContext context).length ≤ 300 := by
  rw [endpointFromContext_of_built h]
  cases hflow : batch.flowOf record.uid with
  | none => decide
  | some flow =>
    obtain ⟨flow', hmem, -, rfl⟩ := Dict.mem_of_get?_ofList hflow
    have hhost := hbatch.host flow' hmem
    have hport : (toString flow'.resp.port.val).length ≤ 5 :=
      length_toString_le (by decide) (lt_trans flow'.resp.port.isLt (by decide))
    have hcolon : (":" : String).length = 1 := rfl
    dsimp only [id_eq]
    rw [String.length_append, String.length_append, hcolon]
    omega

end Context

namespace EvaluationRun

variable {run : EvaluationRun} {rule : PolicyRule} {context : Context} {record : PolicyRecord}

theorem returns_toCheck {outcome : PolicyCheckOutcome} {state : EvidenceState}
    (hkey : 1 ≤ (recordKey record).length ∧ (recordKey record).length ≤ 160)
    (hendpoint : 1 ≤ (endpointFromContext context).length ∧
      (endpointFromContext context).length ≤ 300) :
    Returns (run.toCheck rule context record outcome state) :=
  returns_bind.mpr ⟨Text.returns_validate_iff.mpr hendpoint, fun _ _ =>
    returns_bind_pure.mpr (Text.returns_validate_iff.mpr hkey)⟩

/-- **A finding is made unless its rule reads more paths than it has references for.** The texts of
a finding fit their fields whenever the evidence is presentable. -/
theorem returns_toFinding_iff {instant : Py.Datetime} {outcome : FindingOutcome}
    (hdigest : IsSha256Hex run.packDigest)
    (hkey : 1 ≤ (recordKey record).length ∧ (recordKey record).length ≤ 160)
    (hendpoint : 1 ≤ (endpointFromContext context).length ∧
      (endpointFromContext context).length ≤ 300) :
    Returns (run.toFinding rule instant context outcome record) ↔ rule.paths.card ≤ 32 := by
  obtain ⟨refs, hrefs, hlength⟩ := references_spec rule context rule.target hkey
  have hprofile : 1 ≤ run.pack.profile.value.length ∧ run.pack.profile.value.length ≤ 64 := by
    cases run.pack.profile <;> decide
  unfold toFinding
  dsimp only
  refine (returns_bind_and fun made hmade => ?_).trans (and_iff_right ⟨refs, hrefs⟩)
  obtain rfl := Except.ok.inj (hrefs.symm.trans hmade)
  refine (returns_bind_and fun profile _ => ?_).trans
    (and_iff_right (Text.returns_validate_iff.mpr hprofile))
  refine (returns_bind_and fun digest _ => ?_).trans
    (and_iff_right (Sha256Hex.returns_validate_iff.mpr hdigest))
  refine (returns_bind_and fun endpoint _ => ?_).trans
    (and_iff_right (Text.returns_validate_iff.mpr hendpoint))
  rw [← hlength]
  split
  · exact iff_of_true (returns_pure _) ‹_›
  · exact iff_of_false (not_returns_throw _) ‹_›

end EvaluationRun

/-! ## One rule on one record -/

/-- The loop comes to no predicate that puts the commands into a set. -/
def Comparable (predicates : List Predicate) (context : Context) : Prop :=
  ∀ predicate, Reached predicates context predicate → ¬ HashesCommands predicate context

/-- **A rule can be evaluated in a context**: its lists are comparable, the assertion where the rule
comes to it, and a finding that it leaves has room for its references. -/
structure Evaluable (rule : PolicyRule) (context : Context) : Prop where
  «where» : Comparable rule.where context
  assertion : evalPredicates rule.where context = .ok .pass → Comparable rule.assertion context
  references : evalPredicates rule.where context = .ok .pass →
    evalPredicates rule.assertion context ≠ .ok .pass → rule.paths.card ≤ 32

section Rule

variable {pack : PolicyPack} {batch : EvidenceBatch} {record : PolicyRecord} {context : Context}
  {rule : PolicyRule} {instant : Py.Datetime}

theorem returns_evalPredicatesWithUnusable_iff_of_built
    (h : buildContext pack batch record = .ok context) {predicates : List Predicate} :
    Returns (evalPredicatesWithUnusable predicates context) ↔ Comparable predicates context :=
  returns_evalPredicatesWithUnusable_iff.trans <| forall_congr' fun _ =>
    imp_congr_right fun _ => returns_evalPredicate_iff_of_built h

theorem returns_evaluateRuleWithCoverage_iff (h : buildContext pack batch record = .ok context)
    (hactive : ruleActive rule instant = true) (hrole : roleMismatch rule context = false) :
    Returns (evaluateRuleWithCoverage rule context instant) ↔
      Comparable rule.where context ∧
        (evalPredicates rule.where context = .ok .pass → Comparable rule.assertion context) := by
  unfold evaluateRuleWithCoverage
  rw [hactive, hrole, if_neg (by decide), if_neg (by decide), returns_bind,
    returns_evalPredicatesWithUnusable_iff_of_built h]
  refine and_congr_right fun hwhere => ?_
  obtain ⟨⟨state, states⟩, hstate⟩ := (returns_evalPredicatesWithUnusable_iff_of_built h).mpr hwhere
  have hpredicates := evalPredicates_eq_ok.mpr ⟨states, hstate⟩
  rw [hstate, hpredicates]
  simp only [Except.ok.injEq, forall_eq']
  cases state with
  | fail => exact iff_of_true (returns_pure _) (by simp)
  | unusable => exact iff_of_true (returns_pure _) (by simp)
  | pass =>
    rw [forall_prop_of_true rfl, returns_bind, returns_evalPredicatesWithUnusable_iff_of_built h]
    refine and_iff_left_of_imp fun _ judged _ => ?_
    obtain ⟨verdict, unusable⟩ := judged
    cases verdict with
    | pass => exact returns_pure _
    | unusable => exact returns_pure _
    | fail => exact Fallible.returns_ite (returns_pure _) (returns_pure _)

/-- A finding is left where the rule applies and its assertion does not pass. -/
theorem findingOutcome_ne_none_iff {coverage : RuleCoverage}
    (hactive : ruleActive rule instant = true) (hrole : roleMismatch rule context = false)
    (h : evaluateRuleWithCoverage rule context instant = .ok coverage) :
    findingOutcome rule coverage.result ≠ none ↔
      evalPredicates rule.where context = .ok .pass ∧
        evalPredicates rule.assertion context ≠ .ok .pass := by
  unfold evaluateRuleWithCoverage at h
  rw [hactive, hrole, if_neg (by decide), if_neg (by decide)] at h
  obtain ⟨⟨state, states⟩, hstate, h⟩ := Fallible.bind_eq_ok.mp h
  rw [evalPredicates_eq_ok.mpr ⟨states, hstate⟩]
  cases state with
  | fail =>
    obtain rfl := Fallible.pure_eq_ok.mp h
    simp [findingOutcome, notApplicable]
  | unusable =>
    obtain rfl := Fallible.pure_eq_ok.mp h
    simp [findingOutcome]
  | pass =>
    obtain ⟨⟨verdict, unusable⟩, hverdict, h⟩ := Fallible.bind_eq_ok.mp h
    rw [evalPredicates_eq_ok.mpr ⟨unusable, hverdict⟩]
    cases verdict with
    | pass =>
      obtain rfl := Fallible.pure_eq_ok.mp h
      simp [findingOutcome]
    | unusable =>
      obtain rfl := Fallible.pure_eq_ok.mp h
      simp [findingOutcome]
    | fail =>
      dsimp only at h
      split at h
      · obtain rfl := Fallible.pure_eq_ok.mp h
        simp [findingOutcome]
      · obtain rfl := Fallible.pure_eq_ok.mp h
        simp [findingOutcome]

theorem evaluateRuleWithCoverage_mismatch (hrole : roleMismatch rule context = true) :
    evaluateRuleWithCoverage rule context instant = .ok notApplicable := by
  unfold evaluateRuleWithCoverage
  rw [hrole]
  split <;> rfl

/-- **One rule on one record**: the evaluation returns where the rule is not for the role, or can be
evaluated. -/
theorem EvaluationRun.returns_evaluateRecord_iff {run : EvaluationRun}
    (hbatch : Presentable batch) (hdigest : IsSha256Hex run.packDigest)
    (hrecord : record ∈ batch.recordsForTarget rule.target)
    (hactive : ruleActive rule instant = true)
    (h : buildContext run.pack batch record = .ok context) :
    Returns (run.evaluateRecord batch instant rule record) ↔
      (roleMismatch rule context = false → Evaluable rule context) := by
  have hkey := hbatch.key rule.target record hrecord
  have hendpoint := length_endpoint hbatch h
  -- The documents that follow from a coverage.
  have hdocuments : ∀ coverage : RuleCoverage,
      Returns (do
        let check ← coverage.check.mapM fun covered =>
          run.toCheck rule context record covered.1 covered.2
        let finding ← (findingOutcome rule coverage.result).mapM fun outcome =>
          run.toFinding rule instant context outcome record
        pure (⟨check, finding⟩ : Emission)) ↔
      (findingOutcome rule coverage.result ≠ none → rule.paths.card ≤ 32) := by
    intro coverage
    have hchecks : Returns (coverage.check.mapM fun covered =>
        run.toCheck rule context record covered.1 covered.2) :=
      returns_mapM_option_iff.mpr fun covered _ => returns_toCheck hkey hendpoint
    refine (returns_bind_and fun check _ => ?_).trans (and_iff_right hchecks)
    rw [returns_bind_pure, returns_mapM_option_iff]
    cases findingOutcome rule coverage.result with
    | none => simp
    | some outcome => simp [returns_toFinding_iff hdigest hkey hendpoint]
  have hevaluate : Returns (run.evaluateRecord batch instant rule record) ↔
      Returns (evaluateRuleWithCoverage rule context instant) ∧
        ∀ coverage, evaluateRuleWithCoverage rule context instant = .ok coverage →
          findingOutcome rule coverage.result ≠ none → rule.paths.card ≤ 32 := by
    unfold evaluateRecord
    refine (returns_bind_and fun built hbuilt => ?_).trans (and_iff_right ⟨context, h⟩)
    obtain rfl := Except.ok.inj (h.symm.trans hbuilt)
    rw [returns_bind]
    exact and_congr_right fun _ => forall_congr' fun coverage =>
      imp_congr_right fun _ => hdocuments coverage
  rw [hevaluate]
  cases hrole : roleMismatch rule context with
  | true =>
    rw [evaluateRuleWithCoverage_mismatch hrole]
    simp [findingOutcome, notApplicable, Fallible.returns_ok]
  | false =>
    rw [forall_prop_of_true rfl, returns_evaluateRuleWithCoverage_iff h hactive hrole]
    constructor
    · rintro ⟨⟨hwhere, hassertion⟩, hfinding⟩
      refine ⟨hwhere, hassertion, fun hpass hverdict => ?_⟩
      obtain ⟨coverage, hcoverage⟩ :=
        (returns_evaluateRuleWithCoverage_iff h hactive hrole).mpr ⟨hwhere, hassertion⟩
      exact hfinding coverage hcoverage
        ((findingOutcome_ne_none_iff hactive hrole hcoverage).mpr ⟨hpass, hverdict⟩)
    · rintro ⟨hwhere, hassertion, hreferences⟩
      refine ⟨⟨hwhere, hassertion⟩, fun coverage hcoverage hleft => ?_⟩
      obtain ⟨hpass, hverdict⟩ := (findingOutcome_ne_none_iff hactive hrole hcoverage).mp hleft
      exact hreferences hpass hverdict

end Rule

/-! ## The batch -/

namespace EvaluationRun

variable {run : EvaluationRun} {batch : EvidenceBatch}

/-- Each active rule can be evaluated on each record of its target that has a role it names. -/
def Evaluates (run : EvaluationRun) (batch : EvidenceBatch) (instant : Py.Datetime) : Prop :=
  ∀ rule ∈ run.pack.rules, ruleActive rule instant = true →
    ∀ record ∈ batch.recordsForTarget rule.target,
      ∀ context, buildContext run.pack batch record = .ok context →
        roleMismatch rule context = false → Evaluable rule context

theorem returns_buildContext_of_presentable (run : EvaluationRun) (hbatch : Presentable batch)
    {target : PolicyTarget} {record : PolicyRecord}
    (hrecord : record ∈ batch.recordsForTarget target) :
    Returns (buildContext run.pack batch record) := by
  refine returns_buildContext fun certificate hcertificate => hbatch.dates certificate ?_
  rcases hcertificate with rfl | hmem
  · cases target with
    | certificate =>
      obtain ⟨certificate', hmem, heq⟩ := List.mem_map.mp hrecord
      cases heq
      exact hmem
    | handshake =>
      obtain ⟨handshake, -, heq⟩ := List.mem_map.mp hrecord
      cases heq
    | session =>
      obtain ⟨session, -, heq⟩ := List.mem_map.mp hrecord
      cases heq
    | flow =>
      obtain ⟨flow, -, heq⟩ := List.mem_map.mp hrecord
      cases heq
  · exact hmem

/-- **When an evaluation returns.** It takes the loops apart, and what is left is one question for
each rule and record. -/
theorem returns_iff_evaluates {evaluationTime instant : Py.Datetime} (hbatch : Presentable batch)
    (hdigest : IsSha256Hex run.packDigest) (htime : asUtc evaluationTime = .ok instant) :
    Returns (run.evaluatePolicyBatch evaluationTime batch) ↔ run.Evaluates batch instant := by
  unfold evaluatePolicyBatch
  refine (returns_bind_and fun time hinstant => ?_).trans (and_iff_right ⟨instant, htime⟩)
  obtain rfl := Except.ok.inj (htime.symm.trans hinstant)
  rw [returns_bind_pure]
  refine returns_foldlM_iff_forall fun evaluation rule _ => ?_
  unfold ruleStep
  cases hactive : ruleActive rule instant with
  | false => simp [returns_pure]
  | true =>
    rw [if_neg (by decide), forall_prop_of_true rfl]
    refine returns_foldlM_iff_forall fun evaluation record hrecord => ?_
    rw [returns_bind_pure]
    obtain ⟨context, hcontext⟩ := returns_buildContext_of_presentable run hbatch hrecord
    rw [returns_evaluateRecord_iff hbatch hdigest hrecord hactive hcontext, hcontext]
    simp only [Except.ok.injEq, forall_eq']

/-- A pack with neither shape is evaluated on any evidence. -/
theorem evaluates_of_plain {instant : Py.Datetime}
    (h : ∀ rule ∈ run.pack.rules, rule.paths.card ≤ 32 ∧
      ∀ predicate ∈ rule.where ++ rule.assertion, predicate.path = commandsPath →
        predicate.operator ≠ .isIn ∧ predicate.operator ≠ .notIn) :
    run.Evaluates batch instant := by
  intro rule hrule _ record _ context _ _
  obtain ⟨hpaths, hpredicates⟩ := h rule hrule
  have hcomparable : ∀ predicates, predicates ⊆ rule.where ++ rule.assertion →
      Comparable predicates context := by
    rintro predicates hmem predicate ⟨before, after, rfl, -⟩ ⟨-, hpath, hoperator, -⟩
    have hplain := hpredicates predicate (hmem (by simp)) hpath
    exact hoperator.elim hplain.1 hplain.2
  exact ⟨hcomparable rule.where fun _ => List.mem_append_left _,
    fun _ => hcomparable rule.assertion fun _ => List.mem_append_right _, fun _ _ => hpaths⟩

end EvaluationRun

end Policy
end SecureMail
