import SecureMail.Policy.Context
import SecureMail.Lib.Fallible

/-!
# `evaluate_policy_batch`

Each active rule is evaluated on each record of its target. A rule that does not apply is silent;
one that passes leaves a check; one that fails, or cannot be decided, leaves a check and a finding.
A rule whose `where` cannot be decided leaves a check alone. Which of these it is, is a
`RuleCoverage`, and the documents are built from it.

The hash is a parameter. Its values are only ever compared.

The text that is hashed for an id is kept as a function of its own (`idText`), because what can be
proved of ids is proved of these texts. References are made of pairs of a path and a state, one pair
for a path and the weaker state where there are two. The sorts at the end are stable sorts by the
keys of the source; that the keys are total on what one evaluation emits is a theorem elsewhere, and
until it is used a list and its sorted copy are told apart.
-/

namespace SecureMail
namespace Policy

open Py (Val Dict)

/-! ## Coverage -/

inductive RuleEvalResult where
  | pass
  | negative
  | indeterminate
  | notApplicable
  deriving DecidableEq, Repr

/-- `_STATE_RANK`. The same table as the one of deduplication, which the source keeps twice. -/
def stateRank : EvidenceState → Nat
  | .conflicting => 0
  | .incomplete => 1
  | .indeterminate => 2
  | .notObservable => 3
  | .inferred => 4
  | .observed => 5
  | .verified => 6

/-- The check and the finding go together: the coverage state is there when the outcome is. -/
structure RuleCoverage where
  result : RuleEvalResult
  check : Option (PolicyCheckOutcome × EvidenceState)
  deriving DecidableEq, Repr

/-- `min(states, key=rank)` on a list that is not empty. -/
def weakest (first : EvidenceState) (rest : List EvidenceState) : EvidenceState :=
  rest.foldl (fun least s => if stateRank s < stateRank least then s else least) first

/-- `_coverage_from_unusable`. -/
def coverageFromUnusable : List EvidenceState → PolicyCheckOutcome × EvidenceState
  | [] => (.unknown, .indeterminate)
  | first :: rest =>
      let least := weakest first rest
      if least = .notObservable then (.notObservable, least) else (.unknown, least)

/-- `_weakest_or_observed`. -/
def weakestOrObserved : List EvidenceState → EvidenceState
  | [] => .observed
  | first :: rest => weakest first rest

/-- `_rule_active`. -/
def ruleActive (rule : PolicyRule) (instant : Py.Datetime) : Bool :=
  rule.effectiveFrom ≤ instant.date && !rule.effectiveUntil.any (· ≤ instant.date)

/-- The rule names roles, and the record's is not one of them. -/
def roleMismatch (rule : PolicyRule) (context : Context) : Bool :=
  !rule.roles.isEmpty &&
    match getPath context "derived.service_role" with
    | .str role => !rule.roles.contains role
    | _ => true

/-- What a silent rule covers. -/
def notApplicable : RuleCoverage := ⟨.notApplicable, none⟩

/-- `_evaluate_rule_with_coverage`. A rule whose condition fails is silent, and one whose condition
cannot be decided is not. -/
def evaluateRuleWithCoverage (rule : PolicyRule) (context : Context) (instant : Py.Datetime) :
    Result RuleCoverage :=
  if !ruleActive rule instant then pure notApplicable
  else if roleMismatch rule context then pure notApplicable
  else do
    match ← evalPredicatesWithUnusable rule.where context with
    | (.fail, _) => pure notApplicable
    | (.unusable, states) => pure ⟨.notApplicable, some (coverageFromUnusable states)⟩
    | (.pass, _) =>
        let assertionStates := predicateStates rule.assertion context
        match ← evalPredicatesWithUnusable rule.assertion context with
        | (.pass, _) => pure ⟨.pass, some (.pass, weakestOrObserved assertionStates)⟩
        | (.unusable, states) => pure ⟨.indeterminate, some (coverageFromUnusable states)⟩
        | (.fail, _) =>
            if rule.failOutcome = .indeterminate then
              pure ⟨.indeterminate, some (.unknown, weakestOrObserved assertionStates)⟩
            else pure ⟨.negative, some (.fail, weakestOrObserved assertionStates)⟩

/-! ## Documents -/

/-- `_record_key`. -/
def recordKey : PolicyRecord → String
  | .certificate c =>
      c.uid ++ ":" ++ c.role.value ++ ":" ++ toString c.chainIndex ++ ":" ++ c.derSha256.val
  | record => record.uid

/-- `_endpoint_from_context`: the host and the port of a dumped flow are a string and an integer. -/
def endpointFromContext (context : Context) : String :=
  match Py.lookup context "flow" with
  | .dict flow =>
      match Py.lookup flow "resp" with
      | .dict resp =>
          match Py.lookup resp "host", Py.lookup resp "port" with
          | .str host, .int port => host ++ ":" ++ toString port
          | _, _ => "unknown"
      | _ => "unknown"
  | _ => "unknown"

/-- `_protocol_from_context`. A record without a session is unclassified, and so is one whose
session has no protocol. -/
def protocolFromContext (context : Context) : CoverageProtocol :=
  match Py.lookup context "session" with
  | .dict session =>
      match Py.lookup session "protocol" with
      | .str "smtp" => .smtp
      | .str "imap" => .imap
      | .str "pop3" => .pop3
      | _ => .unclassified
  | _ => .unclassified

/-- The paths a rule reads, each with its state. -/
def referencePairs (rule : PolicyRule) (context : Context) : List (String × EvidenceState) :=
  (rule.where ++ rule.assertion).map
      (fun p => (p.path, evidenceStateForPredicate p context)) ++
    (if rule.roles.isEmpty then [] else [("derived.service_role", .inferred)])

/-- One pair: of two states of one path the weaker stays. -/
def keepWeaker (unique : Dict String EvidenceState) (pair : String × EvidenceState) :
    Dict String EvidenceState :=
  match unique.get? pair.1 with
  | none => unique.set pair.1 pair.2
  | some state => if stateRank pair.2 < stateRank state then unique.set pair.1 pair.2 else unique

/-- `_references`. All have one record type and one key, so they are in the order of their paths. -/
def references (rule : PolicyRule) (context : Context) (key : String) (target : PolicyTarget) :
    Result (List EvidenceReference) := do
  let unique := (referencePairs rule context).foldl keepWeaker ∅
  let refs ← unique.entries.mapM fun entry => do
    let recordKey ← Text.validate 160 "EvidenceReference" "record_key" key
    let fieldPath ← Text.validate 160 "EvidenceReference" "field_path" entry.1
    pure
      { recordType := target.recordType, recordKey := recordKey, fieldPath := fieldPath,
        evidenceState := entry.2 : EvidenceReference }
  pure (refs.insertionSort fun a b => a.fieldPath.val ≤ b.fieldPath.val)

/-- `_weakest_state`. -/
def weakestState : List EvidenceReference → EvidenceState
  | [] => .indeterminate
  | first :: rest => weakest first.evidenceState (rest.map (·.evidenceState))

/-- The outcome of the finding a result leaves, if it leaves one. -/
def findingOutcome (rule : PolicyRule) : RuleEvalResult → Option FindingOutcome
  | .pass | .notApplicable => none
  | .indeterminate => some .indeterminate
  | .negative => some rule.failOutcome

/-- What one rule leaves on one record. -/
structure Emission where
  check : Option PolicyCheck := none
  finding : Option Finding := none

/-- What one evaluation puts into every document it emits. -/
structure EvaluationRun where
  sha256 : String → Sha256Hex
  pack : PolicyPack
  packDigest : String
  captureSha256 : String

namespace EvaluationRun

variable (run : EvaluationRun)

/-- The text a document's id is the hash of. -/
def idText (rule : PolicyRule) (outcome key : String) : String :=
  Py.join "|" [run.captureSha256, run.pack.profile.value, run.packDigest, rule.id.val, outcome,
    rule.target.value, key]

/-- `_to_finding`. It can be refused for its texts and for the number of its references. -/
def toFinding (rule : PolicyRule) (instant : Py.Datetime) (context : Context)
    (outcome : FindingOutcome) (record : PolicyRecord) : Result Finding := do
  let key := recordKey record
  let refs ← references rule context key rule.target
  let profile ← Text.validate 64 "Finding" "policy_profile" run.pack.profile.value
  let digest ← Sha256Hex.validate "Finding" "policy_pack_version" run.packDigest
  let endpoint ← Text.validate 300 "Finding" "affected_endpoint" (endpointFromContext context)
  if hrefs : refs.length ≤ 32 then
    pure
      { findingId := run.sha256 (run.idText rule outcome.value key)
        code := rule.id
        outcome := outcome
        title := rule.title
        rationale := rule.rationale
        standards := rule.standards
        standards_le := rule.standards_bounds.2
        remediationId := rule.remediationId
        severity :=
          if outcome = .indeterminate then rule.severity.indeterminate else rule.severity.negative
        evaluationState := if outcome = .indeterminate then .indeterminate else .verified
        basisState := weakestState refs
        policyProfile := profile
        policyPackVersion := digest
        ruleEffectiveFrom := rule.effectiveFrom
        ruleEffectiveUntil := rule.effectiveUntil
        policyEvaluationTime := instant
        affectedEndpoint := endpoint
        evidenceReferences := refs
        evidenceReferences_le := hrefs }
  else throw (.validation "Finding" "evidence_references")

/-- `_to_check`. A check has no references, and so it fails on its two texts only. -/
def toCheck (rule : PolicyRule) (context : Context) (record : PolicyRecord)
    (outcome : PolicyCheckOutcome) (state : EvidenceState) : Result PolicyCheck := do
  let key := recordKey record
  let endpoint ← Text.validate 300 "PolicyCheck" "affected_endpoint" (endpointFromContext context)
  let validKey ← Text.validate 160 "PolicyCheck" "record_key" key
  pure
    { checkId := run.sha256 (run.idText rule outcome.value key)
      code := rule.id
      category := rule.target.checkCategory
      protocol := protocolFromContext context
      affectedEndpoint := endpoint
      recordType := rule.target.recordType
      recordKey := validKey
      outcome := outcome
      evidenceState := state
      title := rule.title }

/-! ## The batch -/

/-- The body of the inner loop. The context is built anew for each rule, and so the rules cannot see
each other. -/
def evaluateRecord (batch : EvidenceBatch) (instant : Py.Datetime) (rule : PolicyRule)
    (record : PolicyRecord) : Result Emission := do
  let context ← buildContext run.pack batch record
  let coverage ← evaluateRuleWithCoverage rule context instant
  let check ← coverage.check.mapM fun covered =>
    run.toCheck rule context record covered.1 covered.2
  let finding ← (findingOutcome rule coverage.result).mapM fun outcome =>
    run.toFinding rule instant context outcome record
  pure ⟨check, finding⟩

end EvaluationRun

structure PolicyEvaluation where
  findings : List Finding := []
  checks : List PolicyCheck := []
  deriving DecidableEq

/-- The documents of one record, appended. -/
def PolicyEvaluation.add (evaluation : PolicyEvaluation) (emission : Emission) : PolicyEvaluation :=
  ⟨evaluation.findings ++ emission.finding.toList, evaluation.checks ++ emission.check.toList⟩

/-- `_TARGET_RANK`. -/
def targetRank : EvidenceRecordType → Nat
  | .flow => 0
  | .session => 1
  | .handshake => 2
  | .certificate => 3

/-- The middle of the sort key of a finding: the target and the record of its first reference. -/
def firstReferenceKey (finding : Finding) : Nat × String :=
  match finding.evidenceReferences with
  | [] => (9, "")
  | first :: _ => (targetRank first.recordType, first.recordKey.val)

def findingOrdering (a b : Finding) : Ordering :=
  (Ord.compare a.affectedEndpoint.val b.affectedEndpoint.val).then <|
    (Ord.compare (firstReferenceKey a).1 (firstReferenceKey b).1).then <|
      (Ord.compare (firstReferenceKey a).2 (firstReferenceKey b).2).then <|
        (Ord.compare a.code.val b.code.val).then (Ord.compare a.outcome.value b.outcome.value)

def checkOrdering (a b : PolicyCheck) : Ordering :=
  (Ord.compare a.affectedEndpoint.val b.affectedEndpoint.val).then <|
    (Ord.compare a.category.value b.category.value).then <|
      (Ord.compare a.recordKey.val b.recordKey.val).then <|
        (Ord.compare a.code.val b.code.val).then (Ord.compare a.outcome.value b.outcome.value)

/-- The two sorts. -/
def PolicyEvaluation.sorted (evaluation : PolicyEvaluation) : PolicyEvaluation :=
  { findings := evaluation.findings.insertionSort fun a b => (findingOrdering a b).isLE = true
    checks := evaluation.checks.insertionSort fun a b => (checkOrdering a b).isLE = true }

/-- `_as_utc`. -/
def asUtc (value : Py.Datetime) : Result Py.Datetime :=
  match value.asUtc? with
  | some instant => pure instant
  | none => throw .overflowError

/-- One rule: silent where it is not active. -/
def EvaluationRun.ruleStep (run : EvaluationRun) (batch : EvidenceBatch) (instant : Py.Datetime)
    (evaluation : PolicyEvaluation) (rule : PolicyRule) : Result PolicyEvaluation :=
  if !ruleActive rule instant then pure evaluation
  else (batch.recordsForTarget rule.target).foldlM
    (fun evaluation record => do
      pure (evaluation.add (← run.evaluateRecord batch instant rule record))) evaluation

/-- `evaluate_policy_batch`. -/
def EvaluationRun.evaluatePolicyBatch (run : EvaluationRun) (evaluationTime : Py.Datetime)
    (batch : EvidenceBatch) : Result PolicyEvaluation := do
  let instant ← asUtc evaluationTime
  let evaluation ← run.pack.rules.foldlM (run.ruleStep batch instant) {}
  pure evaluation.sorted

end Policy
end SecureMail
