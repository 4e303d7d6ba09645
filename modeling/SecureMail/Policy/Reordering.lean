import SecureMail.Policy.Agreement
import SecureMail.Lib.SortKey

/-!
# A rule and a batch in another order

Nothing a policy says has an order: a rule is the conjunction of its predicates, a pack is a set of
rules, a batch is a set of records. The evaluator goes through lists. This module follows the order
of the predicates and of the records up to the documents of one rule on one record: where both
orders return, the documents are the same.

The one place where an order could show is an early end. `_eval_predicates_with_unusable` leaves at
the first predicate that fails, and a predicate after that one might have raised. If both orders
return, neither met that predicate before a failing one, and the answer is the same.
-/

namespace SecureMail
namespace Policy

open Py (Val Dict)

/-! ## Another order -/

/-- The same rule with the predicates of each list in another order. -/
structure PolicyRule.Reordered (rule rule' : PolicyRule) : Prop where
  id : rule'.id = rule.id
  target : rule'.target = rule.target
  effectiveFrom : rule'.effectiveFrom = rule.effectiveFrom
  effectiveUntil : rule'.effectiveUntil = rule.effectiveUntil
  roles : rule'.roles = rule.roles
  «where» : rule.where.Perm rule'.where
  assertion : rule.assertion.Perm rule'.assertion
  failOutcome : rule'.failOutcome = rule.failOutcome
  severity : rule'.severity = rule.severity
  title : rule'.title = rule.title
  rationale : rule'.rationale = rule.rationale
  standards : rule'.standards = rule.standards
  remediationId : rule'.remediationId = rule.remediationId

/-- The same pack, under the same digest, with its rules and their predicates in another order. -/
structure EvaluationRun.Reordered (run run' : EvaluationRun) : Prop where
  sha256 : run'.sha256 = run.sha256
  packDigest : run'.packDigest = run.packDigest
  captureSha256 : run'.captureSha256 = run.captureSha256
  profile : run'.pack.profile = run.pack.profile
  roles : run'.pack.roles = run.pack.roles
  rules : ∃ rules, run.pack.rules.Perm rules ∧
    List.Forall₂ PolicyRule.Reordered rules run'.pack.rules

structure EvidenceBatch.Reordered (batch batch' : EvidenceBatch) : Prop where
  flows : batch.flows.Perm batch'.flows
  sessions : batch.sessions.Perm batch'.sessions
  handshakes : batch.handshakes.Perm batch'.handshakes
  certificates : batch.certificates.Perm batch'.certificates

theorem PolicyRule.Reordered.symm {rule rule' : PolicyRule} (h : rule.Reordered rule') :
    rule'.Reordered rule where
  id := h.id.symm
  target := h.target.symm
  effectiveFrom := h.effectiveFrom.symm
  effectiveUntil := h.effectiveUntil.symm
  roles := h.roles.symm
  «where» := h.where.symm
  assertion := h.assertion.symm
  failOutcome := h.failOutcome.symm
  severity := h.severity.symm
  title := h.title.symm
  rationale := h.rationale.symm
  standards := h.standards.symm
  remediationId := h.remediationId.symm

theorem EvidenceBatch.Reordered.symm {batch batch' : EvidenceBatch} (h : batch.Reordered batch') :
    batch'.Reordered batch :=
  ⟨h.flows.symm, h.sessions.symm, h.handshakes.symm, h.certificates.symm⟩

/-! ## The weakest state -/

theorem stateRank_injective {s t : EvidenceState} (h : stateRank s = stateRank t) : s = t := by
  cases s <;> cases t <;> first | rfl | exact absurd h (by decide)

theorem weakest_spec {rest : List EvidenceState} {first : EvidenceState} :
    weakest first rest ∈ first :: rest ∧
      ∀ s ∈ first :: rest, stateRank (weakest first rest) ≤ stateRank s := by
  unfold weakest
  induction rest generalizing first with
  | nil => simp
  | cons s rest ih =>
    rw [List.foldl_cons]
    by_cases hless : stateRank s < stateRank first
    · rw [if_pos hless]
      obtain ⟨hmem, hle⟩ := @ih s
      refine ⟨List.mem_cons_of_mem _ hmem, ?_⟩
      intro t ht
      rcases List.mem_cons.mp ht with rfl | ht
      · exact (hle s List.mem_cons_self).trans (Nat.le_of_lt hless)
      · exact hle t ht
    · rw [if_neg hless]
      obtain ⟨hmem, hle⟩ := @ih first
      constructor
      · rcases List.mem_cons.mp hmem with hfirst | hrest
        · rw [hfirst]
          exact List.mem_cons_self
        · exact List.mem_cons_of_mem _ (List.mem_cons_of_mem _ hrest)
      · intro t ht
        rcases List.mem_cons.mp ht with rfl | ht
        · exact hle t List.mem_cons_self
        · rcases List.mem_cons.mp ht with rfl | ht
          · exact (hle first List.mem_cons_self).trans (Nat.not_lt.mp hless)
          · exact hle t (List.mem_cons_of_mem _ ht)

/-- The ranks tell the states apart, so the weakest of a list does not depend on its order. -/
theorem weakest_perm {first first' : EvidenceState} {rest rest' : List EvidenceState}
    (h : (first :: rest).Perm (first' :: rest')) : weakest first rest = weakest first' rest' := by
  obtain ⟨hmem, hle⟩ := @weakest_spec rest first
  obtain ⟨hmem', hle'⟩ := @weakest_spec rest' first'
  apply stateRank_injective
  exact Nat.le_antisymm (hle _ (h.mem_iff.mpr hmem')) (hle' _ (h.mem_iff.mp hmem))

theorem coverageFromUnusable_perm {states states' : List EvidenceState} (h : states.Perm states') :
    coverageFromUnusable states = coverageFromUnusable states' := by
  cases states with
  | nil => rw [h.symm.eq_nil]
  | cons first rest =>
    cases states' with
    | nil => exact absurd h.eq_nil (by simp)
    | cons first' rest' =>
      unfold coverageFromUnusable
      simp only
      rw [weakest_perm h]

theorem weakestOrObserved_perm {states states' : List EvidenceState} (h : states.Perm states') :
    weakestOrObserved states = weakestOrObserved states' := by
  cases states with
  | nil => rw [h.symm.eq_nil]
  | cons first rest =>
    cases states' with
    | nil => exact absurd h.eq_nil (by simp)
    | cons first' rest' => exact weakest_perm h

/-! ## A conjunction of predicates -/

/-- The states of the predicates that are unusable. -/
def unusableOf (context : Context) (predicates : List Predicate) : List EvidenceState :=
  (predicates.filter fun p => evalPredicate p context matches .ok .unusable).map
    (evidenceStateForPredicate · context)

/-- What the loop returns: a failing predicate ends it, and otherwise every predicate was seen.
Which of the two it is does not depend on the order of the predicates, and the states of the second
are those of all of them. -/
inductive ConjunctionCase (context : Context) (predicates : List Predicate)
    (unusable : List EvidenceState) : PredicateTriState × List EvidenceState → Prop
  | failed (p : Predicate) (hp : p ∈ predicates) (heval : evalPredicate p context = .ok .fail) :
      ConjunctionCase context predicates unusable (.fail, [])
  | seen (hall : ∀ p ∈ predicates, evalPredicate p context ≠ .ok .fail) :
      ConjunctionCase context predicates unusable
        (if (unusable ++ unusableOf context predicates).isEmpty then (.pass, [])
          else (.unusable, unusable ++ unusableOf context predicates))

theorem evalLoop_cases {context : Context} {predicates : List Predicate}
    {unusable : List EvidenceState} {answer : PredicateTriState × List EvidenceState}
    (h : evalLoop context predicates unusable = .ok answer) :
    ConjunctionCase context predicates unusable answer := by
  induction predicates generalizing unusable with
  | nil =>
    obtain rfl := Fallible.pure_eq_ok.mp h
    have hseen : ConjunctionCase context [] unusable _ := .seen (by simp)
    simpa [unusableOf] using hseen
  | cons p rest ih =>
    obtain ⟨state, hstate, h⟩ := Fallible.bind_eq_ok.mp h
    cases state with
    | fail =>
      obtain rfl := Fallible.pure_eq_ok.mp h
      exact .failed p List.mem_cons_self hstate
    | unusable =>
      have hunusable : unusableOf context (p :: rest) =
          evidenceStateForPredicate p context :: unusableOf context rest := by
        simp [unusableOf, hstate]
      have hcase := ih h
      generalize hanswer : answer = a at hcase
      cases hcase with
      | failed q hq heval => exact .failed q (List.mem_cons_of_mem _ hq) heval
      | seen hall =>
        have hseen : ConjunctionCase context (p :: rest) unusable _ := .seen (by
            intro q hq
            rcases List.mem_cons.mp hq with rfl | hq
            · rw [hstate]
              simp
            · exact hall q hq)
        rw [hunusable] at hseen
        simpa using hseen
    | pass =>
      have hunusable : unusableOf context (p :: rest) = unusableOf context rest := by
        simp [unusableOf, hstate]
      have hcase := ih h
      generalize hanswer : answer = a at hcase
      cases hcase with
      | failed q hq heval => exact .failed q (List.mem_cons_of_mem _ hq) heval
      | seen hall =>
        have hseen : ConjunctionCase context (p :: rest) unusable _ := .seen (by
            intro q hq
            rcases List.mem_cons.mp hq with rfl | hq
            · rw [hstate]
              simp
            · exact hall q hq)
        rwa [hunusable] at hseen

/-- **A conjunction does not depend on the order of its predicates**, where both orders return. The
states of the unusable ones come in another order, and only the weakest of them is used. -/
theorem evalPredicatesWithUnusable_perm {context : Context} {predicates predicates' : List Predicate}
    {answer answer' : PredicateTriState × List EvidenceState} (hperm : predicates.Perm predicates')
    (h : evalPredicatesWithUnusable predicates context = .ok answer)
    (h' : evalPredicatesWithUnusable predicates' context = .ok answer') :
    answer'.1 = answer.1 ∧ answer.2.Perm answer'.2 := by
  cases evalLoop_cases h with
  | failed p hp heval =>
    cases evalLoop_cases h' with
    | failed => exact ⟨rfl, .refl _⟩
    | seen hall => exact absurd heval (hall p (hperm.mem_iff.mp hp))
  | seen hall =>
    cases evalLoop_cases h' with
    | failed p hp heval => exact absurd heval (hall p (hperm.mem_iff.mpr hp))
    | seen =>
      have hstates : ([] ++ unusableOf context predicates).Perm
          ([] ++ unusableOf context predicates') := (hperm.filter _).map _
      by_cases hempty : ([] ++ unusableOf context predicates).isEmpty = true
      · have hempty' : ([] ++ unusableOf context predicates').isEmpty = true := by
          rw [List.isEmpty_iff] at hempty ⊢
          rw [hempty] at hstates
          exact hstates.symm.eq_nil
        rw [if_pos hempty, if_pos hempty']
        exact ⟨rfl, .refl _⟩
      · have hempty' : ¬ ([] ++ unusableOf context predicates').isEmpty = true := by
          rw [List.isEmpty_iff] at hempty ⊢
          intro hnil
          rw [hnil] at hstates
          exact hempty hstates.eq_nil
        rw [if_neg hempty, if_neg hempty']
        exact ⟨rfl, hstates⟩

theorem evaluateRuleWithCoverage_reordered {rule rule' : PolicyRule} {context : Context}
    {instant : Py.Datetime} {coverage coverage' : RuleCoverage} (hrule : rule.Reordered rule')
    (h : evaluateRuleWithCoverage rule context instant = .ok coverage)
    (h' : evaluateRuleWithCoverage rule' context instant = .ok coverage') :
    coverage' = coverage := by
  have hactive : ruleActive rule' instant = ruleActive rule instant := by
    unfold ruleActive
    rw [hrule.effectiveFrom, hrule.effectiveUntil]
  have hrole : roleMismatch rule' context = roleMismatch rule context := by
    unfold roleMismatch
    rw [hrule.roles]
  unfold evaluateRuleWithCoverage at h h'
  rw [hactive, hrole] at h'
  split at h
  · rename_i hinactive
    rw [if_pos hinactive] at h'
    exact (Fallible.pure_eq_ok.mp h').symm.trans (Fallible.pure_eq_ok.mp h)
  rename_i hinactive
  rw [if_neg hinactive] at h'
  split at h
  · rename_i hmismatch
    rw [if_pos hmismatch] at h'
    exact (Fallible.pure_eq_ok.mp h').symm.trans (Fallible.pure_eq_ok.mp h)
  rename_i hmismatch
  rw [if_neg hmismatch] at h'
  obtain ⟨⟨whereState, whereUnusable⟩, hwhere, h⟩ := Fallible.bind_eq_ok.mp h
  obtain ⟨⟨whereState', whereUnusable'⟩, hwhere', h'⟩ := Fallible.bind_eq_ok.mp h'
  obtain ⟨hstate, hunusable⟩ := evalPredicatesWithUnusable_perm hrule.where hwhere hwhere'
  simp only at hstate hunusable
  subst hstate
  cases whereState' with
  | fail => exact (Fallible.pure_eq_ok.mp h').symm.trans (Fallible.pure_eq_ok.mp h)
  | unusable =>
    obtain rfl := Fallible.pure_eq_ok.mp h
    obtain rfl := Fallible.pure_eq_ok.mp h'
    rw [coverageFromUnusable_perm hunusable]
  | pass =>
    have hstates : weakestOrObserved (predicateStates rule'.assertion context) =
        weakestOrObserved (predicateStates rule.assertion context) :=
      (weakestOrObserved_perm (hrule.assertion.map _)).symm
    obtain ⟨⟨state, unusable⟩, hassertion, h⟩ := Fallible.bind_eq_ok.mp h
    obtain ⟨⟨state', unusable'⟩, hassertion', h'⟩ := Fallible.bind_eq_ok.mp h'
    obtain ⟨hstate, hunusable⟩ :=
      evalPredicatesWithUnusable_perm hrule.assertion hassertion hassertion'
    simp only at hstate hunusable
    subst hstate
    cases state' with
    | pass =>
      obtain rfl := Fallible.pure_eq_ok.mp h
      obtain rfl := Fallible.pure_eq_ok.mp h'
      rw [hstates]
    | unusable =>
      obtain rfl := Fallible.pure_eq_ok.mp h
      obtain rfl := Fallible.pure_eq_ok.mp h'
      rw [coverageFromUnusable_perm hunusable]
    | fail =>
      simp only [hrule.failOutcome, hstates] at h'
      exact Except.ok.inj (h'.symm.trans h)

/-! ## References -/

/-- Of two states of one path the one that stays. -/
def weakerState (held state : EvidenceState) : EvidenceState :=
  if stateRank state < stateRank held then state else held

theorem weakerState_comm (s t : EvidenceState) : weakerState s t = weakerState t s := by
  unfold weakerState
  by_cases hlt : stateRank t < stateRank s
  · rw [if_pos hlt, if_neg (Nat.lt_asymm hlt)]
  · rw [if_neg hlt]
    by_cases hgt : stateRank s < stateRank t
    · rw [if_pos hgt]
    · rw [if_neg hgt]
      exact stateRank_injective (Nat.le_antisymm (Nat.not_lt.mp hlt) (Nat.not_lt.mp hgt))

theorem weakerState_assoc (s t u : EvidenceState) :
    weakerState (weakerState s t) u = weakerState (weakerState s u) t := by
  cases s <;> cases t <;> cases u <;> rfl

/-- What `keepWeaker` does to a table, seen through its lookups. -/
def absorb (states : String → Option EvidenceState) (pair : String × EvidenceState) :
    String → Option EvidenceState := fun path =>
  if path = pair.1 then some ((states path).elim pair.2 (weakerState · pair.2)) else states path

theorem get?_keepWeaker (unique : Dict String EvidenceState) (pair : String × EvidenceState) :
    (keepWeaker unique pair).get? = absorb unique.get? pair := by
  funext path
  unfold keepWeaker absorb weakerState
  by_cases hpath : path = pair.1
  · subst hpath
    cases hget : unique.get? pair.1 with
    | none => simp
    | some state =>
      simp only [if_true, Option.elim_some]
      split
      · rw [Dict.get?_set_self]
      · exact hget
  · rw [if_neg hpath]
    cases hget : unique.get? pair.1 with
    | none => simp [Dict.get?_set, hpath]
    | some state =>
      simp only
      split
      · simp [Dict.get?_set, hpath]
      · rfl

instance : RightCommutative absorb where
  right_comm states p q := by
    funext path
    unfold absorb
    by_cases hp : path = p.1
    · by_cases hq : path = q.1
      · rw [if_pos hp, if_pos hq, if_pos hp, if_pos hq]
        cases states path with
        | none => simp [weakerState_comm]
        | some state => simp [weakerState_assoc]
      · rw [if_neg hq, if_pos hp, if_pos hp, if_neg hq]
    · by_cases hq : path = q.1
      · rw [if_pos hq, if_neg hp, if_neg hp, if_pos hq]
      · rw [if_neg hq, if_neg hp, if_neg hp, if_neg hq]

theorem get?_foldl_keepWeaker {pairs : List (String × EvidenceState)}
    {unique : Dict String EvidenceState} :
    (pairs.foldl keepWeaker unique).get? = pairs.foldl absorb unique.get? := by
  induction pairs generalizing unique with
  | nil => rfl
  | cons pair rest ih => rw [List.foldl_cons, ih, get?_keepWeaker, List.foldl_cons]

theorem entries_foldl_keepWeaker_perm {pairs pairs' : List (String × EvidenceState)}
    (h : pairs.Perm pairs') (unique : Dict String EvidenceState) :
    (pairs.foldl keepWeaker unique).entries.Perm (pairs'.foldl keepWeaker unique).entries := by
  apply Dict.entries_perm
  rw [get?_foldl_keepWeaker, get?_foldl_keepWeaker]
  exact h.foldl_eq _

theorem referencePairs_perm {rule rule' : PolicyRule} (h : rule.Reordered rule')
    (context : Context) : (referencePairs rule context).Perm (referencePairs rule' context) := by
  unfold referencePairs
  rw [h.roles]
  exact ((h.where.append h.assertion).map _).append (.refl _)

/-- The references of a rule come out in the order of their paths, and no path comes twice. -/
theorem references_reordered {rule rule' : PolicyRule} {context : Context} {key : String}
    {target : PolicyTarget} {refs refs' : List EvidenceReference} (hrule : rule.Reordered rule')
    (h : references rule context key target = .ok refs)
    (h' : references rule' context key target = .ok refs') : refs' = refs := by
  obtain ⟨made, hmade, h⟩ := Fallible.bind_eq_ok.mp h
  obtain ⟨made', hmade', h'⟩ := Fallible.bind_eq_ok.mp h'
  obtain rfl := Fallible.pure_eq_ok.mp h
  obtain rfl := Fallible.pure_eq_ok.mp h'
  have hentries := entries_foldl_keepWeaker_perm (referencePairs_perm hrule context) ∅
  have hperm : made.Perm made' := Fallible.perm_of_mapM hentries hmade hmade'
  refine (SortKey.insertionSort_key_eq_of_perm (fun ref => ref.fieldPath.val) hperm ?_).symm
  intro a ha b hb hpath
  obtain ⟨entry, hentry, hmakes⟩ := Fallible.exists_of_mem_mapM hmade ha
  obtain ⟨entry', hentry', hmakes'⟩ := Fallible.exists_of_mem_mapM hmade hb
  have hpathOf : ∀ {entry : String × EvidenceState} {ref : EvidenceReference},
      (do
        let recordKey ← Text.validate 160 "EvidenceReference" "record_key" key
        let fieldPath ← Text.validate 160 "EvidenceReference" "field_path" entry.1
        pure
          { recordType := target.recordType, recordKey := recordKey, fieldPath := fieldPath,
            evidenceState := entry.2 : EvidenceReference } : Result EvidenceReference) = .ok ref →
        ref.fieldPath.val = entry.1 := by
    intro entry ref hok
    obtain ⟨recordKey, _, hok⟩ := Fallible.bind_eq_ok.mp hok
    obtain ⟨fieldPath, hfield, hok⟩ := Fallible.bind_eq_ok.mp hok
    obtain rfl := Fallible.pure_eq_ok.mp hok
    exact Text.validate_eq_ok hfield
  have hkeys : entry.1 = entry'.1 := (hpathOf hmakes).symm.trans (hpath.trans (hpathOf hmakes'))
  obtain rfl := List.inj_on_of_nodup_map ((referencePairs rule context).foldl keepWeaker ∅).nodup
    hentry hentry' hkeys
  exact Except.ok.inj (hmakes.symm.trans hmakes')

/-! ## The context -/

section Context

variable {batch batch' : EvidenceBatch} (h : batch.Reordered batch') (hkeys : DistinctKeys batch)
include h hkeys

theorem flowOf_reordered (uid : String) : batch'.flowOf uid = batch.flowOf uid := by
  have hnodup : (batch.flows.map Flow.uid).Nodup := by
    simpa [EvidenceBatch.recordsForTarget, Function.comp_def, recordKey, PolicyRecord.uid]
      using hkeys .flow
  exact (Dict.get?_ofList_perm h.flows hnodup uid).symm

theorem sessionOf_reordered (uid : String) : batch'.sessionOf uid = batch.sessionOf uid := by
  have hnodup : (batch.sessions.map EmailSession.uid).Nodup := by
    simpa [EvidenceBatch.recordsForTarget, Function.comp_def, recordKey, PolicyRecord.uid]
      using hkeys .session
  exact (Dict.get?_ofList_perm h.sessions hnodup uid).symm

theorem handshakeOf_reordered (uid : String) : batch'.handshakeOf uid = batch.handshakeOf uid := by
  have hnodup : (batch.handshakes.map TlsHandshake.uid).Nodup := by
    simpa [EvidenceBatch.recordsForTarget, Function.comp_def, recordKey, PolicyRecord.uid]
      using hkeys .handshake
  exact (Keyed.find?_perm h.handshakes hnodup uid).symm

/-- Two leaves of one server on one connection differ in their digests. -/
theorem leafOf_reordered (uid : String) : batch'.leafOf uid = batch.leafOf uid := by
  have hinj : ∀ c ∈ batch.certificates, ∀ d ∈ batch.certificates,
      recordKey (.certificate c) = recordKey (.certificate d) → c = d := by
    intro c hc d hd hkey
    have hmem : ∀ c ∈ batch.certificates,
        PolicyRecord.certificate c ∈ batch.recordsForTarget .certificate :=
      fun c hc => List.mem_map_of_mem hc
    have hrecord := List.inj_on_of_nodup_map (hkeys .certificate) (hmem c hc) (hmem d hd) hkey
    injection hrecord
  unfold EvidenceBatch.leafOf leafCertificate
  rw [← SortKey.insertionSort_key_eq_of_perm (fun c : CertificateEvidence => c.derSha256.val)
    ((h.certificates.filter _).filter _)]
  intro c hc d hd hdigest
  obtain ⟨hc, hleaf⟩ := List.mem_filter.mp hc
  obtain ⟨hd, hleaf'⟩ := List.mem_filter.mp hd
  obtain ⟨hc, huid⟩ := List.mem_filter.mp hc
  obtain ⟨hd, huid'⟩ := List.mem_filter.mp hd
  simp only [decide_eq_true_eq] at hleaf hleaf' huid huid' hdigest
  apply hinj c hc d hd
  simp only [recordKey]
  rw [huid, huid', hleaf.1, hleaf'.1, hleaf.2, hleaf'.2, hdigest]

theorem buildContext_reordered {pack pack' : PolicyPack} (hroles : pack'.roles = pack.roles)
    (record : PolicyRecord) : buildContext pack' batch' record = buildContext pack batch record := by
  have hservice : serviceRole pack' = serviceRole pack := by
    funext flow session
    unfold serviceRole
    rw [hroles]
  have hderived : derived pack' = derived pack := by
    funext flow session handshake
    unfold derived
    rw [hservice]
  unfold buildContext
  simp only [flowOf_reordered h hkeys, sessionOf_reordered h hkeys, handshakeOf_reordered h hkeys,
    leafOf_reordered h hkeys, hderived]

end Context

/-! ## Documents -/

namespace EvaluationRun

variable {run run' : EvaluationRun} {rule rule' : PolicyRule} {record : PolicyRecord}
  {context : Context}

theorem idText_reordered (hrun : run.Reordered run') (hrule : rule.Reordered rule')
    (outcome key : String) : run'.idText rule' outcome key = run.idText rule outcome key := by
  unfold idText
  rw [hrun.captureSha256, hrun.profile, hrun.packDigest, hrule.id, hrule.target]

theorem toCheck_reordered (hrun : run.Reordered run') (hrule : rule.Reordered rule')
    (outcome : PolicyCheckOutcome) (state : EvidenceState) :
    run'.toCheck rule' context record outcome state =
      run.toCheck rule context record outcome state := by
  unfold toCheck
  rw [hrun.sha256, hrule.id, hrule.target, hrule.title]
  simp only [idText_reordered hrun hrule]

theorem toFinding_reordered (hrun : run.Reordered run') (hrule : rule.Reordered rule')
    {instant : Py.Datetime} {outcome : FindingOutcome} {finding finding' : Finding}
    (h : run.toFinding rule instant context outcome record = .ok finding)
    (h' : run'.toFinding rule' instant context outcome record = .ok finding') :
    finding' = finding := by
  have hid := idText_reordered hrun hrule outcome.value (recordKey record)
  unfold toFinding at h h'
  simp only [hid, hrun.sha256, hrun.profile, hrun.packDigest, hrule.target] at h h'
  obtain ⟨refs, hrefs, h⟩ := Fallible.bind_eq_ok.mp h
  obtain ⟨refs', hrefs', h'⟩ := Fallible.bind_eq_ok.mp h'
  obtain rfl := references_reordered hrule hrefs hrefs'
  -- What is left of the two rules is what they have in common.
  simp only [hrule.id, hrule.title, hrule.rationale, hrule.standards, hrule.remediationId,
    hrule.severity, hrule.effectiveFrom, hrule.effectiveUntil] at h'
  exact Except.ok.inj (h'.symm.trans h)

/-- **What a rule leaves on a record does not depend on an order.** It is for one record and one
rule, and it compares the documents and not only the verdict. -/
theorem evaluateRecord_reordered {batch batch' : EvidenceBatch} {instant : Py.Datetime}
    {emission emission' : Emission} (hrun : run.Reordered run') (hrule : rule.Reordered rule')
    (hbatch : batch.Reordered batch') (hkeys : DistinctKeys batch)
    (h : run.evaluateRecord batch instant rule record = .ok emission)
    (h' : run'.evaluateRecord batch' instant rule' record = .ok emission') :
    emission' = emission := by
  obtain ⟨context, coverage, hcontext, hcoverage, hcheck, hfinding⟩ := evaluateRecord_eq_ok h
  obtain ⟨context', coverage', hcontext', hcoverage', hcheck', hfinding'⟩ := evaluateRecord_eq_ok h'
  rw [buildContext_reordered hbatch hkeys hrun.roles] at hcontext'
  obtain rfl : context' = context := Except.ok.inj (hcontext'.symm.trans hcontext)
  obtain rfl := evaluateRuleWithCoverage_reordered hrule hcoverage hcoverage'
  simp only [toCheck_reordered hrun hrule] at hcheck'
  have houtcome : findingOutcome rule' coverage'.result = findingOutcome rule coverage'.result := by
    unfold findingOutcome
    rw [hrule.failOutcome]
  rw [houtcome] at hfinding'
  have hsameFinding : emission'.finding = emission.finding := by
    cases hout : findingOutcome rule coverage'.result with
    | none =>
      rw [hout] at hfinding hfinding'
      rw [Fallible.mapM_none_eq_ok.mp hfinding, Fallible.mapM_none_eq_ok.mp hfinding']
    | some outcome =>
      rw [hout] at hfinding hfinding'
      obtain ⟨finding, hmade, hsome⟩ := Fallible.mapM_some_eq_ok.mp hfinding
      obtain ⟨finding', hmade', hsome'⟩ := Fallible.mapM_some_eq_ok.mp hfinding'
      rw [hsome, hsome', toFinding_reordered hrun hrule hmade hmade']
  obtain ⟨check, finding⟩ := emission
  obtain ⟨check', finding'⟩ := emission'
  have hsameCheck : check' = check := Except.ok.inj (hcheck'.symm.trans hcheck)
  rw [hsameCheck, show finding' = finding from hsameFinding]

end EvaluationRun

end Policy
end SecureMail
