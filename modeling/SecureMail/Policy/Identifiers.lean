import SecureMail.Policy.Agreement
import SecureMail.Py.Delimited

/-!
# The ids of findings and checks

An id is the hash of fields joined by bars. The fields before the rule are those of the run, the
fields between are words without a bar, and the key of the record comes last, so that it may hold
anything: two id texts of one run are the same text only for one rule, one outcome and one key
(`idText_inj`). No two entries of a journal have one rule and one key, and each leaves one finding
and one check at most, so the ids are distinct as far as the hash is free of collisions on the texts
of the evaluation.
-/

namespace SecureMail
namespace Policy

/-! ## The text of an id -/

/-- The words an outcome is written as. -/
inductive OutcomeWord : String → Prop
  | finding (outcome : FindingOutcome) : OutcomeWord outcome.value
  | check (outcome : PolicyCheckOutcome) : OutcomeWord outcome.value

theorem OutcomeWord.no_bar {outcome : String} (h : OutcomeWord outcome) :
    '|' ∉ outcome.toList := by
  cases h with
  | finding outcome => cases outcome <;> decide
  | check outcome => cases outcome <;> decide

theorem target_no_bar (target : PolicyTarget) : '|' ∉ target.value.toList := by
  cases target <;> decide

/-- The texts that can be hashed for an evaluation. There are finitely many: one for each rule,
record and word of an outcome. -/
def IdText (run : EvaluationRun) (batch : EvidenceBatch) (text : String) : Prop :=
  ∃ rule ∈ run.pack.rules, ∃ record ∈ batch.recordsForTarget rule.target,
    ∃ outcome, OutcomeWord outcome ∧ text = run.idText rule outcome (recordKey record)

/-- The hash has no collision on the id texts of the evaluation. No hash to 256 bits is free of
collisions on all texts. What is asked is that it has none on the finitely many texts of this
evaluation, which is what the code relies on. -/
def CollisionFree (run : EvaluationRun) (batch : EvidenceBatch) : Prop :=
  ∀ text text', IdText run batch text → IdText run batch text' →
    run.sha256 text = run.sha256 text' → text = text'

variable {run : EvaluationRun} {batch : EvidenceBatch} {instant : Py.Datetime}

/-- **The fields of an id text are read back from it.** The key of the record comes last and is the
rest of the text, bars and all. -/
theorem idText_inj {rule rule' : PolicyRule} {outcome outcome' key key' : String}
    (hrule : '|' ∉ rule.id.val.toList) (hrule' : '|' ∉ rule'.id.val.toList)
    (houtcome : OutcomeWord outcome) (houtcome' : OutcomeWord outcome')
    (h : run.idText rule outcome key = run.idText rule' outcome' key') :
    rule.id = rule'.id ∧ outcome = outcome' ∧ key = key' := by
  have hbar : "|".toList = ['|'] := rfl
  simp only [EvaluationRun.idText, Py.join_cons_cons, Py.join_singleton] at h
  -- The three fields of the run are the same on both sides.
  have hfields := String.append_right_inj _ |>.mp
    (String.append_right_inj _ |>.mp (String.append_right_inj _ |>.mp h))
  obtain ⟨hid, hfields⟩ := Py.append_sep_inj_left hbar hrule hrule' hfields
  obtain ⟨hout, hfields⟩ := Py.append_sep_inj_left hbar houtcome.no_bar houtcome'.no_bar hfields
  obtain ⟨-, hkey⟩ := Py.append_sep_inj_left hbar (target_no_bar _) (target_no_bar _) hfields
  exact ⟨Subtype.ext hid, hout, hkey⟩

/-! ## The key of a certificate -/

theorem no_colon_of_hex {digest : Sha256Hex} : ':' ∉ digest.val.toList := by
  intro hcolon
  have hhex := digest.property.2 ':' hcolon
  exact absurd hhex (by decide)

theorem no_colon_of_nat (n : Nat) : ':' ∉ (toString n).toList := by
  intro hcolon
  rw [Nat.toString_eq_repr, Nat.toList_repr] at hcolon
  exact absurd (Nat.isDigit_of_mem_toDigits (by decide) (by decide) hcolon) (by decide)

theorem toString_nat_inj {m n : Nat} (h : toString m = toString n) : m = n := by
  have hdigits := congrArg (fun s => Nat.ofDigitChars 10 s.toList 0) h
  simpa using hdigits

/-- **The key of a certificate is its connection, its role, its place and its digest.** The parts
behind the connection have no colon in them. -/
theorem recordKey_certificate_inj {c c' : CertificateEvidence}
    (h : recordKey (.certificate c) = recordKey (.certificate c')) :
    c.uid = c'.uid ∧ c.role = c'.role ∧ c.chainIndex = c'.chainIndex ∧
      c.derSha256 = c'.derSha256 := by
  have hcolon : ":".toList = [':'] := rfl
  have hrole : ∀ role : CertificateRole, ':' ∉ role.value.toList := by
    intro role
    cases role <;> decide
  obtain ⟨h, hdigest⟩ := Py.append_sep_inj_right hcolon no_colon_of_hex no_colon_of_hex h
  obtain ⟨h, hindex⟩ := Py.append_sep_inj_right hcolon (no_colon_of_nat _) (no_colon_of_nat _) h
  obtain ⟨huid, hroles⟩ := Py.append_sep_inj_right hcolon (hrole _) (hrole _) h
  refine ⟨huid, ?_, toString_nat_inj hindex, Subtype.ext hdigest⟩
  cases hr : c.role <;> cases hr' : c'.role <;> rw [hr, hr'] at hroles <;>
    first | rfl | exact absurd hroles (by decide)

/-! ## The ids of one evaluation -/

namespace EvaluationRun

variable {rule : PolicyRule} {context : Context} {record : PolicyRecord}

theorem findingId_of_toFinding {outcome : FindingOutcome} {finding : Finding}
    (h : run.toFinding rule instant context outcome record = .ok finding) :
    finding.findingId = run.sha256 (run.idText rule finding.outcome.value (recordKey record)) := by
  obtain ⟨refs, _, h⟩ := Fallible.bind_eq_ok.mp h
  obtain ⟨profile, _, h⟩ := Fallible.bind_eq_ok.mp h
  obtain ⟨digest, _, h⟩ := Fallible.bind_eq_ok.mp h
  obtain ⟨endpoint, _, h⟩ := Fallible.bind_eq_ok.mp h
  split at h
  · obtain rfl := Fallible.pure_eq_ok.mp h
    rfl
  · exact absurd h (by intro hthrow; cases hthrow)

theorem checkId_of_toCheck {outcome : PolicyCheckOutcome} {state : EvidenceState}
    {check : PolicyCheck} (h : run.toCheck rule context record outcome state = .ok check) :
    check.checkId = run.sha256 (run.idText rule check.outcome.value (recordKey record)) := by
  obtain ⟨endpoint, _, h⟩ := Fallible.bind_eq_ok.mp h
  obtain ⟨key, _, h⟩ := Fallible.bind_eq_ok.mp h
  obtain rfl := Fallible.pure_eq_ok.mp h
  rfl

/-- What a rule leaves on a record is named by the rule, the outcome and the key. -/
theorem ids_of_evaluateRecord {emission : Emission}
    (h : run.evaluateRecord batch instant rule record = .ok emission) :
    (∀ finding, emission.finding = some finding → finding.findingId =
      run.sha256 (run.idText rule finding.outcome.value (recordKey record))) ∧
    ∀ check, emission.check = some check → check.checkId =
      run.sha256 (run.idText rule check.outcome.value (recordKey record)) := by
  obtain ⟨context, coverage, _, _, hcheck, hfinding⟩ := evaluateRecord_eq_ok h
  constructor
  · intro finding hsome
    cases hout : findingOutcome rule coverage.result with
    | none =>
      rw [hout] at hfinding
      rw [Fallible.mapM_none_eq_ok.mp hfinding] at hsome
      cases hsome
    | some outcome =>
      rw [hout] at hfinding
      obtain ⟨made, hmade, hemitted⟩ := Fallible.mapM_some_eq_ok.mp hfinding
      rw [hemitted] at hsome
      cases hsome
      exact findingId_of_toFinding hmade
  · intro check hsome
    cases hcovered : coverage.check with
    | none =>
      rw [hcovered] at hcheck
      rw [Fallible.mapM_none_eq_ok.mp hcheck] at hsome
      cases hsome
    | some covered =>
      rw [hcovered] at hcheck
      obtain ⟨made, hmade, hemitted⟩ := Fallible.mapM_some_eq_ok.mp hcheck
      rw [hemitted] at hsome
      cases hsome
      exact checkId_of_toCheck hmade

end EvaluationRun

/-- Entries of different subjects leave documents of different ids, where the id of a document is
the hash of an id text of its entry. -/
theorem nodup_ids {α : Type} {evaluation : PolicyEvaluation}
    (journal : Journal run batch instant evaluation) (hkeys : DistinctKeys batch)
    (hids : ∀ rule ∈ run.pack.rules, '|' ∉ rule.id.val.toList) (hsha : CollisionFree run batch)
    {out : Emission → Option α} {id : α → Sha256Hex} {word : α → String}
    (hword : ∀ a, OutcomeWord (word a))
    (hid : ∀ e ∈ journal.entries, ∀ a, out e.2 = some a →
      id a = run.sha256 (run.idText e.1.1 (word a) (recordKey e.1.2))) :
    ((journal.entries.filterMap fun e => out e.2).map id).Nodup := by
  rw [List.Nodup, List.pairwise_map, List.pairwise_filterMap]
  have hsubjects := List.pairwise_map.mp (journal.nodup_entries hkeys)
  refine hsubjects.imp_of_mem ?_
  intro e e' he he' hne a ha a' ha' hsame
  obtain ⟨hrule, -, hrecord⟩ := journal.mem_work he
  obtain ⟨hrule', -, hrecord'⟩ := journal.mem_work he'
  rw [hid e he a ha, hid e' he' a' ha'] at hsame
  have htext := hsha _ _ ⟨e.1.1, hrule, e.1.2, hrecord, word a, hword a, rfl⟩
    ⟨e'.1.1, hrule', e'.1.2, hrecord', word a', hword a', rfl⟩ hsame
  obtain ⟨hrules, -, hkey⟩ := idText_inj (hids _ hrule) (hids _ hrule') (hword a) (hword a') htext
  exact hne (Prod.ext hrules hkey)

/-- **Ids are distinct within an evaluation and the same in every evaluation of the same input, and
a certificate's key identifies it.** -/
theorem ids_unique_and_stable {evaluationTime : Py.Datetime} {evaluation : PolicyEvaluation}
    (h : run.evaluatePolicyBatch evaluationTime batch = .ok evaluation)
    (hids : ∀ rule ∈ run.pack.rules, '|' ∉ rule.id.val.toList) (hkeys : DistinctKeys batch)
    (hsha : CollisionFree run batch) :
    (evaluation.findings.map (·.findingId)).Nodup ∧ (evaluation.checks.map (·.checkId)).Nodup ∧
    (∀ again, run.evaluatePolicyBatch evaluationTime batch = .ok again →
      again.findings.map (·.findingId) = evaluation.findings.map (·.findingId) ∧
        again.checks.map (·.checkId) = evaluation.checks.map (·.checkId)) ∧
    ∀ c c' : CertificateEvidence, recordKey (.certificate c) = recordKey (.certificate c') →
      c.uid = c'.uid ∧ c.role = c'.role ∧ c.chainIndex = c'.chainIndex ∧
        c.derSha256 = c'.derSha256 := by
  obtain ⟨instant, -, ⟨journal⟩⟩ := evaluatePolicyBatch_eq_ok h
  refine ⟨?_, ?_, ?_, fun c c' => recordKey_certificate_inj⟩
  · refine ((journal.findings.map (·.findingId)).nodup_iff).mpr ?_
    refine nodup_ids journal hkeys hids hsha (fun finding => .finding finding.outcome) ?_
    exact fun e he =>
        (EvaluationRun.ids_of_evaluateRecord (journal.evaluated e he)).1
  · refine ((journal.checks.map (·.checkId)).nodup_iff).mpr ?_
    refine nodup_ids journal hkeys hids hsha (fun check => .check check.outcome) ?_
    exact fun e he =>
        (EvaluationRun.ids_of_evaluateRecord (journal.evaluated e he)).2
  · intro again hagain
    obtain rfl : evaluation = again := Except.ok.inj (h.symm.trans hagain)
    exact ⟨rfl, rfl⟩

/-! ## Two handshakes of one capture -/

/-- The SHA-256 of the id texts the pack has for the records `C1` and `C2`, by outcome and key. -/
def idDigests : List ((String × String) × Sha256Hex) :=
  [(("negative", "C1"), negativeDigest),
   (("indeterminate", "C1"), indeterminateDigest),
   (("pass", "C1"), passDigest),
   (("fail", "C1"), failDigest),
   (("unknown", "C1"), unknownDigest),
   (("not_observable", "C1"),
    ⟨"d15cd23717b0415b5fc04e689b9fbebea72250f67bb5406300cec717caae29de", by decide +kernel⟩),
   (("negative", "C2"),
    ⟨"29bbded6854933c2664178d699e2ba239f691336841b211ab8525f4fbe83e707", by decide +kernel⟩),
   (("indeterminate", "C2"),
    ⟨"e5006f317237d2a02cfa34c60754b8c74c786a8e050de84c8759983bc4a6b5e2", by decide +kernel⟩),
   (("pass", "C2"), secondPassDigest),
   (("fail", "C2"),
    ⟨"cddd69e49541cf7426c4c1a4db6f63dde17694cc6d7026cf59eab11b11f62443", by decide +kernel⟩),
   (("unknown", "C2"),
    ⟨"16cc66348ca69ca29f46c77fb8e53e1474defd8312b11efbc8a5498d90bd3aba", by decide +kernel⟩),
   (("not_observable", "C2"),
    ⟨"cd27023afa2116bfdbb7541e4b3ac4ca805e09af0b54eb695d6e8b7c83e642b8", by decide +kernel⟩)]

def idTable : List (String × Sha256Hex) :=
  idDigests.map fun entry => (tls10Run.idText tls10Rule entry.1.1 entry.1.2, entry.2)

def idSha256 (text : String) : Sha256Hex := (idTable.lookup text).getD (tls10Sha256 text)

def twoHandshakesRun : EvaluationRun := { tls10Run with sha256 := idSha256 }

def twoHandshakes : EvidenceBatch :=
  { handshakes := [negotiated "TLSv10" .observed, { negotiated "TLSv10" .observed with uid := "C2" }] }

/-- An id text does not depend on the hash. -/
theorem idText_withSha256 (run : EvaluationRun) (sha256 : String → Sha256Hex) (rule : PolicyRule)
    (outcome key : String) :
    EvaluationRun.idText { run with sha256 := sha256 } rule outcome key =
      run.idText rule outcome key := rfl

theorem idDigests_words : ∀ entry ∈ idDigests,
    entry.1.1 ∈ [FindingOutcome.negative, .indeterminate].map FindingOutcome.value ++
      [PolicyCheckOutcome.pass, .fail, .unknown, .notObservable].map PolicyCheckOutcome.value := by
  decide

theorem outcomeWord_of_mem {entry : (String × String) × Sha256Hex} (h : entry ∈ idDigests) :
    OutcomeWord entry.1.1 := by
  rcases List.mem_append.mp (idDigests_words entry h) with hword | hword
  · obtain ⟨outcome, -, houtcome⟩ := List.mem_map.mp hword
    exact houtcome ▸ .finding outcome
  · obtain ⟨outcome, -, houtcome⟩ := List.mem_map.mp hword
    exact houtcome ▸ .check outcome

theorem nodup_idKeys : (idDigests.map (·.1)).Nodup := by decide

theorem nodup_idTable : (idTable.map (·.1)).Nodup := by
  have hrule : '|' ∉ tls10Rule.id.val.toList := by decide
  rw [idTable, List.map_map]
  refine List.Nodup.map_on ?_ (List.Nodup.of_map _ nodup_idKeys)
  intro entry hentry other hother htext
  obtain ⟨-, hout, hkey⟩ := idText_inj hrule hrule (outcomeWord_of_mem hentry)
    (outcomeWord_of_mem hother) htext
  exact List.inj_on_of_nodup_map nodup_idKeys hentry hother (Prod.ext hout hkey)

theorem idSha256_of_mem {text : String} {digest : Sha256Hex} (h : (text, digest) ∈ idTable) :
    idSha256 text = digest := by
  have hlookup : idTable.lookup text = some digest :=
    (Py.Dict.mem_entries_iff (d := ⟨idTable, nodup_idTable⟩)).mp h
  rw [idSha256, hlookup, Option.getD_some]

theorem nodup_digests : (idTable.map (·.2)).Nodup := by
  rw [idTable, List.map_map]
  show (idDigests.map (·.2)).Nodup
  decide +kernel

theorem mem_idTable {text : String} (h : IdText twoHandshakesRun twoHandshakes text) :
    ∃ digest, (text, digest) ∈ idTable := by
  obtain ⟨rule, hrule, record, hrecord, outcome, hword, rfl⟩ := h
  obtain rfl : rule = tls10Rule := List.mem_singleton.mp hrule
  have hkey : recordKey record ∈ ["C1", "C2"] := by
    have hrecords : twoHandshakes.recordsForTarget tls10Rule.target =
        twoHandshakes.handshakes.map .handshake := rfl
    rw [hrecords] at hrecord
    obtain ⟨handshake, hhandshake, rfl⟩ := List.mem_map.mp hrecord
    exact List.mem_map_of_mem (f := fun handshake : TlsHandshake => handshake.uid) hhandshake
  have htable : ∀ key ∈ ["C1", "C2"], (outcome, key) ∈ idDigests.map (·.1) := by
    cases hword with
    | finding outcome => cases outcome <;> decide
    | check outcome => cases outcome <;> decide
  obtain ⟨entry, hentry, hpair⟩ := List.mem_map.mp (htable _ hkey)
  obtain ⟨rfl, hkeyEq⟩ := Prod.mk.inj hpair
  rw [twoHandshakesRun, idText_withSha256, ← hkeyEq]
  refine ⟨entry.2, ?_⟩
  rw [idTable, List.mem_map]
  exact ⟨entry, hentry, rfl⟩

theorem collisionFree_twoHandshakes : CollisionFree twoHandshakesRun twoHandshakes := by
  intro text text' htext htext' hsame
  obtain ⟨digest, hmem⟩ := mem_idTable htext
  obtain ⟨digest', hmem'⟩ := mem_idTable htext'
  have hsha : twoHandshakesRun.sha256 = idSha256 := by simp only [twoHandshakesRun]
  rw [hsha, idSha256_of_mem hmem, idSha256_of_mem hmem'] at hsame
  have hinj := List.inj_on_of_nodup_map nodup_digests
  have hpair : (text, digest) = (text', digest') := hinj hmem hmem' hsame
  exact (Prod.mk.inj hpair).1

theorem ids_two_handshakes :
    ∃ evaluation, twoHandshakesRun.evaluatePolicyBatch analysisTime twoHandshakes = .ok evaluation ∧
      evaluation.findings.length = 2 ∧ (evaluation.findings.map (·.findingId)).Nodup ∧
      (evaluation.checks.map (·.checkId)).Nodup := by
  have hrun : (twoHandshakesRun.evaluatePolicyBatch analysisTime twoHandshakes).toOption.map
      (fun evaluation => evaluation.findings.length) = some 2 := by
    decide +kernel
  have hkeys : DistinctKeys twoHandshakes := by
    intro target
    cases target <;> decide
  cases heval : twoHandshakesRun.evaluatePolicyBatch analysisTime twoHandshakes with
  | error e =>
    rw [heval] at hrun
    exact absurd hrun (by simp [Except.toOption])
  | ok evaluation =>
    rw [heval] at hrun
    have hids : ∀ rule ∈ tls10Pack.rules, '|' ∉ rule.id.val.toList := by decide
    obtain ⟨hfindings, hchecks, -⟩ :=
      ids_unique_and_stable heval hids hkeys collisionFree_twoHandshakes
    exact ⟨evaluation, rfl, Option.some.inj hrun, hfindings, hchecks⟩

end Policy
end SecureMail
