import SecureMail.Evidence.Reconstruction
import SecureMail.Lib.Precedence

/-!
# Damage and the verdict

More damage to a stream must never make its reconstruction look better, or an attacker who can drop
or forge segments could turn an incomplete stream into a complete one. The code does not compare
verdicts; it runs a cascade of tests, and two sets of facts that differ a little can stop at
different branches of it, with different reasons. So the law is not read off the branches.

What makes it provable is that only three qualities come out of the cascade, and two questions
decide which: is there a conflict, and if not, is anything missing. `damage_eq_firstOf` is that
reading. Each question is a disjunction of tests that can only turn from no to yes as ranges, counts
and flags are added, so the answer of the pair can only go down, and every one of the reasons is
covered by one argument instead of a comparison of branches in pairs.
-/

namespace SecureMail

/-- How far down the qualities stand: the order the law is stated in, which the source has only as
the order of the branches. -/
def ReconstructionQuality.damage : ReconstructionQuality → Nat
  | .complete => 0
  | .incomplete => 1
  | .conflicting => 2

namespace ReconstructionFacts

variable {facts facts' : ReconstructionFacts}

/-! ## The two questions -/

/-- A TCP stream with bytes in two versions. Nothing outweighs it, so it is the first question. -/
def conflicts (facts : ReconstructionFacts) : Bool :=
  facts.proto = .tcp && !facts.conflictingRanges.isEmpty

/-- A history without an end it should have. -/
def openEnded (history : String) : Bool :=
  !hasOrigSyn history ||
    (hasRespSynack history || hasData history || Py.isIn "A" history) && !hasFin history &&
      !hasRst history

/-- Something of the stream is missing, or may be. The tests of all the other branches are here at
once, since for the quality it does not matter which of them was met first. -/
def lacks (facts : ReconstructionFacts) : Bool :=
  facts.truncatedPackets ||
    facts.proto = .tcp &&
      (0 < facts.missedBytes || !facts.gapRanges.isEmpty || 0 < facts.captureLossGaps ||
        openEnded facts.history)

/-- The quality is decided by the two questions, in this order. -/
theorem damage_eq_firstOf (facts : ReconstructionFacts) :
    facts.classifyReconstruction.reconstructionQuality.damage =
      Precedence.firstOf 0 [(facts.conflicts, 2), (facts.lacks, 1)] := by
  unfold classifyReconstruction conflicts lacks openEnded Precedence.firstOf Precedence.firstOf
    Precedence.firstOf
  by_cases htcp : facts.proto = .tcp
  · simp only [htcp, ne_eq, not_true_eq_false, if_false, decide_true, Bool.true_and]
    cases hconflict : facts.conflictingRanges.isEmpty with
    | false => simp [verdict, ReconstructionQuality.damage]
    | true =>
      cases hcut : facts.truncatedPackets with
      | true => simp [verdict, ReconstructionQuality.damage]
      | false =>
        by_cases hgap : (decide (0 < facts.missedBytes) || !facts.gapRanges.isEmpty) = true
        · simp only [hgap, Bool.not_true, Bool.false_eq_true, if_false, if_true, Bool.true_or,
            Bool.false_or]
          split <;> rfl
        · by_cases hlost : 0 < facts.captureLossGaps
          · simp [hgap, hlost, verdict, ReconstructionQuality.damage]
          · cases hasOrigSyn facts.history with
            | false => simp [hgap, hlost, verdict, ReconstructionQuality.damage]
            | true =>
              simp only [hgap, hlost, Bool.not_true, Bool.false_eq_true, if_false,
                decide_false, Bool.false_or, Bool.or_false]
              split <;> rfl
  · cases hcut : facts.truncatedPackets with
    | true => simp [htcp, verdict, ReconstructionQuality.damage]
    | false => simp [htcp, verdict, ReconstructionQuality.damage]

/-! ## More damage -/

/-- The second facts have all the damage of the first, and perhaps more: every range, at least the
counts, and the flag. Transport protocol and history are the same; nothing else is asked to be. -/
structure DamagedTo (facts facts' : ReconstructionFacts) : Prop where
  proto : facts'.proto = facts.proto
  history : facts'.history = facts.history
  missedBytes : facts.missedBytes ≤ facts'.missedBytes
  gapRanges : facts.gapRanges ⊆ facts'.gapRanges
  captureLossGaps : facts.captureLossGaps ≤ facts'.captureLossGaps
  truncatedPackets : facts.truncatedPackets = true → facts'.truncatedPackets = true
  conflictingRanges : facts.conflictingRanges ⊆ facts'.conflictingRanges

theorem isEmpty_of_subset {α : Type} {l l' : List α} (h : l ⊆ l') (hl : l'.isEmpty = true) :
    l.isEmpty = true := by
  rw [List.isEmpty_iff] at hl ⊢
  subst hl
  exact List.eq_nil_of_subset_nil h

theorem DamagedTo.conflicts (h : DamagedTo facts facts') (hconflict : facts.conflicts = true) :
    facts'.conflicts = true := by
  simp only [ReconstructionFacts.conflicts, Bool.and_eq_true, decide_eq_true_eq,
    Bool.not_eq_true'] at hconflict ⊢
  refine ⟨h.proto.trans hconflict.1, ?_⟩
  rw [Bool.eq_false_iff]
  intro hempty
  rw [isEmpty_of_subset h.conflictingRanges hempty] at hconflict
  exact absurd hconflict.2 (by simp)

theorem DamagedTo.lacks (h : DamagedTo facts facts') (hlacks : facts.lacks = true) :
    facts'.lacks = true := by
  unfold ReconstructionFacts.lacks at hlacks ⊢
  simp only [h.proto, h.history, Bool.or_eq_true, Bool.and_eq_true, decide_eq_true_eq] at hlacks ⊢
  rcases hlacks with hcut | ⟨htcp, ((hmissed | hgap) | hlost) | hopen⟩
  · exact Or.inl (h.truncatedPackets hcut)
  · exact Or.inr ⟨htcp, Or.inl (Or.inl (Or.inl (hmissed.trans_le h.missedBytes)))⟩
  · refine Or.inr ⟨htcp, Or.inl (Or.inl (Or.inr ?_))⟩
    rw [Bool.not_eq_true', Bool.eq_false_iff] at hgap ⊢
    exact fun hempty => hgap (isEmpty_of_subset h.gapRanges hempty)
  · exact Or.inr ⟨htcp, Or.inl (Or.inr (hlost.trans_le h.captureLossGaps))⟩
  · exact Or.inr ⟨htcp, Or.inr hopen⟩

theorem DamagedTo.damage_le (h : DamagedTo facts facts') :
    facts.classifyReconstruction.reconstructionQuality.damage ≤
      facts'.classifyReconstruction.reconstructionQuality.damage := by
  rw [damage_eq_firstOf, damage_eq_firstOf]
  refine Precedence.firstOf_mono ?_ (by simp) (by simp)
  exact .cons ⟨rfl, h.conflicts⟩ (.cons ⟨rfl, h.lacks⟩ .nil)

/-! ## One verdict -/

/-- The fields of a verdict agree on its quality. -/
structure Consistent (v : ReconstructionVerdict) : Prop where
  reason : v.reasonCode = none ↔ v.reconstructionQuality = .complete
  state : v.evidenceState = qualityToState v.reconstructionQuality
  whole : 0 < v.gapBytes → v.reconstructionQuality ≠ .complete

theorem consistent_complete (facts : ReconstructionFacts) :
    Consistent (facts.verdict .complete none 0 true) :=
  ⟨by simp [verdict], rfl, by simp [verdict]⟩

theorem consistent_flawed (facts : ReconstructionFacts) {quality : ReconstructionQuality}
    (hquality : quality ≠ .complete) (reason : ReconstructionReasonCode) (gapBytes : Nat)
    (exact : Bool) (ranges : List ByteRange) :
    Consistent (facts.verdict quality (some reason) gapBytes exact ranges) :=
  ⟨by simp [verdict, hquality], rfl, fun _ => hquality⟩

theorem consistent (facts : ReconstructionFacts) : Consistent facts.classifyReconstruction := by
  have hincomplete : ReconstructionQuality.incomplete ≠ .complete := by decide
  have hconflicting : ReconstructionQuality.conflicting ≠ .complete := by decide
  unfold classifyReconstruction
  dsimp only
  split_ifs
  all_goals first
    | exact facts.consistent_complete
    | exact facts.consistent_flawed hincomplete _ _ _ _
    | exact facts.consistent_flawed hconflicting _ _ _ _

/-- **The verdict is antitone in damage**, and no verdict contradicts itself: a reason is absent
exactly where the quality is complete, the evidence state is the quality's, and missing bytes rule
out a complete stream. -/
theorem quality_antitone :
    (∀ facts facts' : ReconstructionFacts, DamagedTo facts facts' →
      facts.classifyReconstruction.reconstructionQuality.damage ≤
        facts'.classifyReconstruction.reconstructionQuality.damage) ∧
      ∀ facts : ReconstructionFacts, Consistent facts.classifyReconstruction :=
  ⟨fun _ _ => DamagedTo.damage_le, consistent⟩

/-- A whole mail connection. -/
def whole : ReconstructionFacts where
  proto := .tcp
  history := "ShADadFf"
  connState := "SF"
  missedBytes := 0
  origBytes := 900
  respBytes := 4000
  weirdNames := []
  captureLossGaps := 0
  truncatedPackets := false
  gapRanges := []
  conflictingRanges := []
  retransmissionCount := 0
  outOfOrder := false
  duplicateSegments := false

/-- A gap on a whole connection leaves it incomplete. -/
theorem gap_not_improved :
    whole.classifyReconstruction.reconstructionQuality.damage ≤
      { whole with gapRanges := [⟨80, 100, .orig, true⟩]
        : ReconstructionFacts }.classifyReconstruction.reconstructionQuality.damage :=
  quality_antitone.1 whole _
    ⟨rfl, rfl, by simp, by simp [whole], by simp, by simp [whole], by simp⟩

end ReconstructionFacts

end SecureMail
