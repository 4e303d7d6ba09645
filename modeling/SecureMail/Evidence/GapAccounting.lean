import SecureMail.Evidence.Damage
import SecureMail.Lib.Coverage

/-!
# What a gap count counts

A verdict counts the missing bytes of a stream and says whether the count is exact. Zeek's own count
comes first; without one the count is the lengths of the gap ranges added up. The sum is the number
of missing positions when no two ranges of one direction overlap, and more than that otherwise. The
flag asks every range whether it is exact, except on a cut capture, where any count at all passes
for an exact one.

To say that a sum of lengths counts something there has to be something it counts: the positions of
a range, each with its direction, so that the two streams of a connection do not share any. A range
is then a finite set, and the question when the sum of sizes is the size of the union is one about
finite sets in general, which `Coverage` answers: just when they are pairwise disjoint.

`gapSound_iff` says when a count is what it claims to be: always where Zeek counted, and otherwise
where the ranges lie apart and, on a cut capture, are exact or empty.
-/

namespace SecureMail

open Coverage (cover)

/-! ## Adding up the ranges -/

/-- The positions of a range, each with the direction of its stream. -/
def ByteRange.positions (range : ByteRange) : List (StreamDirection × Nat) :=
  Coverage.span range.direction range.start range.end

/-- The positions the ranges say are missing. -/
def missingPositions (ranges : List ByteRange) : Finset (StreamDirection × Nat) :=
  cover ByteRange.positions ranges

/-- No position of the one stream is in both ranges. It is stated on the ends, as a reader of the log
would check it, and an empty range is apart from everything. -/
def ByteRange.Apart (r s : ByteRange) : Prop :=
  r.direction = s.direction → min r.end s.end ≤ max r.start s.start

theorem foldl_rangeBytes (ranges : List ByteRange) (total : Nat) :
    ranges.foldl (fun total item =>
        if item.start ≤ item.end then total + (item.end - item.start) else total) total =
      total + (ranges.map fun item => item.end - item.start).sum := by
  induction ranges generalizing total with
  | nil => simp
  | cons item rest ih =>
    rw [List.foldl_cons, ih, List.map_cons, List.sum_cons]
    by_cases hitem : item.start ≤ item.end
    · rw [if_pos hitem, Nat.add_assoc]
    · have hempty : item.end - item.start = 0 := Nat.sub_eq_zero_of_le (Nat.le_of_not_le hitem)
      rw [if_neg hitem, hempty, Nat.zero_add]

theorem rangeBytes_eq_sum (ranges : List ByteRange) :
    rangeBytes ranges = (ranges.map fun item => item.positions.length).sum := by
  unfold rangeBytes
  rw [foldl_rangeBytes, Nat.zero_add]
  simp only [ByteRange.positions, Coverage.length_span]

/-- The sum of the ranges is the number of missing positions where no two ranges overlap. -/
theorem rangeBytes_eq_card_iff (ranges : List ByteRange) :
    rangeBytes ranges = (missingPositions ranges).card ↔ ranges.Pairwise ByteRange.Apart := by
  have hnodup : ∀ r ∈ ranges, r.positions.Nodup := fun r _ => Coverage.nodup_span _ _ _
  rw [rangeBytes_eq_sum, eq_comm, missingPositions, Coverage.card_cover_eq_iff hnodup]
  simp only [ByteRange.positions, Coverage.disjoint_span_iff]
  rfl

theorem rangeBytes_pos_iff (ranges : List ByteRange) :
    0 < rangeBytes ranges ↔ ∃ r ∈ ranges, r.start < r.end := by
  rw [rangeBytes_eq_sum, List.sum_pos_iff_exists_pos_nat]
  simp only [List.mem_map, exists_exists_and_eq_and, ByteRange.positions, Coverage.length_span,
    Nat.sub_pos_iff_lt]

namespace ReconstructionFacts

variable {facts : ReconstructionFacts}

/-! ## The count of a verdict -/

theorem gapTotal_eq_zero (hmissed : facts.missedBytes = 0) (hranges : facts.gapRanges = []) :
    facts.gapTotal = 0 := by
  rw [gapTotal, hmissed, hranges]
  rfl

/-- On TCP, a conflict aside, every branch reports the one total. -/
theorem gapBytes_eq_gapTotal (htcp : facts.proto = .tcp) (hconflict : facts.conflictingRanges = []) :
    facts.classifyReconstruction.gapBytes = facts.gapTotal := by
  by_cases hloss : 0 < facts.missedBytes ∨ facts.gapRanges ≠ []
  · have hloss' : (decide (0 < facts.missedBytes) || !facts.gapRanges.isEmpty) = true := by
      simpa using hloss
    unfold classifyReconstruction
    simp only [htcp, hconflict, hloss', ne_eq, not_true_eq_false, if_false, List.isEmpty_nil,
      Bool.not_true, Bool.false_eq_true, if_true]
    split
    · rfl
    · split <;> rfl
  · -- Nothing was lost, and every branch that is left reports no bytes.
    obtain ⟨hmissed, hranges⟩ := not_or.mp hloss
    have hmissed : facts.missedBytes = 0 := by omega
    have hranges : facts.gapRanges = [] := not_not.mp hranges
    have htotal := gapTotal_eq_zero hmissed hranges
    unfold classifyReconstruction
    simp only [htcp, hconflict, hmissed, hranges, htotal, ne_eq, not_true_eq_false, if_false,
      List.isEmpty_nil, Bool.not_true, Bool.false_eq_true, Nat.lt_irrefl, decide_false,
      Bool.or_self]
    split_ifs <;> rfl

/-- A count is called exact when Zeek made it or, on a capture that is not cut, every range is. -/
theorem gapBytesExact_iff (htcp : facts.proto = .tcp) (hconflict : facts.conflictingRanges = [])
    (hcount : 0 < facts.gapTotal) :
    facts.classifyReconstruction.gapBytesExact = true ↔
      facts.truncatedPackets = true ∨ 0 < facts.missedBytes ∨
        ∀ r ∈ facts.gapRanges, r.exact = true := by
  have hloss : 0 < facts.missedBytes ∨ facts.gapRanges ≠ [] := by
    by_contra hnone
    obtain ⟨hmissed, hranges⟩ := not_or.mp hnone
    rw [gapTotal_eq_zero (by omega) (not_not.mp hranges)] at hcount
    exact absurd hcount (Nat.lt_irrefl 0)
  have hloss' : (decide (0 < facts.missedBytes) || !facts.gapRanges.isEmpty) = true := by
    simpa using hloss
  unfold classifyReconstruction
  simp only [htcp, hconflict, hloss', hcount, ne_eq, not_true_eq_false, if_false,
    List.isEmpty_nil, Bool.not_true, Bool.false_eq_true, if_true, decide_true]
  split
  · rename_i hcut
    simp [verdict, hcut]
  · rename_i hwhole
    have hexact : (decide (0 < facts.missedBytes) ||
        (!facts.gapRanges.isEmpty && facts.gapRanges.all (·.exact))) = true ↔
        0 < facts.missedBytes ∨ ∀ r ∈ facts.gapRanges, r.exact = true := by
      by_cases hmissed : 0 < facts.missedBytes
      · simp [hmissed]
      · have hranges : facts.gapRanges ≠ [] := hloss.resolve_left hmissed
        simp [hmissed, hranges]
    have hverdict : ∀ reason, (facts.verdict .incomplete reason facts.gapTotal
        (decide (0 < facts.missedBytes) ||
          (!facts.gapRanges.isEmpty && facts.gapRanges.all (·.exact)))).gapBytesExact = true ↔
        0 < facts.missedBytes ∨ ∀ r ∈ facts.gapRanges, r.exact = true := fun _ => hexact
    simp only [hwhole, Bool.false_eq_true, false_or]
    split
    · exact hverdict _
    · exact hverdict _

/-! ## What the count promises -/

/-- A count that is called exact is one, and where Zeek did not count, every missing position is
counted once. -/
structure GapSound (facts : ReconstructionFacts) : Prop where
  exact : facts.classifyReconstruction.gapBytesExact = true →
    0 < facts.classifyReconstruction.gapBytes →
      0 < facts.missedBytes ∨ ∀ r ∈ facts.gapRanges, r.exact = true
  once : facts.missedBytes = 0 →
    facts.classifyReconstruction.gapBytes = (missingPositions facts.gapRanges).card

/-- The ranges lie apart, and where the capture is cut they are all exact or all empty. The second
half is there for the branch of the cut capture alone, which sets the flag by the count and not by
the ranges; with nothing but empty ranges the count is zero and the flag is not asked for. -/
structure RangesCountable (facts : ReconstructionFacts) : Prop where
  apart : facts.gapRanges.Pairwise ByteRange.Apart
  cut : facts.truncatedPackets = true →
    (∀ r ∈ facts.gapRanges, r.exact = true) ∨ ∀ r ∈ facts.gapRanges, r.end ≤ r.start

/-- **Gap accounting is sound where Zeek counted or the ranges can be counted**, and nowhere else.
Overlapping ranges are counted twice, and on a cut capture inexact ones are called exact. -/
theorem gapSound_iff (facts : ReconstructionFacts) (htcp : facts.proto = .tcp)
    (hconflict : facts.conflictingRanges = []) :
    facts.GapSound ↔ 0 < facts.missedBytes ∨ facts.RangesCountable := by
  have hbytes := gapBytes_eq_gapTotal htcp hconflict
  by_cases hmissed : 0 < facts.missedBytes
  · refine iff_of_true ⟨fun _ _ => Or.inl hmissed, ?_⟩ (Or.inl hmissed)
    intro hzero
    omega
  have hzero : facts.missedBytes = 0 := by omega
  have htotal : facts.gapTotal = rangeBytes facts.gapRanges := if_neg hmissed
  constructor
  · intro h
    refine Or.inr ⟨?_, ?_⟩
    · have honce := h.once hzero
      rw [hbytes, htotal] at honce
      exact (rangeBytes_eq_card_iff _).mp honce
    · intro hcut
      by_cases hcount : 0 < facts.gapTotal
      · have hexact := (gapBytesExact_iff htcp hconflict hcount).mpr (Or.inl hcut)
        exact Or.inl ((h.exact hexact (hbytes ▸ hcount)).resolve_left hmissed)
      · right
        intro r hr
        by_contra hlt
        rw [htotal, rangeBytes_pos_iff] at hcount
        exact hcount ⟨r, hr, Nat.lt_of_not_le hlt⟩
  · rintro (hpos | h)
    · exact absurd hpos hmissed
    refine ⟨?_, ?_⟩
    · intro hexact hcount
      rw [hbytes] at hcount
      rcases (gapBytesExact_iff htcp hconflict hcount).mp hexact with hcut | hrest
      · rcases h.cut hcut with hall | hempty
        · exact Or.inr hall
        · rw [htotal, rangeBytes_pos_iff] at hcount
          obtain ⟨r, hr, hlt⟩ := hcount
          exact absurd (hempty r hr) (Nat.not_le_of_lt hlt)
      · exact hrest
    · intro _
      rw [hbytes, htotal]
      exact (rangeBytes_eq_card_iff _).mpr h.apart

/-! ## Two streams with gaps -/

/-- A mail connection on which the reconstruction script reported these gaps. -/
def gapped (truncatedPackets : Bool) (gapRanges : List ByteRange) : ReconstructionFacts :=
  { whole with truncatedPackets := truncatedPackets, gapRanges := gapRanges }

/-- A gap each way, at the same positions. -/
def eachWay : List ByteRange := [⟨80, 100, .orig, true⟩, ⟨80, 100, .resp, true⟩]

theorem gapSound_eachWay : (gapped false eachWay).GapSound :=
  (gapSound_iff (gapped false eachWay) rfl rfl).mpr
    (Or.inr ⟨by simp [gapped, eachWay, ByteRange.Apart], by simp [gapped]⟩)

/-- A gap with no known start, reported twice. -/
def twice : List ByteRange := [⟨0, 20, .orig, false⟩, ⟨0, 20, .orig, false⟩]

/-- Twenty missing bytes are counted as forty, and the cut capture calls the count exact although no
range is. -/
theorem gap_reported_twice_unsound :
    (gapped true twice).classifyReconstruction.gapBytes = 40 ∧
      (gapped true twice).classifyReconstruction.gapBytesExact = true ∧
      (gapped true twice).gapRanges.any (·.exact) = false ∧
      (missingPositions (gapped true twice).gapRanges).card = 20 ∧
      ¬∀ facts : ReconstructionFacts, facts.proto = .tcp → facts.conflictingRanges = [] →
        facts.GapSound := by
  have hcard : (missingPositions (gapped true twice).gapRanges).card = 20 := by decide
  refine ⟨rfl, rfl, rfl, hcard, fun h => ?_⟩
  have hsound := h (gapped true twice) rfl rfl
  have honce : 40 = (missingPositions (gapped true twice).gapRanges).card := hsound.once rfl
  rw [hcard] at honce
  exact absurd honce (by simp)

end ReconstructionFacts

end SecureMail
