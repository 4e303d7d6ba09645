import SecureMail.Normalize.Passes
import SecureMail.Normalize.SessionTables

/-!
# Corroboration never flips an identity

The run with frames starts from the tables of the run without, and the frame pass only adds to them.
So a connection is named with frames if it was named without, its evidence is a superset of what it
was, and an identity that rested on one protocol either still does or now rests on two, which is a
conflict. No case leads from one protocol to another.

An identity is a function of a set of protocols, so it is enough to know how the set can grow. The
second pass adds to the set the protocols that the frames of the connection speak, and takes nothing
away. That a run without frames returns wherever the run with frames does is part of the result,
since otherwise the comparison could be empty; it holds because the pass over the logs is the same.
-/

namespace SecureMail
namespace Normalize
namespace Sessions

open Py (Val)

namespace Tables

/-- The tables as the run without frames leaves them. -/
def withoutFrames (t : Tables) : Tables :=
  { t with tshark := { seenUids := t.zeek.seenUids, order := t.zeek.order } }

variable {t : Tables} {uid : String} {flow : Flow}

theorem evidence_withoutFrames_subset : t.withoutFrames.evidence uid ⊆ t.evidence uid := by
  have halpn : t.withoutFrames.alpnOf uid = t.alpnOf uid := rfl
  unfold evidence
  rw [halpn]
  intro p hp
  simp only [Finset.mem_union] at hp ⊢
  rcases hp with (hconfirming | hframes) | halpn
  · exact Or.inl (Or.inl hconfirming)
  · exact absurd hframes (Finset.notMem_empty p)
  · exact Or.inr halpn

theorem kept_with_frames (h : t.withoutFrames.skips uid flow = false) :
    t.skips uid flow = false := by
  by_contra hskip
  obtain ⟨hempty, hclear, hport⟩ := skips_iff.mp (by simpa using hskip)
  have hempty' : t.withoutFrames.evidence uid = ∅ :=
    Finset.subset_empty.mp (hempty ▸ evidence_withoutFrames_subset)
  have hskip' : t.withoutFrames.skips uid flow = true :=
    skips_iff.mpr ⟨hempty', hclear, hport⟩
  rw [h] at hskip'
  exact absurd hskip' (by simp)

/-- An identity the run without frames settled on is kept or contested. -/
theorem settled_refines {p : MailProtocol} (h : t.withoutFrames.skips uid flow = false)
    (hp : (t.withoutFrames.settled uid flow).protocol = some p) :
    (t.settled uid flow).protocol = some p ∨
      (t.settled uid flow).protocol = none ∧ (t.settled uid flow).state = .conflicting := by
  -- The protocol was named without frames, and frames only add names.
  have hmem : p ∈ t.evidence uid := by
    refine evidence_withoutFrames_subset ?_
    have hcase := settled_cases h
    generalize t.withoutFrames.settled uid flow = identity at hcase hp
    cases hcase with
    | identified q hq =>
      obtain rfl : q = p := Option.some.inj hp
      rw [hq]
      exact Finset.mem_singleton_self q
    | conflicting => exact absurd hp (by simp)
    | ambiguous => exact absurd hp (by simp)
    | implicit => exact absurd hp (by simp)
  -- So of the cases with frames those without a name are out.
  have hcase := settled_cases (kept_with_frames h)
  generalize t.settled uid flow = identity at hcase
  cases hcase with
  | conflicting => exact Or.inr ⟨rfl, rfl⟩
  | identified q hq =>
    rw [hq, Finset.mem_singleton] at hmem
    exact Or.inl (hmem ▸ rfl)
  | ambiguous hempty =>
    rw [hempty] at hmem
    exact absurd hmem (Finset.notMem_empty p)
  | implicit hempty =>
    rw [hempty] at hmem
    exact absurd hmem (Finset.notMem_empty p)

end Tables

/-- **TShark corroboration refines and never flips.** When the run with frames returns, so does the
run without; every connection with a session without frames has one with them; and if the first
names a protocol, the second names the same one, or none and then calls the evidence conflicting. -/
theorem corroboration_refines {logs : Record} {flows : List Flow} {frames : List Val}
    {out : List EmailSession} (h : normalizeSessions logs flows (some frames) = .ok out) :
    ∃ plain, normalizeSessions logs flows none = .ok plain ∧
      ∀ s ∈ plain, (∃ s' ∈ out, s'.uid = s.uid) ∧
        ∀ s' ∈ out, s'.uid = s.uid → ∀ p, s.protocol = some p →
          s'.protocol = some p ∨ s'.protocol = none ∧ s'.evidenceState = .conflicting := by
  obtain ⟨t, hread, rfl⟩ := normalizeSessions_eq_ok.mp h
  obtain ⟨hflow, hssl, hzeek, htshark⟩ := readTables_eq_ok.mp hread
  have hread' : readTables logs flows none = .ok t.withoutFrames :=
    readTables_eq_ok.mpr ⟨hflow, hssl, hzeek, rfl⟩
  refine ⟨t.withoutFrames.sessions, normalizeSessions_eq_ok.mpr ⟨_, hread', rfl⟩, fun s hs => ?_⟩
  obtain ⟨huid, hsession⟩ := Tables.mem_sessions.mp hs
  obtain ⟨flow, hget, hskip, hbuild⟩ := Tables.sessionFor_eq_some.mp hsession
  have hskip' := Tables.kept_with_frames hskip
  constructor
  · refine ⟨t.buildSession s.uid flow, Tables.mem_sessions.mpr ⟨?_, ?_⟩, rfl⟩
    · rw [Tables.mem_sessionUids] at huid ⊢
      rcases huid with hseen | hframes | hboth
      · exact Or.inl (seenUids_subset htshark hseen)
      · exact absurd hframes (by simp [Tables.withoutFrames])
      · exact Or.inr (Or.inr hboth)
    · exact Tables.sessionFor_eq_some.mpr ⟨flow, hget, hskip', rfl⟩
  · intro s' hs' huid' p hp
    obtain ⟨flow', hget', _, hbuild'⟩ := Tables.sessionFor_eq_some.mp (Tables.mem_sessions.mp hs').2
    rw [huid'] at hget' hbuild'
    obtain rfl : flow = flow' := Option.some.inj (hget.symm.trans hget')
    rw [← hbuild] at hp
    rw [← hbuild']
    exact Tables.settled_refines hskip hp

/-- One `EHLO`, as Zeek logs it, as TShark prints it, and as the session of both. -/
def ehloLogs : Record :=
  [("sm_email.log", .list [.dict [("uid", .str "C1"), ("protocol", .str "smtp"),
    ("event_type", .str "request"), ("command", .str "ehlo"), ("ts", .int 1)]])]

def ehloFrame : Val :=
  .dict [("ip.src", .str "10.0.0.1"), ("tcp.srcport", .str "50000"), ("ip.dst", .str "10.0.0.2"),
    ("tcp.dstport", .str "25"), ("frame.number", .str "4"), ("frame.time_epoch", .str "1"),
    ("smtp.req.command", .str "EHLO")]

def ehloSession : EmailSession :=
  { uid := "C1", protocol := some .smtp, portHint := .smtp, payloadEvidence := .smtp,
    evidenceState := .observed, corroboration := .zeekTshark,
    events := [{ direction := .orig, kind := .request, command := some "EHLO",
                 frameNumber := some 4, source := some .zeek }],
    explicitUpgrade := some { evidenceState := .notObservable },
    implicitTls := some { evidenceState := .notObservable } }

theorem ehlo_corroborated :
    ∃ plain, normalizeSessions ehloLogs [Flow.toPort "C1" 25] none = .ok plain ∧
      ∀ s ∈ plain, (∃ s' ∈ [ehloSession], s'.uid = s.uid) ∧
        ∀ s' ∈ [ehloSession], s'.uid = s.uid → ∀ p, s.protocol = some p →
          s'.protocol = some p ∨ s'.protocol = none ∧ s'.evidenceState = .conflicting := by
  have hrun : normalizeSessions ehloLogs [Flow.toPort "C1" 25] (some [ehloFrame]) =
      .ok [ehloSession] := by
    decide +kernel
  exact corroboration_refines hrun

end Sessions
end Normalize
end SecureMail
