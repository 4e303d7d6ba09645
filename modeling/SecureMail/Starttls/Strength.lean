import SecureMail.Starttls.EvidenceFrames
import SecureMail.Lib.Precedence

/-!
# More events, a stronger verdict

A capture can be cut anywhere, and the event list of a session is capped. If a verdict on the first
part of a trace could be taken back by the rest, a verdict on a capture would say nothing about the
session.

The state of a verdict is the first of six tests on the flags, and the tests stand in the order of
the states. The flags are latches, so a longer trace has all of them that a shorter one has, and by
the order of the tests its state is at least as strong. With the frames, which are never taken away,
this makes a cut trace safe: what it reports, the whole trace reports as well or worse.

`downgradeConsistent` is not among what is kept. It asks that nothing was advertised, which more
events can make false, and no law of this kind holds of it.
-/

namespace SecureMail
namespace Starttls

/-- How strong a state is: the place of its test among the six, from the last one up. -/
def strength : Option UpgradeState → Nat
  | none => 0
  | some .advertised => 1
  | some .requested => 2
  | some .accepted => 3
  | some .tlsEstablished => 4
  | some .plaintextFallback => 5
  | some .violation => 6

/-- The second verdict is at least as strong, and cites whatever the first one cites. It is an order
on verdicts, and along it citations are only added. -/
structure Strengthens (verdict verdict' : ExplicitUpgrade) : Prop where
  state : strength verdict.state ≤ strength verdict'.state
  frames : verdict.evidenceFrames ⊆ verdict'.evidenceFrames

theorem Strengthens.refl (verdict : ExplicitUpgrade) : Strengthens verdict verdict :=
  ⟨Nat.le_refl _, List.Subset.refl _⟩

namespace UpgradeMachine

variable (m : UpgradeMachine) (hello : Bool)

/-- The tests on the flags, with the strength of the state each of them gives. -/
def rungs (s : UpgradeRun) : List (Bool × Nat) :=
  [(s.violation, 6), (s.plaintextFallback, 5), (s.accepted && hello, 4), (s.accepted, 3),
    (s.requested, 2), (s.advertised, 1)]

theorem strength_terminal (s : UpgradeRun) :
    strength (terminal hello s) = Precedence.firstOf 0 (rungs hello s) := by
  unfold terminal rungs
  simp only [Precedence.firstOf]
  split_ifs <;> rfl

/-! ## The flags only go up -/

/-- Every flag of the first state is up in the second. -/
structure Raises (s s' : UpgradeRun) : Prop where
  violation : s.violation = true → s'.violation = true
  plaintextFallback : s.plaintextFallback = true → s'.plaintextFallback = true
  accepted : s.accepted = true → s'.accepted = true
  requested : s.requested = true → s'.requested = true
  advertised : s.advertised = true → s'.advertised = true

theorem raises_step (s : UpgradeRun) (e : ProtocolEvent) : Raises s (m.step hello s e) where
  violation h := by rw [step_violation, h, Bool.true_or]
  plaintextFallback h := by rw [step_plaintextFallback, h, Bool.true_or]
  accepted h := by rw [step_accepted, h, Bool.true_or]
  requested h := by rw [step_requested, h, Bool.true_or]
  advertised h := by rw [step_advertised, h, Bool.true_or]

theorem raises_foldl (s : UpgradeRun) (events : List ProtocolEvent) :
    Raises s (events.foldl (m.step hello) s) := by
  induction events generalizing s with
  | nil => exact ⟨id, id, id, id, id⟩
  | cons e rest ih =>
    have hstep := m.raises_step hello s e
    have hrest := ih (m.step hello s e)
    rw [List.foldl_cons]
    exact ⟨fun h => hrest.violation (hstep.violation h),
      fun h => hrest.plaintextFallback (hstep.plaintextFallback h),
      fun h => hrest.accepted (hstep.accepted h), fun h => hrest.requested (hstep.requested h),
      fun h => hrest.advertised (hstep.advertised h)⟩

variable {m hello}

/-- The tests stand in the order of the states, so raised flags give a stronger state. -/
theorem Raises.strength_le {s s' : UpgradeRun} (h : Raises s s') :
    strength (terminal hello s) ≤ strength (terminal hello s') := by
  rw [strength_terminal, strength_terminal]
  refine Precedence.firstOf_mono ?_ (by simp [rungs]) (by simp [rungs])
  have htls : (s.accepted && hello) = true → (s'.accepted && hello) = true := by
    intro hboth
    rw [Bool.and_eq_true] at hboth ⊢
    exact ⟨h.accepted hboth.1, hboth.2⟩
  exact .cons ⟨rfl, h.violation⟩ (.cons ⟨rfl, h.plaintextFallback⟩ (.cons ⟨rfl, htls⟩
    (.cons ⟨rfl, h.accepted⟩ (.cons ⟨rfl, h.requested⟩ (.cons ⟨rfl, h.advertised⟩ .nil)))))

/-- **A longer trace gives a stronger verdict**, on any machine. Each flag of a machine only goes
up, and so does the verdict with the flags. -/
theorem strengthens_append (m : UpgradeMachine) (events more : List ProtocolEvent) (hello : Bool)
    (helloFrames : List Nat) :
    Strengthens (m.upgrade events hello helloFrames)
      (m.upgrade (events ++ more) hello helloFrames) := by
  have hrun : m.run hello (events ++ more) = more.foldl (m.step hello) (m.run hello events) :=
    List.foldl_append
  have hraises : Raises (m.run hello events) (m.run hello (events ++ more)) :=
    hrun ▸ m.raises_foldl hello (m.run hello events) more
  constructor
  · rw [upgrade_state, upgrade_state]
    exact hraises.strength_le
  · intro f hf
    rw [mem_evidenceFrames, ← accepted_run hello] at hf ⊢
    rcases hf with hframe | ⟨⟨haccepted, hhello⟩, hf⟩
    · left
      rw [hrun]
      exact frames_subset_foldl hframe
    · exact Or.inr ⟨⟨hraises.accepted haccepted, hhello⟩, hf⟩

end UpgradeMachine
end Starttls
end SecureMail
