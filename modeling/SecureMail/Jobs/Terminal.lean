import SecureMail.Jobs.Script

/-!
# Terminal statuses under concurrency

`update_job` refuses a new status on a record that is terminal, but the record it looks at is the
one it has read. When the run ends between that read and the write, the copy that is written back
has the status from before: a cancelled run is RUNNING again, and so is a completed one whose
request to cancel came late. These stale writes are the only way out of a terminal status
(`revives_iff_stale`), and a run without them never leaves one.

The condition has to be one on the state before the step, and it has to be the least one. Asking that
no copy from before is ever written back would be more than is needed: the copy of a run that ended
meanwhile does no harm if the update sets a terminal status itself, and most updates in flight are of
a run that is still live. So `StaleWrite` names what must come together, and the equivalence for one
step shows that nothing in it can be left out.

A write of the guard's kind, on a copy that was read terminal, is not among them. The guard is what
the proof uses to rule it out: a copy read terminal reaches its write only with an update that sets
no status, and such a write leaves a terminal status where it was.
-/

namespace SecureMail
namespace Jobs

open Transition

variable {ι : Type*}

/-- The party is about to write back a copy it read before the run ended, with an update that does
not end the run itself. All of it is there to be seen before the step: the call is past its guard and
its flag, the copy it carries is of a live run, and the record it will replace is terminal. It
can be the worker's own write as well as that of a request. -/
def StaleWrite (s : System ι) (a : Action ι) : Prop :=
  ∃ u current job, s.updateOf a.party = some (u, .flagged current) ∧
    a.event = .update (.write job) ∧ u.endsRun = false ∧ current.isTerminal = false ∧
    s.dir.job.isTerminal = true

variable [DecidableEq ι]

/-- A step that is no stale write. It is asked of the state before the step, so a run can be checked
step by step. -/
def FreshStep (s : System ι) (a : Action ι) (s' : System ι) : Prop :=
  Step UpdateStep s a s' ∧ ¬ StaleWrite s a

/-- The status leaves the terminal ones at the stale writes and at no other step. -/
theorem revives_iff_stale {s s' : System ι} {a : Action ι} (hs : s.Admitted)
    (h : Step UpdateStep s a s') :
    s.dir.job.isTerminal = true ∧ s'.dir.job.isTerminal = false ↔ StaleWrite s a := by
  constructor
  · rintro ⟨hterminal, hlive⟩
    rcases h.record_cases with ⟨hsame, -⟩ | ⟨u, current, hparty, hevent, hjob⟩
    · rw [hsame, hterminal] at hlive
      exact absurd hlive (by decide)
    · rw [hjob, JobUpdate.isTerminal_patch, Bool.or_eq_false_iff] at hlive
      obtain ⟨hends, hkept⟩ := hlive
      refine ⟨u, current, _, hparty, hevent, hends, ?_, hterminal⟩
      rcases JobUpdate.refuses_eq_false_iff.mp (hs _ u _ current hparty rfl) with hnone | hcurrent
      · simpa [hnone] using hkept
      · exact hcurrent
  · rintro ⟨u, current, job, hparty, hevent, hends, hcurrent, hterminal⟩
    refine ⟨hterminal, ?_⟩
    rcases h.record_cases with ⟨-, hnot⟩ | ⟨u', current', hparty', -, hjob⟩
    · exact absurd hevent (hnot job)
    · obtain ⟨rfl, rfl⟩ : u = u' ∧ current = current' := by simpa [hparty] using hparty'
      rw [hjob, JobUpdate.isTerminal_patch, hends, hcurrent]
      simp

theorem FreshStep.of_live {s s' : System ι} {a : Action ι} (h : Step UpdateStep s a s')
    (hlive : s.dir.job.isTerminal = false) : FreshStep s a s' := by
  refine ⟨h, ?_⟩
  rintro ⟨_, _, _, -, -, -, -, hterminal⟩
  rw [hlive] at hterminal
  exact absurd hterminal (by decide)

theorem FreshStep.of_quiet {s s' : System ι} {a : Action ι} (h : Step UpdateStep s a s')
    (hquiet : ∀ ev, a.event ≠ .update ev) : FreshStep s a s' := by
  refine ⟨h, ?_⟩
  rintro ⟨_, _, job, -, hevent, -⟩
  exact hquiet _ hevent

theorem FreshStep.isTerminal {s s' : System ι} {a : Action ι} (h : FreshStep s a s')
    (hs : s.Admitted) (hterminal : s.dir.job.isTerminal = true) :
    s'.dir.job.isTerminal = true := by
  obtain ⟨hstep, hfresh⟩ := h
  by_contra hlive
  rw [Bool.not_eq_true] at hlive
  exact hfresh ((revives_iff_stale hs hstep).mp ⟨hterminal, hlive⟩)

/-- **Without a stale write a terminal status stays terminal.** The condition is on the state before
each step: no party writes back a copy it read before the run ended. -/
theorem terminal_absorbing_when_fresh {t₁ t₂ : List (Action ι)} {s₁ s₂ : System ι}
    (h₁ : Run FreshStep enqueued t₁ s₁) (h₂ : Run FreshStep s₁ t₂ s₂)
    (hterminal : s₁.dir.job.isTerminal = true) : s₂.dir.job.isTerminal = true := by
  have hstep : ∀ (s : System ι) a t, s.Admitted → FreshStep s a t → t.Admitted := by
    intro s a t hs h
    exact h.1.admitted hs
  have hadmitted : s₁.Admitted := h₁.invariant hstep admitted_enqueued
  have hboth : s₂.Admitted ∧ s₂.dir.job.isTerminal = true := by
    refine h₂.invariant (I := fun s => s.Admitted ∧ s.dir.job.isTerminal = true) ?_
      ⟨hadmitted, hterminal⟩
    rintro s a t ⟨hs, hterm⟩ h
    exact ⟨hstep s a t hs h, h.isTerminal hs hterm⟩
  exact hboth.2

/-- A request has cancelled the queued run, and the worker has not looked yet. -/
def cancelledInQueue : System Unit where
  dir :=
    { job := { status := .cancelled, stage := .intake, cancelRequested := true }
      cancelFlag := true }
  worker := .polling
  cancels := fun _ => .returned

def cancelTrace : List (Action Unit) :=
  [⟨.cancel (), .getJob⟩, ⟨.cancel (), .update .read⟩, ⟨.cancel (), .update .flag⟩,
   ⟨.cancel (), .update (.write cancelledInQueue.dir.job)⟩]

theorem cancelledInQueue_run : Run FreshStep enqueued cancelTrace cancelledInQueue := by
  refine .cons (.of_live (.cancel (.load rfl)) rfl) ?_
  refine .cons (.of_live (.cancel (.update (UpdateStep.read rfl))) rfl) ?_
  refine .cons (.of_live (.cancel (.update UpdateStep.flag)) rfl) ?_
  exact .single (.of_live (.cancel (.update UpdateStep.write)) rfl)

/-- The worker passes a cancelled run over. -/
theorem cancelledInQueue_stays :
    ({ cancelledInQueue with worker := .sweeping } : System Unit).dir.job.isTerminal = true :=
  terminal_absorbing_when_fresh cancelledInQueue_run
    (.single (.of_quiet (.worker (.passOver rfl)) (by simp))) rfl

/-- The same request while `claim_next` is between its read and its write. -/
def cancelledInClaim : System Unit where
  dir := cancelledInQueue.dir
  worker := .updating .claimNext { status := some .running }
    (.flagged { status := .queued, stage := .intake })
  cancels := fun _ => .returned

def revived : System Unit where
  dir := { job := { status := .running, stage := .intake }, cancelFlag := true }
  worker := .claimed
  cancels := fun _ => .returned

/-- The cancelled run is RUNNING again. -/
theorem cancelled_run_revived :
    Run (Step UpdateStep) enqueued
        (⟨.worker, .listJobs⟩ :: ⟨.worker, .update .read⟩ :: ⟨.worker, .update .flag⟩ :: cancelTrace)
        cancelledInClaim ∧
      Step UpdateStep cancelledInClaim ⟨.worker, .update (.write revived.dir.job)⟩ revived ∧
      cancelledInClaim.dir.job.status = .cancelled ∧ revived.dir.job.status = .running := by
  refine ⟨?_, .worker (.update UpdateStep.write), rfl, rfl⟩
  refine .cons (.worker (.select rfl)) (.cons (.worker (.update (UpdateStep.read rfl))) ?_)
  refine .cons (.worker (.update UpdateStep.flag)) ?_
  refine .cons (.cancel (.load rfl)) (.cons (.cancel (.update (UpdateStep.read rfl))) ?_)
  exact .cons (.cancel (.update UpdateStep.flag)) (.single (.cancel (.update UpdateStep.write)))

end Jobs
end SecureMail
