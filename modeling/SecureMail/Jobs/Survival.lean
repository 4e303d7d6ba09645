import SecureMail.Jobs.Script

/-!
# The worker and a late request

Even with every `update_job` taken as one step, `request_cancel` is two: it reads the record, and a
request that read QUEUED goes on to set CANCELLED. If the worker has started the run in between,
that update goes through, since RUNNING is not terminal, and from there on each status the worker
tries to set is refused. The handler of `execute_capture_job` answers a refusal by setting FAILED,
which is refused as well, and the `JobConflictError` goes up into the worker loop.

`LateCancel` is that update. Without one the worker returns after a bounded number of its steps, and
leaves a terminal record (`worker_survives_on_time`); after one it never returns
(`late_cancel_never_returns`).

That updates are taken as one step is not an idealization in the worker's favour: it removes every
defect that comes from the accesses, so that what is left is this one. The bound on the steps is a
measure on the worker's state alone. It counts four accesses for each statement and goes down with
every step of the worker, whatever the requests do, so the worker cannot be kept busy.
-/

namespace SecureMail
namespace Jobs

open Transition

/-- The worker is in `execute_capture_job` and has read the record. -/
def Worker.executing : Worker → Bool
  | .stages _ | .checking _ | .updating (.stages _) _ _ | .updating .fail _ _ => true
  | _ => false

/-- `execute_capture_job` was called. -/
def Worker.wasCalled (w : Worker) : Bool := w.executing || w == .claimed || w == .returned

variable {ι : Type*}

/-- A request that read QUEUED sets CANCELLED on a run the worker is executing. It is an update that
its own guard lets through: the status it read and the one it finds differ, and the guard only asks
if the one it finds is terminal. -/
def LateCancel (s : System ι) (a : Action ι) : Prop :=
  ∃ i e u, a = ⟨.cancel i, .update e⟩ ∧ s.cancels i = .updating u .called ∧
    u.status = some .cancelled ∧ s.worker.executing = true ∧ s.dir.job.isTerminal = false

/-- What the record says, as far as the worker relies on it. -/
def Worker.Agrees (job : AnalysisJob) : Worker → Prop
  | .polling | .sweeping => True
  | .updating .claimNext _ p => p = .called
  | .claimed => job.status ≠ .queued
  | .stages (_ :: _) | .checking _ => job.status = .running
  | .updating (.stages _) _ p | .updating .fail _ p => p = .called ∧ job.status = .running
  | .stages [] | .returned => job.isTerminal = true
  | .updating .sweep _ _ | .escaped _ => False

/-- What no step that is on time breaks: the worker's record is as it left it, a queued record has
no mark, and no request that found the run started sees it queued again. The last is needed because a
request decides what to set by what it read, and an update without a status made on a queued record
would leave a mark there that the second loop of `claim_next` acts on. -/
structure OnTime (s : System ι) : Prop where
  onScript : s.OnScript
  worker : s.worker.Agrees s.dir.job
  unmarked : s.dir.job.status = .queued → s.dir.job.cancelRequested = false
  requests : ∀ i u p, s.cancels i = .updating u p → u.status = none → s.dir.job.status ≠ .queued

/-! ## The updates -/

theorem AtomicUpdate.cases_called {u : JobUpdate} {dir dir' : JobDir} {p p' : UpdateProgress}
    {ev : UpdateEvent} (h : AtomicUpdate u dir p ev dir' p') :
    p = .called ∧
      (u.refuses dir.job = false ∧ p' = .done ∧
          dir' = { job := u.patch dir.job, cancelFlag := u.flag dir.cancelFlag } ∨
        u.refuses dir.job = true ∧ p' = .refused .alreadyTerminal ∧ dir' = dir) := by
  cases h with
  | applied happly =>
    obtain ⟨hguard, hdir⟩ := JobDir.updateJob_eq_ok_iff.mp happly
    exact ⟨rfl, Or.inl ⟨hguard, rfl, hdir⟩⟩
  | @conflict error herror =>
    cases error
    exact ⟨rfl, Or.inr ⟨JobDir.updateJob_eq_error_iff.mp herror, rfl, rfl⟩⟩

/-- A call that nobody has looked at yet can be carried out. -/
theorem AtomicUpdate.total (u : JobUpdate) (dir : JobDir) :
    ∃ ev dir' p', AtomicUpdate u dir .called ev dir' p' := by
  cases h : dir.updateJob u with
  | ok dir' => exact ⟨_, _, _, .applied h⟩
  | error error => exact ⟨_, _, _, .conflict h⟩

theorem refuses_of_running {u : JobUpdate} {job : AnalysisJob} (h : job.status = .running) :
    u.refuses job = false := by
  rw [JobUpdate.refuses_eq_false_iff, AnalysisJob.isTerminal, h]
  exact Or.inr rfl

/-- What the update of a statement of the body does to a running record. -/
theorem patch_of_script {u : JobUpdate} {rest : List Instr} {job : AnalysisJob}
    (h : .update u :: rest ∈ scripts) (hjob : job.status = .running) :
    (Worker.stages rest).Agrees (u.patch job) := by
  have hsettles := settles_of_mem_scripts _ h
  rw [settles, Bool.and_eq_true, Bool.and_eq_true] at hsettles
  obtain ⟨⟨-, hstatus⟩, -⟩ := hsettles
  cases rest with
  | nil =>
    show (u.patch job).isTerminal = true
    rw [JobUpdate.isTerminal_patch, Bool.or_eq_true]
    exact Or.inl hstatus
  | cons i rest =>
    show (u.patch job).status = .running
    have hnone : u.status = none := by simpa using hstatus
    rw [JobUpdate.patch_status, hnone]
    exact hjob

/-- A check or a call is never the last statement. -/
theorem agrees_of_script {i : Instr} {rest : List Instr} {job : AnalysisJob}
    (h : i :: rest ∈ scripts) (hi : ∀ u, i ≠ .update u) (hjob : job.status = .running) :
    (Worker.stages rest).Agrees job := by
  have hsettles := settles_of_mem_scripts _ h
  cases rest with
  | nil => cases i <;> simp [settles] at hsettles hi
  | cons => exact hjob

theorem WorkerStep.agrees {dir dir' : JobDir} {w w' : Worker} {e : Event}
    (h : WorkerStep AtomicUpdate dir w e dir' w') (hscript : w.OnScript) (hw : w.Agrees dir.job)
    (hunmarked : dir.job.status = .queued → dir.job.cancelRequested = false) :
    w'.Agrees dir'.job := by
  cases h with
  | otherRun => trivial
  | select => rfl
  | passOver => trivial
  | sweep hsweep =>
    rw [JobDir.sweepable, Bool.and_eq_true, beq_iff_eq] at hsweep
    rw [hunmarked hsweep.1] at hsweep
    exact absurd hsweep.2 (by decide)
  | sweepOver => trivial
  | start hrunning => exact hrunning
  | notRunning hnot =>
    show dir.job.isTerminal = true
    have hqueued : dir.job.status ≠ .queued := hw
    unfold AnalysisJob.isTerminal
    cases hstatus : dir.job.status with
    | queued => exact absurd hstatus hqueued
    | running => exact absurd hstatus hnot
    | _ => rfl
  | recordCancelled => exact hw
  | recordClear => exact hw
  | flagThere => exact hw
  | flagAbsent => exact agrees_of_script hscript (by simp) hw
  | callUpdate => exact ⟨rfl, hw⟩
  | call => exact agrees_of_script hscript (by simp) hw
  | callRaised => exact ⟨rfl, hw⟩
  | raised hin =>
    refine ⟨rfl, ?_⟩
    unfold Worker.inTry at hin
    split at hin
    · exact hw
    · exact hw
    · exact hw.2
    · exact absurd hin (by decide)
  | stagesDone => exact hw
  | @update _ caller u p p' e hupd =>
    obtain ⟨rfl, ⟨hguard, rfl, rfl⟩ | ⟨hguard, rfl, rfl⟩⟩ := hupd.cases_called
    · cases caller with
      | claimNext =>
        rw [show u = _ from hscript]
        show (JobUpdate.patch _ dir.job).status ≠ .queued
        simp
      | sweep => exact absurd hw id
      | stages rest => exact patch_of_script hscript hw.2
      | fail =>
        obtain ⟨exc, rfl⟩ := hscript
        show (JobUpdate.patch _ dir.job).isTerminal = true
        rfl
    · cases caller with
      | claimNext => trivial
      | sweep => exact absurd hw id
      | stages rest =>
        rw [refuses_of_running hw.2] at hguard
        exact absurd hguard (by decide)
      | fail =>
        rw [refuses_of_running hw.2] at hguard
        exact absurd hguard (by decide)

/-- What the worker relies on is the status alone. -/
theorem Worker.Agrees.of_status_eq {w : Worker} {job job' : AnalysisJob} (hw : w.Agrees job)
    (h : job'.status = job.status) : w.Agrees job' := by
  unfold Worker.Agrees AnalysisJob.isTerminal at hw ⊢
  rw [h]
  exact hw

/-- A worker that is not executing a live run does not mind it being cancelled. -/
theorem Worker.Agrees.cancelled {w : Worker} {job job' : AnalysisJob} (hw : w.Agrees job)
    (hlive : job.isTerminal = false) (hidle : w.executing = false)
    (h : job'.status = .cancelled) : w.Agrees job' := by
  cases w with
  | polling => trivial
  | sweeping => trivial
  | claimed =>
    show job'.status ≠ .queued
    rw [h]
    decide
  | stages rest => exact absurd hidle (by simp [executing])
  | checking rest => exact absurd hidle (by simp [executing])
  | updating caller u p =>
    cases caller with
    | claimNext => exact hw
    | sweep => exact absurd hw id
    | stages rest => exact absurd hidle (by simp [executing])
    | fail => exact absurd hidle (by simp [executing])
  | returned =>
    have hterminal : job.isTerminal = true := hw
    rw [hlive] at hterminal
    exact absurd hterminal (by decide)
  | escaped error => exact absurd hw id

/-! ## One step -/

section

theorem OnTime.worker_step {s : System ι} (hs : OnTime s) {e : Event} {dir' : JobDir} {worker' : Worker}
    (h : WorkerStep AtomicUpdate s.dir s.worker e dir' worker') :
    (dir'.job.status = .queued → s.dir.job.status = .queued ∧ dir'.job.cancelRequested = false) ∧
      worker'.Agrees dir'.job := by
  refine ⟨?_, h.agrees hs.onScript.worker hs.worker hs.unmarked⟩
  intro hqueued
  rcases h.update_cases with ⟨rfl, -, -⟩ | ⟨caller, u, p, ev, p', hw, -, hupd, -⟩
  · exact ⟨hqueued, hs.unmarked hqueued⟩
  · have hscript : caller.OnScript u := by
      have hworker := hs.onScript.worker
      rw [hw] at hworker
      exact hworker
    obtain ⟨-, ⟨-, -, rfl⟩ | ⟨-, -, rfl⟩⟩ := hupd.cases_called
    · obtain ⟨-, hcurrent⟩ := JobUpdate.patch_status_eq_queued hscript.status_ne_queued hqueued
      refine ⟨hcurrent, ?_⟩
      show (u.patch s.dir.job).cancelRequested = false
      rw [JobUpdate.patch_cancelRequested, hscript.cancelRequested]
      exact hs.unmarked hcurrent
    · exact ⟨hqueued, hs.unmarked hqueued⟩

/-- A request leaves the record queued only if it does not touch it, and where it sets CANCELLED
the run was live. -/
theorem CancelStep.record {dir dir' : JobDir} {c c' : CancelCall} {e : Event}
    (h : CancelStep AtomicUpdate dir c e dir' c') (hscript : c.OnScript) :
    (dir' = dir ∧ ∀ u p, c' = .updating u p → u = cancelUpdate dir.job) ∨
      ∃ u, c = .updating u .called ∧ (∃ ev, e = .update ev) ∧ (∀ u p, c' ≠ .updating u p) ∧
        (u.status = none ∧ dir'.job.status = dir.job.status ∨
          u.status = some .cancelled ∧ dir.job.isTerminal = false ∧
            dir'.job.status = .cancelled) := by
  cases h with
  | refused => exact Or.inl ⟨rfl, by simp⟩
  | load =>
    refine Or.inl ⟨rfl, ?_⟩
    intro u p hu
    obtain ⟨rfl, -⟩ : cancelUpdate dir.job = u ∧ _ = p := by simpa using hu
    rfl
  | @update _ u p p' ev hupd =>
    obtain ⟨rfl, ⟨hguard, rfl, rfl⟩ | ⟨hguard, rfl, rfl⟩⟩ := hupd.cases_called
    · refine Or.inr ⟨u, rfl, ⟨ev, rfl⟩, by simp [CancelCall.next], ?_⟩
      obtain ⟨current, -, rfl⟩ := hscript
      rcases cancelUpdate_status current with ⟨hnone, -⟩ | ⟨hcancelled, -⟩
      · exact Or.inl ⟨hnone, by simp [hnone]⟩
      · have hlive : dir.job.isTerminal = false :=
          (JobUpdate.refuses_eq_false_iff.mp hguard).resolve_left (by simp [hcancelled])
        exact Or.inr ⟨hcancelled, hlive, by simp [hcancelled]⟩
    · exact Or.inl ⟨rfl, by simp [CancelCall.next]⟩

theorem OnTime.cancel_step {s : System ι} (hs : OnTime s) {i : ι} {e : Event} {dir' : JobDir} {call' : CancelCall}
    (h : CancelStep AtomicUpdate s.dir (s.cancels i) e dir' call')
    (hontime : ¬ LateCancel s ⟨.cancel i, e⟩) :
    s.worker.Agrees dir'.job ∧
      (dir'.job.status = .queued → s.dir.job.status = .queued ∧ dir'.job.cancelRequested = false) ∧
      ∀ u p, call' = .updating u p → u.status = none → dir'.job.status ≠ .queued := by
  rcases h.record (hs.onScript.cancels i) with
    ⟨rfl, hload⟩ | ⟨u, hcall, ⟨ev, rfl⟩, hover, ⟨hnone, hstatus⟩ | ⟨hcancelled, hlive, hstatus⟩⟩
  · refine ⟨hs.worker, fun hqueued => ⟨hqueued, hs.unmarked hqueued⟩, ?_⟩
    intro u p hu hnone
    rw [hload u p hu] at hnone
    rcases cancelUpdate_status s.dir.job with ⟨-, hne⟩ | ⟨hsome, -⟩
    · exact hne
    · rw [hnone] at hsome
      exact absurd hsome (by decide)
  · refine ⟨hs.worker.of_status_eq hstatus, ?_, fun u p hu => absurd hu (hover u p)⟩
    intro hqueued
    rw [hstatus] at hqueued
    exact absurd hqueued (hs.requests i u _ hcall hnone)
  · have hidle : s.worker.executing = false := by
      by_contra hexecuting
      rw [Bool.not_eq_false] at hexecuting
      exact hontime ⟨i, ev, u, rfl, hcall, hcancelled, hexecuting, hlive⟩
    refine ⟨hs.worker.cancelled hlive hidle hstatus, ?_, fun u p hu => absurd hu (hover u p)⟩
    intro hqueued
    rw [hstatus] at hqueued
    exact absurd hqueued (by decide)

variable [DecidableEq ι] {s s' : System ι} {a : Action ι} {trace : List (Action ι)}

/-- A step that is no late request. -/
def OnTimeStep (s : System ι) (a : Action ι) (s' : System ι) : Prop :=
  Step AtomicUpdate s a s' ∧ ¬ LateCancel s a

theorem OnTimeStep.onTime (h : OnTimeStep s a s') (hs : OnTime s) : OnTime s' := by
  obtain ⟨hstep, hontime⟩ := h
  have hscript := hstep.onScript hs.onScript
  cases hstep with
  | worker h =>
    obtain ⟨hrecord, hworker⟩ := hs.worker_step h
    refine ⟨hscript, hworker, fun hqueued => (hrecord hqueued).2, ?_⟩
    intro i u p hu hnone hqueued
    exact hs.requests i u p hu hnone (hrecord hqueued).1
  | @cancel i e dir' call' h =>
    obtain ⟨hworker, hrecord, hcall⟩ := hs.cancel_step h hontime
    refine ⟨hscript, hworker, fun hqueued => (hrecord hqueued).2, ?_⟩
    intro j u p hu hnone
    have hu' : Function.update s.cancels i call' j = .updating u p := hu
    by_cases hj : j = i
    · subst hj
      rw [Function.update_self] at hu'
      exact hcall u p hu' hnone
    · rw [Function.update_of_ne hj] at hu'
      intro hqueued
      exact hs.requests j u p hu' hnone (hrecord hqueued).1

omit [DecidableEq ι] in
theorem onTime_enqueued : OnTime (enqueued : System ι) := by
  refine ⟨onScript_enqueued, trivial, fun _ => rfl, ?_⟩
  intro i u p hu
  simp [enqueued] at hu

theorem Run.onTime (h : Run OnTimeStep s trace s') (hs : OnTime s) : OnTime s' :=
  h.invariant (fun _ _ _ hI hstep => hstep.onTime hI) hs

end

/-! ## The worker gets on -/

/-- A worker that has not returned has a next step. -/
theorem WorkerStep.exists_next {w : Worker} {dir : JobDir} (hw : w.Agrees dir.job)
    (hreturned : w ≠ .returned) : ∃ e dir' w', WorkerStep AtomicUpdate dir w e dir' w' := by
  cases w with
  | polling => exact ⟨_, _, _, .otherRun (Or.inl rfl)⟩
  | sweeping => exact ⟨_, _, _, .otherRun (Or.inr rfl)⟩
  | claimed =>
    by_cases hrunning : dir.job.status = .running
    · exact ⟨_, _, _, .start hrunning⟩
    · exact ⟨_, _, _, .notRunning hrunning⟩
  | stages rest =>
    cases rest with
    | nil => exact ⟨_, _, _, .stagesDone⟩
    | cons i rest =>
      cases i with
      | check =>
        cases hmark : dir.job.cancelRequested with
        | true => exact ⟨_, _, _, .recordCancelled hmark⟩
        | false => exact ⟨_, _, _, .recordClear hmark⟩
      | update u => exact ⟨_, _, _, .callUpdate⟩
      | call c => exact ⟨_, _, _, .call⟩
  | checking rest =>
    cases hflag : dir.cancelFlag with
    | true => exact ⟨_, _, _, .flagThere hflag⟩
    | false => exact ⟨_, _, _, .flagAbsent hflag⟩
  | updating caller u p =>
    have hcalled : p = .called := by
      cases caller with
      | claimNext => exact hw
      | sweep => exact absurd hw id
      | stages rest => exact hw.1
      | fail => exact hw.1
    subst hcalled
    obtain ⟨ev, dir', p', hupd⟩ := AtomicUpdate.total u dir
    exact ⟨_, _, _, .update hupd⟩
  | returned => exact absurd rfl hreturned
  | escaped error => exact absurd hw id

/-- A bound on the steps the worker has left once `execute_capture_job` was called. -/
def Worker.fuel : Worker → Nat
  | .claimed => 4 * executeStages.length + 7
  | .stages rest => 4 * rest.length + 6
  | .checking rest => 4 * rest.length + 8
  | .updating (.stages rest) _ _ => 4 * rest.length + 7
  | .updating .fail _ _ => 3
  | _ => 0

/-- The steps of one execution. -/
def executionBound : Nat := 4 * executeStages.length + 7

theorem Worker.fuel_stages_le {rest : List Instr} (h : rest ∈ scripts) :
    4 * rest.length + 7 ≤ executionBound := by
  have hlength : rest.length ≤ executeStages.length := by
    rcases mem_scripts_iff.mp h with hsuffix | hsuffix
    · exact hsuffix.length_le
    · exact hsuffix.length_le.trans (by decide)
  unfold executionBound
  omega

/-- Something comes after every check. -/
theorem length_pos_of_script {rest : List Instr} (h : .check :: rest ∈ scripts) :
    0 < rest.length := by
  have hsettles := settles_of_mem_scripts _ h
  cases rest with
  | nil => exact absurd hsettles (by decide)
  | cons => exact Nat.succ_pos _

/-- Each step of a called worker leaves less to do. -/
theorem WorkerStep.fuel {dir dir' : JobDir} {w w' : Worker} {e : Event}
    (h : WorkerStep AtomicUpdate dir w e dir' w') (hscript : w.OnScript)
    (hcalled : w.wasCalled = true) :
    w'.fuel < w.fuel ∧ (w'.wasCalled = true ∨ ∃ error, w' = .escaped error) := by
  cases h with
  | otherRun hw => rcases hw with rfl | rfl <;> exact absurd hcalled (by decide)
  | select => exact absurd hcalled (by decide)
  | passOver => exact absurd hcalled (by decide)
  | sweep => exact absurd hcalled (by decide)
  | sweepOver => exact absurd hcalled (by decide)
  | start => exact ⟨by simp [Worker.fuel], Or.inl rfl⟩
  | notRunning => exact ⟨by simp [Worker.fuel], Or.inl rfl⟩
  | recordCancelled =>
    have hlength := length_pos_of_script hscript
    exact ⟨by simp [Worker.fuel]; omega, Or.inl rfl⟩
  | recordClear => exact ⟨by simp [Worker.fuel]; omega, Or.inl rfl⟩
  | flagThere =>
    have hlength := length_pos_of_script hscript
    exact ⟨by simp [Worker.fuel]; omega, Or.inl rfl⟩
  | flagAbsent => exact ⟨by simp [Worker.fuel], Or.inl rfl⟩
  | callUpdate => exact ⟨by simp [Worker.fuel]; omega, Or.inl rfl⟩
  | call => exact ⟨by simp [Worker.fuel], Or.inl rfl⟩
  | callRaised => exact ⟨by simp [Worker.fuel], Or.inl rfl⟩
  | raised hin =>
    refine ⟨?_, Or.inl rfl⟩
    unfold Worker.inTry at hin
    split at hin
    · simp [Worker.fuel]
    · simp [Worker.fuel]
    · simp [Worker.fuel]
    · exact absurd hin (by decide)
  | stagesDone => exact ⟨by simp [Worker.fuel], Or.inl rfl⟩
  | @update _ caller u p p' e hupd =>
    obtain ⟨rfl, ⟨-, rfl, -⟩ | ⟨-, rfl, -⟩⟩ := hupd.cases_called
    · cases caller with
      | stages rest => exact ⟨by simp [Caller.next, Worker.fuel], Or.inl rfl⟩
      | fail => exact ⟨by simp [Caller.next, Worker.fuel], Or.inl rfl⟩
      | _ => exact absurd hcalled (by simp [Worker.wasCalled, Worker.executing])
    · cases caller with
      | stages rest => exact ⟨by simp [Caller.next, Worker.fuel], Or.inl rfl⟩
      | fail => exact ⟨by simp [Caller.next, Worker.fuel], Or.inr ⟨_, rfl⟩⟩
      | _ => exact absurd hcalled (by simp [Worker.wasCalled, Worker.executing])

section

variable [DecidableEq ι] {s s' : System ι} {a : Action ι}

def Action.byWorker (a : Action ι) : Bool := a.party == .worker

/-- A called worker uses up its fuel, and only the worker does. -/
theorem OnTimeStep.fuel (h : OnTimeStep s a s') (hs : OnTime s)
    (hcalled : s.worker.wasCalled = true) : s'.worker.wasCalled = true ∧
      s'.worker.fuel + (if a.byWorker then 1 else 0) ≤ s.worker.fuel := by
  have hs' := h.onTime hs
  obtain ⟨hstep, -⟩ := h
  cases hstep with
  | @worker e dir' worker' h =>
    obtain ⟨hfuel, hnext | ⟨error, hescaped⟩⟩ := h.fuel hs.onScript.worker hcalled
    · exact ⟨hnext, hfuel⟩
    · have hworker : worker'.Agrees dir'.job := hs'.worker
      rw [hescaped] at hworker
      exact absurd hworker id
  | cancel h => exact ⟨hcalled, by simp [Action.byWorker]⟩

omit [DecidableEq ι] in
theorem OnTime.fuel_le (hs : OnTime s) : s.worker.fuel ≤ executionBound := by
  have hscript := hs.onScript.worker
  cases hw : s.worker with
  | claimed => exact le_refl _
  | stages rest =>
    rw [hw] at hscript
    exact (Nat.add_le_add_left (by omega) _).trans (Worker.fuel_stages_le hscript)
  | checking rest =>
    rw [hw] at hscript
    have hle := Worker.fuel_stages_le hscript
    rw [List.length_cons] at hle
    show 4 * rest.length + 8 ≤ executionBound
    omega
  | updating caller u p =>
    rw [hw] at hscript
    cases caller with
    | stages rest => exact Worker.fuel_stages_le (mem_scripts_of_cons hscript)
    | fail =>
      show 3 ≤ executionBound
      decide
    | _ => exact Nat.zero_le _
  | _ => exact Nat.zero_le _

/-- **Without a late request the worker survives.** `JobConflictError` does not escape; a worker
that has returned left a terminal record; one that has not can go on; and from the call of
`execute_capture_job` on it takes a bounded number of steps. -/
theorem worker_survives_on_time {t₁ t₂ : List (Action ι)} {s₁ s₂ : System ι}
    (h₁ : Run OnTimeStep enqueued t₁ s₁) (h₂ : Run OnTimeStep s₁ t₂ s₂) :
    (∀ error, s₁.worker ≠ .escaped error) ∧
      (s₁.worker = .returned → s₁.dir.job.isTerminal = true) ∧
      (s₁.worker ≠ .returned → ∃ e s', OnTimeStep s₁ ⟨.worker, e⟩ s') ∧
      (s₁.worker.wasCalled = true → t₂.countP Action.byWorker ≤ executionBound) := by
  have hontime : OnTime s₁ := Run.onTime h₁ onTime_enqueued
  refine ⟨?_, ?_, ?_, ?_⟩
  · intro error hescaped
    have hworker := hontime.worker
    rw [hescaped] at hworker
    exact hworker
  · intro hreturned
    have hworker := hontime.worker
    rw [hreturned] at hworker
    exact hworker
  · intro hreturned
    obtain ⟨e, dir', w', hstep⟩ := WorkerStep.exists_next hontime.worker hreturned
    refine ⟨e, _, .worker hstep, ?_⟩
    rintro ⟨i, e', u, hcancel, -⟩
    simp at hcancel
  · intro hcalled
    have hstep : ∀ (s : System ι) a s', OnTime s ∧ s.worker.wasCalled = true →
        OnTimeStep s a s' → (OnTime s' ∧ s'.worker.wasCalled = true) ∧
          s'.worker.fuel + (if a.byWorker then 1 else 0) ≤ s.worker.fuel := by
      rintro s a s' ⟨hs, hwas⟩ h
      obtain ⟨hwas', hfuel⟩ := h.fuel hs hwas
      exact ⟨⟨h.onTime hs, hwas'⟩, hfuel⟩
    exact (h₂.countP_le hstep ⟨hontime, hcalled⟩).trans hontime.fuel_le

end

/-- The directory once the worker has claimed the run. -/
def claimedDir : JobDir where
  job := { status := .running, stage := .intake }

/-- The run is picked up, and a request that comes in before the first check leaves its mark and
nothing more. -/
def markedRun : System Unit where
  dir :=
    { job := { status := .running, stage := .intake, cancelRequested := true }, cancelFlag := true }
  worker := .stages executeStages
  cancels := fun _ => .returned

def markedTrace : List (Action Unit) :=
  [⟨.worker, .listJobs⟩, ⟨.worker, .update (.write claimedDir.job)⟩,
   ⟨.worker, .getJob⟩, ⟨.cancel (), .getJob⟩, ⟨.cancel (), .update (.write markedRun.dir.job)⟩]

theorem OnTimeStep.of_worker [DecidableEq ι] {s s' : System ι} {e : Event}
    (h : Step AtomicUpdate s ⟨.worker, e⟩ s') : OnTimeStep s ⟨.worker, e⟩ s' := by
  refine ⟨h, ?_⟩
  rintro ⟨i, e', u, hcancel, -⟩
  simp at hcancel

theorem OnTimeStep.of_mark {s s' : System Unit} {e : Event}
    (h : Step AtomicUpdate s ⟨.cancel (), e⟩ s')
    (hmark : ∀ u p, s.cancels () = .updating u p → u.status = none) :
    OnTimeStep s ⟨.cancel (), e⟩ s' := by
  refine ⟨h, ?_⟩
  rintro ⟨i, e', u, -, hcall, hcancelled, -⟩
  rw [hmark u _ hcall] at hcancelled
  exact absurd hcancelled (by decide)

theorem markedRun_run : Run OnTimeStep enqueued markedTrace markedRun := by
  refine .cons (.of_worker (.worker (.select rfl))) ?_
  refine .cons (.of_worker (.worker (.update (@AtomicUpdate.applied _ _ claimedDir rfl)))) ?_
  refine .cons (.of_worker (.worker (.start rfl))) ?_
  refine .cons (.of_mark (.cancel (.load rfl)) (by simp [enqueued])) ?_
  refine .single (.of_mark (.cancel (.update (@AtomicUpdate.applied _ _ markedRun.dir rfl))) ?_)
  intro u p hu
  obtain ⟨rfl, -⟩ : cancelUpdate _ = u ∧ _ = p := by simpa using hu
  rfl

/-- The worker is still there, and has at most ninety-nine steps to go. -/
theorem markedRun_survives :
    (∀ error, markedRun.worker ≠ .escaped error) ∧
      (∃ e s', OnTimeStep markedRun ⟨.worker, e⟩ s') ∧
      ([] : List (Action Unit)).countP Action.byWorker ≤ 99 :=
  have h := worker_survives_on_time markedRun_run (.nil _)
  ⟨h.1, h.2.2.1 (by decide), h.2.2.2 rfl⟩

/-! ## After a late request -/

/-- On a terminal record, none of these returns. -/
def Worker.Doomed : Worker → Prop
  | .stages rest => rest ≠ []
  | .checking _ | .escaped _ => True
  | .updating (.stages _) _ p | .updating .fail _ p => p = .called
  | _ => False

theorem WorkerStep.doomed {dir dir' : JobDir} {w w' : Worker} {e : Event}
    (h : WorkerStep AtomicUpdate dir w e dir' w') (hscript : w.OnScript) (hw : w.Doomed)
    (hterminal : dir.job.isTerminal = true) : w'.Doomed := by
  cases h with
  | otherRun hpoll => rcases hpoll with rfl | rfl <;> exact absurd hw id
  | select => exact absurd hw id
  | passOver => exact absurd hw id
  | sweep => exact absurd hw id
  | sweepOver => exact absurd hw id
  | start => exact absurd hw id
  | notRunning => exact absurd hw id
  | recordCancelled => exact List.cons_ne_nil _ _
  | recordClear => trivial
  | flagThere => exact List.cons_ne_nil _ _
  | flagAbsent => exact List.length_pos_iff.mp (length_pos_of_script hscript)
  | callUpdate => rfl
  | @call c rest =>
    have hsettles := settles_of_mem_scripts _ hscript
    intro hnil
    subst hnil
    exact absurd hsettles (by simp [settles])
  | callRaised => rfl
  | raised => rfl
  | stagesDone => exact absurd rfl hw
  | @update _ caller u p p' e hupd =>
    obtain ⟨rfl, ⟨hguard, rfl, rfl⟩ | ⟨-, rfl, rfl⟩⟩ := hupd.cases_called
    · -- An update that goes through sets no status, so it is not the last statement.
      have hnone : u.status = none := by
        rcases JobUpdate.refuses_eq_false_iff.mp hguard with hnone | hlive
        · exact hnone
        · rw [hterminal] at hlive
          exact absurd hlive (by decide)
      cases caller with
      | stages rest =>
        have hsettles := settles_of_mem_scripts _ hscript
        intro hnil
        subst hnil
        exact absurd hsettles (by simp [settles, JobUpdate.endsRun, hnone])
      | fail =>
        obtain ⟨exc, rfl⟩ := hscript
        exact absurd hnone (by simp [failUpdate])
      | _ => exact absurd hw id
    · cases caller with
      | stages rest => rfl
      | fail => trivial
      | _ => exact absurd hw id

theorem AtomicUpdate.isTerminal {u : JobUpdate} {dir dir' : JobDir} {p p' : UpdateProgress}
    {ev : UpdateEvent} (h : AtomicUpdate u dir p ev dir' p')
    (hterminal : dir.job.isTerminal = true) : dir'.job.isTerminal = true := by
  cases h with
  | applied happly => exact JobDir.isTerminal_updateJob happly hterminal
  | conflict => exact hterminal

section

variable [DecidableEq ι] {s s' s'' : System ι} {a : Action ι} {t t' : List (Action ι)}

theorem Step.isTerminal (h : Step AtomicUpdate s a s') (hterminal : s.dir.job.isTerminal = true) :
    s'.dir.job.isTerminal = true := by
  rcases h.update_cases with ⟨hdir, -, -⟩ | ⟨u, p, ev, p', -, -, hupd, -⟩
  · rw [hdir]
    exact hterminal
  · exact hupd.isTerminal hterminal

/-- The late request itself. -/
theorem LateCancel.doomed (hlate : LateCancel s a) (hs : OnTime s)
    (h : Step AtomicUpdate s a s') : s'.worker.Doomed ∧ s'.dir.job.isTerminal = true := by
  obtain ⟨i, e, u, rfl, hcall, hcancelled, hexecuting, hlive⟩ := hlate
  have hdoomed : s.worker.Doomed := by
    have hworker := hs.worker
    cases hw : s.worker with
    | stages rest =>
      rw [hw] at hworker
      intro hnil
      subst hnil
      have hterminal : s.dir.job.isTerminal = true := hworker
      rw [hlive] at hterminal
      exact absurd hterminal (by decide)
    | checking rest => trivial
    | updating caller u p =>
      rw [hw] at hworker hexecuting
      cases caller with
      | stages rest => exact hworker.1
      | fail => exact hworker.1
      | _ => exact absurd hexecuting (by simp [Worker.executing])
    | _ =>
      rw [hw] at hexecuting
      exact absurd hexecuting (by simp [Worker.executing])
  cases h with
  | @cancel _ _ dir' call' h =>
    refine ⟨hdoomed, ?_⟩
    show dir'.job.isTerminal = true
    rcases h.update_cases with ⟨-, hquiet, -⟩ | ⟨u', p, ev, p', hcall', -, hupd, -⟩
    · exact absurd rfl (hquiet e)
    · obtain ⟨rfl, rfl⟩ : u = u' ∧ _ = p := by simpa [hcall] using hcall'
      obtain ⟨-, ⟨-, -, rfl⟩ | ⟨hguard, -, -⟩⟩ := hupd.cases_called
      · rw [JobUpdate.isTerminal_patch, JobUpdate.endsRun, hcancelled]
        rfl
      · rw [JobUpdate.refuses_eq_true_iff, hlive] at hguard
        exact absurd hguard.2 (by decide)

/-- **After a late request the worker never returns**: whatever its body still does, the record is
terminal, and each way out of the body sets a status. -/
theorem late_cancel_never_returns (h : Run OnTimeStep enqueued t s) (hlate : LateCancel s a)
    (hstep : Step AtomicUpdate s a s') (h' : Run (Step AtomicUpdate) s' t' s'') :
    s''.worker ≠ .returned := by
  have hontime : OnTime s := Run.onTime h onTime_enqueued
  obtain ⟨hworker, hterminal⟩ := hlate.doomed hontime hstep
  have hall : s''.OnScript ∧ s''.worker.Doomed ∧ s''.dir.job.isTerminal = true := by
    refine h'.invariant
      (I := fun s => s.OnScript ∧ s.worker.Doomed ∧ s.dir.job.isTerminal = true) ?_
      ⟨hstep.onScript hontime.onScript, hworker, hterminal⟩
    rintro v b w ⟨hscript, hdoomed, hterm⟩ hvw
    refine ⟨hvw.onScript hscript, ?_, hvw.isTerminal hterm⟩
    cases hvw with
    | worker hmove => exact hmove.doomed hscript.worker hdoomed hterm
    | cancel => exact hdoomed
  intro hreturned
  have hdoomed := hall.2.1
  rw [hreturned] at hdoomed
  exact hdoomed

end

/-- Where the worker ends. -/
def lateState : System Unit where
  dir :=
    { job := { status := .cancelled, stage := .intake, cancelRequested := true }
      cancelFlag := true }
  worker := .escaped .alreadyTerminal
  cancels := fun _ => .returned

/-- A request reads QUEUED, the worker claims and starts the run, the request sets CANCELLED. -/
def lateTrace : List (Action Unit) :=
  [⟨.cancel (), .getJob⟩,
   ⟨.worker, .listJobs⟩, ⟨.worker, .update (.write claimedDir.job)⟩,
   ⟨.worker, .getJob⟩,
   ⟨.cancel (), .update (.write lateState.dir.job)⟩,
   ⟨.worker, .getJob⟩, ⟨.worker, .callUpdate⟩,
   ⟨.worker, .update .conflict⟩, ⟨.worker, .update .conflict⟩]

/-- The conflict of the handler itself goes up into the worker loop. -/
theorem conflict_escapes :
    Run (Step AtomicUpdate) enqueued lateTrace lateState ∧
      lateState.worker = .escaped .alreadyTerminal := by
  refine ⟨?_, rfl⟩
  refine .cons (.cancel (.load rfl)) ?_
  refine .cons (.worker (.select rfl)) ?_
  refine .cons (.worker (.update (@AtomicUpdate.applied _ _ claimedDir rfl))) ?_
  refine .cons (.worker (.start rfl)) ?_
  refine .cons (.cancel (.update (@AtomicUpdate.applied _ _ lateState.dir rfl))) ?_
  refine .cons (.worker (.recordCancelled rfl)) ?_
  refine .cons (.worker .callUpdate) ?_
  refine .cons (.worker (.update (AtomicUpdate.conflict rfl))) ?_
  exact .single (.worker (.update (AtomicUpdate.conflict rfl)))

end Jobs
end SecureMail
